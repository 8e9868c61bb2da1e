import PinnedManifest.Template.Rendering

/-!
# Proofs/Template/Writing — what elements add to a text

`Element.Writes` and `Body.Writes` say that an element or a body, whatever was written before it,
succeeds and adds a given text.  Outside partials, where nothing is indented, text adds itself, a value tag the
value that its path leads to, and an iteration what its body adds for each member.
-/

namespace PinnedManifest.Template

open Json (Value)

variable {expand : Expand} {s : Setting}

/-- An element adds a text to any other. -/
def Element.Writes (expand : Expand) (s : Setting) (e : Element) (out : String) : Prop :=
  ∀ ink, ∃ ink', e.render expand s ink = .ok ink' ∧ ink'.text = ink.text ++ out

/-- A body adds a text to any other. -/
def Body.Writes (expand : Expand) (s : Setting) (body : Body) (out : String) : Prop :=
  ∀ ink, ∃ ink', renderBody expand s ink body = .ok ink' ∧ ink'.text = ink.text ++ out

/-! ## Bodies -/

theorem Body.Writes.nil : Body.Writes expand s [] "" :=
  fun ink => ⟨ink, by rw [renderBody], (String.append_empty).symm⟩

/-- **A body adds what its elements add**, in their order. -/
theorem Body.Writes.cons {e : Element} {body : Body} {out rest : String} (he : e.Writes expand s out)
    (hbody : Body.Writes expand s body rest) : Body.Writes expand s (e :: body) (out ++ rest) := by
  intro ink
  obtain ⟨ink₁, hrender₁, htext₁⟩ := he ink
  obtain ⟨ink₂, hrender₂, htext₂⟩ := hbody ink₁
  refine ⟨ink₂, ?_, ?_⟩
  · rw [renderBody, hrender₁]
    exact hrender₂
  · rw [htext₂, htext₁, String.append_assoc]

/-- What surrounds the elements of a whole template. -/
def Setting.start (name : String) (body : Body) (data : Value) : Setting :=
  ⟨.ofRoot data, "", none, (name, body)⟩

/-- **A whole template** has the text that its body leaves. -/
theorem render_of_renderBody {name : String} {body : Body} {data : Value} {ink : Ink}
    (h : renderBody (expandNested 999) (.start name body data)
      { Ink.blank with current := some name } body = .ok ink) :
    render name body data = .ok ink.text := by
  have hexpand : expandNested greatestNesting body (some name) (.start name body data) .blank
      = .ok ink := h
  rw [Setting.start] at hexpand
  rw [render, hexpand, Except.map]

/-- The text that a body adds to none is that of the template. -/
theorem render_of_writes {name out : String} {body : Body} {data : Value}
    (h : ∀ expand, Body.Writes expand (.start name body data) body out) :
    render name body data = .ok out := by
  obtain ⟨ink, hrender, htext⟩ := h (expandNested 999) { Ink.blank with current := some name }
  rw [render_of_renderBody hrender, htext]
  rfl

/-! ## Elements -/

/-- Without an indent a text is added as it is. -/
theorem Ink.text_write (ink : Ink) (text : String) :
    (ink.write "" text).text = ink.text ++ text := by
  rw [Ink.write]
  split
  · next hempty =>
    rw [String.isEmpty_iff.mp hempty, String.append_empty]
  · simp [indented]

theorem Element.Writes.text (hs : s.indent = "") (content : String) :
    (Element.text content).Writes expand s content := by
  intro ink
  refine ⟨ink.write s.indent content, by rw [Element.render], ?_⟩
  rw [hs, Ink.text_write]

/-- **A value tag adds the value that its path leads to**, nothing for a missing one. -/
theorem Element.Writes.value {p : Path} {v : Option Value} (hs : s.indent = "")
    (hname : Helper.ofName? p.source = none) (hfind : s.scope.find p = .ok v) (place : Position) :
    (Element.value place (.path p)).Writes expand s (shown (v.getD .null)) := by
  intro ink
  refine ⟨s.write ink (v.getD .null), ?_, ?_⟩
  · rw [Element.render, Shown.write, hname, hfind]
    rfl
  · rw [Setting.write, hs, Ink.text_write]

/-! ## Iterations -/

/-- No name stands for a value of its own. -/
def Scope.Unaliased (s : Scope) : Prop := ∀ f ∈ s.frames, f.aliases = []

theorem Scope.Unaliased.ofRoot (root : Value) : (Scope.ofRoot root).Unaliased := by
  intro f hf
  cases List.mem_singleton.mp hf
  rfl

theorem Scope.Unaliased.push {s : Scope} {f : Frame} (hs : s.Unaliased) (hf : f.aliases = []) :
    (s.push f).Unaliased := by
  intro g hg
  rcases List.mem_cons.mp hg with rfl | hg
  · exact hf
  · exact hs g hg

/-- **A name is looked up among the members in focus.** -/
theorem Scope.Unaliased.find {s : Scope} {members : Json.Members} (hs : s.Unaliased)
    (hfocus : s.inner.focus = .object members) (source name : String) :
    s.find ⟨source, false, false, 0, [name]⟩ = .ok (Json.Members.find? name members) := by
  have halias : s.alias? name = none := by
    refine List.findSome?_eq_none_iff.mpr fun f hf => ?_
    rw [hs f hf]
    rfl
  have hup : s.frameUp 0 = s.inner := rfl
  simp only [Scope.find, List.head?_cons, Option.bind_some, halias, hup, hfocus, walk, enter]
  cases Json.Members.find? name members <;> rfl

/-- **A body once for each member** adds what it adds for each, one after the other. -/
theorem foldlM_memberFrames {α : Type} {body : Body} {json : α → Value} {out : α → String}
    (count : Nat)
    (hbody : ∀ f a, f.aliases = [] → f.focus = json a → Body.Writes expand (s.push f) body (out a)) :
    ∀ (entries : List (String × α)) (i : Nat) (ink : Ink), ∃ ink',
      (memberFrames [] count i (entries.map fun entry => (entry.1, json entry.2))).foldlM
        (fun ink f => renderBody expand (s.push f) { ink with current := none } body) ink
        = .ok ink' ∧
      ink'.text = ink.text ++ String.join (entries.map fun entry => out entry.2)
  | [], _, ink => ⟨ink, rfl, by simp⟩
  | (key, a) :: entries, i, ink => by
      obtain ⟨ink₁, hrender, htext⟩ := hbody (itemFrame [] (json a) (.string key)
        (itemVariables i count ++ [("key", .string key)])) a rfl rfl { ink with current := none }
      obtain ⟨ink₂, hrest, htext'⟩ := foldlM_memberFrames count hbody entries (i + 1) ink₁
      refine ⟨ink₂, ?_, ?_⟩
      · rw [List.map_cons, memberFrames, List.foldlM_cons, hrender]
        exact hrest
      · rw [htext', htext, List.map_cons, String.join_cons, String.append_assoc]

/-- The frames of an iteration over what a path leads to. -/
theorem Call.choose_each {scope : Scope} {p : Path} {v : Value} (hfind : scope.find p = .ok (some v)) :
    (⟨"each", [.positional (.path p)]⟩ : Call).choose scope [] false
      = .ok (.body (frames [] v)) := by
  have harguments : (⟨"each", [.positional (.path p)]⟩ : Call).arguments scope = .ok ⟨[v], []⟩ := by
    simp only [Call.arguments, evaluateParams, evaluateHash, Expr.evaluate, hfind]
    rfl
  rw [Call.choose, harguments]
  simp only [Helper.ofName?, Helper.choose, Bool.and_false]
  rfl

/-- What is around a block keeps the text that the block leaves. -/
theorem Ink.text_leave (before after : Ink) : (before.leave after).text = after.text := by
  rw [Ink.leave]
  split <;> rfl

/-- **An iteration over members** adds what its body adds for each of them. -/
theorem Element.Writes.each {α : Type} {p : Path} {body : Body} (json : α → Value)
    (out : α → String) {entries : List (String × α)}
    (hfind : s.scope.find p = .ok (some (.object (entries.map fun entry => (entry.1, json entry.2)))))
    (hbody : ∀ f a, f.aliases = [] → f.focus = json a → Body.Writes expand (s.push f) body (out a))
    (place : Option Position) (opensLine : Bool) :
    (Element.block place opensLine ⟨"each", [.positional (.path p)]⟩ [] body none).Writes expand s
      (String.join (entries.map fun entry => out entry.2)) := by
  intro ink
  obtain ⟨after, hafter, htext⟩ := foldlM_memberFrames
    (entries.map fun entry => (entry.1, json entry.2)).length hbody entries 0
    (ink.enter (ink.indentNext || (opensLine && ink.atLineStart)))
  refine ⟨ink.leave { after with partials := ink.partials }, ?_, ?_⟩
  · rw [Element.render]
    simp only [Option.isSome_none, Call.choose_each hfind, frames, hafter]
    rfl
  · rw [Ink.text_leave]
    exact htext

end PinnedManifest.Template
