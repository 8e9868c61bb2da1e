import PinnedManifest.Template.Rendering

/-!
# Proofs/Template/Arrayless — paths among values without arrays

Looking up a path goes wrong in one way only: an array is entered by a name that is no index.  Where
there is no array, every path leads to a value without arrays or to nothing (`Scope.Arrayless.find`), and
the frames that a block opens over such a value hold no array either (`arrayless_frames`).
-/

namespace PinnedManifest

open Template

/-- A value with no array in it. -/
inductive Json.Value.Arrayless : Json.Value → Prop
  | null : Arrayless .null
  | bool (b : Bool) : Arrayless (.bool b)
  | number (n : Json.Number) : Arrayless (.number n)
  | string (s : String) : Arrayless (.string s)
  | object {members : Json.Members} : (∀ m ∈ members, Arrayless m.2) → Arrayless (.object members)

/-- What is found under a name is the value of a member. -/
theorem Json.Members.exists_mem_of_find? {name : String} {v : Json.Value} :
    ∀ {members : Json.Members}, Json.Members.find? name members = some v → ∃ m ∈ members, m.2 = v
  | (key, w) :: rest, h => by
      rw [Json.Members.find?] at h
      split at h
      · cases h
        exact ⟨_, List.mem_cons_self, rfl⟩
      · obtain ⟨m, hm, hv⟩ := Json.Members.exists_mem_of_find? h
        exact ⟨m, List.mem_cons_of_mem _ hm, hv⟩

namespace Template

open Json (Value)

/-- Values with names, none of which has an array in it. -/
def AllArrayless (values : List (String × Value)) : Prop := ∀ entry ∈ values, entry.2.Arrayless

/-- Nothing that a frame holds has an array in it. -/
structure Frame.Arrayless (f : Frame) : Prop where
  focus : f.focus.Arrayless
  aliases : AllArrayless f.aliases
  locals : AllArrayless f.locals

/-- Nothing that a scope holds has an array in it. -/
structure Scope.Arrayless (s : Scope) : Prop where
  root : s.root.Arrayless
  frames : ∀ f ∈ s.frames, f.Arrayless

/-! ## Scopes -/

theorem Frame.Arrayless.plain {v : Value} (h : v.Arrayless) : (Frame.plain v).Arrayless :=
  ⟨h, fun _ hmem => absurd hmem List.not_mem_nil, fun _ hmem => absurd hmem List.not_mem_nil⟩

theorem Scope.Arrayless.ofRoot {root : Value} (h : root.Arrayless) : (Scope.ofRoot root).Arrayless := by
  refine ⟨h, fun f hf => ?_⟩
  cases List.mem_singleton.mp hf
  exact .plain h

theorem Scope.Arrayless.push {s : Scope} {f : Frame} (hs : s.Arrayless) (hf : f.Arrayless) :
    (s.push f).Arrayless := by
  refine ⟨hs.root, fun g hg => ?_⟩
  rcases List.mem_cons.mp hg with rfl | hg
  · exact hf
  · exact hs.frames g hg

/-- What a name is given to is one of the values. -/
theorem AllArrayless.named? {values : List (String × Value)} (h : AllArrayless values) {name : String}
    {v : Value} (hv : named? name values = some v) : v.Arrayless := by
  rw [Template.named?, Option.map_eq_some_iff] at hv
  obtain ⟨entry, hfind, rfl⟩ := hv
  exact h entry (List.mem_of_find?_eq_some hfind)

section Scope

variable {s : Scope} (h : s.Arrayless)

include h

theorem Scope.Arrayless.alias? {name : String} {v : Value} (hv : s.alias? name = some v) :
    v.Arrayless := by
  obtain ⟨f, hf, hnamed⟩ := List.exists_of_findSome?_eq_some hv
  exact (h.frames f hf).aliases.named? hnamed

theorem Scope.Arrayless.local? {levels : Nat} {name : String} {v : Value}
    (hv : s.local? levels name = some v) : v.Arrayless := by
  obtain ⟨f, hf, hnamed⟩ := Option.bind_eq_some_iff.mp hv
  exact (h.frames f (List.mem_of_getElem? hf)).locals.named? hnamed

theorem Scope.Arrayless.inner : s.inner.Arrayless := h.frames _ List.mem_cons_self

theorem Scope.Arrayless.frameUp (levels : Nat) : (s.frameUp levels).Arrayless := by
  rw [Scope.frameUp]
  cases hf : s.frames[levels]? with
  | none => exact h.inner
  | some f => exact h.frames f (List.mem_of_getElem? hf)

end Scope

/-! ## Paths -/

/-- What a look-up gives: a value without arrays, or nothing, but no failure. -/
def FindsArrayless (result : Except Reason (Option Value)) : Prop :=
  ∃ found, result = .ok found ∧ ∀ v ∈ found, v.Arrayless

theorem FindsArrayless.of_all {found : Option Value} (h : ∀ v, found = some v → v.Arrayless) :
    FindsArrayless (.ok found) := ⟨found, rfl, fun v hv => h v hv⟩

/-- **One step** into a value without arrays goes well, and stays among such values. -/
theorem findsArrayless_enter {v : Value} (h : v.Arrayless) (name : String) :
    FindsArrayless (enter v name) := by
  cases h with
  | object hmembers =>
    refine .of_all fun w hw => ?_
    obtain ⟨m, hm, rfl⟩ := Json.Members.exists_mem_of_find? hw
    exact hmembers m hm
  | _ => exact .of_all fun _ hv => by cases hv

/-- **Steps** into a value without arrays go well, one after the other. -/
theorem findsArrayless_walk : ∀ {v : Value}, v.Arrayless → ∀ names : List String,
    FindsArrayless (walk v names)
  | v, h, [] => by
      refine .of_all fun w hw => ?_
      cases hw
      exact h
  | v, h, name :: rest => by
      obtain ⟨found, hfound, hall⟩ := findsArrayless_enter h name
      rw [Template.walk, hfound]
      cases found with
      | none => exact .of_all fun _ hv => by cases hv
      | some w => exact findsArrayless_walk (hall w rfl) rest

/-- **Every path** of a scope without arrays leads to a value without arrays, or to nothing. -/
theorem Scope.Arrayless.find {s : Scope} (h : s.Arrayless) (p : Path) : FindsArrayless (s.find p) := by
  rw [Scope.find]
  split
  · exact findsArrayless_walk h.root p.names
  split
  · exact .of_all fun _ hv => h.local? hv
  · refine .of_all fun v hv => ?_
    cases hv
    exact h.inner.focus
  · split
    next v halias =>
      obtain ⟨name, -, hname⟩ := Option.bind_eq_some_iff.mp halias
      exact findsArrayless_walk (h.alias? hname) _
    next => exact findsArrayless_walk (h.frameUp _).focus p.names

/-- An array is what a look-up fails at. -/
example : walk (.object [("items", .array [])]) ["items", "first"]
    = .error (.indexNotNumeric "first") := rfl

/-! ## Frames of blocks -/

/-- The frame of an iteration names nothing but the value and its key. -/
theorem Frame.Arrayless.itemFrame {v key : Value} {locals : List (String × Value)} (hv : v.Arrayless)
    (hkey : key.Arrayless) (hlocals : AllArrayless locals) (aliases : List String) :
    (itemFrame aliases v key locals).Arrayless := by
  refine ⟨hv, fun entry hentry => ?_, hlocals⟩
  rcases List.mem_append.mp hentry with hmem | hmem
  · obtain ⟨_, -, rfl⟩ := List.mem_map.mp hmem
    exact hkey
  · obtain ⟨_, -, rfl⟩ := List.mem_map.mp hmem
    exact hv

theorem allArrayless_itemVariables (index count : Nat) : AllArrayless (itemVariables index count) := by
  intro entry hentry
  simp only [itemVariables, List.mem_cons, List.not_mem_nil, or_false] at hentry
  rcases hentry with rfl | rfl | rfl
  · exact .bool _
  · exact .bool _
  · exact .number _

theorem arrayless_memberFrames (aliases : List String) (count : Nat) :
    ∀ (i : Nat) {members : Json.Members}, AllArrayless members →
      ∀ f ∈ memberFrames aliases count i members, f.Arrayless
  | _, [], _, _, hf => absurd hf List.not_mem_nil
  | i, (key, v) :: rest, h, f, hf => by
      rw [memberFrames] at hf
      rcases List.mem_cons.mp hf with rfl | hf
      · refine .itemFrame (h _ List.mem_cons_self) (.string key) (fun entry hentry => ?_) aliases
        rcases List.mem_append.mp hentry with hmem | hmem
        · exact allArrayless_itemVariables i count entry hmem
        · cases List.mem_singleton.mp hmem
          exact .string key
      · exact arrayless_memberFrames aliases count (i + 1)
          (fun m hm => h m (List.mem_cons_of_mem _ hm)) f hf

/-- **The frames of an iteration** over a value without arrays have none either. -/
theorem arrayless_frames {v : Value} (h : v.Arrayless) (aliases : List String) :
    ∀ f ∈ frames aliases v, f.Arrayless := by
  intro f hf
  cases h with
  | object hmembers => exact arrayless_memberFrames aliases _ 0 hmembers f hf
  | _ => exact absurd hf List.not_mem_nil

theorem Frame.Arrayless.focusFrame {around : Frame} {v : Value} (haround : around.Arrayless)
    (hv : v.Arrayless) (aliases : List String) : (focusFrame aliases around v).Arrayless := by
  refine ⟨hv, fun entry hentry => ?_, haround.locals⟩
  simp only [Template.focusFrame] at hentry
  split at hentry
  · cases List.mem_singleton.mp hentry
    exact hv
  · exact absurd hentry List.not_mem_nil

end Template

end PinnedManifest
