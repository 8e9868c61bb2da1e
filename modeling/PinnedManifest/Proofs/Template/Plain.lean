import PinnedManifest.Proofs.Template.Arrayless
import PinnedManifest.Proofs.Template.Writing

/-!
# Proofs/Template/Plain — templates of paths and blocks on paths

A plain source has text, tags that show a path, and blocks of `if`, `unless`, `each` and `with` on one
path.  Two steps make its template safe: tags that are plain nest into elements that are plain
(`plain_of_ofSource`), and over a value without arrays a plain element has no way to fail
(`Element.Plain.renders`), since its blocks only open frames without arrays in their turn.
-/

namespace PinnedManifest.Template

open Json (Value)

/-! ## Plain tags -/

/-- The helpers that choose between the bodies of a block by one value. -/
def Helper.isPlain : Helper → Bool
  | .ifTrue | .unless | .each | .withValue => true
  | _ => false

/-- A call of such a helper on one path. -/
def Call.isPlain (c : Call) : Bool :=
  match c.args with
  | [.positional (.path _)] => (Helper.ofName? c.helper).any Helper.isPlain
  | _ => false

/-- What a plain tag does: it shows a path that is no helper's name, opens a plain block or another
case of one, ends a block, or says nothing. -/
def Form.isPlain : Form → Bool
  | .value (.path p) => (Helper.ofName? p.source).isNone
  | .open call _ | .chain call _ => call.isPlain
  | .otherwise | .close .. | .comment => true
  | _ => false

/-- **A plain source** — it divides into text and tags, and the tags are plain. -/
def isPlainSource (source : String) : Bool :=
  (scan source.toList).any fun divided => divided.1.all (·.tag.tag.form.isPlain)

theorem Call.exists_of_isPlain {c : Call} (h : c.isPlain = true) :
    ∃ p helper, c.args = [.positional (.path p)] ∧ Helper.ofName? c.helper = some helper ∧
      helper.isPlain = true := by
  rw [Call.isPlain] at h
  split at h
  next p hargs =>
    obtain ⟨helper, hname, hhelper⟩ := (Option.any_eq_true _ _).mp h
    exact ⟨p, helper, hargs, hname, hhelper⟩
  next => cases h

/-! ## Plain elements -/

/-- **A plain element**: text, the value of a path, or a plain block of plain elements. -/
inductive Element.Plain : Element → Prop
  | text (content : String) : Plain (.text content)
  | value (place : Position) {p : Path} :
      Helper.ofName? p.source = none → Plain (.value place (.path p))
  | block (place : Option Position) (opensLine : Bool) {call : Call} (aliases : List String)
      {body : Body} {inverse : Option Body} :
      call.isPlain = true → (∀ e ∈ body, Plain e) → (∀ other ∈ inverse, ∀ e ∈ other, Plain e) →
      Plain (.block place opensLine call aliases body inverse)

/-- A body of plain elements. -/
def Body.Plain (body : Body) : Prop := ∀ e ∈ body, e.Plain

/-- A plain case of a block, with its body. -/
def PlainCase (c : Case × Body) : Prop := c.1.call.isPlain = true ∧ Body.Plain c.2

theorem Body.Plain.nil : Body.Plain [] := fun _ h => absurd h List.not_mem_nil

theorem Body.Plain.cons {e : Element} {body : Body} (he : e.Plain) (hbody : Body.Plain body) :
    Body.Plain (e :: body) := List.forall_mem_cons.mpr ⟨he, hbody⟩

theorem Body.Plain.append {body body' : Body} (h : Body.Plain body) (h' : Body.Plain body') :
    Body.Plain (body ++ body') := List.forall_mem_append.mpr ⟨h, h'⟩

/-- **An else chain** of plain cases is plain. -/
theorem plain_chain {last : Option Body} (hlast : ∀ body ∈ last, Body.Plain body) :
    ∀ {cases : List (Case × Body)}, (∀ c ∈ cases, PlainCase c) →
      ∀ body ∈ chain last cases, Body.Plain body
  | [], _, body, hbody => hlast body hbody
  | (c, inside) :: rest, hcases, body, hbody => by
      obtain ⟨⟨hcall, hinside⟩, hrest⟩ := List.forall_mem_cons.mp hcases
      cases hbody
      exact .cons (.block none c.opensLine c.aliases hcall hinside (plain_chain hlast hrest)) .nil

/-- **A block** of plain cases is plain. -/
theorem plain_helperBlock {last : Option Body} (hlast : ∀ body ∈ last, Body.Plain body)
    (place : Position) :
    ∀ {cases : List (Case × Body)}, (∀ c ∈ cases, PlainCase c) →
      Body.Plain (helperBlock place last cases)
  | [], _ => .nil
  | (c, _) :: _, hcases => by
      obtain ⟨⟨hcall, hinside⟩, hrest⟩ := List.forall_mem_cons.mp hcases
      exact .cons (.block (some place) c.opensLine c.aliases hcall hinside (plain_chain hlast hrest))
        .nil

/-! ## From plain tags to plain elements -/

/-- A block that is still open has plain cases. -/
inductive OpenBlock.Plain : OpenBlock → Prop
  | helper (place : Position) (first : Case) {done : List (Case × Body)} {current : Option Case} :
      (∀ c ∈ done, PlainCase c) → (∀ c ∈ current, c.call.isPlain = true) →
      Plain (.helper place first done current)

/-- Everything in a nest is plain: the blocks that are open and the elements already there. -/
structure Nest.Plain (n : Nest) : Prop where
  blocks : ∀ b ∈ n.blocks, b.1.Plain ∧ Body.Plain b.2
  here : Body.Plain n.here

namespace Nest.Plain

variable {n n' : Nest}

theorem body (h : n.Plain) : Body.Plain n.body := fun e he => h.here e (List.mem_reverse.mp he)

theorem add (h : n.Plain) {e : Element} (he : e.Plain) : (n.add e).Plain := ⟨h.blocks, .cons he h.here⟩

theorem inspect (h : n.Plain) (form : Form) : (n.inspect form).Plain := ⟨h.blocks, h.here⟩

/-- The innermost block of a plain nest has cases, and what stands in front of it is plain. -/
theorem innermost (h : n.Plain) {b : OpenBlock} {before : List Element}
    {rest : List (OpenBlock × List Element)} (hblocks : n.blocks = (b, before) :: rest) :
    b.Plain ∧ Body.Plain before ∧ ∀ b ∈ rest, b.1.Plain ∧ Body.Plain b.2 := by
  have hall := h.blocks
  rw [hblocks] at hall
  obtain ⟨⟨hb, hbefore⟩, hrest⟩ := List.forall_mem_cons.mp hall
  exact ⟨hb, hbefore, hrest⟩

/-- The case that a plain nest is in is complete with the elements there. -/
theorem complete (h : n.Plain) {done : List (Case × Body)} {c : Case}
    (hdone : ∀ c ∈ done, PlainCase c) (hc : c.call.isPlain = true) :
    ∀ d ∈ (c, n.body) :: done, PlainCase d := List.forall_mem_cons.mpr ⟨⟨hc, h.body⟩, hdone⟩

/-- Another case of the innermost block, or the last one, starts plain. -/
theorem next (h : n.Plain) {place : Position} {first c : Case}
    {done : List (Case × Body)} {before : List Element} {rest : List (OpenBlock × List Element)}
    (hblocks : n.blocks = (.helper place first done (some c), before) :: rest) (current : Option Case)
    (hcurrent : ∀ c ∈ current, c.call.isPlain = true) (defect : Option Malformed) :
    Nest.Plain ⟨(.helper place first ((c, n.body) :: done) current, before) :: rest, [], defect⟩ := by
  obtain ⟨hb, hbefore, hrest⟩ := h.innermost hblocks
  cases hb with
  | helper _ _ hdone hc =>
    exact ⟨List.forall_mem_cons.mpr
      ⟨⟨.helper place first (h.complete hdone (hc c rfl)) hcurrent, hbefore⟩, hrest⟩, .nil⟩

/-- The innermost block is closed, in front of what stood before it. -/
theorem close (h : n.Plain) {place : Position} {first : Case} {done : List (Case × Body)}
    {current : Option Case} {before : List Element} {rest : List (OpenBlock × List Element)}
    (hblocks : n.blocks = (.helper place first done current, before) :: rest)
    {cases : List (Case × Body)} (hcases : ∀ c ∈ cases, PlainCase c) {last : Option Body}
    (hlast : ∀ body ∈ last, Body.Plain body) (defect : Option Malformed) :
    Nest.Plain ⟨rest, helperBlock place last cases.reverse ++ before, defect⟩ := by
  obtain ⟨-, hbefore, hrest⟩ := h.innermost hblocks
  exact ⟨hrest, (plain_helperBlock hlast place fun c hc => hcases c (List.mem_reverse.mp hc)).append
    hbefore⟩

/-- **One plain tag** more. -/
theorem place (h : n.Plain) {t : PlacedTag} (ht : t.tag.form.isPlain = true)
    (hplace : n.place t = some n') : n'.Plain := by
  rw [Nest.place] at hplace
  cases hform : t.tag.form with
  | value shown =>
    rw [hform] at ht hplace
    cases hplace
    cases shown with
    | path p => exact h.add (.value t.place (Option.isNone_iff_eq_none.mp ht))
    | computed e => cases ht
    | call c => cases ht
  | comment =>
    rw [hform] at hplace
    cases hplace
    exact h
  | «open» call aliases =>
    rw [hform] at ht hplace
    cases hplace
    refine ⟨List.forall_mem_cons.mpr ⟨⟨.helper t.place _ (by simp) fun c hc => ?_, h.here⟩, h.blocks⟩,
      .nil⟩
    cases hc
    exact ht
  | chain call aliases =>
    rw [hform] at ht hplace
    simp only at hplace
    split at hplace
    next place first done c before rest hblocks =>
      cases hplace
      exact h.next hblocks _ (fun c hc => by cases hc; exact ht) _
    next => cases hplace
  | otherwise =>
    rw [hform] at hplace
    simp only at hplace
    split at hplace
    next place first done c before rest hblocks =>
      cases hplace
      exact h.next hblocks none (fun c hc => by cases hc) _
    next => cases hplace
  | close block partialName =>
    rw [hform] at hplace
    simp only at hplace
    split at hplace
    next place first done current before rest name hblocks =>
      cases hplace
      obtain ⟨hb, -, -⟩ := h.innermost hblocks
      cases hb with
      | helper _ _ hdone hcurrent =>
        cases current with
        | some c =>
          exact h.close hblocks (h.complete hdone (hcurrent c rfl)) (fun b hb => by cases hb) _
        | none => exact h.close hblocks hdone (fun b hb => by cases hb; exact h.body) _
    -- decorators and partials are not open in a plain nest
    next hblocks =>
      obtain ⟨hb, -, -⟩ := h.innermost hblocks
      cases hb
    next hblocks =>
      obtain ⟨hb, -, -⟩ := h.innermost hblocks
      cases hb
    next => cases hplace
  | openRaw | closeRaw | decorate | openDecorated | insert | openInsert =>
    rw [hform] at ht
    cases ht

/-- One piece more, its tag plain if it has one. -/
theorem take (h : n.Plain) {p : Piece} (hp : ∀ t, p = .tag t → t.tag.form.isPlain = true)
    (htake : n.take p = some n') : n'.Plain := by
  cases p with
  | text content =>
    cases htake
    exact h.add (.text content)
  | tag t => exact (h.inspect t.tag.form).place (hp t rfl) htake

/-- **A row of pieces** with plain tags keeps everything plain. -/
theorem takeAll : ∀ {pieces : List Piece} {n : Nest}, n.Plain →
    (∀ t, .tag t ∈ pieces → t.tag.form.isPlain = true) → n.takeAll pieces = some n' → n'.Plain
  | [], _, h, _, htake => by
      cases htake
      exact h
  | p :: rest, n, h, hpieces, htake => by
      rw [Nest.takeAll] at htake
      obtain ⟨n₁, hfirst, hrest⟩ := Option.bind_eq_some_iff.mp htake
      have hn₁ : n₁.Plain :=
        h.take (fun t ht => hpieces t (ht ▸ List.mem_cons_self)) hfirst
      exact hn₁.takeAll (fun t ht => hpieces t (List.mem_cons_of_mem p ht)) hrest

end Nest.Plain

/-- The tags of the pieces are those of the segments. -/
theorem exists_segment_of_mem_arrangeFrom {t : PlacedTag} {last : List Char} :
    ∀ {p : Pending} {segments : List Segment}, .tag t ∈ arrangeFrom p segments last →
      ∃ segment ∈ segments, segment.tag = t
  | p, [], h => by
      rw [arrangeFrom] at h
      split at h <;> simp at h
  | p, ⟨text, tag⟩ :: rest, h => by
      have htail {p : Pending} (h : .tag t ∈ .tag tag :: arrangeFrom p rest last) :
          ∃ segment ∈ (⟨text, tag⟩ :: rest : List Segment), segment.tag = t := by
        rcases List.mem_cons.mp h with htag | h
        · cases htag
          exact ⟨_, List.mem_cons_self, rfl⟩
        · obtain ⟨segment, hmem, htag⟩ := exists_segment_of_mem_arrangeFrom h
          exact ⟨segment, List.mem_cons_of_mem _ hmem, htag⟩
      rw [arrangeFrom] at h
      split at h
      · rcases List.mem_cons.mp h with htext | h
        · cases htext
        · exact htail h
      · exact htail h

/-- **The template of a plain source is plain.** -/
theorem plain_of_ofSource {source : String} {body : Body} (hplain : isPlainSource source = true)
    (h : ofSource source = .ok body) : Body.Plain body := by
  obtain ⟨⟨segments, last⟩, hscan, htags⟩ := (Option.any_eq_true _ _).mp hplain
  rw [ofSource, hscan] at h
  simp only [nest] at h
  split at h
  next n htake =>
    have hn : n.Plain := by
      refine Nest.Plain.takeAll ⟨fun _ hb => absurd hb List.not_mem_nil, .nil⟩ (fun t ht => ?_) htake
      obtain ⟨segment, hmem, rfl⟩ := exists_segment_of_mem_arrangeFrom ht
      exact List.all_eq_true.mp htags segment hmem
    split at h
    · split at h
      · cases h
      · cases h
        exact hn.body
    · cases h
  next => cases h

/-! ## Rendering plain elements -/

variable {expand : Expand}

/-- An element that renders after any text, wherever no array can be reached. -/
def Element.Renders (expand : Expand) (e : Element) : Prop :=
  ∀ s : Setting, s.scope.Arrayless → ∀ ink, ∃ ink', e.render expand s ink = .ok ink'

/-- The same for a body. -/
def Body.Renders (expand : Expand) (body : Body) : Prop :=
  ∀ s : Setting, s.scope.Arrayless → ∀ ink, ∃ ink', renderBody expand s ink body = .ok ink'

/-- **A body renders** when its elements do. -/
theorem Body.Renders.of_forall : ∀ {body : Body}, (∀ e ∈ body, e.Renders expand) →
    Body.Renders expand body
  | [], _ => fun _ _ ink => ⟨ink, by rw [renderBody]⟩
  | e :: rest, h => fun s hs ink => by
      obtain ⟨he, hrest⟩ := List.forall_mem_cons.mp h
      obtain ⟨ink₁, hrender⟩ := he s hs ink
      obtain ⟨ink₂, hrender'⟩ := Body.Renders.of_forall hrest s hs ink₁
      refine ⟨ink₂, ?_⟩
      rw [renderBody, hrender]
      exact hrender'

/-- A body renders in one frame after the other. -/
theorem Body.Renders.foldlM {body : Body} (h : Body.Renders expand body) {s : Setting}
    (hs : s.scope.Arrayless) : ∀ {frames : List Frame}, (∀ f ∈ frames, f.Arrayless) → ∀ ink, ∃ ink',
      frames.foldlM
        (fun ink f => renderBody expand (s.push f) { ink with current := none } body) ink = .ok ink'
  | [], _, ink => ⟨ink, rfl⟩
  | f :: rest, hframes, ink => by
      obtain ⟨hf, hrest⟩ := List.forall_mem_cons.mp hframes
      obtain ⟨ink₁, hrender⟩ := h (s.push f) (hs.push hf) { ink with current := none }
      obtain ⟨ink₂, hrender'⟩ := h.foldlM hs hrest ink₁
      refine ⟨ink₂, ?_⟩
      rw [List.foldlM_cons, hrender]
      exact hrender'

/-- What a plain helper may choose: its body in frames without arrays or in none, or its inverse. -/
inductive Choice.Plain : Choice → Prop
  | body {frames : List Frame} : (∀ f ∈ frames, f.Arrayless) → Plain (.body frames)
  | plain : Plain .plain
  | inverse : Plain .inverse

/-- A plain helper chooses by its one value. -/
theorem Helper.choose_plain {helper : Helper} (h : helper.isPlain = true) {v : Value}
    (hv : v.Arrayless) {around : Frame} (haround : around.Arrayless) (aliases : List String)
    (hasInverse : Bool) :
    ∃ choice, helper.choose ⟨[v], []⟩ around aliases hasInverse = .ok choice ∧ choice.Plain := by
  have hbranch (b : Bool) : ∃ choice, (Except.ok (if b then Choice.plain else .inverse) :
      Except Reason Choice) = .ok choice ∧ choice.Plain := by
    cases b
    · exact ⟨_, rfl, .inverse⟩
    · exact ⟨_, rfl, .plain⟩
  cases helper with
  | ifTrue => exact hbranch (truthy false v)
  | «unless» => exact hbranch (!truthy false v)
  | each =>
    refine ⟨_, rfl, ?_⟩
    split
    · exact .inverse
    · exact .body (arrayless_frames hv aliases)
  | withValue =>
    refine ⟨_, rfl, ?_⟩
    split
    · refine .body fun f hf => ?_
      cases List.mem_singleton.mp hf
      exact haround.focusFrame hv aliases
    · exact .inverse
  | _ => cases h

/-- **A plain call** over a scope without arrays makes a choice. -/
theorem Call.choose_plain {c : Call} (h : c.isPlain = true) {s : Scope} (hs : s.Arrayless)
    (aliases : List String) (hasInverse : Bool) :
    ∃ choice, c.choose s aliases hasInverse = .ok choice ∧ choice.Plain := by
  obtain ⟨p, helper, hargs, hname, hhelper⟩ := Call.exists_of_isPlain h
  obtain ⟨found, hfound, hall⟩ := hs.find p
  have harguments : c.arguments s = .ok ⟨[found.getD .null], []⟩ := by
    simp only [Call.arguments, hargs, evaluateParams, evaluateHash, Expr.evaluate, hfound]
    rfl
  have hv : (found.getD .null).Arrayless := by
    cases found with
    | none => exact .null
    | some v => exact hall v rfl
  rw [Call.choose, harguments, hname]
  exact Helper.choose_plain hhelper hv hs.inner aliases hasInverse
/-- An inverse renders, as nothing where there is none. -/
theorem exists_renderInverse {inverse : Option Body}
    (h : ∀ body ∈ inverse, Body.Renders expand body) {s : Setting} (hs : s.scope.Arrayless)
    (ink : Ink) : ∃ ink', renderInverse expand s ink inverse = .ok ink' := by
  cases inverse with
  | none => exact ⟨ink, by rw [renderInverse]⟩
  | some body =>
    rw [renderInverse]
    exact h body rfl s hs _

/-- **A plain element renders** wherever no array can be reached — by induction on the element; its
block opens only frames over which its body renders again. -/
theorem Element.Plain.renders {e : Element} (h : e.Plain) : e.Renders expand := by
  induction h with
  | text content => exact fun s _ ink => ⟨_, by rw [Element.render]⟩
  | value place hname =>
    intro s hs ink
    obtain ⟨found, hfound, -⟩ := hs.find _
    refine ⟨s.write ink (found.getD .null), ?_⟩
    rw [Element.render, Shown.write, hname, hfound]
    rfl
  | @block place opensLine call aliases body inverse hcall _ _ hbody hinverse =>
    intro s hs ink
    have hbody' : Body.Renders expand body := .of_forall hbody
    obtain ⟨choice, hchoice, hplain⟩ := Call.choose_plain hcall hs aliases inverse.isSome
    rw [Element.render]
    simp only [hchoice]
    generalize ink.enter (ink.indentNext || opensLine && ink.atLineStart) = start
    cases hplain with
    | body hframes =>
      obtain ⟨after, hafter⟩ := hbody'.foldlM hs hframes start
      simp only [hafter]
      exact ⟨_, rfl⟩
    | plain =>
      obtain ⟨after, hafter⟩ := hbody' s hs { start with current := none }
      simp only [hafter]
      exact ⟨_, rfl⟩
    | inverse =>
      obtain ⟨after, hafter⟩ := exists_renderInverse
        (fun other hother => Body.Renders.of_forall (hinverse other hother)) hs start
      simp only [hafter]
      exact ⟨_, rfl⟩

/-- **A plain template renders** over a value without arrays. -/
theorem Body.Plain.exists_render {body : Body} (h : Body.Plain body) (name : String) {data : Value}
    (hdata : data.Arrayless) : ∃ text, render name body data = .ok text := by
  have hbody : Body.Renders (expandNested 999) body := .of_forall fun e he => (h e he).renders
  obtain ⟨ink, hink⟩ := hbody (.start name body data) (.ofRoot hdata)
    { Ink.blank with current := some name }
  exact ⟨ink.text, render_of_renderBody hink⟩

end PinnedManifest.Template
