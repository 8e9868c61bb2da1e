import PinnedManifest.Proofs.Steps
import PinnedManifest.Template.Rendering

/-!
# Proofs/Template/Places — places only tell where a template fails

A place is read nowhere but in a fault.  So trees that differ in their places alone render to one text
or both fail (`render_bare`), and sources whose tags differ in their places alone are such trees
(`bareBody_of_scan`).
-/

namespace PinnedManifest.Template

open Json (Value)

/-! ## Trees without places -/

/-- A place for all. -/
def Position.first : Position := ⟨1, 1⟩

mutual

/-- An element with its places taken out. -/
def Element.bare : Element → Element
  | .text content => .text content
  | .value _ shown => .value .first shown
  | .block place opensLine call aliases body inverse =>
    .block (place.map fun _ => .first) opensLine call aliases (bareBody body) (bareInverse inverse)
  | .define _ call body => .define .first call (bareInverse body)
  | .insert _ opensLine target args indent body =>
    .insert .first opensLine target args indent (bareInverse body)

/-- A body with its places taken out. -/
def bareBody : List Element → List Element
  | [] => []
  | e :: rest => e.bare :: bareBody rest

/-- The same for a body that may be absent. -/
def bareInverse : Option (List Element) → Option (List Element)
  | none => none
  | some body => some (bareBody body)

end

theorem bareBody_eq_map : ∀ body : Body, bareBody body = body.map Element.bare
  | [] => rfl
  | e :: rest => congrArg (e.bare :: ·) (bareBody_eq_map rest)

@[simp] theorem isSome_bareInverse (inverse : Option Body) :
    (bareInverse inverse).isSome = inverse.isSome := by
  cases inverse <;> rfl

/-! ## Rendering -/

/-- The ink with the places taken out of its partials. -/
def Ink.bare (ink : Ink) : Ink :=
  { ink with partials := ink.partials.map fun x => (x.1, bareBody x.2) }

/-- The setting with the places taken out of the template. -/
def Setting.bare (s : Setting) : Setting := { s with self := (s.self.1, bareBody s.self.2) }

/-- The partial with the places taken out of its body. -/
def Found.bare (f : Found) : Found := { f with body := bareBody f.body }

variable {expand : Expand} {s : Setting} {ink : Ink}

theorem toOption_unplaced {α : Type} (x : Except Reason α) : (unplaced x).toOption = x.toOption := by
  cases x <;> rfl

theorem toOption_placed {α : Type} (place : Option Position) (x : Except Failure α) :
    (placed place x).toOption = x.toOption := by
  cases x <;> rfl

theorem Ink.bare_write (ink : Ink) (indent text : String) :
    (ink.write indent text).bare = ink.bare.write indent text := by
  rw [Ink.write, Ink.write]
  split <;> rfl

theorem Ink.bare_leave (before after : Ink) :
    (before.leave after).bare = before.bare.leave after.bare := by
  have hwrote : after.bare.wrote = after.wrote := rfl
  rw [Ink.leave, Ink.leave, hwrote]
  split <;> rfl

theorem Ink.bare_closed (before after : Ink) :
    (before.closed after).bare = before.bare.closed after.bare := by
  rw [Ink.closed, Ink.closed, ← Ink.bare_leave]
  rfl

theorem Helper.write_bare (helper : Helper) (args : Arguments) :
    helper.write args s.bare ink.bare = (helper.write args s ink).map Ink.bare := by
  rw [Helper.write, Helper.write]
  cases helper.value args with
  | error e => rfl
  | ok v =>
    cases helper.takesIndent with
    | true => exact congrArg Except.ok (Ink.bare_write ink s.indent (shown v)).symm
    | false => rfl

theorem Shown.write_bare (shown : Shown) :
    shown.write s.bare ink.bare = (shown.write s ink).map Ink.bare := by
  have hwrite (v : Value) : (Except.ok (s.bare.write ink.bare v) : Except Reason Ink) =
      (Except.ok (s.write ink v)).map Ink.bare :=
    congrArg Except.ok (Ink.bare_write ink s.indent _).symm
  cases shown with
  | path p =>
    rw [Shown.write, Shown.write]
    cases Helper.ofName? p.source with
    | some helper => exact Helper.write_bare helper _
    | none =>
      have hscope : s.bare.scope = s.scope := rfl
      rw [hscope]
      cases s.scope.find p with
      | error e => rfl
      | ok v => exact hwrite _
  | computed e =>
    have hscope : s.bare.scope = s.scope := rfl
    rw [Shown.write, Shown.write, hscope]
    cases e.evaluate s.scope with
    | error e => rfl
    | ok v =>
      simp only [bind, Except.bind]
      cases Helper.ofName? (Template.shown (v.getD .null)) with
      | some helper => exact Helper.write_bare helper _
      | none => exact hwrite _
  | call c =>
    have hscope : s.bare.scope = s.scope := rfl
    rw [Shown.write, Shown.write, hscope]
    cases c.arguments s.scope with
    | error e => rfl
    | ok args =>
      simp only [bind, Except.bind]
      cases Helper.ofName? c.helper with
      | some helper => exact Helper.write_bare helper _
      | none => rfl

theorem define_bare (call : Call) (body : Option Body) :
    define s.bare ink.bare call (bareInverse body) = (define s ink call body).map Ink.bare := by
  have hscope : s.bare.scope = s.scope := rfl
  rw [define, define, hscope]
  cases evaluateParams s.scope call.args with
  | error e => rfl
  | ok params =>
    cases evaluateHash s.scope call.args with
    | error e => rfl
    | ok hash =>
      simp only [bind, Except.bind]
      split
      · rcases params with _ | ⟨v, rest⟩
        · rfl
        · cases v <;> cases body <;> rfl
      · rfl

theorem findPartial_bare (name : String) (body : Option Body) :
    findPartial s.bare ink.bare name (bareInverse body) =
      (findPartial s ink name body).map Found.bare := by
  have hfind : ink.bare.partials.find? (·.1 == name) =
      (ink.partials.find? (·.1 == name)).map fun x => (x.1, bareBody x.2) := by
    rw [Ink.bare, List.find?_map]
    rfl
  have hgiven : s.bare.given = s.given := rfl
  have hself : s.bare.self = (s.self.1, bareBody s.self.2) := rfl
  rw [findPartial.eq_def, findPartial.eq_def s, hfind, hgiven, hself]
  split
  · cases s.given <;> cases body <;> rfl
  · cases ink.partials.find? (·.1 == name) with
    | some found => rfl
    | none =>
      simp only [Option.map_none]
      split
      · rfl
      · cases body <;> rfl

theorem prepare_bare (target : Target) (args : List Argument) (body : Option Body) :
    prepare s.bare ink.bare target args (bareInverse body) =
      (prepare s ink target args body).map fun x => (x.1.bare, x.2) := by
  have hscope : s.bare.scope = s.scope := rfl
  have hcurrent : ink.bare.current = ink.current := rfl
  rw [prepare, prepare, hscope, hcurrent]
  cases target.evaluate s.scope with
  | error e => rfl
  | ok name =>
    cases evaluateParams s.scope args with
    | error e => rfl
    | ok params =>
      cases evaluateHash s.scope args with
      | error e => rfl
      | ok hash =>
        simp only [bind, Except.bind]
        split
        · rfl
        · simp only [pure, Except.pure, findPartial_bare]
          cases findPartial s ink name body <;> rfl

/-- One outcome is the other with places taken out; where it fails is of no account. -/
def BareOutcome {α : Type} (bare : α → α) (x' x : Except Failure α) : Prop :=
  x'.toOption = x.toOption.map bare

theorem BareOutcome.placed {α : Type} {bare : α → α} {x' x : Except Failure α}
    (h : BareOutcome bare x' x) (place place' : Option Position) :
    BareOutcome bare (placed place' x') (placed place x) := by
  rw [BareOutcome, toOption_placed, toOption_placed]
  exact h

theorem BareOutcome.bind {α β : Type} {bareA : α → α} {bareB : β → β} {x' x : Except Failure α}
    {f' f : α → Except Failure β} (h : BareOutcome bareA x' x)
    (hf : ∀ a, BareOutcome bareB (f' (bareA a)) (f a)) : BareOutcome bareB (x' >>= f') (x >>= f) := by
  have hbind : (x' >>= f').toOption = x'.toOption.bind fun a => (f' a).toOption := toOption_bind x' f'
  rw [BareOutcome, hbind, h]
  cases x with
  | error e => rfl
  | ok a => exact hf a

theorem BareOutcome.map {x' x : Except Failure Ink} (h : BareOutcome Ink.bare x' x)
    {f' f : Ink → Ink} (hf : ∀ ink, f' ink.bare = (f ink).bare) :
    BareOutcome Ink.bare (x'.map f') (x.map f) := by
  rw [BareOutcome, toOption_map, toOption_map, h]
  cases x with
  | error e => rfl
  | ok ink => exact congrArg some (hf ink)

theorem BareOutcome.unplaced {α : Type} {bare : α → α} {x' x : Except Reason α}
    (h : x' = x.map bare) : BareOutcome bare (unplaced x') (unplaced x) := by
  rw [BareOutcome, toOption_unplaced, toOption_unplaced, h, toOption_map]

/-- Rendering a partial does not depend on places. -/
def Expand.Bare (expand : Expand) : Prop := ∀ body name s ink,
  BareOutcome Ink.bare (expand (bareBody body) name s.bare ink.bare) (expand body name s ink)

theorem bareOutcome_foldlM {body : Body}
    (hbody : ∀ s ink, BareOutcome Ink.bare (renderBody expand s.bare ink.bare (bareBody body))
      (renderBody expand s ink body)) :
    ∀ (frames : List Frame) (ink : Ink), BareOutcome Ink.bare
      (frames.foldlM (fun ink f => renderBody expand (s.bare.push f) { ink with current := none }
        (bareBody body)) ink.bare)
      (frames.foldlM (fun ink f => renderBody expand (s.push f) { ink with current := none } body) ink)
  | [], _ => rfl
  | f :: frames, ink => by
      rw [List.foldlM_cons, List.foldlM_cons]
      exact (hbody (s.push f) { ink with current := none }).bind (bareOutcome_foldlM hbody frames)

theorem renderBody_cons (e : Element) (rest : Body) : renderBody expand s ink (e :: rest) =
    e.render expand s ink >>= fun ink => renderBody expand s ink rest := by
  rw [renderBody]
  cases e.render expand s ink <;> rfl

mutual

/-- **Rendering reads no places** — an element without them, over ink and partials without them, yields
what it yields with them. -/
theorem Element.bareOutcome_render (hexpand : expand.Bare) :
    ∀ (e : Element) (s : Setting) (ink : Ink),
      BareOutcome Ink.bare (e.bare.render expand s.bare ink.bare) (e.render expand s ink)
  | .text content, s, ink => by
      rw [Element.bare, Element.render, Element.render]
      exact congrArg some (Ink.bare_write ink s.indent content).symm
  | .value place shown, s, ink => by
      rw [Element.bare, Element.render, Element.render]
      exact (BareOutcome.unplaced (Shown.write_bare shown)).placed _ _
  | .block place opensLine call aliases body inverse, s, ink => by
      let start := ink.enter (ink.indentNext || (opensLine && ink.atLineStart))
      have hscope : s.bare.scope = s.scope := rfl
      rw [Element.bare, Element.render, Element.render, isSome_bareInverse, hscope]
      refine (BareOutcome.placed ?_ _ _).map (fun after => (Ink.bare_leave ink after).symm)
      cases call.choose s.scope aliases inverse.isSome with
      | error reason => rfl
      | ok choice =>
        cases choice with
        | text content => exact congrArg some (Ink.bare_write start s.indent content).symm
        | plain => exact bareOutcome_renderBody hexpand body s { start with current := none }
        | inverse => exact bareOutcome_renderInverse hexpand inverse s start
        | body frames =>
          have hpartials (after : Ink) : BareOutcome Ink.bare
              (.ok { after.bare with partials := ink.bare.partials })
              (.ok { after with partials := ink.partials }) := rfl
          exact (bareOutcome_foldlM (bareOutcome_renderBody hexpand body) frames start).bind hpartials
  | .define place call body, s, ink => by
      rw [Element.bare, Element.render, Element.render]
      exact (BareOutcome.unplaced (define_bare call body)).placed _ _
  | .insert place opensLine target args indent body, s, ink => by
      rw [Element.bare, Element.render, Element.render]
      refine (BareOutcome.placed ?_ _ _).map (fun after => (Ink.bare_closed ink after).symm)
      refine (BareOutcome.unplaced (prepare_bare target args body)).bind fun ⟨found, frame⟩ => ?_
      exact (bareOutcome_renderGiven hexpand body { s.push frame with indent := "" }
        (ink.enter opensLine)).bind fun ⟨given, start⟩ => hexpand found.body found.template
          { s.push frame with indent := s.indent ++ indent, given := given } start

theorem bareOutcome_renderBody (hexpand : expand.Bare) :
    ∀ (body : List Element) (s : Setting) (ink : Ink), BareOutcome Ink.bare
      (renderBody expand s.bare ink.bare (bareBody body)) (renderBody expand s ink body)
  | [], _, _ => by
      rw [bareBody, renderBody, renderBody]
      rfl
  | e :: rest, s, ink => by
      rw [bareBody, renderBody_cons, renderBody_cons]
      exact (Element.bareOutcome_render hexpand e s ink).bind (bareOutcome_renderBody hexpand rest s)

theorem bareOutcome_renderInverse (hexpand : expand.Bare) :
    ∀ (inverse : Option (List Element)) (s : Setting) (ink : Ink), BareOutcome Ink.bare
      (renderInverse expand s.bare ink.bare (bareInverse inverse)) (renderInverse expand s ink inverse)
  | none, _, _ => rfl
  | some body, s, ink => bareOutcome_renderBody hexpand body s { ink with current := none }

theorem bareOutcome_renderGiven (hexpand : expand.Bare) :
    ∀ (body : Option (List Element)) (s : Setting) (ink : Ink), BareOutcome (Prod.map id Ink.bare)
      (renderGiven expand s.bare ink.bare (bareInverse body)) (renderGiven expand s ink body)
  | none, _, _ => rfl
  | some body, s, ink =>
      (bareOutcome_renderBody hexpand body s { ink with text := "", current := none }).bind fun _ => rfl

end

theorem expandNested_bare : ∀ depth : Nat, (expandNested depth).Bare
  | 0 => fun _ _ _ _ => rfl
  | depth + 1 => fun body name s ink =>
      bareOutcome_renderBody (expandNested_bare depth) body s { ink with current := name }

/-- **Trees that differ in their places alone render alike**: to one text, or neither to any. -/
theorem render_bare (name : String) {body body' : Body} (h : bareBody body' = bareBody body)
    (data : Value) : (render name body' data).toOption = (render name body data).toOption := by
  have hrender (body : Body) : (render name (bareBody body) data).toOption =
      (render name body data).toOption := by
    have hbare := expandNested_bare greatestNesting body (some name)
      ⟨.ofRoot data, "", none, (name, body)⟩ .blank
    rw [render, render, toOption_map, toOption_map]
    refine (congrArg (Option.map Ink.text) hbare).trans ?_
    rw [Option.map_map]
    rfl
  rw [← hrender body', ← hrender body, h]

/-! ## Nesting -/

/-- A tag with its place taken out. -/
def PlacedTag.bare (t : PlacedTag) : PlacedTag := { t with place := .first }

/-- A segment with its place taken out. -/
def Segment.bare (x : Segment) : Segment := { x with tag := x.tag.bare }

/-- A piece with its place taken out. -/
def Piece.bare : Piece → Piece
  | .text content => .text content
  | .tag t => .tag t.bare

/-- A defect with its place taken out. -/
def Malformed.bare : Malformed → Malformed
  | .mismatch kind opened closed _ => .mismatch kind opened closed .first
  | m => m

/-- A complete case with the places of its body taken out. -/
def bareCase (x : Case × Body) : Case × Body := (x.1, bareBody x.2)

/-- An open block with its places taken out. -/
def OpenBlock.bare : OpenBlock → OpenBlock
  | .helper _ first done current => .helper .first first (done.map bareCase) current
  | .raw _ case => .raw .first case
  | .decorated _ call => .decorated .first call
  | .insertion _ opensLine target args => .insertion .first opensLine target args

/-- A nest with its places taken out. -/
def Nest.bare (n : Nest) : Nest where
  blocks := n.blocks.map fun x => (x.1.bare, bareBody x.2)
  here := bareBody n.here
  defect := n.defect.map Malformed.bare

theorem bareBody_append (body rest : Body) :
    bareBody (body ++ rest) = bareBody body ++ bareBody rest := by
  simp [bareBody_eq_map]

theorem Nest.bare_body (n : Nest) : n.bare.body = bareBody n.body := by
  simp [Nest.body, Nest.bare, bareBody_eq_map]

theorem Nest.bare_judge (n : Nest) (kind opened closed : String) (place : Position) :
    n.bare.judge kind opened closed .first = (n.judge kind opened closed place).map Malformed.bare := by
  rw [Nest.judge, Nest.judge, Nest.bare]
  cases n.defect with
  | some m => rfl
  | none =>
    simp only [Option.map_none, Option.orElse_none]
    split <;> rfl

theorem Nest.bare_judgeNamed (n : Nest) (opened closed : String) (place : Position) :
    n.bare.judgeNamed opened closed .first = (n.judgeNamed opened closed place).map Malformed.bare := by
  rw [Nest.judgeNamed, Nest.judgeNamed]
  split
  · rfl
  · exact n.bare_judge "decorator" opened closed place

theorem Nest.bare_inspect (n : Nest) (form : Form) : n.bare.inspect form = (n.inspect form).bare := by
  rw [Nest.inspect, Nest.inspect, Nest.bare]
  cases n.defect with
  | some m => simp [Nest.bare]
  | none => cases form.badLiteral? <;> simp [Nest.bare, Malformed.bare]

theorem chain_bare (last : Option Body) : ∀ cases : List (Case × Body),
    chain (bareInverse last) (cases.map bareCase) = bareInverse (chain last cases)
  | [] => rfl
  | (c, body) :: rest => by
      rw [List.map_cons, bareCase, chain, chain, chain_bare last rest, bareInverse, bareBody, bareBody,
        Element.bare]
      rfl

theorem helperBlock_bare (place : Position) (last : Option Body) : ∀ cases : List (Case × Body),
    helperBlock .first (bareInverse last) (cases.map bareCase) = bareBody (helperBlock place last cases)
  | [] => rfl
  | (c, body) :: rest => by
      rw [List.map_cons, bareCase, helperBlock, helperBlock, chain_bare last rest, bareBody, bareBody,
        Element.bare]
      rfl

theorem bareBody_helperBlock (place : Position) (last : Option Body) (cases : List (Case × Body))
    (before : Body) :
    helperBlock .first (bareInverse last) (cases.map bareCase).reverse ++ bareBody before =
      bareBody (helperBlock place last cases.reverse ++ before) := by
  rw [bareBody_append, ← helperBlock_bare, List.map_reverse]

/-- A nest with its places taken out, part by part. -/
theorem Nest.bare_mk {blocks : List (OpenBlock × List Element)} {here here' : Body}
    {defect defect' : Option Malformed} (hhere : here' = bareBody here)
    (hdefect : defect' = defect.map Malformed.bare) :
    (⟨blocks.map fun x => (x.1.bare, bareBody x.2), here', defect'⟩ : Nest) =
      Nest.bare ⟨blocks, here, defect⟩ := by
  rw [hhere, hdefect, Nest.bare]

/-- The end of a block. -/
theorem Nest.bare_close (n : Nest) {t : PlacedTag} {block partialName : Option String}
    (h : t.tag.form = .close block partialName) : n.bare.place t.bare = (n.place t).map Nest.bare := by
  have hbody := n.bare_body
  rcases n with ⟨blocks, here, defect⟩
  rcases t with ⟨⟨form, trimBefore, trimAfter⟩, place, indent, startsLine, endsLine, endsSource⟩
  cases h
  rcases blocks with _ | ⟨⟨b, before⟩, rest⟩
  · rfl
  · cases b with
    | helper opened first done current =>
      cases block with
      | none => rfl
      | some name =>
        have hjudge := Nest.bare_judge
          ⟨(.helper opened first done current, before) :: rest, here, defect⟩ "helper"
          first.call.helper name place
        cases current with
        | some c =>
          refine congrArg some (Nest.bare_mk ?_ hjudge)
          rw [← bareBody_helperBlock, List.map_cons, bareCase, ← hbody]
          rfl
        | none =>
          refine congrArg some (Nest.bare_mk ?_ hjudge)
          rw [← bareBody_helperBlock, bareInverse, ← hbody]
    | raw => cases block <;> rfl
    | decorated opened call =>
      cases block with
      | none => rfl
      | some name =>
        exact congrArg some (Nest.bare_mk (congrArg (fun body =>
          .define .first call (some body) :: bareBody before) hbody)
          (Nest.bare_judgeNamed _ _ _ _))
    | insertion opened opensLine target args =>
      cases partialName with
      | none => rfl
      | some name =>
        exact congrArg some (Nest.bare_mk (congrArg (fun body =>
          .insert .first opensLine target args "" (some body) :: bareBody before) hbody)
          (Nest.bare_judgeNamed _ _ _ _))

/-- **One tag more nests alike** wherever the tags are. -/
theorem Nest.bare_place (n : Nest) (t : PlacedTag) :
    n.bare.place t.bare = (n.place t).map Nest.bare := by
  have hbody := n.bare_body
  rcases n with ⟨blocks, here, defect⟩
  rcases t with ⟨⟨form, trimBefore, trimAfter⟩, place, indent, startsLine, endsLine, endsSource⟩
  cases form with
  | value | comment | decorate | insert | «open» | openRaw | openDecorated | openInsert => rfl
  | chain call aliases =>
    rcases blocks with _ | ⟨⟨b, before⟩, rest⟩
    · rfl
    · cases b with
      | helper place first done current =>
        cases current with
        | some c =>
          simp only [Nest.place, PlacedTag.bare, hbody]
          rfl
        | none => rfl
      | raw | decorated | insertion => rfl
  | otherwise =>
    rcases blocks with _ | ⟨⟨b, before⟩, rest⟩
    · rfl
    · cases b with
      | helper place first done current =>
        cases current with
        | some c =>
          simp only [Nest.place, PlacedTag.bare, hbody]
          rfl
        | none => rfl
      | raw | decorated | insertion => rfl
  | closeRaw name =>
    rcases blocks with _ | ⟨⟨b, before⟩, rest⟩
    · rfl
    · cases b with
      | raw opened c =>
        exact congrArg some (Nest.bare_mk (congrArg (fun body =>
          .block (some .first) c.opensLine c.call c.aliases body none :: bareBody before) hbody)
          (Nest.bare_judge _ _ _ _ _))
      | helper | decorated | insertion => rfl
  | close block partialName => exact Nest.bare_close _ rfl

theorem Nest.bare_take (n : Nest) (p : Piece) : n.bare.take p.bare = (n.take p).map Nest.bare := by
  cases p with
  | text content => rfl
  | tag t =>
    rw [Piece.bare, Nest.take, Nest.take, Nest.step, Nest.step, ← Nest.bare_place, ← Nest.bare_inspect]
    rfl

/-- **A row of tags nests alike** wherever the tags are — one tag after the other. -/
theorem Nest.bare_takeAll : ∀ (pieces : List Piece) (n : Nest),
    n.bare.takeAll (pieces.map Piece.bare) = (n.takeAll pieces).map Nest.bare
  | [], _ => rfl
  | p :: rest, n => by
      rw [List.map_cons, Nest.takeAll, Nest.takeAll, Nest.bare_take]
      cases n.take p with
      | none => rfl
      | some n' => exact Nest.bare_takeAll rest n'

theorem toOption_nest_bare (pieces : List Piece) :
    (nest (pieces.map Piece.bare)).toOption = (nest pieces).toOption.map bareBody := by
  have hstart : (⟨[], [], none⟩ : Nest).bare = ⟨[], [], none⟩ := rfl
  rw [nest, nest, ← hstart, Nest.bare_takeAll, hstart]
  cases Nest.takeAll ⟨[], [], none⟩ pieces with
  | none => rfl
  | some n =>
    rcases n with ⟨_ | _, here, _ | _⟩
    · exact congrArg some (Nest.bare_body _)
    all_goals rfl

theorem arrangeFrom_bare : ∀ (p : Pending) (segments : List Segment) (last : List Char),
    arrangeFrom p (segments.map Segment.bare) last = (arrangeFrom p segments last).map Piece.bare
  | p, [], last => by
      rw [List.map_nil, arrangeFrom]
      split <;> rfl
  | p, x :: rest, last => by
      have htail (used : Bool) := arrangeFrom_bare (p.after used x.tag) rest last
      rw [List.map_cons, Segment.bare, arrangeFrom, arrangeFrom]
      cases p.text x.text with
      | some cs =>
        exact congrArg (.text (String.ofList (x.tag.cutEnd cs)) :: .tag x.tag.bare :: ·) (htail true)
      | none => exact congrArg (.tag x.tag.bare :: ·) (htail false)

/-- **Sources that scan alike but for places are templates alike**: trees that differ in places, or no
templates either. -/
theorem bareBody_of_scan {source source' : String} {segments segments' : List Segment}
    {last : List Char} (hscan : scan source.toList = some (segments, last))
    (hscan' : scan source'.toList = some (segments', last))
    (h : segments'.map Segment.bare = segments.map Segment.bare) :
    (ofSource source').toOption.map bareBody = (ofSource source).toOption.map bareBody := by
  rw [ofSource, ofSource, hscan, hscan']
  simp only [arrange, ← toOption_nest_bare, ← arrangeFrom_bare, h]

end PinnedManifest.Template
