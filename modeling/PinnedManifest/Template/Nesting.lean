import PinnedManifest.Template.Layout
import PinnedManifest.Text.Quoted

/-!
# Template/Nesting — from a row of tags to a tree

Tags nest by their kinds alone: a helper's block may have other cases, and ends in any closing tag; a
decorator's or a partial's block has no other case and may be closed without a name.  What else may be
wrong is judged last: a literal that is no value, or a block closed under another name than it was
opened with, whichever tag comes first.
-/

namespace PinnedManifest.Template

/-- Why a source is no template. -/
inductive Malformed
  /-- Its tags do not form a template. -/
  | invalid
  /-- A literal that is no value, as it is written. -/
  | badLiteral (source : String)
  /-- A block closed under another name, at the place of the closing tag. -/
  | mismatch (kind opened closed : String) (place : Position)
  deriving DecidableEq, Repr

mutual

/-- The first literal in an expression that is no value. -/
def Expr.badLiteral? : Expr → Option String
  | .path _ => none
  | .literal _ => none
  | .unreadable source => some source
  | .call _ args => badLiteralIn? args

/-- The first literal among arguments that is no value. -/
def badLiteralIn? : List Argument → Option String
  | [] => none
  | .positional e :: rest => e.badLiteral?.orElse fun _ => badLiteralIn? rest
  | .named _ e :: rest => e.badLiteral?.orElse fun _ => badLiteralIn? rest

end

/-- The first literal in what a tag shows that is no value. -/
def Shown.badLiteral? : Shown → Option String
  | .path _ => none
  | .computed e => e.badLiteral?
  | .call c => badLiteralIn? c.args

/-- The first literal in a partial's name that is no value. -/
def Target.badLiteral? : Target → Option String
  | .named _ => none
  | .computed e => e.badLiteral?

/-- The first literal in a tag that is no value. -/
def Form.badLiteral? : Form → Option String
  | .value shown => shown.badLiteral?
  | .open call _ | .chain call _ | .openRaw call _ => badLiteralIn? call.args
  | .decorate call | .openDecorated call => badLiteralIn? call.args
  | .insert target args | .openInsert target args =>
    target.badLiteral?.orElse fun _ => badLiteralIn? args
  | .otherwise | .close .. | .closeRaw _ | .comment => none

/-- The tag of one case of a helper's block. -/
structure Case where
  call : Call
  aliases : List String
  opensLine : Bool

/-- A block that is still open. -/
inductive OpenBlock
  /-- A helper's block: its first case, the cases that are complete, last first, and the case now
  open, none for the last one. -/
  | helper (place : Position) (first : Case) (done : List (Case × Body)) (current : Option Case)
  | raw (place : Position) (case : Case)
  | decorated (place : Position) (call : Call)
  | insertion (place : Position) (opensLine : Bool) (target : Target) (args : List Argument)

/-- The blocks that are open, each with the elements in front of it, last first, the elements of the
innermost one, and the first thing found to be wrong. -/
structure Nest where
  blocks : List (OpenBlock × List Element)
  here : List Element
  defect : Option Malformed

/-- One element more. -/
def Nest.add (n : Nest) (e : Element) : Nest := { n with here := e :: n.here }

/-- The elements of the innermost block, in order. -/
def Nest.body (n : Nest) : Body := n.here.reverse

/-- A new innermost block. -/
def Nest.enter (n : Nest) (b : OpenBlock) : Nest := ⟨(b, n.here) :: n.blocks, [], n.defect⟩

/-- The defect found before, or that of a name which did not match. -/
def Nest.judge (n : Nest) (kind opened closed : String) (place : Position) : Option Malformed :=
  n.defect.orElse fun _ =>
    if opened = closed then none else some (.mismatch kind opened closed place)

/-- The same for a block that may be closed without a name. -/
def Nest.judgeNamed (n : Nest) (opened closed : String) (place : Position) : Option Malformed :=
  if closed.isEmpty then n.defect else n.judge "decorator" opened closed place

/-- The nest with the literals of a tag judged. -/
def Nest.inspect (n : Nest) (form : Form) : Nest :=
  { n with defect := n.defect.orElse fun _ => form.badLiteral?.map .badLiteral }

/-- The inner blocks of an else chain: each case but the first is the inverse of the one before. -/
def chain (last : Option Body) : List (Case × Body) → Option Body
  | [] => last
  | (c, body) :: rest => some [.block none c.opensLine c.call c.aliases body (chain last rest)]

/-- A helper's block from its cases. -/
def helperBlock (place : Position) (last : Option Body) : List (Case × Body) → List Element
  | [] => []
  | (c, body) :: rest => [.block (some place) c.opensLine c.call c.aliases body (chain last rest)]

/-- The name that a target is closed under. -/
def Target.closingName : Target → String
  | .named name => name
  | .computed _ => ""

/-- The nest after a tag without a bad literal; `none` where the tag has no place. -/
def Nest.place (n : Nest) (t : PlacedTag) : Option Nest :=
  match t.tag.form with
  | .value shown => some (n.add (.value t.place shown))
  | .comment => some n
  | .decorate call => some (n.add (.define t.place call none))
  | .insert target args =>
    let indent := if t.tag.trimBefore then "" else t.indent
    some (n.add (.insert t.place t.opensLine target args indent none))
  | .open call aliases =>
    let c : Case := ⟨call, aliases, t.opensLine⟩
    some (n.enter (.helper t.place c [] (some c)))
  | .openRaw call aliases => some (n.enter (.raw t.place ⟨call, aliases, t.opensLine⟩))
  | .openDecorated call => some (n.enter (.decorated t.place call))
  | .openInsert target args => some (n.enter (.insertion t.place t.opensLine target args))
  | .chain call aliases =>
    match n.blocks with
    | (.helper place first done (some c), before) :: rest =>
      let next : Case := ⟨call, aliases, t.opensLine⟩
      some ⟨(.helper place first ((c, n.body) :: done) (some next), before) :: rest, [], n.defect⟩
    | _ => none
  | .otherwise =>
    match n.blocks with
    | (.helper place first done (some c), before) :: rest =>
      some ⟨(.helper place first ((c, n.body) :: done) none, before) :: rest, [], n.defect⟩
    | _ => none
  | .closeRaw name =>
    match n.blocks with
    | (.raw place c, before) :: rest =>
      some ⟨rest, .block (some place) c.opensLine c.call c.aliases n.body none :: before,
        n.judge "helper" c.call.helper name t.place⟩
    | _ => none
  | .close block partialName =>
    match n.blocks, block, partialName with
    | (.helper place first done current, before) :: rest, some name, _ =>
      let (done, last) := match current with
        | some c => ((c, n.body) :: done, none)
        | none => (done, some n.body)
      some ⟨rest, helperBlock place last done.reverse ++ before,
        n.judge "helper" first.call.helper name t.place⟩
    | (.decorated place call, before) :: rest, some name, _ =>
      some ⟨rest, .define place call (some n.body) :: before,
        n.judgeNamed call.helper name t.place⟩
    | (.insertion place opensLine target args, before) :: rest, _, some name =>
      some ⟨rest, .insert place opensLine target args "" (some n.body) :: before,
        n.judgeNamed target.closingName name t.place⟩
    | _, _, _ => none

/-- The nest after a tag; `none` where the tag has no place. -/
def Nest.step (n : Nest) (t : PlacedTag) : Option Nest := (n.inspect t.tag.form).place t

/-- The nest after a piece. -/
def Nest.take (n : Nest) : Piece → Option Nest
  | .text content => some (n.add (.text content))
  | .tag t => n.step t

/-- The nest after pieces. -/
def Nest.takeAll (n : Nest) : List Piece → Option Nest
  | [] => some n
  | p :: rest => (n.take p).bind (·.takeAll rest)

/-- The tree of a row of pieces. -/
def nest (pieces : List Piece) : Except Malformed Body :=
  match Nest.takeAll ⟨[], [], none⟩ pieces with
  | some n =>
    if n.blocks.isEmpty then
      match n.defect with
      | some m => .error m
      | none => .ok n.body
    else .error .invalid
  | none => .error .invalid

/-- The template that a source spells. -/
def ofSource (source : String) : Except Malformed Body :=
  match scan source.toList with
  | some (segments, last) => nest (arrange segments last)
  | none => .error .invalid

/-- The wording of a fault in a source. -/
def Malformed.message : Malformed → String
  | .invalid => "Template error: invalid handlebars syntax"
  | .badLiteral source => "invalid parameter " ++ Text.Quoted.quote source
  | .mismatch kind opened closed _ =>
    "Template error: " ++ kind ++ " \"" ++ opened ++ "\" was opened, but \"" ++ closed
      ++ "\" is closing"

/-- The place of a fault, where it has one. -/
def Malformed.place? : Malformed → Option Position
  | .invalid => none
  | .badLiteral _ => none
  | .mismatch _ _ _ place => some place

end PinnedManifest.Template
