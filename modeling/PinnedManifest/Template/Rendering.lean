import PinnedManifest.Template.Helper
import PinnedManifest.Template.Nesting

/-!
# Template/Rendering — the text of a template over a value

Elements are rendered in order onto an `Ink`, which holds the text so far and the partials defined so
far.  A block's body is rendered in the scope its helper makes; a partial is rendered in one more
frame and may insert further partials, up to a fixed depth.  The body that a block gives its partial
is rendered first, and the partial inserts its text.  A failure names the place of the innermost tag
that has one.
-/

namespace PinnedManifest.Template

open Json (Value)

/-- Why and where rendering stops. -/
structure Failure where
  reason : Reason
  place : Option Position
  deriving DecidableEq, Repr

/-- Failures of evaluation have no place yet. -/
def unplaced {α : Type} : Except Reason α → Except Failure α
  | .ok a => .ok a
  | .error reason => .error ⟨reason, none⟩

/-- A result whose failure is at a place unless it names another. -/
def placed {α : Type} (place : Option Position) : Except Failure α → Except Failure α
  | .ok a => .ok a
  | .error f => .error ⟨f.reason, f.place.orElse fun _ => place⟩

/-- The text so far and what else later elements depend on. -/
structure Ink where
  text : String
  /-- Whether the text last written ends in a line end. -/
  atLineStart : Bool
  /-- Whether an indent stands in front of the next text. -/
  indentNext : Bool
  /-- Whether the block or partial around has written anything. -/
  wrote : Bool
  /-- The partials defined so far, the latest first. -/
  partials : List (String × Body)
  /-- The name of the template last entered, none for a part of one. -/
  current : Option String

/-- No text yet. -/
def Ink.blank : Ink := ⟨"", false, false, false, [], none⟩

/-- The characters of a text with an indent after each line end but a final one. -/
def indentLines (indent : List Char) : List Char → List Char
  | [] => []
  | [c] => [c]
  | c :: d :: rest =>
    if c = '\n' then c :: indent ++ indentLines indent (d :: rest)
    else c :: indentLines indent (d :: rest)

/-- A text written with an indent. -/
def indented (indent : String) (text : String) : String :=
  if indent.isEmpty then text
  else String.ofList (indentLines indent.toList text.toList)

/-- The ink with more text, indented; a text that begins with a line end has no indent in front. -/
def Ink.write (ink : Ink) (indent text : String) : Ink :=
  if text.isEmpty then ink
  else
    let lead := if ink.indentNext && !(text.toList.head?.any isLineEnd) then indent else ""
    let ends := text.toList.getLast?.any isLineEnd
    { ink with
      text := ink.text ++ lead ++ indented indent text
      atLineStart := ends
      indentNext := ends
      wrote := true }

/-- The ink with more text, which no indent applies to. -/
def Ink.append (ink : Ink) (text : String) : Ink := { ink with text := ink.text ++ text }

/-- The ink as a block or a partial finds it. -/
def Ink.enter (ink : Ink) (indentNext : Bool) : Ink :=
  { ink with indentNext := indentNext, wrote := false }

/-- The ink after a block or a partial, given what it was before: without any text in between the
next text is indented as before. -/
def Ink.leave (before after : Ink) : Ink :=
  if after.wrote then { after with indentNext := after.atLineStart }
  else { after with indentNext := before.indentNext, wrote := before.wrote }

/-- What surrounds an element. -/
structure Setting where
  scope : Scope
  /-- What is put in front of each line of a partial. -/
  indent : String
  /-- The text of the body given to the partial around, if one is. -/
  given : Option String
  /-- The name of the whole template, and its elements. -/
  self : String × Body

/-- A setting with one more frame. -/
def Setting.push (s : Setting) (f : Frame) : Setting := { s with scope := s.scope.push f }

/-- What renders a body on its own: in a setting, under a name if it has one. -/
abbrev Expand := Body → Option String → Setting → Ink → Except Failure Ink

/-! ## Frames of blocks -/

/-- The frame of an iteration: the first alias names the value, a second one the key, which comes
first when both are the same. -/
def itemFrame (aliases : List String) (value key : Value) (locals : List (String × Value)) :
    Frame where
  focus := value
  aliases := aliases[1]?.toList.map (·, key) ++ aliases.head?.toList.map (·, value)
  locals := locals

/-- The variables of the item at an index among so many. -/
def itemVariables (index count : Nat) : List (String × Value) :=
  [("first", .bool (index == 0)), ("last", .bool (index + 1 == count)),
    ("index", .number (.int index))]

/-- The frames of an array's items, from an index on. -/
def arrayFrames (aliases : List String) (count : Nat) : Nat → List Value → List Frame
  | _, [] => []
  | i, v :: rest =>
    itemFrame aliases v (.number (.int i)) (itemVariables i count)
      :: arrayFrames aliases count (i + 1) rest

/-- The frames of an object's members, from an index on. -/
def memberFrames (aliases : List String) (count : Nat) : Nat → Json.Members → List Frame
  | _, [] => []
  | i, (key, v) :: rest =>
    itemFrame aliases v (.string key) (itemVariables i count ++ [("key", .string key)])
      :: memberFrames aliases count (i + 1) rest

/-- The frames that an iteration goes through; none at all for a value that is no container. -/
def frames (aliases : List String) : Value → List Frame
  | .array items => arrayFrames aliases items.length 0 items
  | .object members => memberFrames aliases members.length 0 members
  | _ => []

/-- The frame of a block about one value, which only a single alias names; the variables around stay. -/
def focusFrame (aliases : List String) (around : Frame) (value : Value) : Frame where
  focus := value
  aliases := match aliases with
    | [name] => [(name, value)]
    | _ => []
  locals := around.locals

/-! ## Partials -/

/-- The name of the body that a block gives its partial. -/
def bodyName : String := "@partial-block"

/-- Items as members under their indices, from an index on. -/
def indexed : Nat → List Value → Json.Members
  | _, [] => []
  | i, v :: rest => (toString i, v) :: indexed (i + 1) rest

/-- A value taken apart into members: an array into its items and a text into its characters. -/
def membersOf : Value → Json.Members
  | .object members => members
  | .array items => indexed 0 items
  | .string text => indexed 0 (text.toList.map fun c => .string c.toString)
  | _ => []

/-- The value that a partial is about: the members of a value with the named arguments put among
them; without any, the value itself. -/
def partialFocus (value : Value) (hash : List (String × Value)) : Value :=
  if hash.isEmpty then value
  else
    .object (hash.foldl (fun members entry => Json.Members.insert entry.1 entry.2 members)
      (membersOf value))

/-- A partial found: its elements, and the name of the template it is, if it is a whole one. -/
structure Found where
  body : Body
  template : Option String

/-- The partial of a name: a partial defined before, the template itself, or at last the block's own
body; under the name of a given body, its text before the block's own body. -/
def findPartial (s : Setting) (ink : Ink) (name : String) (body : Option Body) :
    Except Reason Found :=
  if name = bodyName then
    match s.given, body with
    | some text, _ => .ok ⟨[.text text], none⟩
    | none, some b => .ok ⟨b, none⟩
    | none, none => .error .bodyNotFound
  else
    match ink.partials.find? (·.1 == name) with
    | some (_, b) => .ok ⟨b, none⟩
    | none =>
      if name = s.self.1 then .ok ⟨s.self.2, some s.self.1⟩
      else
        match body with
        | some b => .ok ⟨b, none⟩
        | none => .error (.partialNotFound name)

/-- The name that a target has. -/
def Target.evaluate (s : Scope) : Target → Except Reason String
  | .named name => .ok name
  | .computed e => do return shown ((← e.evaluate s).getD .null)

/-- A definition put among the partials. -/
def define (s : Setting) (ink : Ink) (call : Call) (body : Option Body) : Except Reason Ink := do
  let params ← evaluateParams s.scope call.args
  let _ ← evaluateHash s.scope call.args
  if call.helper = "inline" then
    match params with
    | [] => throw (.missingParam "inline" 0)
    | .string name :: _ =>
      match body with
      | some b => return { ink with partials := (name, b) :: ink.partials }
      | none => throw .bodyRequired
    | _ :: _ => throw .textRequired
  else throw (.decoratorNotFound call.helper)

/-- The partial that a target means, and the frame it is rendered in, which names its named
arguments and keeps the variables around. -/
def prepare (s : Setting) (ink : Ink) (target : Target) (args : List Argument)
    (body : Option Body) : Except Reason (Found × Frame) := do
  let name ← target.evaluate s.scope
  let params ← evaluateParams s.scope args
  let hash ← evaluateHash s.scope args
  if ink.current = some name then throw .insertsItself
  let found ← findPartial s ink name body
  let value := params.head?.getD s.scope.inner.focus
  return (found, ⟨partialFocus value hash, hash, s.scope.inner.locals⟩)

/-- The ink after a partial: what it defines stays its own. -/
def Ink.closed (before after : Ink) : Ink :=
  { before.leave after with partials := before.partials, current := before.current }

/-! ## Elements -/

/-- Whether indents apply to what a helper writes without a body. -/
def Helper.takesIndent : Helper → Bool
  | .compare _ | .and | .or | .not => false
  | _ => true

/-- A value written into the ink. -/
def Setting.write (s : Setting) (ink : Ink) (v : Value) : Ink := ink.write s.indent (shown v)

/-- What a helper yields without a body, written into the ink. -/
def Helper.write (helper : Helper) (args : Arguments) (s : Setting) (ink : Ink) :
    Except Reason Ink := do
  let v ← helper.value args
  return if helper.takesIndent then s.write ink v else ink.append (shown v)

/-- The arguments of a call. -/
def Call.arguments (c : Call) (s : Scope) : Except Reason Arguments :=
  return ⟨← evaluateParams s c.args, ← evaluateHash s c.args⟩

/-- What a value tag shows, written into the ink; a path that spells a helper's name calls it. -/
def Shown.write (s : Setting) (ink : Ink) : Shown → Except Reason Ink
  | .path p =>
    match Helper.ofName? p.source with
    | some helper => helper.write ⟨[], []⟩ s ink
    | none => do return s.write ink ((← s.scope.find p).getD .null)
  | .computed e => do
    let v := (← e.evaluate s.scope).getD .null
    match Helper.ofName? (shown v) with
    | some helper => helper.write ⟨[], []⟩ s ink
    | none => return s.write ink v
  | .call c => do
    let args ← c.arguments s.scope
    match Helper.ofName? c.helper with
    | some helper => helper.write args s ink
    | none => throw (.helperNotFound c.helper)

/-- What a block's helper makes of its body and its inverse. -/
inductive Choice
  /-- The body once in each frame. -/
  | body (frames : List Frame)
  /-- The body once, with no frame of its own. -/
  | plain
  | inverse
  | text (content : String)

/-- The choice of a helper. -/
def Helper.choose (helper : Helper) (args : Arguments) (around : Frame) (aliases : List String)
    (hasInverse : Bool) : Except Reason Choice :=
  match helper with
  | .ifTrue | .unless => do return if ← helper.condition args then .plain else .inverse
  | .each => do
    let v ← args.param "each" 0
    let fs := frames aliases v
    return if fs.isEmpty && hasInverse then .inverse else .body fs
  | .withValue => do
    let v ← args.param "with" 0
    return if truthy false v then .body [focusFrame aliases around v] else .inverse
  | .raw => .ok .plain
  | .compare _ | .and | .or | .not => do
    match ← helper.value args with
    | .bool true => return .plain
    | _ => return .inverse
  | .lookup | .log | .len => do return .text (shown (← helper.value args))

/-- The choice of the helper that a block calls. -/
def Call.choose (c : Call) (s : Scope) (aliases : List String) (hasInverse : Bool) :
    Except Reason Choice := do
  let args ← c.arguments s
  match Helper.ofName? c.helper with
  | some helper => helper.choose args s.inner aliases hasInverse
  | none => throw (.helperNotFound c.helper)

mutual

/-- An element rendered. -/
def Element.render (expand : Expand) (s : Setting) (ink : Ink) : Element → Except Failure Ink
  | .text content => .ok (ink.write s.indent content)
  | .value place shown => placed (some place) (unplaced (shown.write s ink))
  | .block place opensLine call aliases body inverse =>
    let start := ink.enter (ink.indentNext || (opensLine && ink.atLineStart))
    (placed place
      (match call.choose s.scope aliases inverse.isSome with
        | .error reason => .error ⟨reason, none⟩
        | .ok (.text content) => .ok (start.write s.indent content)
        | .ok .plain => renderBody expand s { start with current := none } body
        | .ok .inverse => renderInverse expand s start inverse
        | .ok (.body frames) => do
          let after ← frames.foldlM
            (fun ink f => renderBody expand (s.push f) { ink with current := none } body) start
          return { after with partials := ink.partials })).map ink.leave
  | .define place call body => placed (some place) (unplaced (define s ink call body))
  | .insert place opensLine target args indent body =>
    (placed (some place) do
      let (found, frame) ← unplaced (prepare s ink target args body)
      let inside := s.push frame
      let (given, start) ← renderGiven expand { inside with indent := "" } (ink.enter opensLine) body
      expand found.body found.template { inside with indent := s.indent ++ indent, given := given }
        start).map ink.closed

/-- Elements rendered in order. -/
def renderBody (expand : Expand) (s : Setting) (ink : Ink) : List Element → Except Failure Ink
  | [] => .ok ink
  | e :: rest =>
    match e.render expand s ink with
    | .ok ink => renderBody expand s ink rest
    | .error f => .error f

/-- The inverse of a block rendered, if it has one. -/
def renderInverse (expand : Expand) (s : Setting) (ink : Ink) :
    Option (List Element) → Except Failure Ink
  | some body => renderBody expand s { ink with current := none } body
  | none => .ok ink

/-- The text of the body that a block gives its partial, if it has one, and the ink before the
partial, without that text but with what the body defines. -/
def renderGiven (expand : Expand) (s : Setting) (ink : Ink) :
    Option (List Element) → Except Failure (Option String × Ink)
  | some body => do
    let after ← renderBody expand s { ink with text := "", current := none } body
    return (some after.text, { after with text := ink.text })
  | none => .ok (none, ink)

end

/-- How deep partials may be inserted into each other.  This bound is the renderer's own, so that partials
which insert each other without end are refused: the template engine it stands for has no such bound,
and renders partials nested deeper than this if they end. -/
def greatestNesting : Nat := 1000

/-- What renders a body in which partials are nested less deep than given. -/
def expandNested : Nat → Expand
  | 0 => fun _ _ _ _ => .error ⟨.nestedTooDeep, none⟩
  | depth + 1 => fun body name s ink =>
    renderBody (expandNested depth) s { ink with current := name } body

/-- The text of a template over a value. -/
def render (name : String) (body : Body) (data : Value) : Except Failure String :=
  (expandNested greatestNesting body (some name) ⟨.ofRoot data, "", none, (name, body)⟩ .blank).map
    (·.text)

end PinnedManifest.Template
