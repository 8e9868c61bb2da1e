import PinnedManifest.Number.Decimal
import PinnedManifest.Template.Tree

/-!
# Template/Scope — what a path means at a point of a template

A scope is a stack of frames over the root value, innermost first.  Each frame has a value in focus;
a block that iterates gives its frame variables, and blocks and partials give theirs aliases.  A path
is looked up in one frame only, apart from aliases, which outer frames supply when inner ones do not.
-/

namespace PinnedManifest.Template

open Json (Value)

/-- Why rendering stops. -/
inductive Reason
  | helperNotFound (name : String)
  | decoratorNotFound (name : String)
  | partialNotFound (name : String)
  /-- The body that a block gives its partial, asked for where no block gives one. -/
  | bodyNotFound
  /-- A template that inserts itself. -/
  | insertsItself
  | missingParam (helper : String) (index : Nat)
  /-- The same for a helper that names its parameters. -/
  | missingNamed (helper : String) (name : String)
  /-- An array entered by a name that is no index. -/
  | indexNotNumeric (name : String)
  | unknownLogLevel (level : String)
  | bodyRequired
  | textRequired
  /-- Partials nested deeper than this renderer goes.  The limit and its wording are its own: the
  template engine it stands for has none, and renders deeper partials as long as they end. -/
  | nestedTooDeep
  deriving DecidableEq, Repr

/-- The wording of a reason. -/
def Reason.message : Reason → String
  | .helperNotFound name => "Helper not found " ++ name
  | .decoratorNotFound name => "Decorator not found " ++ name
  | .partialNotFound name => "Partial not found " ++ name
  | .bodyNotFound => "Partial block cound not be found"
  | .insertsItself => "Can not include current template in partial"
  | .missingParam helper index =>
    "Helper/Decorator " ++ helper ++ " param at index " ++ toString index
      ++ " required but not found"
  | .missingNamed helper name =>
    "Helper/Decorator " ++ helper ++ " param with name " ++ name ++ " required but not found"
  | .indexNotNumeric name => "Cannot access array/vector with string index, " ++ name
  | .unknownLogLevel level => "Invalid logging level: " ++ level
  | .bodyRequired => "Block content required"
  | .textRequired => "Invalid param type, String expected"
  | .nestedTooDeep => "Partials are nested too deep"

/-- One level of context. -/
structure Frame where
  focus : Value
  /-- Names given to values, the first of a name counting. -/
  aliases : List (String × Value)
  /-- The variables of an iteration. -/
  locals : List (String × Value)

/-- A frame that only has a value in focus. -/
def Frame.plain (focus : Value) : Frame := ⟨focus, [], []⟩

/-- What a list of names gives a name to. -/
def named? (name : String) (values : List (String × Value)) : Option Value :=
  (values.find? (·.1 == name)).map (·.2)

/-- A root value and the frames over it, innermost first, never without one. -/
structure Scope where
  root : Value
  inner : Frame
  outer : List Frame

/-- The scope at the start of a template. -/
def Scope.ofRoot (root : Value) : Scope := ⟨root, .plain root, []⟩

/-- A scope with one more frame. -/
def Scope.push (s : Scope) (f : Frame) : Scope := ⟨s.root, f, s.inner :: s.outer⟩

/-- All frames, innermost first. -/
def Scope.frames (s : Scope) : List Frame := s.inner :: s.outer

/-- The frame so many levels up; beyond the outermost, the innermost. -/
def Scope.frameUp (s : Scope) (levels : Nat) : Frame := (s.frames[levels]?).getD s.inner

/-- What an alias means in the innermost frame that has it. -/
def Scope.alias? (s : Scope) (name : String) : Option Value :=
  s.frames.findSome? fun f => named? name f.aliases

/-- A variable in the frame so many levels up. -/
def Scope.local? (s : Scope) (levels : Nat) (name : String) : Option Value :=
  s.frames[levels]?.bind fun f => named? name f.locals

/-- An index into an array: digits, after a plus if there is one, that a word holds. -/
def readIndex? (name : String) : Option Nat :=
  let ds := match name.toList with
    | '+' :: rest => rest
    | cs => cs
  if ds.isEmpty || !ds.all Char.isDigit then none
  else
    let n := Number.natOfDigits ds
    if n ≤ Number.wordMax then some n else none

/-- One step into a value. -/
def enter (v : Value) (name : String) : Except Reason (Option Value) :=
  match v with
  | .array items =>
    match readIndex? name with
    | some i => .ok items[i]?
    | none => .error (.indexNotNumeric name)
  | .object members => .ok (Json.Members.find? name members)
  | _ => .ok none

/-- Steps into a value; beyond a missing one everything is missing. -/
def walk : Value → List String → Except Reason (Option Value)
  | v, [] => .ok (some v)
  | v, name :: rest =>
    match enter v name with
    | .error e => .error e
    | .ok none => .ok none
    | .ok (some inner) => walk inner rest

/-- The value at a path. -/
def Scope.find (s : Scope) (p : Path) : Except Reason (Option Value) :=
  if p.fromRoot then walk s.root p.names
  else
    match p.isVariable, p.names with
    | true, name :: _ => .ok (s.local? p.levelsUp name)
    | true, [] => .ok (some s.inner.focus)
    | false, names =>
      match names.head?.bind s.alias? with
      | some v => walk v names.tail
      | none => walk (s.frameUp p.levelsUp).focus names

end PinnedManifest.Template
