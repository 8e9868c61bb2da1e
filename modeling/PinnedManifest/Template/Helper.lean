import PinnedManifest.Json.Reader
import PinnedManifest.Template.Scope

/-!
# Template/Helper — the helpers that every template has

`Helper.value` gives what a helper yields from its arguments: `lookup`, the comparisons, the
connectives and `len` yield a value, and the helpers that only direct a block or write to the log
yield the empty text.  A missing argument counts as null, too few of them as a fault.
-/

namespace PinnedManifest.Template

open Json (Value)

/-- Which way two values compare. -/
inductive Comparison
  | eq
  | ne
  | gt
  | gte
  | lt
  | lte
  deriving DecidableEq, Repr

/-- A helper. -/
inductive Helper
  | ifTrue
  | unless
  | each
  | withValue
  | lookup
  | raw
  | log
  | compare (c : Comparison)
  | and
  | or
  | not
  | len
  deriving DecidableEq, Repr

/-- The helper of a name. -/
def Helper.ofName? : String → Option Helper
  | "if" => some .ifTrue
  | "unless" => some .unless
  | "each" => some .each
  | "with" => some .withValue
  | "lookup" => some .lookup
  | "raw" => some .raw
  | "log" => some .log
  | "eq" => some (.compare .eq)
  | "ne" => some (.compare .ne)
  | "gt" => some (.compare .gt)
  | "gte" => some (.compare .gte)
  | "lt" => some (.compare .lt)
  | "lte" => some (.compare .lte)
  | "and" => some .and
  | "or" => some .or
  | "not" => some .not
  | "len" => some .len
  | _ => none

/-- The name of a comparison. -/
def Comparison.name : Comparison → String
  | .eq => "eq"
  | .ne => "ne"
  | .gt => "gt"
  | .gte => "gte"
  | .lt => "lt"
  | .lte => "lte"

/-! ## Values -/

/-- Whether a value counts as true.  Zero does not unless asked for, nor does a number below the
normal ones. -/
def truthy (includeZero : Bool) : Value → Bool
  | .null => false
  | .bool b => b
  | .number (.int n) => includeZero || n != 0
  | .number (.real x) => includeZero || x.isNormal
  | .string s => !s.isEmpty
  | .array items => !items.isEmpty
  | .object members => !members.isEmpty

mutual

/-- A value as it is shown: nothing for null, the items of an array between brackets, and only a word
for an object. -/
def shown : Value → String
  | .null => ""
  | .bool true => "true"
  | .bool false => "false"
  | .number n => n.text
  | .string s => s
  | .array [] => "[]"
  | .array (item :: items) => "[" ++ shown item ++ shownItems items
  | .object _ => "[object]"

/-- The items after the first, and the end of the array. -/
def shownItems : List Value → String
  | [] => "]"
  | item :: items => ", " ++ shown item ++ shownItems items

end

/-- A number against what a text spells as a JSON number, where it is one from end to end. -/
def compareText (n : Json.Number) (text : String) : Option Ordering :=
  match Json.readNumber text.toList with
  | some (m, []) => some (compare n.units m.units)
  | _ => none

/-- The order of two values, where they have one: numbers by size, texts by their characters, which is
the order of their bytes too, false before true, and a number against a text that spells one. -/
def order? : Value → Value → Option Ordering
  | .number a, .number b => some (compare a.units b.units)
  | .string a, .string b => some (compareOfLessAndEq a b)
  | .bool a, .bool b => some (compare a.toNat b.toNat)
  | .number a, .string b => compareText a b
  | .string a, .number b => (compareText b a).map Ordering.swap
  | _, _ => none

/-- Whether a comparison holds. -/
def Comparison.holds (c : Comparison) (a b : Value) : Bool :=
  match c with
  | .eq => a.same b
  | .ne => !a.same b
  | .gt => order? a b == some .gt
  | .gte => (order? a b).any (· != .lt)
  | .lt => order? a b == some .lt
  | .lte => (order? a b).any (· != .gt)

/-- What is found under a key of a value: an item by its index, a member by its name, else null. -/
def itemAt (collection key : Value) : Value :=
  match collection, key with
  | .array items, .number (.int n) => if 0 ≤ n then (items[n.toNat]?).getD .null else .null
  | .object members, .string name => (Json.Members.find? name members).getD .null
  | _, _ => .null

/-- How many items or members there are, or bytes in a text; zero for any other value. -/
def size : Value → Nat
  | .array items => items.length
  | .object members => members.length
  | .string s => s.utf8ByteSize
  | _ => 0

/-- The levels of the log, in lower case. -/
def logLevels : List String := ["error", "warn", "info", "debug", "trace"]

/-! ## Arguments -/

/-- Arguments of a helper, missing ones as null. -/
structure Arguments where
  params : List Value
  hash : List (String × Value)

/-- The parameter at an index, or the fault that there is none. -/
def Arguments.param (args : Arguments) (helper : String) (index : Nat) : Except Reason Value :=
  match args.params[index]? with
  | some v => .ok v
  | none => .error (.missingParam helper index)

/-- The argument of a name. -/
def Arguments.named? (args : Arguments) (key : String) : Option Value := Template.named? key args.hash

/-- Whether zero is to count as true. -/
def Arguments.includeZero (args : Arguments) : Bool :=
  match args.named? "includeZero" with
  | some (.bool b) => b
  | _ => false

/-- The level that a log entry asks for. -/
def Arguments.logLevel (args : Arguments) : String :=
  match args.named? "level" with
  | some (.string s) => s
  | _ => "info"

/-- Whether a condition holds, turned round for `unless`. -/
def Helper.condition (helper : Helper) (args : Arguments) : Except Reason Bool := do
  let v ← args.param "if" 0
  let holds := truthy args.includeZero v
  return if helper = .unless then !holds else holds

/-- What a helper yields. -/
def Helper.value (helper : Helper) (args : Arguments) : Except Reason Value :=
  match helper with
  | .ifTrue | .unless => do
    let _ ← helper.condition args
    return .string ""
  | .each => do
    let _ ← args.param "each" 0
    return .string ""
  | .withValue => do
    let _ ← args.param "with" 0
    return .string ""
  | .raw => .ok (.string "")
  | .log =>
    if logLevels.contains (String.ofList (args.logLevel.toList.map Char.toLower)) then
      .ok (.string "")
    else .error (.unknownLogLevel args.logLevel)
  | .lookup => do
    let collection ← args.param "lookup" 0
    let key ← args.param "lookup" 1
    return itemAt collection key
  | .compare c => do
    let a ← args.param c.name 0
    let b ← args.param c.name 1
    return .bool (c.holds a b)
  | .and => .ok (.bool (args.params.all (truthy false)))
  | .or => .ok (.bool (args.params.any (truthy false)))
  | .not => do
    let v ← args.param "not" 0
    return .bool (!truthy false v)
  | .len =>
    match args.params.head? with
    | some v => .ok (.number (.int (size v)))
    | none => .error (.missingNamed "len" "x")

/-! ## Expressions -/

/-- Whether an argument has a given name. -/
def Argument.hasName (key : String) : Argument → Bool
  | .positional _ => false
  | .named name _ => name == key

mutual

/-- The value of an expression, none when it is missing. -/
def Expr.evaluate (s : Scope) : Expr → Except Reason (Option Value)
  | .path p => s.find p
  | .literal v => .ok (some v)
  | .unreadable _ => .ok none
  | .call name args => do
    let params ← evaluateParams s args
    let hash ← evaluateHash s args
    match Helper.ofName? name with
    | some helper => return some (← helper.value ⟨params, hash⟩)
    | none => throw (.helperNotFound name)

/-- The values of the arguments without a name, missing ones as null. -/
def evaluateParams (s : Scope) : List Argument → Except Reason (List Value)
  | [] => .ok []
  | .positional e :: rest => do
    let v ← e.evaluate s
    return v.getD .null :: (← evaluateParams s rest)
  | .named _ _ :: rest => evaluateParams s rest

/-- The values of the named arguments, missing ones as null; of a repeated name the last counts. -/
def evaluateHash (s : Scope) : List Argument → Except Reason (List (String × Value))
  | [] => .ok []
  | .positional _ :: rest => evaluateHash s rest
  | .named key e :: rest =>
    if rest.any (·.hasName key) then evaluateHash s rest
    else do
      let v ← e.evaluate s
      return (key, v.getD .null) :: (← evaluateHash s rest)

end

end PinnedManifest.Template
