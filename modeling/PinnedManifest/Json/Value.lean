import PinnedManifest.Number.Shortest

/-!
# Json/Value — JSON values whose objects keep their order

An object is a list of members, so it has an order and may repeat a name.  `insert` is the way to
build one without repetition: a new name goes to the end, a known one keeps its first place and takes
the new value (`find?_insert`).
-/

namespace PinnedManifest.Json

/-- A number is an integer of sixty-four bits, signed or not, or a floating-point number. -/
inductive Number
  | int (n : Int)
  | real (x : Number.Binary64)
  deriving DecidableEq, Repr

/-- A JSON value. -/
inductive Value
  | null
  | bool (b : Bool)
  | number (n : Number)
  | string (s : String)
  | array (items : List Value)
  | object (members : List (String × Value))
  deriving Repr

namespace Number

open PinnedManifest.Number

/-- How a number is written. -/
def text : Number → String
  | .int n => toString n
  | .real x => x.text

/-- The number in units of the least positive floating-point number, which decides every order. -/
def units : Number → Int
  | .int n => Binary64.intUnits n
  | .real x => x.units

/-- Equality of numbers: an integer differs from every floating-point number, and the two zeros of
the latter are equal. -/
def same : Number → Number → Bool
  | .int m, .int n => m == n
  | .real x, .real y => x.units == y.units
  | _, _ => false

end Number

/-- A list of members. -/
abbrev Members := List (String × Value)

namespace Members

/-- The value of the first member of that name. -/
def find? (key : String) : Members → Option Value
  | [] => none
  | (k, v) :: rest => if k = key then some v else find? key rest

/-- A new name goes to the end; a known one keeps its place and takes the new value. -/
def insert (key : String) (value : Value) : Members → Members
  | [] => [(key, value)]
  | (k, v) :: rest => if k = key then (k, value) :: rest else (k, v) :: insert key value rest

/-- Members put in one after the other. -/
def ofList (entries : List (String × Value)) : Members :=
  entries.foldl (fun members entry => insert entry.1 entry.2 members) []

/-- **A name holds what was put in last.** -/
theorem find?_insert (key : String) (value : Value) (k : String) (members : Members) :
    find? k (insert key value members) = if key = k then some value else find? k members := by
  induction members with
  | nil => simp [insert, find?]
  | cons m rest ih =>
    obtain ⟨name, v⟩ := m
    by_cases hname : name = key
    · subst hname
      by_cases hk : name = k <;> simp [insert, find?, hk]
    · by_cases hk : name = k
      · subst hk
        simp [insert, find?, hname, Ne.symm hname]
      · simp [insert, find?, hname, hk, ih]

end Members

mutual

/-- Equality of values, in which the order of members does not count. -/
def Value.same : Value → Value → Bool
  | .null, .null => true
  | .bool a, .bool b => a == b
  | .number a, .number b => a.same b
  | .string a, .string b => a == b
  | .array as, .array bs => Value.sameItems as bs
  | .object as, .object bs => as.length == bs.length && Value.sameMembers as bs
  | _, _ => false

/-- Equality item by item. -/
def Value.sameItems : List Value → List Value → Bool
  | [], [] => true
  | a :: as, b :: bs => Value.same a b && Value.sameItems as bs
  | _, _ => false

/-- Whether each member has an equal one of the same name on the other side. -/
def Value.sameMembers : List (String × Value) → List (String × Value) → Bool
  | [], _ => true
  | (key, a) :: as, bs =>
    (match Members.find? key bs with
      | some b => Value.same a b
      | none => false) && Value.sameMembers as bs

end

end PinnedManifest.Json
