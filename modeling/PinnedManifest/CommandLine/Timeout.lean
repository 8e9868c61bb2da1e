/-!
# CommandLine/Timeout — a number of seconds in decimal

A timeout is a whole number from one to the greatest of sixty-four bits, written in ASCII digits
after an optional plus sign.  The digits are read from the left, and the first fault met is reported.
-/

namespace PinnedManifest.CommandLine

/-- Why a text is no timeout. -/
inductive Timeout.Fault
  | empty
  | notDigit
  | tooLarge
  | zero
  deriving DecidableEq, Repr

namespace Timeout

/-- The greatest timeout. -/
def greatest : Nat := Nat.pow 2 64 - 1

/-- The wording of a fault. -/
def Fault.message : Fault → String
  | .empty => "cannot parse integer from empty string"
  | .notDigit => "invalid digit found in string"
  | .tooLarge => "number too large to fit in target type"
  | .zero => "0 is not in 1.." ++ toString greatest

/-- The number that digits continue. -/
def continued (n : Nat) : List Char → Except Fault Nat
  | [] => .ok n
  | c :: rest =>
    if !c.isDigit then .error .notDigit
    else
      let next := 10 * n + (c.toNat - '0'.toNat)
      if greatest < next then .error .tooLarge else continued next rest

/-- The number that characters spell. -/
def number : List Char → Except Fault Nat
  | [] => .error .empty
  | ['+'] => .error .notDigit
  | '+' :: digits => continued 0 digits
  | digits => continued 0 digits

/-- The timeout that a text spells. -/
def ofText (text : String) : Except Fault Nat :=
  match number text.toList with
  | .ok 0 => .error .zero
  | outcome => outcome

end Timeout

end PinnedManifest.CommandLine
