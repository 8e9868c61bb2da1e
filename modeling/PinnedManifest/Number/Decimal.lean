import PinnedManifest.Number.Shortest

/-!
# Number/Decimal — reading decimal numerals

`Numeral.stepwise` keeps as many leading digits as a word of sixty-four bits holds, rounds them, and
multiplies or divides by a rounded power of ten: quick and off by a unit at times.
-/

namespace PinnedManifest.Number

/-- The parts of a decimal numeral. -/
structure Numeral where
  negative : Bool
  /-- Digits before the point. -/
  whole : List Char
  /-- Digits after the point. -/
  fraction : List Char
  exponent : Int
  deriving DecidableEq, Repr

/-- The value of a decimal digit. -/
def digitValue (c : Char) : Nat := c.toNat - 48

/-- The value of a run of decimal digits. -/
def natOfDigits (ds : List Char) : Nat := ds.foldl (fun n c => 10 * n + digitValue c) 0

/-- The greatest value of a word. -/
def wordMax : Nat := Nat.pow 2 64 - 1

/-- The value of as many digits as a word holds after those read before, and the digits left. -/
def absorb (n : Nat) : List Char → Nat × List Char
  | [] => (n, [])
  | c :: rest =>
    if 10 * n + digitValue c ≤ wordMax then absorb (10 * n + digitValue c) rest
    else (n, c :: rest)

/-- A power of ten, rounded. -/
def power (k : Nat) : Option Binary64 := Binary64.ofRatio false (Nat.pow 10 k) 1

/-- The greatest power of ten that is a number. -/
def greatestPower : Nat := 308

/-- So many divisions by the greatest power, or fewer when zero is reached. -/
def divideByGreatest : Nat → Binary64 → Option Binary64
  | 0, x => some x
  | steps + 1, x =>
    if x.significand = 0 then some x
    else (power greatestPower).bind fun p => (x.scaleDown p).bind (divideByGreatest steps)

/-- Division by `10 ^ k`, for positive `k`, in steps of the greatest power. -/
def divideByPower (x : Binary64) (k : Nat) : Option Binary64 :=
  let steps := (k - 1) / greatestPower
  (divideByGreatest steps x).bind fun x =>
    if x.significand = 0 then some x
    else (power (k - steps * greatestPower)).bind x.scaleDown

namespace Numeral

/-- The value, rounded at each step; `none` beyond the greatest number. -/
def stepwise (t : Numeral) : Option Binary64 := do
  let (n, wholeLeft) := absorb 0 t.whole
  let (n, fractionLeft) := absorb n t.fraction
  let k : Int := t.exponent + wholeLeft.length - (t.fraction.length - fractionLeft.length : Nat)
  let x ← Binary64.ofRatio t.negative n 1
  if 0 ≤ k then
    if k.toNat ≤ greatestPower then x.scaleUp (← power k.toNat)
    else if n = 0 then some x
    else none
  else divideByPower x (-k).toNat

end Numeral

/-- The digits at the start of a text, and the rest. -/
def takeDigits (cs : List Char) : List Char × List Char := cs.span Char.isDigit

/-- An optional sign: whether it is a minus, and the rest. -/
def takeSign : List Char → Bool × List Char
  | '-' :: rest => (true, rest)
  | '+' :: rest => (false, rest)
  | cs => (false, cs)

/-- An exponent, when the letter `e` and a digit follow; `none` for the letter without digits. -/
def takeExponent : List Char → Option (Int × List Char)
  | c :: rest =>
    if c = 'e' ∨ c = 'E' then
      let (negative, rest) := takeSign rest
      let (ds, rest) := takeDigits rest
      if ds.isEmpty then none
      else some (if negative then -(natOfDigits ds : Int) else natOfDigits ds, rest)
    else some (0, c :: rest)
  | [] => some (0, [])

end PinnedManifest.Number
