/-!
# Number/Binary64 — finite binary floating-point numbers, exactly

A number is a sign, a significand below `2 ^ 53` and a power of two; the significand is at least
`2 ^ 52` unless the power is the least one.  Arithmetic is exact on ratios of natural numbers and
rounds once, to the nearest number and to the even significand on a tie.
-/

namespace PinnedManifest.Number

/-- The number `± significand · 2 ^ exponent`. -/
structure Binary64 where
  negative : Bool
  significand : Nat
  exponent : Int
  deriving DecidableEq, Repr

namespace Binary64

/-- The least power of two. -/
def leastExponent : Int := -1074

/-- The greatest power of two. -/
def greatestExponent : Int := 971

/-- Zero of either sign. -/
def zero (negative : Bool) : Binary64 := ⟨negative, 0, leastExponent⟩

/-- The quotient of two natural numbers, to the nearest integer and on a tie to the even one. -/
def roundDiv (num den : Nat) : Nat :=
  let q := num / den
  let twice := 2 * (num % den)
  if den < twice ∨ (twice = den ∧ q % 2 = 1) then q + 1 else q

/-- `num / (den · 2 ^ e)` as a ratio of natural numbers. -/
def scaleRatio (num den : Nat) (e : Int) : Nat × Nat :=
  if 0 ≤ e then (num, den * Nat.pow 2 e.toNat) else (num * Nat.pow 2 (-e).toNat, den)

/-- The power of two at which a ratio has a significand of fifty-three bits, or the least power. -/
def exponentOf (num den : Nat) : Int :=
  let guess : Int := (Nat.log2 num : Int) - Nat.log2 den - 52
  let (n, d) := scaleRatio num den guess
  let exact := if n < d * Nat.pow 2 52 then guess - 1 else guess
  max exact leastExponent

/-- The number nearest to `± num / den`; `none` when that is beyond the greatest number. -/
def ofRatio (negative : Bool) (num den : Nat) : Option Binary64 :=
  if num = 0 then some (zero negative)
  else
    let e := exponentOf num den
    let (n, d) := scaleRatio num den e
    let m := roundDiv n d
    let (m, e) := if m = Nat.pow 2 53 then (Nat.pow 2 52, e + 1) else (m, e)
    if greatestExponent < e then none else some ⟨negative, m, e⟩

/-- The magnitude as a ratio of natural numbers. -/
def ratio (x : Binary64) : Nat × Nat :=
  if 0 ≤ x.exponent then (x.significand * Nat.pow 2 x.exponent.toNat, 1)
  else (x.significand, Nat.pow 2 (-x.exponent).toNat)

/-- The product, rounded; the sign is that of the left factor. -/
def scaleUp (x y : Binary64) : Option Binary64 :=
  let (a, b) := x.ratio
  let (c, d) := y.ratio
  ofRatio x.negative (a * c) (b * d)

/-- The quotient, rounded; the sign is that of the dividend. -/
def scaleDown (x y : Binary64) : Option Binary64 :=
  let (a, b) := x.ratio
  let (c, d) := y.ratio
  ofRatio x.negative (a * d) (b * c)

/-- The number in units of the least positive one. -/
def units (x : Binary64) : Int :=
  let magnitude : Int := (x.significand * Nat.pow 2 (x.exponent - leastExponent).toNat : Nat)
  if x.negative then -magnitude else magnitude

/-- An integer in the same units. -/
def intUnits (n : Int) : Int := n * (Nat.pow 2 (-leastExponent).toNat : Nat)

/-- Whether the significand has all its fifty-three bits. -/
def isNormal (x : Binary64) : Bool := Nat.pow 2 52 ≤ x.significand

end Binary64

end PinnedManifest.Number
