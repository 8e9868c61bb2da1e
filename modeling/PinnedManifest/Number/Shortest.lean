import PinnedManifest.Number.Binary64

/-!
# Number/Shortest — the fewest digits that read back

`digits` finds the shortest decimal inside the interval of reals that round to a number: on the grid
of one digit, then of two, and so on, it tries the two neighbours of the number and takes the nearer
one that lies inside, on a tie the even one.  `text` writes those digits: positionally while the
point falls among the first sixteen places or at most four zeros follow it, else with an exponent
and its sign.
-/

namespace PinnedManifest.Number

/-- A decimal `significand · 10 ^ exponent`. -/
structure Decimal where
  significand : Nat
  exponent : Int
  deriving DecidableEq, Repr

namespace Binary64

/-- `num · 10 ^ k`, or the denominator that makes it so, as a ratio. -/
def tenfold (num den : Nat) (k : Int) : Nat × Nat :=
  if 0 ≤ k then (num * Nat.pow 10 k.toNat, den) else (num, den * Nat.pow 10 (-k).toNat)

/-- The magnitude and the ends of its rounding interval, over one denominator: four times the
significand with two units up and two down, or one unit down where the gap below is half as wide. -/
structure Interval where
  low : Nat
  mid : Nat
  high : Nat
  den : Nat
  closed : Bool

/-- The reals that round to a number. -/
def interval (x : Binary64) : Interval :=
  let below := if x.significand = Nat.pow 2 52 ∧ leastExponent < x.exponent then 1 else 2
  let scale := if 0 ≤ x.exponent then Nat.pow 2 x.exponent.toNat else 1
  let den := if 0 ≤ x.exponent then 4 else 4 * Nat.pow 2 (-x.exponent).toNat
  ⟨(4 * x.significand - below) * scale, 4 * x.significand * scale, (4 * x.significand + 2) * scale,
    den, x.significand % 2 = 0⟩

/-- Whether `c · 10 ^ k` lies in an interval. -/
def Interval.holds (i : Interval) (c : Nat) (k : Int) : Bool :=
  let (n, d) := tenfold c 1 k
  let point := n * i.den
  if i.closed then decide (i.low * d ≤ point ∧ point ≤ i.high * d)
  else decide (i.low * d < point ∧ point < i.high * d)

/-- The neighbour of the magnitude on the grid of `10 ^ k` that lies in the interval: the nearer of
two, on a tie the even one. -/
def Interval.onGrid (i : Interval) (k : Int) : Option Nat :=
  let (n, d) := tenfold i.mid i.den (-k)
  let c := n / d
  let twice := 2 * (n % d)
  let nearer := if d < twice ∨ (twice = d ∧ c % 2 = 1) then c + 1 else c
  let other := if nearer = c then c + 1 else c
  if i.holds nearer k then some nearer else if i.holds other k then some other else none

/-- The number of decimal digits before the point of `num / den`, negative when zeros follow it. -/
def places (num den : Nat) : Int :=
  let guess : Int := ((Nat.toDigits 10 num).length : Int) - (Nat.toDigits 10 den).length
  let (n, d) := tenfold num den (-guess)
  if d ≤ n then guess + 1 else guess

/-- The first grid, from the coarser to the finer, with a point in the interval. -/
def Interval.firstHit (i : Interval) : Nat → Int → Decimal
  | 0, k => ⟨i.mid, k⟩
  | fuel + 1, k =>
    match i.onGrid k with
    | some c => ⟨c, k⟩
    | none => i.firstHit fuel (k - 1)

/-- A decimal without zeros at the end of its significand. -/
def stripZeros : Nat → Decimal → Decimal
  | 0, d => d
  | fuel + 1, d =>
    if d.significand ≠ 0 ∧ d.significand % 10 = 0 then
      stripZeros fuel ⟨d.significand / 10, d.exponent + 1⟩
    else d

/-- The shortest decimal that rounds to a nonzero magnitude; seventeen digits always suffice. -/
def digits (x : Binary64) : Decimal :=
  let i := x.interval
  stripZeros 18 (i.firstHit 18 (places i.mid i.den - 1))

/-- The digits of a natural number. -/
def decimal (n : Nat) : String := String.ofList (Nat.toDigits 10 n)

/-- So many zeros. -/
def zeros (n : Nat) : String := String.ofList (List.replicate n '0')

/-- How a nonzero magnitude is written. -/
def magnitudeText (d : Decimal) : String :=
  let ds := Nat.toDigits 10 d.significand
  let point : Int := ds.length + d.exponent
  if 0 ≤ d.exponent ∧ point ≤ 16 then String.ofList ds ++ zeros d.exponent.toNat ++ ".0"
  else if 0 < point ∧ point ≤ 16 then
    String.ofList (ds.take point.toNat) ++ "." ++ String.ofList (ds.drop point.toNat)
  else if -5 < point ∧ point ≤ 0 then "0." ++ zeros (-point).toNat ++ String.ofList ds
  else
    let exponent := (if 0 < point then "+" else "") ++ toString (point - 1)
    match ds with
    | [d] => String.ofList [d] ++ "e" ++ exponent
    | ds => String.ofList (ds.take 1) ++ "." ++ String.ofList (ds.drop 1) ++ "e" ++ exponent

/-- How a number is written. -/
def text (x : Binary64) : String :=
  (if x.negative then "-" else "")
    ++ (if x.significand = 0 then "0.0" else magnitudeText x.digits)

end Binary64

end PinnedManifest.Number
