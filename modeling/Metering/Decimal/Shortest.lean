/-!
# The shortest decimal that reads back

A finite binary64 number is `m · 2^q`. The reals that round to it form an interval around it, whose
ends belong to it exactly when `m` is even. Of the decimals in this interval the chosen one has the
fewest digits; of two with equally many it is the nearer one, and at equal distance the one whose
last digit is even. All comparisons are made in exact integer arithmetic.
-/

namespace Metering.Decimal

/-- A positive binary number `significand · 2^exponent`; `binade` marks the least significand of a
range above the smallest, where the gap below the number is half of the gap above. -/
structure Binary where
  significand : Nat
  exponent : Int
  binade : Bool

def Binary.ofMagnitude (bits : Nat) : Binary :=
  let biased : Nat := bits / Nat.pow 2 52
  let fraction : Nat := bits % Nat.pow 2 52
  if biased = 0 then ⟨fraction, -1074, false⟩
  else ⟨Nat.pow 2 52 + fraction, (biased : Int) - 1075, fraction == 0 && decide (1 < biased)⟩

/-- A quotient of natural numbers, the interval that belongs to it and whether its ends do. -/
structure Interval where
  low : Nat
  middle : Nat
  high : Nat
  denominator : Nat
  closed : Bool

/-- The reals that round to the number, counted in quarters of its last place. -/
def Binary.interval (b : Binary) : Interval :=
  let m := 4 * b.significand
  let below := if b.binade then 1 else 2
  let scale := Nat.pow 2 (b.exponent - 2).toNat
  ⟨(m - below) * scale, m * scale, (m + 2) * scale, Nat.pow 2 (2 - b.exponent).toNat,
    b.significand % 2 == 0⟩

def Interval.scaled (i : Interval) (k : Int) : Interval :=
  let up := Nat.pow 10 (-k).toNat
  ⟨i.low * up, i.middle * up, i.high * up, i.denominator * Nat.pow 10 k.toNat, i.closed⟩

def Interval.holds (i : Interval) (d : Nat) : Bool :=
  let x := d * i.denominator
  if i.closed then decide (i.low ≤ x) && decide (x ≤ i.high)
  else decide (i.low < x) && decide (x < i.high)

/-- The integer in the interval that is nearest to its middle, at equal distance the even one. Only
the two neighbours of the middle are tried: an interval around it that holds an integer holds one
of them. -/
def Interval.nearest? (i : Interval) : Option Nat :=
  let d := i.middle / i.denominator
  let past := i.middle - d * i.denominator
  let short := (d + 1) * i.denominator - i.middle
  match i.holds d, i.holds (d + 1) with
  | true, true =>
    if past < short then some d
    else if short < past then some (d + 1)
    else if d % 2 = 0 then some d else some (d + 1)
  | true, false => some d
  | false, true => some (d + 1)
  | false, false => none

/-- The exponent of the first digit: the greatest `e` with `10^e` at most the middle. -/
def Interval.order (i : Interval) : Int :=
  if i.denominator ≤ i.middle then
    ((Nat.toDigits 10 (i.middle / i.denominator)).length : Int) - 1
  else
    let e : Int := -((Nat.toDigits 10 (i.denominator / i.middle)).length : Int)
    let next := i.scaled (e + 1)
    if next.denominator ≤ next.middle then e + 1 else e

/-- Digits `d₁ d₂ … dₙ` that stand for `d₁.d₂…dₙ · 10^order`. -/
structure Digits where
  digits : List Char
  order : Int

/-- The first hit on the grids of 1, 2, … digits; `fuel` grids are left to try. -/
def Interval.digitsFrom (i : Interval) (order : Int) : Nat → Nat → Digits
  | 0, _ => ⟨['0'], 0⟩
  | fuel + 1, count =>
    match (i.scaled (order + 1 - count)).nearest? with
    | none => i.digitsFrom order fuel (count + 1)
    | some d => if d = Nat.pow 10 count then ⟨['1'], order + 1⟩ else ⟨Nat.toDigits 10 d, order⟩

/-- The digits of a number that is not zero. Seventeen digits always read back. -/
def Binary.digits (b : Binary) : Digits :=
  b.interval.digitsFrom b.interval.order 17 1

end Metering.Decimal
