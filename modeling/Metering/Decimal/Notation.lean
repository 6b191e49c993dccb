import Metering.Decimal.Shortest

/-!
# Numbers as text

A `Notation` says how the shortest digits of a number are laid out: which orders of magnitude are
written positionally, and how the special values are spelled. `plain` is the form of all answers,
`quantile` the form of a quantile in a label.
-/

namespace Metering.Decimal

/-- The layout of a number. An order of magnitude from `least` on and below `bound` is written
positionally, any other with an exponent. -/
structure Layout where
  least : Int
  bound : Int

/-- `exponent` in two digits or more, with its sign. -/
def exponentText (exponent : Int) : List Char :=
  let digits := Nat.toDigits 10 exponent.natAbs
  let sign := if exponent < 0 then '-' else '+'
  sign :: (if digits.length < 2 then '0' :: digits else digits)

/-- The digits in a layout: positional notation always shows a point and a digit after it. -/
def Layout.write (layout : Layout) (d : Digits) : List Char :=
  if layout.least ≤ d.order ∧ d.order < layout.bound then
    if d.order < 0 then
      '0' :: '.' :: (List.replicate (-d.order - 1).toNat '0' ++ d.digits)
    else
      let whole := d.order.toNat + 1
      let digits := d.digits ++ List.replicate (whole - d.digits.length) '0'
      let rest := digits.drop whole
      digits.take whole ++ '.' :: (if rest.isEmpty then ['0'] else rest)
  else
    match d.digits with
    | [] => []
    | first :: [] => first :: 'e' :: exponentText d.order
    | first :: rest => first :: '.' :: (rest ++ 'e' :: exponentText d.order)

/-- The spelling of the values that have no digits, and the layout of the others. -/
structure Notation where
  layout : Layout
  infinity : String
  minusInfinity : String
  undefined : String

def Notation.write (n : Notation) (x : Float) : String :=
  let bits := x.toBits.toNat
  let magnitude := bits % Nat.pow 2 63
  let negative := decide (Nat.pow 2 63 ≤ bits)
  if magnitude = 0x7FF0000000000000 then
    if negative then n.minusInfinity else n.infinity
  else if 0x7FF0000000000000 < magnitude then n.undefined
  else
    let digits : Digits :=
      if magnitude = 0 then ⟨['0'], 0⟩ else (Binary.ofMagnitude magnitude).digits
    let text := n.layout.write digits
    String.ofList (if negative then '-' :: text else text)

/-- The form of numbers in answers: positional from `10^-4` to below `10^16`. -/
def plain : Notation := ⟨⟨-4, 16⟩, "inf", "-inf", "nan"⟩

/-- The form of positive quantiles: as `plain`, but positional below `10^6` only. -/
def steep : Notation := ⟨⟨-4, 6⟩, "+Inf", "-Inf", "NaN"⟩

example : steep.layout.write ⟨['1'], 6⟩ = "1e+06".toList ∧
    steep.layout.write ⟨['1', '5'], 10⟩ = "1.5e+10".toList := by decide

def text (x : Float) : String := plain.write x

def quantileText (x : Float) : String :=
  if 0 < x then steep.write x else { steep with layout := plain.layout }.write x

end Metering.Decimal
