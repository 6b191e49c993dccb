/-!
# Numbers

A number is handed on as it was given: a whole one, of any size, or a float. It is rounded to a
float only where it is written.
-/

namespace Metering

inductive Number where
  | whole (n : Int)
  | float (x : Float)

namespace Number

instance (n : Nat) : OfNat Number n := ⟨whole n⟩

instance : OfScientific Number :=
  ⟨fun mantissa negative exponent => float (OfScientific.ofScientific mantissa negative exponent)⟩

/-- The float that is written for a number. -/
def toFloat : Number → Float
  | whole n => .ofInt n
  | float x => x

/-- A float may be given where a number is expected. -/
instance : Coe Float Number := ⟨float⟩

instance : Coe (Option Float) (Option Number) := ⟨Option.map float⟩

instance : CoeTail (Option Number) (Option Float) := ⟨Option.map toFloat⟩

end Number

end Metering
