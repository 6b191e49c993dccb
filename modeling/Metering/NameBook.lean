import Metering.Category
import Metering.Data.Distinct
import Metering.Family

/-!
# Logical and external names

The external name of a metric is the stem of its category followed by its logical name. The family
of a counter loses a final `_total`, so the way back from the family to the logical name needs a
memory: a `NameBook` holds the counter names with this ending that have been declared.
-/

namespace Metering

namespace Category

def external (c : Category) (name : String) : String := c.stem ++ name

/-- The logical name behind an external one. A name that does not begin with the stem is its own. -/
def logical (c : Category) (name : String) : String := (Text.behind? c.stem name).getD name

theorem logical_external (c : Category) (name : String) : c.logical (c.external name) = name := by
  simp [logical, external, Text.behind?_append]

end Category

/-- The declared counter names that end in `_total`. -/
structure NameBook where
  suffixed : Distinct String
  deriving DecidableEq

namespace NameBook

def blank : NameBook := ⟨∅⟩

/-- Enters the name of a declared counter if it ends in `_total`. -/
def remember (b : NameBook) (name : String) : NameBook :=
  if Text.endsWith Family.totalSuffix name then ⟨b.suffixed.insert name⟩ else b

theorem mem_remember {b : NameBook} {name n : String} :
    n ∈ (b.remember name).suffixed
      ↔ n ∈ b.suffixed ∨ (n = name ∧ Text.endsWith Family.totalSuffix name = true) := by
  by_cases h : Text.endsWith Family.totalSuffix name = true <;> simp [remember, h]

/-- The logical name of the counter with this family: the one that ends in `_total` if the book
holds it, in whichever category it was declared. -/
def counterName (b : NameBook) (c : Category) (family : String) : String :=
  let name := c.logical family
  if name ++ Family.totalSuffix ∈ b.suffixed then name ++ Family.totalSuffix else name

end NameBook

end Metering
