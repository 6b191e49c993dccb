/-!
# The order of texts

Sets of texts are shown in ascending order of code points.
-/

namespace Metering.Text

/-- The texts in ascending order. -/
def ascending (xs : List String) : List String := xs.mergeSort fun a b => decide (a ≤ b)

theorem ascending_perm (xs : List String) : (ascending xs).Perm xs := List.mergeSort_perm _ _

theorem pairwise_ascending (xs : List String) : (ascending xs).Pairwise (· ≤ ·) := by
  have h := @List.pairwise_mergeSort String (fun a b => decide (a ≤ b))
    (fun a b c => by simpa using fun h k => String.le_trans h k)
    (fun a b => by simpa using String.le_total a b) xs
  exact h.imp fun h => by simpa using h

end Metering.Text
