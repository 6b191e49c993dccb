/-!
# Tallies

A tally keeps what has been recorded under one combination of label values. `Tally.addAll` is the
view over a whole history; `total_addAll`, `count_addAll` and their companions say what the
numbers are after it.
-/

namespace Metering

/-- Up to this duration an operation counts as brief. -/
def briefBound : Float := 1.0

/-- The number above all others. -/
def infinity : Float := 1.0 / 0.0

/-- Running numbers: the sum of the amounts in the order of arrival, how many there were, how many
were at most `briefBound`, and how many compare with numbers at all. -/
structure Tally where
  created : Float
  total : Float
  count : Nat
  brief : Nat
  bounded : Nat

namespace Tally

/-- A tally made at the given time. -/
def start (now : Float) : Tally := ⟨now, 0.0, 0, 0, 0⟩

/-- Records an amount. -/
def add (t : Tally) (x : Float) : Tally where
  created := t.created
  total := t.total + x
  count := t.count + 1
  brief := if x ≤ briefBound then t.brief + 1 else t.brief
  bounded := if x ≤ infinity then t.bounded + 1 else t.bounded

/-- Records amounts one after the other. -/
def addAll (t : Tally) (xs : List Float) : Tally := xs.foldl add t

theorem created_addAll (t : Tally) (xs : List Float) : (t.addAll xs).created = t.created := by
  induction xs generalizing t with
  | nil => rfl
  | cons x xs ih => exact ih (t.add x)

theorem total_addAll (t : Tally) (xs : List Float) :
    (t.addAll xs).total = xs.foldl (· + ·) t.total := by
  induction xs generalizing t with
  | nil => rfl
  | cons x xs ih => exact ih (t.add x)

theorem count_addAll (t : Tally) (xs : List Float) :
    (t.addAll xs).count = t.count + xs.length := by
  induction xs generalizing t with
  | nil => rfl
  | cons x xs ih =>
    have h := ih (t.add x)
    simp only [addAll, List.foldl_cons, List.length_cons] at h ⊢
    rw [h, add, Nat.add_assoc, Nat.add_comm 1]

theorem brief_addAll (t : Tally) (xs : List Float) :
    (t.addAll xs).brief = t.brief + xs.countP fun x => decide (x ≤ briefBound) := by
  induction xs generalizing t with
  | nil => rfl
  | cons x xs ih =>
    have h := ih (t.add x)
    simp only [addAll, List.foldl_cons, List.countP_cons] at h ⊢
    rw [h]
    by_cases hx : x ≤ briefBound <;> simp [add, hx, Nat.add_assoc, Nat.add_comm]

theorem bounded_addAll (t : Tally) (xs : List Float) :
    (t.addAll xs).bounded = t.bounded + xs.countP fun x => decide (x ≤ infinity) := by
  induction xs generalizing t with
  | nil => rfl
  | cons x xs ih =>
    have h := ih (t.add x)
    simp only [addAll, List.foldl_cons, List.countP_cons] at h ⊢
    rw [h]
    by_cases hx : x ≤ infinity <;> simp [add, hx, Nat.add_assoc, Nat.add_comm]

end Tally

end Metering
