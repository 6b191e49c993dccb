/-!
# Duplicate-free lists

A `Distinct α` is a finite set that keeps its members in the order of arrival. Membership is the
view through which it is reasoned about: `mem_insert` and `mem_ofList` say what the operations do
to it, and `insert_of_mem` that a member which arrives again changes nothing.
-/

namespace Metering

/-- Members in order of arrival, each once. -/
structure Distinct (α : Type) where
  toList : List α
  nodup : toList.Nodup

namespace Distinct

variable {α : Type}

@[ext] theorem ext {s t : Distinct α} (h : s.toList = t.toList) : s = t := by
  cases s; cases t; cases h; rfl

instance [DecidableEq α] : DecidableEq (Distinct α) := fun s t =>
  decidable_of_iff (s.toList = t.toList) ⟨ext, fun h => h ▸ rfl⟩

/-- The set without members. -/
def empty : Distinct α := ⟨[], List.nodup_nil⟩

instance : EmptyCollection (Distinct α) := ⟨empty⟩

instance : Inhabited (Distinct α) := ⟨empty⟩

instance : Membership α (Distinct α) := ⟨fun s a => a ∈ s.toList⟩

instance [DecidableEq α] (s : Distinct α) (a : α) : Decidable (a ∈ s) :=
  inferInstanceAs (Decidable (a ∈ s.toList))

/-- The number of members. -/
def size (s : Distinct α) : Nat := s.toList.length

theorem mem_def {s : Distinct α} {a : α} : a ∈ s ↔ a ∈ s.toList := Iff.rfl

@[simp] theorem not_mem_empty (a : α) : a ∉ (∅ : Distinct α) := List.not_mem_nil

variable [DecidableEq α]

/-- A new member goes last; a member that is there already stays where it is. -/
def insert (s : Distinct α) (a : α) : Distinct α :=
  if h : a ∈ s.toList then s
  else ⟨s.toList ++ [a], List.nodup_append.2 ⟨s.nodup, by simp, by
    intro x hx y hy hxy
    simp only [List.mem_singleton] at hy
    exact h (hy ▸ hxy ▸ hx)⟩⟩

theorem insert_of_mem {s : Distinct α} {a : α} (h : a ∈ s) : s.insert a = s := by
  simp [insert, mem_def.1 h]

theorem toList_insert_of_not_mem {s : Distinct α} {a : α} (h : a ∉ s) :
    (s.insert a).toList = s.toList ++ [a] := by
  have h' : a ∉ s.toList := h
  simp [insert, h']

@[simp] theorem mem_insert {s : Distinct α} {a b : α} : b ∈ s.insert a ↔ b ∈ s ∨ b = a := by
  by_cases h : a ∈ s
  · rw [insert_of_mem h]
    exact ⟨Or.inl, fun hb => hb.elim id fun e => e ▸ h⟩
  · simp [mem_def, toList_insert_of_not_mem h]

/-- The members of `s`, then those of `xs` that are new. -/
def insertMany (s : Distinct α) (xs : List α) : Distinct α := xs.foldl insert s

@[simp] theorem mem_insertMany {s : Distinct α} {xs : List α} {b : α} :
    b ∈ s.insertMany xs ↔ b ∈ s ∨ b ∈ xs := by
  induction xs generalizing s with
  | nil => simp [insertMany]
  | cons x xs ih =>
    have := @ih (s.insert x)
    simp only [insertMany, List.foldl_cons, List.mem_cons] at this ⊢
    rw [this, mem_insert, or_assoc]

theorem toList_insertMany_of_nodup {s : Distinct α} {xs : List α} (h : (s.toList ++ xs).Nodup) :
    (s.insertMany xs).toList = s.toList ++ xs := by
  induction xs generalizing s with
  | nil => simp [insertMany]
  | cons x xs ih =>
    have new : x ∉ s := by
      intro old
      exact (List.nodup_append.1 h).2.2 x old x List.mem_cons_self rfl
    have inserted := toList_insert_of_not_mem new
    have rest := @ih (s.insert x) (by simpa [inserted] using h)
    simpa [insertMany, inserted] using rest

/-- Keeps the first occurrence of every member of `xs`. -/
def ofList (xs : List α) : Distinct α := insertMany ∅ xs

@[simp] theorem mem_ofList {xs : List α} {b : α} : b ∈ ofList xs ↔ b ∈ xs := by
  simp [ofList]

theorem toList_ofList_of_nodup {xs : List α} (h : xs.Nodup) : (ofList xs).toList = xs :=
  toList_insertMany_of_nodup h

end Distinct

end Metering
