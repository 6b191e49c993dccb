import Metering.Data.Index

/-!
# Categories

A category groups metrics under one beginning of their external names and one switch. Two
categories are the same only if both their names and their application parts agree, although
different ones may give the same external names (`stem`).
-/

namespace Metering

/-- A group of metrics. A missing application part differs from an empty one. -/
structure Category where
  name : String
  application : Option String
  deriving DecidableEq, Repr

namespace Category

/-- What every external name of the category begins with. -/
def stem (c : Category) : String := c.application.getD "" ++ c.name ++ "_"

def process : Category := ⟨"process", none⟩

def runtime : Category := ⟨"python", none⟩

/-- The categories that every application knows. -/
def standard : List Category := [process, runtime]

def enter (m : Index String Category) (c : Category) : Index String Category :=
  if c.name ∈ m then m else m.put c.name c

/-- The categories by name; of several with one name the first counts. -/
def byName (cs : List Category) : Index String Category := cs.foldl enter ∅

theorem get?_byName (cs : List Category) (name : String) :
    (byName cs).get? name = cs.find? fun c => c.name = name := by
  suffices h : ∀ m : Index String Category,
      (cs.foldl enter m).get? name = (m.get? name).or (cs.find? fun c => c.name = name) by
    simpa [byName] using h ∅
  intro m
  induction cs generalizing m with
  | nil => simp
  | cons c cs ih =>
    rw [List.foldl_cons, ih, List.find?_cons, enter]
    by_cases hm : c.name ∈ m
    · rw [if_pos hm]
      by_cases hc : c.name = name
      · cases hv : m.get? name with
        | none => exact absurd (hc ▸ hm) (Index.get?_eq_none_iff.1 hv)
        | some v => simp
      · simp [hc]
    · rw [if_neg hm, Index.get?_put]
      by_cases hc : c.name = name
      · subst hc
        simp [Index.get?_eq_none_iff.2 hm]
      · simp [hc, Ne.symm hc]

/-- The order in which sets of categories are shown: by name, a missing application part before
any other. -/
def precedes (a b : Category) : Bool :=
  if a.name = b.name then
    match a.application, b.application with
    | none, _ => true
    | some _, none => false
    | some x, some y => decide (x ≤ y)
  else decide (a.name ≤ b.name)

def arranged (cs : List Category) : List Category := cs.mergeSort precedes

end Category

end Metering
