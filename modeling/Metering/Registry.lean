import Metering.Data.Index
import Metering.Reference

/-!
# Registries

A registry holds collectors with the names that they claim, and knows for every claimed name who
claims it. A collector is taken in only if none of its names is claimed; when it is released its
names are freed one by one, and the first that is not there stops the release half-way.
-/

namespace Metering

/-- The collectors with their claimed names, and the claimed names with their collectors. A
registry that describes finds the names of a collector by collecting it. -/
structure Registry where
  describes : Bool
  held : Index CollectorId (List String)
  owners : Index String CollectorId
  deriving DecidableEq

namespace Registry

def vacant (describes : Bool) : Registry := ⟨describes, ∅, ∅⟩

/-- The collectors in the order in which they were entered. -/
def collectors (r : Registry) : List CollectorId := r.held.keys

def taken (r : Registry) (names : List String) : List String :=
  r.owners.keys.filter fun name => decide (name ∈ names)

def enter (r : Registry) (k : CollectorId) (names : List String) : Registry :=
  { r with
    held := r.held.put k names
    owners := names.foldl (fun owners name => owners.put name k) r.owners }

/-- Frees names in order up to the first that is not claimed, which is given back. -/
def free : List String → Index String CollectorId → Option String × Index String CollectorId
  | [], owners => (none, owners)
  | name :: names, owners =>
    if name ∈ owners then free names (owners.erase name) else (some name, owners)

theorem mem_taken {r : Registry} {names : List String} {name : String} :
    name ∈ r.taken names ↔ name ∈ r.owners ∧ name ∈ names := by
  simp [taken, Index.mem_def]

/-- Whoever enters owns its names; the other names keep their owners. -/
theorem get?_owners_enter (r : Registry) (k : CollectorId) (names : List String) (name : String) :
    (r.enter k names).owners.get? name
      = if name ∈ names then some k else r.owners.get? name := by
  simp only [enter]
  generalize r.owners = owners
  induction names generalizing owners with
  | nil => simp
  | cons n names ih =>
    rw [List.foldl_cons, ih, Index.get?_put]
    by_cases h : name = n
    · simp [h]
    · simp [h]

/-- A release that is not stopped frees exactly the given names. -/
theorem get?_free {names : List String} {owners rest : Index String CollectorId}
    (h : free names owners = (none, rest)) (name : String) :
    rest.get? name = if name ∈ names then none else owners.get? name := by
  induction names generalizing owners with
  | nil =>
    obtain rfl : owners = rest := by simpa [free] using h
    simp
  | cons n names ih =>
    by_cases hn : n ∈ owners
    · rw [ih (by simpa [free, hn] using h), Index.get?_erase]
      by_cases he : name = n
      · simp [he]
      · simp [he]
    · simp [free, hn] at h

end Registry

end Metering
