import Metering.Collector
import Metering.Event
import Metering.Registry

/-!
# Sites

A site is everything that metrics stand on: the clock, the suppliers and caches, the collectors and
the registries, together with two records of what has happened: `activity`, in which every
collection, every call of a supplier and every look into a cache is noted, and `journal`, the
events that were reported. An `Action` works on a site and may fail; what it did before it failed
stays done.
-/

namespace Metering

/-- Something that happens while families are collected. -/
inductive Activity where
  | collected (k : CollectorId)
  | asked (s : SupplierId)
  | inspected (c : CacheId)
  deriving DecidableEq, Repr

structure Site where
  clock : Float := 1000.0
  suppliers : List Supplier := []
  caches : List CacheInfo := []
  collectors : List Collector := []
  registries : List Registry := []
  issued : Nat := 0
  activity : List Activity := []
  journal : List Event := []

abbrev Action := EStateM Fault Site

namespace Site

/-- The collector at a place; where there is none, one without families. -/
def collector (s : Site) (k : CollectorId) : Collector := (s.collectors[k.index]?).getD (.fixed [])

def registry (s : Site) (r : RegistryId) : Registry := (s.registries[r.index]?).getD (.vacant true)

/-- The cache at a place; where there is none, an empty one. -/
def cache (s : Site) (c : CacheId) : CacheInfo := (s.caches[c.index]?).getD ⟨0, 0, none, 0⟩

def callsOf (s : Site) (i : SupplierId) : Nat := s.activity.count (.asked i)

/-- The next answer of a supplier; where there is none, that there is no value. -/
def nextAnswer (s : Site) (i : SupplierId) : Answer :=
  ((s.suppliers[i.index]?).map fun t => t.answer (s.callsOf i)).getD (.value none)

def withCollector (s : Site) (k : CollectorId) (c : Collector) : Site :=
  { s with collectors := s.collectors.set k.index c }

def withRegistry (s : Site) (i : RegistryId) (r : Registry) : Site :=
  { s with registries := s.registries.set i.index r }

theorem registry_withRegistry {s : Site} {i j : RegistryId} {r : Registry}
    (h : i.index < s.registries.length) :
    (s.withRegistry i r).registry j = if j = i then r else s.registry j := by
  simp only [registry, withRegistry, List.getElem?_set]
  by_cases hj : j = i
  · subst hj
    simp [h]
  · have : i.index ≠ j.index := fun e => hj (by cases i; cases j; cases e; rfl)
    simp [hj, this]

theorem collector_withCollector {s : Site} {k l : CollectorId} {c : Collector}
    (h : k.index < s.collectors.length) :
    (s.withCollector k c).collector l = if l = k then c else s.collector l := by
  simp only [collector, withCollector, List.getElem?_set]
  by_cases hl : l = k
  · subst hl
    simp [h]
  · have : k.index ≠ l.index := fun e => hl (by cases k; cases l; cases e; rfl)
    simp [hl, this]

def note (a : Activity) : Action Unit := modify fun s => { s with activity := s.activity ++ [a] }

def report (e : Event) : Action Unit := modify fun s => { s with journal := s.journal ++ [e] }

/-- Moves the clock, backwards by a negative amount. -/
def advance (seconds : Float) : Action Unit := modify fun s => { s with clock := s.clock + seconds }

def addSupplier (t : Supplier) : Action SupplierId := do
  let s ← get
  set { s with suppliers := s.suppliers ++ [t] }
  return ⟨s.suppliers.length⟩

def addCache (c : CacheInfo) : Action CacheId := do
  let s ← get
  set { s with caches := s.caches ++ [c] }
  return ⟨s.caches.length⟩

def updateCache (i : CacheId) (c : CacheInfo) : Action Unit :=
  modify fun s => { s with caches := s.caches.set i.index c }

/-- Adds a collector, which no registry holds yet. -/
def addCollector (c : Collector) : Action CollectorId := do
  let s ← get
  set { s with collectors := s.collectors ++ [c] }
  return ⟨s.collectors.length⟩

def addRegistry (r : Registry) : Action RegistryId := do
  let s ← get
  set { s with registries := s.registries ++ [r] }
  return ⟨s.registries.length⟩

/-- A number that has not been issued before. -/
def issueSerial : Action Nat := do
  let s ← get
  set { s with issued := s.issued + 1 }
  return s.issued

end Site

end Metering
