import Metering.Decimal.Notation
import Metering.Instrument
import Metering.Reference
import Metering.Supplier

/-!
# Collectors

A collector gives families each time it is collected. Instruments give what was recorded, gauges,
supplied metrics and external summaries what their suppliers answer, a cache collector the numbers
of the caches attached to it, and a fixed collector always the same. The names of the families
depend on the declaration alone.
-/

namespace Metering

inductive SuppliedKind where
  | counter
  | gauge
  deriving DecidableEq, Repr

namespace SuppliedKind

def word : SuppliedKind → String
  | .counter => "counter"
  | .gauge => "gauge"

def ofWord (w : String) : Except Fault SuppliedKind :=
  if w = word .counter then .ok .counter
  else if w = word .gauge then .ok .gauge
  else .error (.notSuppliable w)

def familyType : SuppliedKind → FamilyType
  | .counter => .counter
  | .gauge => .gauge

def familyName (kind : SuppliedKind) (name : String) : String :=
  match kind with
  | .counter => Family.counterStem name
  | .gauge => name

/-- What the name of a sample adds to that of the family. -/
def ending : SuppliedKind → String
  | .counter => Family.totalSuffix
  | .gauge => ""

end SuppliedKind

/-- A labelled metric with one supplier for each accepted combination of label values. -/
structure Supplied where
  kind : SuppliedKind
  name : String
  help : String
  labels : List String
  suppliers : Index (List String) SupplierId

namespace Supplied

/-- Accepts a combination of label values that is not there yet. -/
def add (s : Supplied) (values : List String) (supplier : SupplierId) : Except Fault Supplied :=
  if values ∈ s.suppliers then .error (.combinationTaken s.name values)
  else .ok { s with suppliers := s.suppliers.put values supplier }

def familyName (s : Supplied) : String := s.kind.familyName s.name

def family (s : Supplied) (samples : List Sample) : Except Fault Family :=
  Family.declare s.kind.familyType s.familyName s.help samples

def sample (s : Supplied) (values : List String) (x : Option Number) : Sample :=
  ⟨s.familyName ++ s.kind.ending, Labels.zip s.labels values, x⟩

end Supplied

inductive Collector where
  | instrument (i : Instrument)
  | gauge (name help : String) (supplier : SupplierId)
  | supplied (s : Supplied)
  | summary (name help : String) (supplier : SupplierId)
  | caches (stem : String) (attached : Index String CacheId)
  | fixed (families : List Family)

namespace Collector

/-- The samples of a gauge: one, unless there is no value. -/
def gaugeSamples (name : String) : Option Number → List Sample
  | none => []
  | some x => [⟨name, ∅, some x⟩]

/-- The samples of an external summary: its quantiles, its count, its sum. -/
def digestSamples (name : String) (d : Digest) : List Sample :=
  d.quantiles.map (fun q =>
      ⟨name, (∅ : Labels).put "quantile" (Decimal.quantileText q.level), some q.value⟩)
    ++ [⟨name ++ "_count", ∅, some (.whole d.count)⟩, ⟨name ++ "_sum", ∅, some d.sum⟩]

def cacheSample (name cache : String) (n : Int) : Sample :=
  ⟨name, (∅ : Labels).put "cache" cache, some (.whole n)⟩

/-- What the five families of a cache collector add to its stem. -/
def cacheEndings : List String :=
  ["cache_hit", "cache_miss", "cache_requests", "cache_size", "cache_max_size"]

/-- The families of a cache collector, one sample of each for every cache; a cache without a bound
has no capacity to show. -/
def cacheFamilies (stem : String) (caches : List (String × CacheInfo)) : List Family :=
  let counter (ending help : String) (number : CacheInfo → Int) : Family :=
    ⟨stem ++ ending, .counter, help,
      caches.map fun c => cacheSample (stem ++ ending ++ Family.totalSuffix) c.1 (number c.2)⟩
  [counter "cache_hit" "Cache hit totals" (·.hits),
   counter "cache_miss" "Cache miss totals" (·.misses),
   counter "cache_requests" "Cache request totals" fun c => c.hits + c.misses,
   ⟨stem ++ "cache_size", .gauge, "Current number of cached entries",
     caches.map fun c => cacheSample (stem ++ "cache_size") c.1 c.2.size⟩,
   ⟨stem ++ "cache_max_size", .gauge, "Configured cache capacity",
     caches.filterMap fun c =>
       c.2.capacity.map fun n => cacheSample (stem ++ "cache_max_size") c.1 n⟩]

/-- The names of the families that a collector gives whenever it gives any. -/
def familyNames : Collector → List String
  | .instrument i => [i.familyName]
  | .gauge name _ _ => [name]
  | .supplied s => [s.familyName]
  | .summary name _ _ => [name]
  | .caches stem _ => cacheEndings.map fun ending => stem ++ ending
  | .fixed families => families.map (·.name)

end Collector

end Metering
