import Metering.Data.Distinct
import Metering.Site

/-!
# Collecting

Collecting a collector notes it, asks each of its suppliers once, in order, and looks once into each
of its caches. A gauge and an external summary ask before their family is made, a supplied metric
makes its family first; so of two faults it is the one that comes first that shows.
-/

namespace Metering.Site

/-- Asks a supplier. What it raises becomes the fault of the action. -/
def ask (i : SupplierId) : Action Answer := do
  let answer := (← get).nextAnswer i
  note (.asked i)
  match answer with
  | .raises alarm message => throw (.raised alarm message)
  | a => return a

def askValue (i : SupplierId) : Action (Option Number) := do
  match ← ask i with
  | .value x => return x
  | _ => return none

def askDigest (i : SupplierId) (name : String) : Action (List Sample) := do
  match ← ask i with
  | .digest d => return Collector.digestSamples name d
  | _ => return []

def inspect (i : CacheId) : Action CacheInfo := do
  note (.inspected i)
  return (← get).cache i

/-- Asks the suppliers of a supplied metric, combination by combination. -/
def askAll (m : Supplied) : List (List String × SupplierId) → Action (List Sample)
  | [] => return []
  | (values, i) :: rest => do
    let x ← askValue i
    let samples ← askAll m rest
    return m.sample values x :: samples

def inspectAll : List (String × CacheId) → Action (List (String × CacheInfo))
  | [] => return []
  | (name, i) :: rest => do
    let info ← inspect i
    let others ← inspectAll rest
    return (name, info) :: others

def familiesOf : Collector → Action (List Family)
  | .instrument i => return [i.family]
  | .gauge name help supplier => do
    let x ← askValue supplier
    return [← ofExcept (Family.declare .gauge name help (Collector.gaugeSamples name x))]
  | .supplied m => do
    -- a metric without a name asks nobody
    let empty ← ofExcept (m.family [])
    let samples ← askAll m m.suppliers.entries
    return [{ empty with samples := samples }]
  | .summary name help supplier => do
    let samples ← askDigest supplier name
    return [← ofExcept (Family.declare .summary name help samples)]
  | .caches stem attached => do
    let caches ← inspectAll attached.entries
    return Collector.cacheFamilies stem caches
  | .fixed families => return families

def collect (k : CollectorId) : Action (List Family) := do
  note (.collected k)
  familiesOf ((← get).collector k)

def collectAll : List CollectorId → Action (List Family)
  | [] => return []
  | k :: ks => do
    let families ← collect k
    let others ← collectAll ks
    return families ++ others

/-- The names of the families that a collector gives now. -/
def familyNames (k : CollectorId) : Action (Distinct String) := do
  return .ofList ((← collect k).map (·.name))

end Metering.Site
