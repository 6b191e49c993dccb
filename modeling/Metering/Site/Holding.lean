import Metering.Site.Collecting

/-!
# Holding collectors in registries

The names that a collector claims are known from an instrument's declaration; from any other
collector only a registry that describes learns them, by collecting it.
-/

namespace Metering.Site

def claimsOf (r : RegistryId) (k : CollectorId) : Action (List String) := do
  let s ← get
  match s.collector k with
  | .instrument i => return i.family.claims
  | _ => if (s.registry r).describes then return (← collect k).flatMap Family.claims else return []

/-- Puts a collector into a registry unless one of its names is taken. -/
def hold (r : RegistryId) (k : CollectorId) : Action Unit := do
  let names ← claimsOf r k
  let registry := (← get).registry r
  let taken := registry.taken names
  if taken.isEmpty then modify fun s => s.withRegistry r (registry.enter k names)
  else throw (.namesTaken taken)

/-- Releases a collector from a registry. Names that were freed before the release stopped stay
free, and the collector stays. -/
def release (r : RegistryId) (k : CollectorId) : Action Unit := do
  let registry := (← get).registry r
  match registry.held.get? k with
  | none => throw .notHeld
  | some names =>
    match Registry.free names registry.owners with
    | (some missing, owners) =>
      modify fun s => s.withRegistry r { registry with owners := owners }
      throw (.nameNotHeld missing)
    | (none, owners) =>
      modify fun s =>
        s.withRegistry r { registry with held := registry.held.erase k, owners := owners }

def releaseAll (r : RegistryId) (ks : List CollectorId) : Action Unit := ks.forM (release r)

def holdAll (r : RegistryId) (ks : List CollectorId) : Action Unit := ks.forM (hold r)

def gather (r : RegistryId) : Action (List Family) := do
  collectAll ((← get).registry r).collectors

/-- The value of the first sample with a name and exactly the given labels. The collectors after
the one that has it are not collected. -/
def firstValue (name : String) (labels : Labels) : List CollectorId → Action (Option Number)
  | [] => return none
  | k :: ks => do
    let samples := (← collect k).flatMap (·.samples)
    match samples.find? fun s => s.name = name && s.labels.sameEntries labels with
    | some s => return s.value
    | none => firstValue name labels ks

def sampleValue (r : RegistryId) (name : String) (labels : Labels) : Action (Option Number) := do
  firstValue name labels ((← get).registry r).collectors

end Metering.Site
