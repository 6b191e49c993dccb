import Metering.Category
import Metering.Site.Holding
import Metering.Text.Order

/-!
# Rosters

A roster lists the collectors of each category and keeps a registry in step with the lists. Within a
category no two collectors give a family of the same name: a new collector displaces those that
share a family name with it. If the registry then refuses the new one, the displaced ones are
put back; a failure of another kind leaves them out of the registry, though still listed.
-/

namespace Metering

/-- The collectors of each category, in order of registration, and the registry they are held by. -/
structure Roster where
  registry : RegistryId
  listed : Index Category (List CollectorId)
  deriving DecidableEq

namespace Roster

def vacant (r : RegistryId) : Roster := ⟨r, ∅⟩

def ofCategory (r : Roster) (c : Category) : List CollectorId := r.listed.getD c []

/-- The categories in the order in which they were first registered under. -/
def categories (r : Roster) : List Category := r.listed.keys

def collectors (r : Roster) : List CollectorId := r.listed.values.flatten

def overlaps (a : List String) (b : Distinct String) : Bool := a.any fun name => decide (name ∈ b)

/-- Collects the given collectors in order and parts them into those that share a family name with
`names` and those that do not. -/
def partAll (names : Distinct String) :
    List CollectorId → Action (List CollectorId × List CollectorId)
  | [] => return ([], [])
  | k :: ks => do
    let own ← Site.familyNames k
    let (displaced, kept) ← partAll names ks
    return if overlaps names.toList own then (k :: displaced, kept) else (displaced, k :: kept)

/-- Puts displaced collectors back if a value was refused, and passes the fault on. -/
def restore (r : RegistryId) (displaced : List CollectorId) (fault : Fault) : Action Unit :=
  if fault.isRefusal then do
    Site.holdAll r displaced
    throw fault
  else throw fault

def exchange (r : RegistryId) (displaced : List CollectorId) (k : CollectorId) : Action Unit := do
  Site.releaseAll r displaced
  tryCatch (Site.hold r k) (restore r displaced)

def reportReplaced (c : Category) (names : Distinct String) (displaced : List CollectorId) :
    Action Unit :=
  match displaced with
  | [] => return
  | _ :: _ => Site.report (.replaced c.name (Text.ascending names.toList) displaced.length)

/-- The roster in which `k` comes after the kept collectors of its category. -/
def publish (r : Roster) (c : Category) (kept : List CollectorId) (k : CollectorId) : Roster :=
  { r with listed := r.listed.put c (kept ++ [k]) }

/-- Registers a collector under a category. Gives the new roster; a failure leaves the old one. -/
def register (r : Roster) (c : Category) (k : CollectorId) : Action Roster := do
  let names ← Site.familyNames k
  let (displaced, kept) ← partAll names (r.ofCategory c)
  exchange r.registry displaced k
  reportReplaced c names displaced
  return r.publish c kept k

/-- Releases every listed collector. The roster is empty from then on, also when this fails. -/
def dismiss (r : Roster) : Action Unit := do
  Site.releaseAll r.registry r.collectors
  Site.report (.cleared r.listed.size)

def emptied (r : Roster) : Roster := vacant r.registry

end Roster

end Metering
