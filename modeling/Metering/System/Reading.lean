import Metering.Observation
import Metering.System

/-!
# Reading a system

The observations of a system are those of its collectors, category by category and collector by
collector, each collected when its turn comes.
-/

namespace Metering

namespace System

def observationsOf (c : Category) : List CollectorId → Operation (List Observation)
  | [] => return []
  | k :: ks => do
    let families ← Site.collect k
    let own := Observation.ofFamilies (← Operation.system).book c families
    return own ++ (← observationsOf c ks)

def observationsIn : List Category → Operation (List Observation)
  | [] => return []
  | c :: cs => do
    let own ← observationsOf c ((← Operation.system).roster.ofCategory c)
    return own ++ (← observationsIn cs)

/-- All observations of one category or of all. -/
def observations (scope : Option Category) : Operation (List Observation) := do
  match scope with
  | some c => observationsIn [c]
  | none => observationsIn (← Operation.system).roster.categories

end System

end Metering
