import Metering.System.Reading

/-!
# Streams of observations

A stream reads the observations of a system bit by bit: nothing is collected before the first pull,
the categories are listed at the first pull, the collectors of a category are those listed when it
is reached, and each is collected when it is reached. A sample is turned into an observation when
it is pulled, with the names that the book holds then.
-/

namespace Metering

abbrev FamilySample := Family × Sample

def familySamples (fs : List Family) : List FamilySample :=
  fs.flatMap fun f => f.samples.map fun s => (f, s)

/-- Where a stream stands: samples of the current collector that are still to come, then the
collectors of the category, then the later categories. -/
structure StreamPosition where
  category : Category
  pending : List FamilySample
  collectors : List CollectorId
  later : List Category

/-- A stream over one category or over all. -/
inductive Stream where
  | unopened (scope : Option Category)
  | reading (position : StreamPosition)
  | finished

namespace Stream

/-- Collects until a sample turns up: gives it with the samples after it and the collectors that
are left. -/
def withinCategory :
    List CollectorId → Action (Option (FamilySample × List FamilySample × List CollectorId))
  | [] => return none
  | k :: ks => do
    match familySamples (← Site.collect k) with
    | [] => withinCategory ks
    | x :: rest => return some (x, rest, ks)

/-- Goes through categories until a sample turns up: gives it with the position after it. -/
def acrossCategories (r : Roster) :
    List Category → Action (Option (FamilySample × StreamPosition))
  | [] => return none
  | c :: cs => do
    match ← withinCategory (r.ofCategory c) with
    | some (x, rest, ks) => return some (x, ⟨c, rest, ks, cs⟩)
    | none => acrossCategories r cs

def locate (r : Roster) : Stream → Action (Option (FamilySample × StreamPosition))
  | .unopened (some c) => acrossCategories r [c]
  | .unopened none => acrossCategories r r.categories
  | .finished => return none
  | .reading p =>
    match p.pending with
    | x :: rest => return some (x, { p with pending := rest })
    | [] => do
      match ← withinCategory p.collectors with
      | some (x, rest, ks) => return some (x, { p with pending := rest, collectors := ks })
      | none => acrossCategories r p.later

def next (s : System) (stream : Stream) : Action (Option Observation × Stream) := do
  match ← stream.locate s.roster with
  | none => return (none, .finished)
  | some ((f, x), p) => return (some (.ofSample s.book p.category f x), .reading p)

/-- What was pulled, whether the end was met, and the stream as it is now. -/
structure Page where
  observations : List Observation
  done : Bool
  rest : Stream

/-- Pulls up to `n` observations. -/
def pull (s : System) : Nat → Stream → Action Page
  | 0, stream => return ⟨[], false, stream⟩
  | n + 1, stream => do
    match ← stream.next s with
    | (none, rest) => return ⟨[], true, rest⟩
    | (some o, rest) => do
      let page ← pull s n rest
      return { page with observations := o :: page.observations }

end Stream

end Metering
