import Metering.Proofs.Enrolment
import Metering.Proofs.StreamItinerary
import Metering.System.Reading

/-!
# Reading page by page

What a stream would give if it were read to its end at once (`Stream.remaining`). Before the first
pull these are the observations of the system (`System.observations_eq_remaining`). A pull takes its
page from the front of them and leaves the others to the stream as it is afterwards
(`Stream.remaining_pull`), so nothing is lost or read twice at the border of two pages.
-/

namespace Metering

open Operation Metering.System

namespace Stream

/-- The observation of a sample, read under a category. -/
def observed (s : System) (c : Category) (x : FamilySample) : Observation :=
  .ofSample s.book c x.1 x.2

/-- The observations of collectors, read under a category. -/
def ofCollectors (s : System) (c : Category) : List CollectorId → Action (List Observation)
  | [] => return []
  | k :: ks => do
    let own := (familySamples (← Site.collect k)).map (observed s c)
    return own ++ (← ofCollectors s c ks)

/-- The observations of categories. -/
def ofCategories (s : System) : List Category → Action (List Observation)
  | [] => return []
  | c :: cs => do
    let own ← ofCollectors s c (s.roster.ofCategory c)
    return own ++ (← ofCategories s cs)

/-- The observations from a position on. -/
def fromPosition (s : System) (p : StreamPosition) : Action (List Observation) := do
  let own ← ofCollectors s p.category p.collectors
  return p.pending.map (observed s p.category) ++ own ++ (← ofCategories s p.later)

/-- The observations that a stream has still to give. -/
def remaining (s : System) : Stream → Action (List Observation)
  | .unopened scope => ofCategories s (planned s.roster scope)
  | .reading p => fromPosition s p
  | .finished => return []

section Remaining

variable (s : System)

lemma ofCollectors_eq (c : Category) (ks : List CollectorId) :
    ofCollectors s c ks = do
      match ← withinCategory ks with
      | none => return []
      | some (x, rest, later) =>
        return (x :: rest).map (observed s c) ++ (← ofCollectors s c later) := by
  induction ks with
  | nil => rfl
  | cons k ks ih =>
    simp only [ofCollectors, withinCategory, bind_assoc]
    refine bind_congr fun families => ?_
    cases familySamples families with
    | nil => simpa using ih
    | cons x rest => simp

/-- The first sample of categories comes first, and what is ahead of its position follows. -/
lemma ofCategories_eq (cs : List Category) :
    ofCategories s cs = do
      match ← acrossCategories s.roster cs with
      | none => return []
      | some (x, p) => return observed s p.category x :: (← fromPosition s p) := by
  induction cs with
  | nil => rfl
  | cons c cs ih =>
    rw [ofCategories, ofCollectors_eq]
    simp only [acrossCategories, bind_assoc]
    refine bind_congr fun found => ?_
    cases found with
    | none => simpa using ih
    | some x => simp [fromPosition]

/-- What a stream has still to give begins with its next sample. -/
lemma remaining_locate (stream : Stream) :
    remaining s stream = do
      match ← stream.locate s.roster with
      | none => return []
      | some (x, p) => return observed s p.category x :: (← fromPosition s p) := by
  cases stream with
  | finished => rfl
  | unopened scope => cases scope <;> exact ofCategories_eq s _
  | reading p =>
    rw [remaining, fromPosition, locate]
    cases p.pending with
    | cons x rest => simp [fromPosition]
    | nil =>
      rw [ofCollectors_eq]
      simp only [bind_assoc]
      refine bind_congr fun found => ?_
      cases found with
      | none => simpa using ofCategories_eq s p.later
      | some x => simp [fromPosition]

/-- A pull takes its page from the front of what a stream has still to give. -/
lemma remaining_pull (n : Nat) (stream : Stream) :
    remaining s stream = do
      let page ← pull s n stream
      return page.observations ++ (← remaining s page.rest) := by
  induction n generalizing stream with
  | zero => simp [pull]
  | succ n ih =>
    rw [remaining_locate, pull, next]
    simp only [bind_assoc]
    refine bind_congr fun found => ?_
    cases found with
    | none => simp [remaining]
    | some x =>
      have later : remaining s (.reading x.2) = fromPosition s x.2 := rfl
      simp [← later, ih (.reading x.2), observed]

lemma pull_of_remaining {stream : Stream} {u t : Site} {os : List Observation}
    (reads : remaining s stream u = .ok os t) (n : Nat) :
    ∃ page v later, pull s n stream u = .ok page v ∧ remaining s page.rest v = .ok later t
      ∧ os = page.observations ++ later := by
  rw [remaining_pull s n] at reads
  obtain ⟨page, v, pulled, rest⟩ := ok_of_bind_ok reads
  obtain ⟨later, w, follows, ends⟩ := ok_of_bind_ok rest
  cases ends
  exact ⟨page, v, later, pulled, follows, rfl⟩

lemma remaining_of_pull {n : Nat} {stream : Stream} {page : Page} {u v t : Site}
    {later : List Observation} (pulled : pull s n stream u = .ok page v)
    (follows : remaining s page.rest v = .ok later t) :
    remaining s stream u = .ok (page.observations ++ later) t := by
  rw [remaining_pull s n, bind_of_ok pulled, bind_of_ok follows]
  rfl

end Remaining

end Stream

open Metering.Stream

namespace System

/-- Two operations that do the same as actions, one after the other, do together the same as one
action. -/
lemma bind_eq_ofAction {α β : Type} {y : Operation α} {g : α → Operation β} {x : Action α}
    {f : α → Action β} {d : Deployment} (first : y d = ofAction x d)
    (second : ∀ a t, g a { d with site := t } = ofAction (f a) { d with site := t }) :
    (y >>= g) d = ofAction (x >>= f) d := by
  cases h : x d.site with
  | ok a t =>
    rw [ofAction_ok h] at first
    rw [bind_of_ok first, second a t, ofAction, ofAction, bind_of_ok h]
  | error fault t =>
    rw [ofAction_error h] at first
    rw [bind_of_error first, ofAction, bind_of_error h]

lemma ofFamilies_eq_observed (s : System) (c : Category) (families : List Family) :
    Observation.ofFamilies s.book c families = (familySamples families).map (observed s c) := by
  simp [Observation.ofFamilies, familySamples, List.map_flatMap, observed, Function.comp_def]

lemma observationsOf_eq_ofAction (c : Category) (ks : List CollectorId) (d : Deployment) :
    observationsOf c ks d = ofAction (ofCollectors d.system c ks) d := by
  induction ks generalizing d with
  | nil => rfl
  | cons k ks ih =>
    refine bind_eq_ofAction rfl fun families t => ?_
    rw [bind_system, ofFamilies_eq_observed]
    exact bind_eq_ofAction (ih _) fun _ _ => rfl

lemma observationsIn_eq_ofAction (cs : List Category) (d : Deployment) :
    observationsIn cs d = ofAction (ofCategories d.system cs) d := by
  induction cs generalizing d with
  | nil => rfl
  | cons c cs ih =>
    rw [observationsIn, bind_system]
    exact bind_eq_ofAction (observationsOf_eq_ofAction c _ d) fun own t =>
      bind_eq_ofAction (ih _) fun _ _ => rfl

/-- The observations of a system are what a stream gives that is opened now and read to its end. -/
lemma observations_eq_remaining (scope : Option Category) (d : Deployment) :
    observations scope d = ofAction (remaining d.system (.unopened scope)) d := by
  cases scope <;> exact observationsIn_eq_ofAction _ d

end System

end Metering
