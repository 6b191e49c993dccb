import Metering.Proofs.EnrolmentInvariants
import Metering.System.Reading

/-!
# Runs of a system

A run is any sequence of calls of one system, in whatever order and with whatever outcome, with
anything in between that others do to the site. It remembers every call with the deployment that
the call found (`Moment`), so that a later state can be related to what was asked for before. Every
call but a shutdown only enrols offers (`Call.enrols_perform`).
-/

namespace Metering

open Operation Metering.System

/-- A call of a system, of one of its handles or children, or of a reader. -/
inductive Call where
  | labelled (kind : InstrumentKind) (c : Category) (name help : String) (labels : List String)
  | single (kind : InstrumentKind) (c : Category) (name help : String)
  | supplied (kind : SuppliedKind) (c : Category) (name help : String) (labels : List String)
  | gauge (c : Category) (name help : String) (supplier : SupplierId)
  | summary (c : Category) (name help : String) (supplier : SupplierId)
  | attachCache (c : Category) (name : String) (cache : CacheId)
  | init
  | shutdown
  | childOf (h : Handle) (kind : ChildKind) (values : List String)
  | supply (h : Handle) (supplier : SupplierId) (values : List String)
  | increment (child : Child) (amount : Float)
  | observe (child : Child) (seconds : Float)
  | start (child : Child)
  | stop (timing : Timing)
  | observations (scope : Option Category)
  | pull (n : Nat) (stream : Stream)
  | gather
  | sampleValue (name : String) (labels : Labels)

namespace Call

/-- Carries out the call; what it gives does not matter here. -/
def perform : Call → Operation Unit
  | labelled kind c name help labels => discard (System.labelled kind c name help labels)
  | single kind c name help => discard (System.single kind c name help)
  | supplied kind c name help labels => discard (System.supplied kind c name help labels)
  | gauge c name help supplier => System.gauge c name help supplier
  | summary c name help supplier => System.summary c name help supplier
  | attachCache c name cache => System.attachCache c name cache
  | init => System.init
  | shutdown => System.shutdown
  | childOf h kind values => discard (ofAction (h.labels kind values))
  | supply h supplier values => ofAction (h.supply supplier values)
  | increment child amount => ofAction (child.increment amount)
  | observe child seconds => ofAction (child.observe seconds)
  | start child => discard (ofAction (Timing.start child))
  | stop timing => discard (ofAction timing.stop)
  | observations scope => discard (System.observations scope)
  | pull n stream => do discard (ofAction (Stream.pull (← system) n stream))
  | gather => do discard (ofAction (Site.gather (← system).roster.registry))
  | sampleValue name labels => do
    discard (ofAction (Site.sampleValue (← system).roster.registry name labels))

/-- The collectors that the call may enrol. -/
def offers : Call → List Offer
  | labelled kind c name help labels => [instrumentOffer c (c.external name) help labels kind]
  | single kind c name help => [instrumentOffer c (c.external name) help [] kind]
  | supplied kind c name help labels => [(c, .supplied ⟨kind, c.external name, help, labels, ∅⟩)]
  | gauge c name help supplier => [(c, .gauge (c.external name) help supplier)]
  | summary c name help supplier => [(c, .summary (c.external name) help supplier)]
  | attachCache c _ _ => [(c, .caches c.stem ∅)]
  | init => builtinOffers
  | _ => []

end Call

section Offers

lemma claimsOf_nodup (type : FamilyType) (name : String) : (Family.claimsOf type name).Nodup := by
  have distinct : ("" :: type.suffixes).Nodup := by cases type <;> decide +kernel
  have written : Family.claimsOf type name = ("" :: type.suffixes).map (name ++ ·) := by
    simp [Family.claimsOf]
  rw [written]
  exact distinct.map fun a b h => (String.append_right_inj name).mp h

/-- The names of a cache collector are its stem followed by distinct endings. -/
lemma caches_claims_nodup (stem : String) (attached : Index String CacheId) (describes : Bool) :
    ((Collector.caches stem attached).claims describes).Nodup := by
  let endings := ["cache_hit", "cache_hit_total", "cache_hit_created", "cache_miss",
    "cache_miss_total", "cache_miss_created", "cache_requests", "cache_requests_total",
    "cache_requests_created", "cache_size", "cache_max_size"]
  have distinct : endings.Nodup := by decide +kernel
  cases describes with
  | false => exact List.nodup_nil
  | true =>
    have written : (Collector.caches stem attached).claims true = endings.map (stem ++ ·) := by
      simp [Collector.claims, Collector.outline, Family.claimsOf, FamilyType.suffixes, endings,
        String.append_assoc]
    rw [written]
    exact distinct.map fun a b h => (String.append_right_inj stem).mp h

lemma claims_nodup_of_outline {x : Collector} {type : FamilyType} {name : String}
    (h : x.outline = [(type, name)]) (describes : Bool) : (x.claims describes).Nodup := by
  cases x with
  | instrument i => exact claimsOf_nodup _ _
  | _ =>
    cases describes with
    | false => exact List.nodup_nil
    | true =>
      rw [Collector.claims, if_pos rfl, h, List.flatMap_singleton]
      · exact claimsOf_nodup type name
      · rintro i ⟨⟩

lemma fitting_single {c : Category} {x : Collector}
    (nodup : ∀ describes, (x.claims describes).Nodup) : Fitting [(c, x)] where
  nodup o ho := by
    rw [List.mem_singleton.mp ho]
    exact nodup
  apart := List.pairwise_singleton _ _

lemma fitting_builtin : Fitting builtinOffers where
  nodup := by
    have each : ∀ describes, ∀ x ∈ builtinOffers.map Prod.snd, (x.claims describes).Nodup := by
      decide +kernel
    exact fun o ho describes => each describes o.2 (List.mem_map_of_mem ho)
  apart := by decide +kernel

lemma fitting_offers (call : Call) : Fitting call.offers := by
  have none_offered : Fitting [] := ⟨fun _ h => absurd h List.not_mem_nil, List.Pairwise.nil⟩
  cases call with
  | labelled => exact fitting_single (claims_nodup_of_outline rfl)
  | single => exact fitting_single (claims_nodup_of_outline rfl)
  | supplied => exact fitting_single (claims_nodup_of_outline rfl)
  | gauge => exact fitting_single (claims_nodup_of_outline rfl)
  | summary => exact fitting_single (claims_nodup_of_outline rfl)
  | attachCache => exact fitting_single (caches_claims_nodup _ _)
  | init => exact fitting_builtin
  | _ => exact none_offered

end Offers

/-- Nothing has changed but the activity of the site. -/
structure Deployment.Reads (d e : Deployment) : Prop where
  system : e.system = d.system
  site : d.site.OnlyActivity e.site

instance : IsPreorder Deployment Deployment.Reads where
  refl _ := ⟨rfl, Std.Refl.refl _⟩
  trans _ _ _ hde hef := ⟨hef.system.trans hde.system, IsTrans.trans _ _ _ hde.site hef.site⟩

lemma Deployment.Reads.discreet {d e : Deployment} (h : d.Reads e) : d.Discreet e := by
  refine ⟨⟨by rw [h.system], h.site.aside⟩, ?_⟩
  rw [Deployment.SameNotes, h.system]

namespace System

lemma ofAction_reads {α : Type} {a : Action α} (h : Moves Site.OnlyActivity a) :
    Moves Deployment.Reads (ofAction a) := by
  intro d
  rw [endOf_ofAction]
  exact ⟨rfl, h d.site⟩

lemma observationsOf_reads (c : Category) (ks : List CollectorId) :
    Moves Deployment.Reads (observationsOf c ks) := by
  induction ks with
  | nil => exact Moves.pure _
  | cons k ks ih =>
    exact (ofAction_reads (Site.collect_moves k)).bind fun _ => system_moves.bind fun _ =>
      ih.bind fun _ => Moves.pure _

lemma observationsIn_reads (cs : List Category) : Moves Deployment.Reads (observationsIn cs) := by
  induction cs with
  | nil => exact Moves.pure _
  | cons c cs ih =>
    exact system_moves.bind fun _ => (observationsOf_reads c _).bind fun _ =>
      ih.bind fun _ => Moves.pure _

lemma observations_reads (scope : Option Category) :
    Moves Deployment.Reads (observations scope) := by
  cases scope with
  | some c => exact observationsIn_reads [c]
  | none => exact system_moves.bind fun _ => observationsIn_reads _

end System

lemma discard_eq {α : Type} (x : Operation α) (d : Deployment) :
    discard x d = match x d with
      | .ok _ e => .ok () e
      | .error fault e => .error fault e := by
  change (Function.const α () <$> x) d = _
  rw [← bind_pure_comp]
  cases h : x d with
  | ok a e => exact (bind_of_ok h _).trans rfl
  | error fault e => exact bind_of_error h _

lemma endOf_discard {α : Type} (x : Operation α) (d : Deployment) :
    endOf (discard x d) = endOf (x d) := by
  rw [discard_eq]
  cases x d <;> rfl

namespace Call

/-- The call can change neither the book nor the handles of the system. -/
def IsDiscreet : Call → Prop
  | labelled .. | single .. | supplied .. | shutdown => False
  | _ => True

/-- A discreet call enrols some of its offers, and nothing else happens to the lists or the
notes. -/
lemma enrols_of_discreet {call : Call} (h : call.IsDiscreet) :
    Moves (Enrols Deployment.Discreet call.offers) call.perform := by
  have discarded : ∀ {α : Type} {x : Operation α}, Moves Deployment.Discreet x →
      Moves (Enrols Deployment.Discreet call.offers) (discard x) :=
    fun hx => enrols_of_work hx.discard
  have reading : ∀ {α : Type} {x : Operation α}, Moves Deployment.Reads x →
      Moves Deployment.Discreet x := fun hx => hx.mono fun _ _ => (·.discreet)
  cases call with
  | labelled | single | supplied | shutdown => exact absurd h id
  | gauge c name help supplier => exact gauge_enrols c name help supplier
  | summary c name help supplier => exact summary_enrols c name help supplier
  | attachCache c name cache => exact attachCache_enrols c name cache
  | init => exact init_enrols
  | childOf handle kind values =>
    exact discarded (ofAction_discreet (handle.labels_aside kind values))
  | supply handle supplier values =>
    exact enrols_of_work (ofAction_discreet (handle.supply_aside supplier values))
  | increment child amount =>
    exact enrols_of_work (ofAction_discreet (child.increment_aside amount))
  | observe child seconds => exact enrols_of_work (ofAction_discreet (child.record_aside seconds))
  | start child => exact discarded (ofAction_discreet (Timing.start_aside child))
  | stop timing => exact discarded (ofAction_discreet timing.stop_aside)
  | observations scope => exact discarded (reading (observations_reads scope))
  | pull n stream =>
    exact enrols_of_work (system_moves.bind fun s =>
      (reading (ofAction_reads (Stream.pull_moves s n stream))).discard)
  | gather =>
    exact enrols_of_work (system_moves.bind fun s =>
      (reading (ofAction_reads (Site.gather_moves _))).discard)
  | sampleValue name labels =>
    exact enrols_of_work (system_moves.bind fun s =>
      (reading (ofAction_reads (Site.sampleValue_moves _ name labels))).discard)

/-- A shutdown aside, a call enrols some of its offers and does nothing else to the lists. -/
lemma enrols_perform {call : Call} (h : call ≠ shutdown) :
    Moves (Enrols Deployment.Aside call.offers) call.perform := by
  have discarded : ∀ {α : Type} {x : Operation α}, Moves (Enrols Deployment.Aside call.offers) x →
      Moves (Enrols Deployment.Aside call.offers) (discard x) := by
    intro α x hx d
    rw [endOf_discard]
    exact hx d
  by_cases discreet : call.IsDiscreet
  · exact (enrols_of_discreet discreet).mono fun _ _ h => h.mono (·.aside)
  · cases call with
    | labelled kind c name help labels => exact discarded (labelled_enrols c name help labels kind)
    | single kind c name help => exact discarded (single_enrols c name help kind)
    | supplied kind c name help labels => exact discarded (supplied_enrols c name help labels kind)
    | shutdown => exact absurd rfl h
    | _ => exact absurd trivial discreet

end Call

section Splitting

variable {α : Type} {xs front back : List α} {x y : α}

/-- A list with one more element is split at that element or before it. -/
lemma split_snoc (split : xs ++ [x] = front ++ y :: back) :
    (front = xs ∧ y = x ∧ back = []) ∨ ∃ back', back = back' ++ [x] ∧ xs = front ++ y :: back' := by
  rcases List.eq_nil_or_concat back with rfl | ⟨back', z, rfl⟩
  · obtain ⟨same, last⟩ := List.append_inj' split rfl
    exact Or.inl ⟨same.symm, (List.singleton_inj.mp last).symm, rfl⟩
  · have inner : xs ++ [x] = (front ++ y :: back') ++ [z] := by simp [split]
    obtain ⟨same, last⟩ := List.append_inj' inner rfl
    obtain rfl := List.singleton_inj.mp last
    exact Or.inr ⟨back', by simp, same⟩

/-- What is asked of each element and those before it is asked of the last one and of the list
before it. -/
lemma forall_splits_snoc {P : List α → α → Prop} :
    (∀ front y back, xs ++ [x] = front ++ y :: back → P front y)
      ↔ (∀ front y back, xs = front ++ y :: back → P front y) ∧ P xs x := by
  constructor
  · refine fun all => ⟨fun front y back split => all front y (back ++ [x]) ?_, all xs x [] rfl⟩
    rw [split, List.append_assoc, List.cons_append]
  · rintro ⟨before, last⟩ front y back split
    rcases split_snoc split with ⟨rfl, rfl, -⟩ | ⟨back, -, inner⟩
    · exact last
    · exact before front y back inner

end Splitting

/-- A call with the deployment that it found. -/
structure Moment where
  before : Deployment
  call : Call

namespace Moment

/-- The deployment after the call. -/
def after (m : Moment) : Deployment := endOf (m.call.perform m.before)

lemma after_discard {α : Type} {x : Operation α} {d : Deployment} {call : Call}
    (same : call.perform = discard x) : after ⟨d, call⟩ = endOf (x d) := by
  rw [after, same, endOf_discard]

/-- The call registered the collector under the category. -/
def Registers (m : Moment) (c : Category) (k : CollectorId) : Prop :=
  m.before.site.collectors.length ≤ k.index ∧ k ∈ m.after.listed c

lemma after_shutdown (d : Deployment) : after ⟨d, .shutdown⟩ = endOf (System.shutdown d) := rfl

lemma enrols {m : Moment} (h : m.call ≠ .shutdown) :
    Enrols Deployment.Aside m.call.offers m.before m.after :=
  Call.enrols_perform h m.before

lemma grows (m : Moment) : m.before.site.Grows m.after.site := by
  obtain ⟨d, call⟩ := m
  by_cases h : call = .shutdown
  · subst h
    exact (rearranged_shutdown d).grows
  · exact (enrols h).grows

lemma suppliers (m : Moment) : m.after.site.suppliers = m.before.site.suppliers := by
  obtain ⟨d, call⟩ := m
  by_cases h : call = .shutdown
  · subst h
    exact (rearranged_shutdown d).suppliers
  · exact (enrols h).suppliers

lemma registry (m : Moment) : m.after.system.roster.registry = m.before.system.roster.registry := by
  obtain ⟨d, call⟩ := m
  by_cases h : call = .shutdown
  · subst h
    rw [after_shutdown, roster_shutdown]
    rfl
  · exact (enrols h).registry

lemma tidy {m : Moment} (tidy : m.before.system.roster.Tidy m.before.site) :
    m.after.system.roster.Tidy m.after.site := by
  obtain ⟨d, call⟩ := m
  by_cases h : call = .shutdown
  · subst h
    rw [after_shutdown, roster_shutdown]
    exact tidy_vacant _ _
  · exact (enrols h).tidy tidy

/-- Nothing comes to be listed but what the call registers. -/
lemma listed_after {m : Moment} {c : Category} {k : CollectorId} (hk : k ∈ m.after.listed c) :
    m.call ≠ .shutdown ∧ (k ∈ m.before.listed c
      ∨ m.Registers c k ∧ (c, (m.after.site.collector k).declared) ∈ m.call.offers) := by
  obtain ⟨d, call⟩ := m
  by_cases h : call = .shutdown
  · subst h
    rw [Deployment.listed, after_shutdown, roster_shutdown] at hk
    exact absurd hk List.not_mem_nil
  · refine ⟨h, ((enrols h).listed_of_new hk).imp_right fun new => ?_⟩
    exact ⟨⟨new.1, hk⟩, new.2⟩

/-- What a call registers is one of its offers. -/
lemma offered_of_registers {m : Moment} {c : Category} {k : CollectorId}
    (tidy : m.before.system.roster.Tidy m.before.site) (registered : m.Registers c k) :
    (c, (m.after.site.collector k).declared) ∈ m.call.offers := by
  rcases (listed_after registered.2).2 with old | ⟨-, offered⟩
  · have placed := tidy.placed old
    have late := registered.1
    omega
  · exact offered

lemma sound {m : Moment} (sound : m.before.Sound) : m.after.Sound := by
  obtain ⟨d, call⟩ := m
  by_cases h : call = .shutdown
  · subst h
    exact sound_shutdown sound
  · exact (enrols h).sound (fitting_offers call).nodup sound

lemma sole {m : Moment} (sound : m.before.Sound)
    (sole : m.before.system.roster.Sole m.before.site) :
    m.after.system.roster.Sole m.after.site := by
  obtain ⟨d, call⟩ := m
  by_cases h : call = .shutdown
  · subst h
    exact sole_shutdown sound sole
  · exact (enrols h).sole (fitting_offers call).nodup sound sole

end Moment

/-- The moments of a run and the deployment that it has reached. What others may do to the site
between two calls is a parameter. -/
inductive Run (others : Deployment → Site → Prop) (start : Deployment) :
    List Moment → Deployment → Prop
  | start : Run others start [] start
  | call {ms : List Moment} {d : Deployment} (run : Run others start ms d) (call : Call) :
      Run others start (ms ++ [⟨d, call⟩]) (Moment.after ⟨d, call⟩)
  | others {ms : List Moment} {d : Deployment} {t : Site} (run : Run others start ms d)
      (h : others d t) : Run others start ms { d with site := t }

/-- A site with one supplier, which always answers the same, and one empty registry. -/
def Site.small : Site :=
  { suppliers := [.constant (.value (some 3))], registries := [.vacant true] }

lemma Site.small_calm : Site.small.Calm := by
  intro t ht
  rw [List.mem_singleton.mp ht]
  rintro _ _ _ ⟨⟩

/-- A new system on the small site. -/
def Deployment.small (enabled : List Category) : Deployment :=
  ⟨.fresh (.ofList enabled) true ⟨0⟩, .small⟩

/-- The moments of calls that follow one another. -/
def moments (d : Deployment) : List Call → List Moment
  | [] => []
  | call :: calls => ⟨d, call⟩ :: moments (Moment.after ⟨d, call⟩) calls

/-- The deployment after calls that follow one another. -/
def reached (d : Deployment) : List Call → Deployment
  | [] => d
  | call :: calls => reached (Moment.after ⟨d, call⟩) calls

lemma call_of_mem_moments {d : Deployment} {calls : List Call} {m : Moment}
    (h : m ∈ moments d calls) : m.call ∈ calls := by
  induction calls generalizing d with
  | nil => exact absurd h List.not_mem_nil
  | cons call calls ih =>
    rcases List.mem_cons.mp h with rfl | later
    · exact List.mem_cons_self
    · exact List.mem_cons_of_mem call (ih later)

/-- A counter, and after it a gauge whose family has the same name. -/
def replacement : List Call :=
  [.labelled .counter ⟨"shop", none⟩ "jobs" "h" [], .gauge ⟨"shop", none⟩ "jobs" "h" ⟨0⟩]

/-- A system after those calls. -/
def replaced : Deployment := reached (.small [⟨"shop", none⟩]) replacement

namespace Run

variable {others : Deployment → Site → Prop} {start d : Deployment} {ms : List Moment}

/-- An invariant that every call keeps, and the others too, holds after every run. -/
lemma invariant {P : Deployment → Prop} (run : Run others start ms d) (first : P start)
    (called : ∀ m : Moment, P m.before → P m.after)
    (disturbed : ∀ d t, P d → others d t → P { d with site := t }) : P d := by
  induction run with
  | start => exact first
  | call _ call ih => exact called _ ih
  | others _ h ih => exact disturbed _ _ ih h

/-- What a call of the run found was reached by a run. -/
lemma before (run : Run others start ms d) {m : Moment} (hm : m ∈ ms) :
    ∃ earlier, Run others start earlier m.before := by
  induction run with
  | start => exact absurd hm List.not_mem_nil
  | @call ms d run call ih =>
    rcases List.mem_append.mp hm with old | new
    · exact ih old
    · rw [List.mem_singleton.mp new]
      exact ⟨ms, run⟩
  | others _ _ ih => exact ih hm

section Growing

variable (run : Run others start ms d) (growing : ∀ d t, others d t → d.site.Grows t)

include run growing

lemma tidy (first : start.system.roster.Tidy start.site) : d.system.roster.Tidy d.site :=
  run.invariant (P := fun d => d.system.roster.Tidy d.site) first (fun _ h => Moment.tidy h)
    fun _ _ h disturbed => h.grows (growing _ _ disturbed)

/-- What was declared when a call had been made is declared from then on. -/
lemma after_grows {m : Moment} (hm : m ∈ ms) : m.after.site.Grows d.site := by
  induction run with
  | start => exact absurd hm List.not_mem_nil
  | @call ms d _ call ih =>
    rcases List.mem_append.mp hm with old | new
    · exact IsTrans.trans _ _ _ (ih old) (Moment.grows ⟨d, call⟩)
    · rw [List.mem_singleton.mp new]
      exact Std.Refl.refl _
  | others _ h ih => exact IsTrans.trans _ _ _ (ih hm) (growing _ _ h)

lemma before_tidy (first : start.system.roster.Tidy start.site) {m : Moment} (hm : m ∈ ms) :
    m.before.system.roster.Tidy m.before.site := by
  obtain ⟨earlier, reaching⟩ := run.before hm
  exact reaching.tidy growing first

/-- A collector that was registered once has its place from then on. -/
lemma placed (first : start.system.roster.Tidy start.site) {m : Moment} (hm : m ∈ ms)
    {c : Category} {k : CollectorId} (registered : m.Registers c k) :
    k.index < d.site.collectors.length := by
  have placed := (Moment.tidy (run.before_tidy growing first hm)).placed registered.2
  have room := (run.after_grows growing hm).room
  omega

/-- It is still declared as it was offered. -/
lemma offered_of_registers (first : start.system.roster.Tidy start.site) {m : Moment} (hm : m ∈ ms)
    {c : Category} {k : CollectorId} (registered : m.Registers c k) :
    (c, (d.site.collector k).declared) ∈ m.call.offers := by
  have before := run.before_tidy growing first hm
  have placed := (Moment.tidy before).placed registered.2
  rw [(run.after_grows growing hm).declared k placed]
  exact Moment.offered_of_registers before registered

end Growing

lemma append_calls (run : Run others start ms d) (calls : List Call) :
    Run others start (ms ++ moments d calls) (reached d calls) := by
  induction calls generalizing ms d with
  | nil =>
    rw [moments, List.append_nil]
    exact run
  | cons call calls ih =>
    have next := ih (run.call call)
    rwa [List.append_assoc, List.singleton_append] at next

lemma of_calls (others : Deployment → Site → Prop) (d : Deployment) (calls : List Call) :
    Run others d (moments d calls) (reached d calls) := start.append_calls calls

end Run

end Metering
