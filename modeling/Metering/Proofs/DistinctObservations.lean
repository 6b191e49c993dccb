import Metering.Proofs.DisplacedHandles
import Metering.Proofs.PastIndependence
import Metering.Proofs.WellLabelledMetrics

/-!
# Telling observations apart

While nobody names a label twice or a counter `total`, and every handle that is used was given by
the system, the listed collectors stay presentable and the handles fit (`Deployment.Orderly`,
`Run.orderly`). If the registry describes, it lets in no name that a listed collector claims; so no
two observations of a category have the same metric and the same label values
(`addresses_nodup`).
-/

namespace Metering

open Site Operation Metering.System

/-- The listed collectors are presentable, and the handles that are kept fit. -/
structure Deployment.Orderly (d : Deployment) : Prop where
  listed : ∀ c, ∀ k ∈ d.listed c,
    k.index < d.site.collectors.length ∧ (d.site.collector k).Presentable c
  kept : ∀ kind external h, (d.system.handles kind).get? external = some h → h.Fits d.site

namespace Deployment

/-- What was orderly still is. -/
def StaysOrderly (d e : Deployment) : Prop := d.Orderly → e.Orderly

instance : IsPreorder Deployment StaysOrderly where
  refl _ h := h
  trans _ _ _ hde hef h := hef (hde h)

variable {d : Deployment} {t : Site}

/-- Nothing has come to be listed or kept while the site went on. -/
lemma Orderly.goes_on {s : System} (orderly : d.Orderly) (fills : d.site.Fills t)
    (listed : ∀ c, ∀ k ∈ s.roster.ofCategory c, k ∈ d.listed c)
    (kept : ∀ kind external h, (s.handles kind).get? external = some h →
      (d.system.handles kind).get? external = some h) : Orderly ⟨s, t⟩ where
  listed c k now := by
    obtain ⟨placed, presentable⟩ := orderly.listed c k (listed c k now)
    refine ⟨Nat.lt_of_lt_of_le placed fills.grows.room, ?_⟩
    exact presentable.goes_on (fills.grows.declared k placed) (fills.complete k placed)
  kept kind external h now := (orderly.kept kind external h (kept kind external h now)).grows
    fills.grows

lemma Orderly.of_fills (orderly : d.Orderly) (fills : d.site.Fills t) :
    Orderly { d with site := t } :=
  orderly.goes_on fills (fun _ _ h => h) fun _ _ _ h => h

lemma orderly_fresh {enabled : Distinct Category} {timers : Bool} {r : RegistryId} {s : Site} :
    Orderly ⟨fresh enabled timers r, s⟩ where
  listed _ _ h := absurd h List.not_mem_nil
  kept kind external h kept := by cases kind <;> cases kept

end Deployment

open Deployment

namespace System

lemma ofAction_orderly {α : Type} {a : Action α} (h : Moves Fills a) :
    Moves StaysOrderly (ofAction a) := by
  intro d orderly
  rw [endOf_ofAction]
  exact orderly.of_fills (h d.site)

lemma change_orderly {f : System → System} (roster : ∀ s, (f s).roster = s.roster)
    (handles : ∀ s kind, (f s).handles kind = s.handles kind) : Moves StaysOrderly (change f) := by
  refine Moves.modify fun d orderly => orderly.goes_on (Std.Refl.refl _) ?_ ?_
  · intro c k now
    rwa [roster] at now
  · intro kind external h now
    rwa [handles] at now

section Creating

variable {c : Category} {name external help : String} {labels : List String} {d e : Deployment}
  {h : Handle}

/-- A presentable collector can be enrolled. -/
lemma enroll_orderly {x : Collector} (presentable : x.Presentable c) :
    Moves StaysOrderly (enroll c x) := by
  intro d orderly
  have grows := grows_enroll c x d
  constructor
  · intro c' k now
    rcases listed_of_enroll now with old | ⟨rfl, rfl⟩
    · obtain ⟨placed, presentable⟩ := orderly.listed c' k old
      have same : (endOf (enroll c x d)).site.collector k = d.site.collector k := by
        rw [(rearranged_enroll c x d).collector, collector_withAdded_of_lt placed]
      rw [same]
      exact ⟨Nat.lt_of_lt_of_le placed grows.room, presentable⟩
    · rw [collector_enroll]
      exact ⟨nextPlace_lt_enroll c' x d, presentable⟩
  · intro kind external h now
    rw [(sameNotes_enroll c x d).handles] at now
    exact (orderly.kept kind external h now).grows grows

lemma issue_orderly (use : HandleUse) (arity : Nat) (target : Option CollectorId) :
    Moves StaysOrderly (issue use arity target) :=
  (ofAction_orderly fun s => fills_of_same (s := s) rfl).bind fun _ => Moves.pure _

lemma counterStem_under (c : Category) (word : name ≠ "total") :
    ∃ n, Family.counterStem (c.external name) = c.external n := by
  cases suffixed : Text.endsWith Family.totalSuffix name with
  | true =>
    obtain ⟨front, rfl⟩ := Text.endsWith_iff.mp suffixed
    exact ⟨front, Family.counterStem_of_suffixed c front⟩
  | false => exact ⟨name, Family.counterStem_of_plain word suffixed⟩

/-- What could be declared with different labels is presentable. -/
lemma presentable_of_declare {kind : InstrumentKind} {now : Float} {i : Instrument}
    (nodup : labels.Nodup) (word : kind = .counter → name ≠ "total")
    (declared : Instrument.declare kind (c.external name) help labels now = .ok i) :
    (Collector.instrument i).Presentable c := by
  have own := Instrument.own_of_declare declared
  rw [Instrument.declare] at declared
  split at declared
  · cases declared
  · split at declared
    · cases declared
    · cases declared
      refine ⟨?_, ⟨nodup, own⟩, fun values member => ?_⟩
      · refine List.forall_mem_singleton.mpr ?_
        cases kind with
        | counter => exact counterStem_under c (word rfl)
        | _ => exact ⟨name, rfl⟩
      · cases labels with
        | nil => rw [List.mem_singleton.mp member]
        | cons => cases member

lemma build_orderly {kind : InstrumentKind} (nodup : labels.Nodup)
    (word : kind = .counter → name ≠ "total") :
    Moves StaysOrderly (build kind c (c.external name) help labels) := by
  refine system_moves.bind fun s => ?_
  split
  · refine Moves.get.bind fun d => Moves.ofExcept_bind fun i declared => ?_
    exact (enroll_orderly (presentable_of_declare nodup word declared)).bind
      fun _ => issue_orderly _ _ _
  · exact (ofAction_orderly fun s => fills_of_same (s := s) rfl).bind fun _ => issue_orderly _ _ _

/-- A new handle fits the collector that was made for it. -/
lemma fits_of_build {kind : InstrumentKind} (orderly : d.Orderly) (after : e.Orderly)
    (built : build kind c external help labels d = .ok h e) : h.Fits e.site := by
  intro k target
  obtain ⟨-, arity, registered⟩ := build_ok built
  obtain ⟨rfl, listed⟩ := registered k target
  have enrols := (build_enrols c external help labels kind).of_ok built
  rcases (enrols.mono (·.aside)).listed_of_new listed with old | ⟨-, offered⟩
  · exact absurd (orderly.listed c _ old).1 (Nat.lt_irrefl _)
  · refine ⟨(after.listed c _ listed).1, ?_⟩
    have declared := congrArg Prod.snd (List.mem_singleton.mp offered)
    change (e.site.collector d.site.nextPlace).declared = _ at declared
    rw [← Collector.width_declared, declared, arity]
    rfl

lemma declaring_orderly {isCounter : Bool} (orderly : d.Orderly) :
    (d.declaring isCounter name).Orderly := by
  cases isCounter with
  | false => exact orderly
  | true =>
    refine orderly.goes_on (Std.Refl.refl _) (fun _ _ h => h) fun kind _ _ h => ?_
    cases kind <;> exact h

/-- Asking for an instrument keeps things orderly, and gives a handle that fits. -/
lemma labelled_orderly {kind : InstrumentKind} (nodup : labels.Nodup)
    (word : kind = .counter → name ≠ "total") (orderly : d.Orderly) :
    (endOf (labelled kind c name help labels d)).Orderly
      ∧ ∀ h e, labelled kind c name help labels d = .ok h e → h.Fits e.site := by
  have declared : (d.declaring (kind == .counter) name).Orderly := declaring_orderly orderly
  have moved : (endOf (build kind c (c.external name) help labels
      (d.declaring (kind == .counter) name))).Orderly := build_orderly nodup word _ declared
  rw [labelled_eq]
  cases kept : (d.system.handles kind).get? (c.external name) with
  | some h =>
    refine ⟨declared, ?_⟩
    rintro _ _ ⟨⟩
    refine declared.kept kind (c.external name) h ?_
    rw [declaring_handles, kept]
  | none =>
    simp only [buildKept_eq]
    cases built : build kind c (c.external name) help labels
        (d.declaring (kind == .counter) name) with
    | error fault e =>
      rw [built] at moved
      exact ⟨moved, fun _ _ h => by cases h⟩
    | ok h e =>
      rw [built] at moved
      have fits := fits_of_build declared moved built
      refine ⟨⟨?_, ?_⟩, ?_⟩
      · intro c' k now
        refine moved.listed c' k ?_
        change k ∈ (e.system.keep kind (c.external name) h).roster.ofCategory c' at now
        rwa [keep_roster] at now
      · intro asked x h' now
        change ((e.system.keep kind (c.external name) h).handles asked).get? x = some h' at now
        rw [get?_keep] at now
        split at now
        · cases now
          exact fits
        · exact moved.kept asked x h' now
      · rintro _ _ ⟨⟩
        exact fits

lemma single_orderly {kind : InstrumentKind} (word : kind = .counter → name ≠ "total") :
    Moves StaysOrderly (single kind c name help) := by
  intro d orderly
  obtain ⟨after, fits⟩ : (endOf (labelled kind c name help [] d)).Orderly
      ∧ ∀ h e, labelled kind c name help [] d = .ok h e → h.Fits e.site :=
    labelled_orderly List.nodup_nil word orderly
  cases run : labelled kind c name help [] d with
  | error fault e =>
    rw [single_of_error run]
    rw [run] at after
    exact after
  | ok h e =>
    rw [run] at after
    have rest : single kind c name help d = ofAction (h.labels kind.childKind []) e :=
      bind_of_ok run _
    rw [rest, endOf_ofAction]
    exact after.of_fills (Handle.labels_fills (fits h e run) _ _)

/-- Creating a supplied metric keeps things orderly, and gives a handle that fits. -/
lemma supplied_orderly {kind : SuppliedKind} (nodup : labels.Nodup)
    (word : kind = .counter → name ≠ "total") (orderly : d.Orderly) :
    (endOf (supplied kind c name help labels d)).Orderly
      ∧ ∀ h e, supplied kind c name help labels d = .ok h e → h.Fits e.site := by
  have declared : (d.declaring (kind == .counter) name).Orderly := declaring_orderly orderly
  have presentable :
      (Collector.supplied ⟨kind, c.external name, help, labels, ∅⟩).Presentable c := by
    refine ⟨List.forall_mem_singleton.mpr ?_, nodup, fun values member => by cases member⟩
    cases kind with
    | counter => exact counterStem_under c (word rfl)
    | gauge => exact ⟨name, rfl⟩
  constructor
  · rw [supplied_eq, provide, bind_system]
    split
    · exact ((enroll_orderly presentable).bind fun _ => issue_orderly _ _ _) _ declared
    · exact issue_orderly _ _ _ _ declared
  · intro h e gave k target
    obtain ⟨-, arity, -, made⟩ := supplied_ok gave
    obtain ⟨-, placed, collector, -⟩ := made k target
    exact ⟨placed, by rw [collector, arity]; rfl⟩

/-- What is only done under an enabled category. -/
lemma ifEnabled_orderly {x : Operation Unit} (h : Moves StaysOrderly x) :
    Moves StaysOrderly (do if (← Operation.system).isEnabled c then x) := by
  refine system_moves.bind fun s => ?_
  split
  · exact h
  · exact Moves.pure _

lemma attachTo_fills (k : CollectorId) (cache : CacheId) : Moves Fills (attachTo k name cache) := by
  refine Moves.modify fun s => ?_
  split
  · next stem attached found =>
    exact withCollector_fills (by rw [found]; rfl) fun _ => trivial
  · exact Std.Refl.refl s

lemma presentable_caches (c : Category) : (Collector.caches c.stem ∅).Presentable c := by
  refine ⟨fun family member => ?_, trivial, trivial⟩
  obtain ⟨ending, -, rfl⟩ := List.mem_map.mp member
  exact ⟨ending, rfl⟩

lemma attachCache_orderly (cache : CacheId) :
    Moves StaysOrderly (attachCache c name cache) := by
  refine system_moves.bind fun s => ?_
  split
  · split
    · exact Moves.throw _
    · refine Moves.bind (system_moves.bind fun s => ?_) fun k => ?_
      · split
        · exact Moves.pure _
        · refine (enroll_orderly (presentable_caches c)).bind fun k => Moves.bind ?_ fun _ =>
            Moves.pure _
          exact change_orderly (fun _ => rfl) fun _ kind => by cases kind <;> rfl
      · refine Moves.bind ?_ fun _ => ofAction_orderly (attachTo_fills k cache)
        exact change_orderly (fun _ => rfl) fun _ kind => by cases kind <;> rfl
  · exact Moves.pure _

lemma presentable_builtin : ∀ o ∈ builtinOffers, o.2.Presentable o.1 := by
  have under : ∀ o ∈ builtinOffers, ∀ family ∈ o.2.familyNames,
      (Text.behind? o.1.stem family).isSome = true := by decide +kernel
  intro o ho
  refine ⟨fun family member => ?_, ?_, ?_⟩
  · obtain ⟨name, found⟩ := Option.isSome_iff_exists.mp (under o ho family member)
    exact ⟨name, Text.behind?_eq_some_iff.mp found⟩
  · simp only [builtinOffers, List.mem_cons, List.not_mem_nil, or_false] at ho
    rcases ho with rfl | rfl | rfl
    all_goals
      change ∀ f ∈ (_ : List Family), f.Addressed
      decide +kernel
  · simp only [builtinOffers, List.mem_cons, List.not_mem_nil, or_false] at ho
    rcases ho with rfl | rfl | rfl <;> trivial

lemma registerBuiltins_orderly {bs : List Collector} (presentable : ∀ b ∈ bs, b.Presentable c) :
    Moves StaysOrderly (registerBuiltins c bs) := by
  refine ifEnabled_orderly ?_
  induction bs with
  | nil => exact Moves.pure _
  | cons b bs ih =>
    exact (enroll_orderly (presentable b List.mem_cons_self)).discard.bind fun _ =>
      ih fun b' hb => presentable b' (List.mem_cons_of_mem b hb)

lemma init_orderly : Moves StaysOrderly init := by
  refine (registerBuiltins_orderly (c := .process) ?_).bind fun _ =>
    registerBuiltins_orderly (c := .runtime) ?_
  · exact fun b hb => presentable_builtin (.process, b) (by simp_all [builtinOffers])
  · exact fun b hb => presentable_builtin (.runtime, b) (by simp_all [builtinOffers])

end Creating

lemma shutdown_orderly : Moves StaysOrderly shutdown := by
  intro d orderly
  have grows := (rearranged_shutdown d).grows
  constructor
  · intro c k now
    rw [Deployment.listed, roster_shutdown] at now
    exact absurd now List.not_mem_nil
  · intro kind external h now
    rw [shutdown_eq] at now grows ⊢
    cases run : d.system.roster.dismiss d.site with
    | ok x t =>
      rw [run] at now
      cases kind <;> cases now
    | error fault t =>
      rw [run] at now grows
      refine (orderly.kept kind external h ?_).grows grows
      cases kind <;> exact now

end System

namespace Call

/-- The label names that the call declares. -/
def labels : Call → List String
  | labelled _ _ _ _ labels | supplied _ _ _ _ labels => labels
  | _ => []

/-- The handle that the call goes through. -/
def handle? : Call → Option Handle
  | childOf h _ _ | supply h _ _ => some h
  | _ => none

/-- A call that names no label twice, and no counter `total`, and goes through a handle that fits if
it goes through one, keeps things orderly. -/
lemma stays_orderly {call : Call} {d : Deployment} (orderly : d.Orderly) (nodup : call.labels.Nodup)
    (word : ∀ c, call.counter? ≠ some (c, "total"))
    (fits : ∀ h ∈ call.handle?, h.Fits d.site) : (endOf (call.perform d)).Orderly := by
  have reading : ∀ {α : Type} {a : Action α}, Moves OnlyActivity a →
      Moves StaysOrderly (discard (ofAction a)) :=
    fun quiet => (ofAction_orderly (quiet.mono fun _ _ => (·.fills))).discard
  cases call with
  | labelled kind c name help labels =>
    rw [perform, endOf_discard]
    refine (labelled_orderly nodup ?_ orderly).1
    rintro rfl rfl
    exact word c rfl
  | single kind c name help =>
    rw [perform, endOf_discard]
    refine single_orderly ?_ d orderly
    rintro rfl rfl
    exact word c rfl
  | supplied kind c name help labels =>
    rw [perform, endOf_discard]
    refine (supplied_orderly nodup ?_ orderly).1
    rintro rfl rfl
    exact word c rfl
  | gauge c name help supplier =>
    have presentable : (Collector.gauge (c.external name) help supplier).Presentable c :=
      ⟨List.forall_mem_singleton.mpr ⟨name, rfl⟩, trivial, trivial⟩
    exact ifEnabled_orderly (enroll_orderly presentable).discard d orderly
  | summary c name help supplier =>
    have presentable : (Collector.summary (c.external name) help supplier).Presentable c :=
      ⟨List.forall_mem_singleton.mpr ⟨name, rfl⟩, trivial, trivial⟩
    exact ifEnabled_orderly (enroll_orderly presentable).discard d orderly
  | attachCache c name cache => exact attachCache_orderly cache d orderly
  | init => exact init_orderly d orderly
  | shutdown => exact shutdown_orderly d orderly
  | childOf h kind values =>
    rw [perform, endOf_discard, endOf_ofAction]
    exact orderly.of_fills (Handle.labels_fills (fits h rfl) kind values)
  | supply h supplier values =>
    rw [perform, endOf_ofAction]
    exact orderly.of_fills (Handle.supply_fills (fits h rfl) supplier values)
  | increment child amount => exact ofAction_orderly (child.increment_fills amount) d orderly
  | observe child seconds => exact ofAction_orderly (child.record_fills seconds) d orderly
  | start child =>
    exact (ofAction_orderly (Moves.get.bind fun _ => Moves.pure _)).discard d orderly
  | stop timing => exact (ofAction_orderly timing.stop_fills).discard d orderly
  | observations scope =>
    have quiet : Moves StaysOrderly (System.observations scope) := by
      refine (observations_reads scope).mono fun d e reads orderly => ?_
      refine orderly.goes_on (s := e.system) reads.site.fills (fun c k now => ?_)
        fun kind external h now => ?_
      · rwa [reads.system] at now
      · rwa [reads.system] at now
    exact quiet.discard d orderly
  | pull n stream =>
    exact (system_moves.bind fun s => reading (Stream.pull_moves s n stream)) d orderly
  | gather => exact (system_moves.bind fun s => reading (gather_moves _)) d orderly
  | sampleValue name labels =>
    exact (system_moves.bind fun s => reading (sampleValue_moves _ name labels)) d orderly

end Call

/-- The call has given the handle. -/
def Moment.Gives (m : Moment) (h : Handle) : Prop :=
  match m.call with
  | .labelled kind c name help labels =>
    ∃ e, System.labelled kind c name help labels m.before = .ok h e
  | .supplied kind c name help labels =>
    ∃ e, System.supplied kind c name help labels m.before = .ok h e
  | _ => False

lemma Moment.fits_of_gives {m : Moment} {h : Handle} (orderly : m.before.Orderly)
    (nodup : m.call.labels.Nodup) (word : ∀ c, m.call.counter? ≠ some (c, "total"))
    (gives : m.Gives h) : h.Fits m.after.site := by
  obtain ⟨d, call⟩ := m
  cases call with
  | labelled kind c name help labels =>
    obtain ⟨e, gave⟩ := gives
    rw [Moment.after_discard rfl, gave]
    refine (labelled_orderly nodup ?_ orderly).2 h e gave
    rintro rfl rfl
    exact word c rfl
  | supplied kind c name help labels =>
    obtain ⟨e, gave⟩ := gives
    rw [Moment.after_discard rfl, gave]
    refine (supplied_orderly nodup ?_ orderly).2 h e gave
    rintro rfl rfl
    exact word c rfl
  | _ => exact absurd gives id

/-- The calls name no label twice and no counter `total`, and go through handles that earlier calls
have given. -/
structure Proper (ms : List Moment) : Prop where
  labels : ∀ m ∈ ms, m.call.labels.Nodup
  word : ∀ m ∈ ms, ∀ c, m.call.counter? ≠ some (c, "total")
  given : ∀ earlier m later, ms = earlier ++ m :: later →
    ∀ h ∈ m.call.handle?, ∃ m' ∈ earlier, m'.Gives h

lemma Proper.nil : Proper [] where
  labels _ hm := absurd hm List.not_mem_nil
  word _ hm := absurd hm List.not_mem_nil
  given earlier m later split := by simp at split

lemma Proper.snoc {ms : List Moment} {m : Moment} (proper : Proper ms) (nodup : m.call.labels.Nodup)
    (word : ∀ c, m.call.counter? ≠ some (c, "total"))
    (given : ∀ h ∈ m.call.handle?, ∃ m' ∈ ms, m'.Gives h) : Proper (ms ++ [m]) where
  labels m' hm := by
    rcases List.mem_append.mp hm with old | new
    · exact proper.labels m' old
    · rwa [List.mem_singleton.mp new]
  word m' hm := by
    rcases List.mem_append.mp hm with old | new
    · exact proper.word m' old
    · rwa [List.mem_singleton.mp new]
  given := forall_splits_snoc.mpr ⟨proper.given, given⟩

lemma Proper.of_snoc {ms : List Moment} {m : Moment} (proper : Proper (ms ++ [m])) : Proper ms where
  labels m' hm := proper.labels m' (List.mem_append_left _ hm)
  word m' hm := proper.word m' (List.mem_append_left _ hm)
  given := (forall_splits_snoc.mp proper.given).1

namespace Deployment

/-- Others have left the listed collectors as they are. -/
def Unchanged (d : Deployment) (t : Site) : Prop :=
  ∀ c, ∀ k ∈ d.listed c, t.collector k = d.site.collector k

lemma Orderly.unchanged {d : Deployment} {t : Site} (orderly : d.Orderly) (grows : d.site.Grows t)
    (unchanged : d.Unchanged t) : Orderly { d with site := t } where
  listed c k now := by
    obtain ⟨placed, presentable⟩ := orderly.listed c k now
    refine ⟨Nat.lt_of_lt_of_le placed grows.room, ?_⟩
    change (t.collector k).Presentable c
    rw [unchanged c k now]
    exact presentable
  kept kind external h now := (orderly.kept kind external h now).grows grows

end Deployment

/-- A proper run stays orderly, and the handles that it has given go on to fit. -/
lemma Run.orderly {start d : Deployment} {ms : List Moment}
    {others : Deployment → Site → Prop} (run : Run others start ms d)
    (gentle : ∀ d t, others d t → d.site.Grows t ∧ d.Unchanged t) (first : start.Orderly)
    (proper : Proper ms) : d.Orderly ∧ ∀ m ∈ ms, ∀ h, m.Gives h → h.Fits d.site := by
  induction run with
  | start => exact ⟨first, fun _ hm => absurd hm List.not_mem_nil⟩
  | @call ms d run call ih =>
    obtain ⟨orderly, fits⟩ := ih proper.of_snoc
    have last : (⟨d, call⟩ : Moment) ∈ ms ++ [⟨d, call⟩] :=
      List.mem_append_right ms List.mem_cons_self
    have nodup := proper.labels _ last
    have word := proper.word _ last
    constructor
    · -- a handle that is used was given earlier, and still fits
      refine Call.stays_orderly orderly nodup word fun h through => ?_
      obtain ⟨m, hm, gives⟩ := proper.given ms ⟨d, call⟩ [] rfl h through
      exact fits m hm h gives
    · intro m hm h gives
      rcases List.mem_append.mp hm with old | new
      · exact (fits m old h gives).grows (Moment.grows ⟨d, call⟩)
      · obtain rfl := List.mem_singleton.mp new
        exact Moment.fits_of_gives orderly nodup word gives
  | @others ms d t run disturbed ih =>
    obtain ⟨orderly, fits⟩ := ih proper
    obtain ⟨grows, unchanged⟩ := gentle d t disturbed
    exact ⟨orderly.unchanged grows unchanged, fun m hm h gives => (fits m hm h gives).grows grows⟩

/-- A registry describes for good, unless others change that. -/
lemma Run.describes {others : Deployment → Site → Prop} {enabled : Distinct Category}
    {timers : Bool} {r : RegistryId} {s : Site} {ms : List Moment} {d : Deployment}
    (run : Run others ⟨fresh enabled timers r, s⟩ ms d)
    (kept : ∀ d t, others d t →
      (t.registry d.system.roster.registry).describes = d.registry.describes) :
    d.registry.describes = (s.registry r).describes := by
  let v : Veil := ⟨0, r, (s.registry r).describes, enabled, timers⟩
  have veiled : d.Veiled v d := by
    refine run.invariant (P := fun d => d.Veiled v d)
      (Deployment.veiled_self rfl (beyond_fresh v) rfl) (fun _ => Moment.veiled_after rfl)
      fun d t h disturbed => ?_
    refine Deployment.veiled_self rfl h.beyond ?_
    have describes := h.site.describes
    rw [← h.beyond.roster.registry] at describes ⊢
    exact (kept d t disturbed).trans describes
  have describes := veiled.site.describes
  rwa [← veiled.beyond.roster.registry] at describes

lemma Collector.claims_of_describes (x : Collector) :
    x.claims true = x.outline.flatMap fun e => Family.claimsOf e.1 e.2 := by
  cases x with
  | instrument i => exact (List.flatMap_singleton ..).symm
  | _ => rfl

/-- A sound deployment whose registry describes claims no name for two of its listed families. -/
lemma Deployment.Sound.claims_nodup {d : Deployment} (sound : d.Sound)
    (describes : d.registry.describes = true) (c : Category) :
    ((d.listed c).flatMap fun k => (d.site.collector k).claims true).Nodup := by
  have holds : ∀ k ∈ d.listed c, d.registry.Holds k ((d.site.collector k).claims true) := by
    intro k now
    have held := sound.backed.holds now
    rwa [describes] at held
  rw [List.nodup_flatMap]
  constructor
  · exact fun k now => (holds k now).nodup
  · refine (sound.tidy.nodup c).imp_of_mem fun {j k} hj hk different name mj mk => ?_
    exact different ((holds j hj).apart (holds k hk) mj mk)

/-- In an orderly system on a registry that describes, no two observations of a category have the
same address. -/
lemma Deployment.Orderly.observations {d : Deployment} {c : Category} (orderly : d.Orderly)
    (sound : d.Sound) (describes : d.registry.describes = true)
    (apart : ∀ k ∈ d.listed c, ∀ name help j, d.site.collector k = .summary name help j →
      d.site.TellsApart j) :
    ∃ os e, System.observations (some c) d = .ok os e ∧ (os.map Observation.address).Nodup := by
  obtain ⟨given, e, gave, read⟩ :=
    readings_calm c sound.calm (d.listed c) fun k now => sound.tidy.nameable now
  have from_listed : ∀ g ∈ given, g.1 ∈ d.listed c := by
    intro g hg
    rw [← gave.each]
    exact List.mem_map_of_mem hg
  refine ⟨_, e, observations_of_readings read, ?_⟩
  rw [snd_readingsOf]
  refine addresses_nodup_of_claims ?_ ?_ ?_
  · have claims : (given.flatMap Prod.snd).flatMap Family.claims
        = (d.listed c).flatMap fun k => (d.site.collector k).claims true := by
      rw [List.flatMap_assoc, ← gave.each, List.flatMap_map]
      refine List.flatMap_congr fun g hg => ?_
      rw [Collector.claims_of_describes, ← gave.outline hg, List.flatMap_map]
      rfl
    rw [claims]
    exact sound.claims_nodup describes c
  · intro f hf
    obtain ⟨g, hg, own⟩ := List.mem_flatMap.mp hf
    refine (orderly.listed c g.1 (from_listed g hg)).2.under f.name ?_
    rw [Collector.familyNames_eq, ← gave.outline hg, List.map_map]
    exact List.mem_map_of_mem own
  · intro f hf
    obtain ⟨g, hg, own⟩ := List.mem_flatMap.mp hf
    obtain ⟨t, u, notes, collected, -⟩ := gave.collected g hg
    have same := notes.collector g.1
    refine collect_addressed (c := c) ?_ (fun name help j summary => ?_) collected f own
    · rw [same]
      exact (orderly.listed c g.1 (from_listed g hg)).2
    · rw [same] at summary
      have told := apart g.1 (from_listed g hg) name help j summary
      rwa [TellsApart, notes.onlyActivity.suppliers]

/-- On a registry that describes, while no supplier raises: after every run in which no label is
named twice, no counter `total`, and only given handles are used, the observations of a category can
be read, and no two of them have the same metric and the same label values, if its external
summaries tell their quantiles apart. -/
theorem observations_told_apart {enabled : Distinct Category} {timers : Bool} {r : RegistryId}
    {s : Site} (room : r.index < s.registries.length)
    (describing : (s.registry r).describes = true) (calm : s.Calm) {ms : List Moment}
    {d : Deployment}
    (run : Run (fun d t => d.Spared t ∧ d.Unchanged t ∧ t.Calm) ⟨fresh enabled timers r, s⟩ ms d)
    (proper : Proper ms) {c : Category}
    (apart : ∀ k ∈ d.listed c, ∀ name help j, d.site.collector k = .summary name help j →
      d.site.TellsApart j) :
    ∃ os e, System.observations (some c) d = .ok os e ∧ (os.map Observation.address).Nodup := by
  have sound : d.Sound := run.invariant (sound_fresh room calm) (fun _ h => Moment.sound h)
    fun _ _ h disturbed => h.spared disturbed.1 disturbed.2.2
  have orderly := run.orderly (fun _ _ h => ⟨h.1.grows, h.2.1⟩) Deployment.orderly_fresh proper
  have describes : d.registry.describes = true :=
    (run.describes fun _ _ h => h.1.describes).trans describing
  exact orderly.1.observations sound describes apart

/-- A counter with a label, one of its children, a counter with the ending under a category that is
not enabled, and a gauge. -/
def queues : List Call :=
  [.labelled .counter ⟨"shop", none⟩ "jobs" "h" ["queue"],
    .childOf ⟨0, .recording .counter, 1, some ⟨0⟩⟩ .counter ["mail"],
    .labelled .counter ⟨"bank", none⟩ "jobs_total" "h" [],
    .gauge ⟨"shop", none⟩ "size" "h" ⟨0⟩]

/-- A system after those calls. -/
def queued : Deployment := reached (.small [⟨"shop", none⟩]) queues

/-- The counter comes back under the name with the ending, next to the gauge. -/
example : ∃ os e, System.observations (some ⟨"shop", none⟩) queued = .ok os e
    ∧ os.map Observation.address
      = [("jobs_total", ["mail"]), ("jobs_total", ["mail", "created"]), ("size", [])] :=
  ⟨_, _, rfl, rfl⟩

lemma queues_proper : Proper (moments (.small [⟨"shop", none⟩]) queues) := by
  refine (((Proper.nil.snoc ?_ ?_ ?_).snoc ?_ ?_ ?_).snoc ?_ ?_ ?_).snoc ?_ ?_ ?_
  case refine_6 =>
    -- the only call through a handle, which the first call has given
    rintro _ ⟨⟩
    exact ⟨_, List.mem_cons_self, _, rfl⟩
  case refine_1 | refine_4 | refine_7 | refine_10 => decide
  case refine_2 | refine_5 | refine_8 | refine_11 =>
    intro c counter
    simp [Call.counter?] at counter
  all_goals
    intro h through
    cases through

theorem observations_told_apart_queues :
    (⟨0⟩ : RegistryId).index < Site.small.registries.length
      ∧ (Site.small.registry ⟨0⟩).describes = true ∧ Site.small.Calm
      ∧ Proper (moments (.small [⟨"shop", none⟩]) queues)
      ∧ ∃ os e, System.observations (some ⟨"shop", none⟩) queued = .ok os e
        ∧ (os.map Observation.address).Nodup := by
  refine ⟨by decide, rfl, Site.small_calm, queues_proper, ?_⟩
  refine observations_told_apart (by decide) rfl Site.small_calm
    (Run.of_calls _ (.small [⟨"shop", none⟩]) queues) queues_proper
    fun k listed name help j summary => ?_
  have listed : k ∈ [⟨0⟩, ⟨1⟩] := listed
  rcases List.mem_pair.mp listed with rfl | rfl <;> cases summary

end Metering
