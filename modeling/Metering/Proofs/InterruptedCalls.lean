import Metering.Proofs.RosterRuns

/-!
# Calls that fail because a supplier raises

A call that creates a metric registers at most one collector and asks nobody besides
(`Call.registersOnce`). So when a supplier raises during such a call, the call is an interrupted
registration and fails with what was raised (`alarm_interrupts_registration`). What the call had
displaced is then missing from the registry unless a refused value let all of it be put back
(`displaced_lost_after_alarm`).
-/

namespace Metering

open Site Operation Metering.System

namespace Deployment

/-- The lists are as they were, and nothing has been noted. -/
structure Unasked (d e : Deployment) : Prop where
  aside : d.Aside e
  site : d.site.Unasked e.site

instance : IsPreorder Deployment Unasked where
  refl _ := ⟨Std.Refl.refl _, Std.Refl.refl _⟩
  trans _ _ _ hde hef := ⟨IsTrans.trans _ _ _ hde.aside hef.aside,
    IsTrans.trans _ _ _ hde.site hef.site⟩

end Deployment

/-- The operation registers one of the offers or none, asks nobody besides, and fails if the
registration does. -/
def RegistersOnce {α : Type} (offers : List Offer) (x : Operation α) : Prop := ∀ d,
  d.Unasked (endOf (x d)) ∨ ∃ m c y, d.Unasked m ∧ (c, y.declared) ∈ offers
    ∧ ((∃ fault e, enroll c y m = .error fault e ∧ x d = .error fault e)
      ∨ ∃ k e, enroll c y m = .ok k e ∧ e.Unasked (endOf (x d)))

namespace RegistersOnce

variable {α β : Type} {offers : List Offer} {x : Operation α} {f : α → Operation β}

lemma of_unasked (h : Moves Deployment.Unasked x) : RegistersOnce offers x := fun d => Or.inl (h d)

lemma after (hx : Moves Deployment.Unasked x) (hf : ∀ a, RegistersOnce offers (f a)) :
    RegistersOnce offers (x >>= f) := by
  intro d
  cases run : x d with
  | error fault e =>
    rw [bind_of_error run]
    exact Or.inl (hx.of_error run)
  | ok a e =>
    rw [bind_of_ok run]
    have first := hx.of_ok run
    refine (hf a e).imp (IsTrans.trans _ _ _ first) ?_
    rintro ⟨m, c, y, before, rest⟩
    exact ⟨m, c, y, IsTrans.trans _ _ _ first before, rest⟩

lemma before (hx : RegistersOnce offers x) (hf : ∀ a, Moves Deployment.Unasked (f a)) :
    RegistersOnce offers (x >>= f) := by
  intro d
  cases run : x d with
  | error fault e =>
    rw [bind_of_error run]
    refine (hx d).imp (fun first => by rwa [run] at first) ?_
    rintro ⟨m, c, y, before, offered, ⟨fault', e', enrolled, failed⟩ | ⟨k, e', enrolled, rest⟩⟩
    · rw [run] at failed
      cases failed
      exact ⟨m, c, y, before, offered, Or.inl ⟨fault, e, enrolled, rfl⟩⟩
    · rw [run] at rest
      exact ⟨m, c, y, before, offered, Or.inr ⟨k, e', enrolled, rest⟩⟩
  | ok a e =>
    rw [bind_of_ok run]
    have last := hf a e
    refine (hx d).imp (fun first => ?_) ?_
    · rw [run] at first
      exact IsTrans.trans _ _ _ first last
    · rintro ⟨m, c, y, before, offered, ⟨fault, e', -, failed⟩ | ⟨k, e', enrolled, rest⟩⟩
      · rw [run] at failed
        cases failed
      · rw [run] at rest
        exact ⟨m, c, y, before, offered, Or.inr ⟨k, e', enrolled, IsTrans.trans _ _ _ rest last⟩⟩

lemma discard (hx : RegistersOnce offers x) : RegistersOnce offers (discard x) := by
  have both := hx.before fun a => Moves.pure (Function.const _ () a)
  rwa [bind_pure_comp] at both

lemma ofExcept {y : Except Fault α} (hf : ∀ a, y = .ok a → RegistersOnce offers (f a)) :
    RegistersOnce offers ((ofExcept y : Operation α) >>= f) := by
  cases y with
  | ok a => exact hf a rfl
  | error fault => exact of_unasked (Moves.throw fault)

lemma enroll {c : Category} {x y : Collector} (declared : y.declared = x) :
    RegistersOnce [(c, x)] (enroll c y) := by
  intro d
  refine Or.inr ⟨d, c, y, Std.Refl.refl d, by simp [declared], ?_⟩
  cases run : System.enroll c y d with
  | error fault e => exact Or.inl ⟨fault, e, rfl, rfl⟩
  | ok k e => exact Or.inr ⟨k, e, rfl, Std.Refl.refl e⟩

end RegistersOnce

namespace Operation

lemma ofAction_unasked {α : Type} {a : Action α} (aside : Moves Site.Aside a)
    (unasked : Moves Site.Unasked a) : Moves Deployment.Unasked (ofAction a) := by
  intro d
  rw [endOf_ofAction]
  exact ⟨⟨rfl, aside d.site⟩, unasked d.site⟩

lemma change_unasked {f : System → System} (h : ∀ s, (f s).roster = s.roster) :
    Moves Deployment.Unasked (change f) :=
  Moves.modify fun d => ⟨⟨h d.system, Std.Refl.refl _⟩, Std.Refl.refl d.site⟩

lemma system_unasked : Moves Deployment.Unasked system := Moves.get.bind fun _ => Moves.pure _

end Operation

section Creating

variable (c : Category) (name external help : String) (labels : List String)

lemma declareName_unasked (isCounter : Bool) :
    Moves Deployment.Unasked (declareName isCounter name) := by
  rw [declareName]
  split
  · exact change_unasked fun _ => rfl
  · exact Moves.pure _

lemma issue_unasked (use : HandleUse) (arity : Nat) (target : Option CollectorId) :
    Moves Deployment.Unasked (issue use arity target) :=
  (ofAction_unasked issueSerial_aside fun _ => rfl).bind fun _ => Moves.pure _

lemma labels_unasked (h : Handle) (kind : ChildKind) (values : List String) :
    Moves Site.Unasked (h.labels kind values) := h.labels_moves (fun _ _ _ _ => rfl) kind values

lemma build_registersOnce (kind : InstrumentKind) :
    RegistersOnce [instrumentOffer c external help labels kind]
      (build kind c external help labels) := by
  refine .after system_unasked fun s => ?_
  split
  · refine .after Moves.get fun d => .ofExcept fun i declared => ?_
    exact (RegistersOnce.enroll (declared_of_declare c external help labels declared)).before
      fun _ => issue_unasked _ _ _
  · exact .of_unasked ((ofAction_unasked (report_aside _) fun _ => rfl).bind fun _ =>
      issue_unasked _ _ _)

lemma labelled_registersOnce (kind : InstrumentKind) :
    RegistersOnce [instrumentOffer c (c.external name) help labels kind]
      (labelled kind c name help labels) := by
  refine .after (declareName_unasked name _) fun _ => .after system_unasked fun s => ?_
  split
  · exact .of_unasked (Moves.pure _)
  · refine (build_registersOnce c (c.external name) help labels kind).before fun h => ?_
    refine (change_unasked fun s => ?_).bind fun _ => Moves.pure h
    cases kind <;> rfl

lemma ifEnabled_registersOnce {offers : List Offer} {x : Operation Unit}
    (h : RegistersOnce offers x) :
    RegistersOnce offers (do if (← Operation.system).isEnabled c then x) := by
  refine .after system_unasked fun s => ?_
  split
  · exact h
  · exact .of_unasked (Moves.pure _)

lemma supplied_registersOnce (kind : SuppliedKind) :
    RegistersOnce [(c, .supplied ⟨kind, c.external name, help, labels, ∅⟩)]
      (supplied kind c name help labels) := by
  refine .after (declareName_unasked name _) fun _ => .after system_unasked fun s => ?_
  split
  · exact (RegistersOnce.enroll rfl).before fun _ => issue_unasked _ _ _
  · exact .of_unasked (issue_unasked _ _ _)

lemma attachTo_unasked (k : CollectorId) (cache : CacheId) :
    Moves Site.Unasked (attachTo k name cache) := by
  refine Moves.modify fun s => ?_
  split <;> rfl

lemma attachCache_registersOnce (cache : CacheId) :
    RegistersOnce [(c, .caches c.stem ∅)] (attachCache c name cache) := by
  refine .after system_unasked fun s => ?_
  split
  · split
    · exact .of_unasked (Moves.throw _)
    · have obtained : RegistersOnce [(c, .caches c.stem ∅)] (sharedCollector c) := by
        refine .after system_unasked fun s => ?_
        split
        · exact .of_unasked (Moves.pure _)
        · refine (RegistersOnce.enroll rfl).before fun k => Moves.bind ?_ fun _ => Moves.pure k
          exact change_unasked fun _ => rfl
      refine obtained.before fun k => Moves.bind ?_ fun _ =>
        ofAction_unasked (attachTo_aside name k cache) (attachTo_unasked name k cache)
      exact change_unasked fun _ => rfl
  · exact .of_unasked (Moves.pure _)

end Creating

namespace Call

/-- The call creates a metric. -/
def Creates : Call → Prop
  | labelled .. | single .. | supplied .. | gauge .. | summary .. | attachCache .. => True
  | _ => False

lemma registersOnce {call : Call} (creates : call.Creates) :
    RegistersOnce call.offers call.perform := by
  cases call with
  | labelled kind c name help labels =>
    exact (labelled_registersOnce c name help labels kind).discard
  | single kind c name help =>
    exact ((labelled_registersOnce c name help [] kind).before fun h =>
      ofAction_unasked (h.labels_aside _ _) (labels_unasked h _ _)).discard
  | supplied kind c name help labels =>
    exact (supplied_registersOnce c name help labels kind).discard
  | gauge c name help supplier => exact ifEnabled_registersOnce c (RegistersOnce.enroll rfl).discard
  | summary c name help supplier =>
    exact ifEnabled_registersOnce c (RegistersOnce.enroll rfl).discard
  | attachCache c name cache => exact attachCache_registersOnce c name cache
  | _ => exact absurd creates id

end Call

/-- Whatever suppliers raise, a system keeps its roster in a reached state. -/
lemma Run.reached {start d : Deployment} {ms : List Moment}
    (run : Run (fun d t => d.site.Disturbs d.system.roster.registry t) start ms d)
    (first : start.system.roster.Reached start.site) : d.system.roster.Reached d.site := by
  obtain ⟨turns, onRoster, -⟩ := run.onRoster fun grows same => .beside grows same
  exact onRoster.reached first

/-- Enrolling a collector is interrupted as its registration is. -/
lemma interrupted_enroll {m : Deployment} {c : Category} {y : Collector}
    (recorded : m.site.Recorded m.system.roster.registry)
    (alarmed : m.site.Alarmed (endOf (enroll c y m)).site) :
    ∃ fault t lost, enroll c y m = .error fault ⟨m.system, t⟩
      ∧ m.system.roster.Interrupted c m.site.nextPlace (m.site.withAdded y) fault t lost := by
  rw [site_enroll] at alarmed
  have started : (m.site.withAdded y).Alarmed
      (endOf (m.system.roster.register c m.site.nextPlace (m.site.withAdded y))) :=
    alarmed.congr rfl rfl rfl
  obtain ⟨fault, t, lost, interrupted⟩ := Roster.interrupted_of_alarmed
    (recorded.grows (withAdded_aside m.site y).grows rfl) started
  exact ⟨fault, t, lost, by rw [enroll_eq, interrupted.failed], interrupted⟩

/-- A supplier that raises during a call that creates a metric interrupts its registration, and the
call fails as the registration does. -/
lemma Call.interrupted_of_alarmed {call : Call} (creates : call.Creates) {d : Deployment}
    (reached : d.system.roster.Reached d.site)
    (alarmed : d.site.Alarmed (endOf (call.perform d)).site) :
    ∃ c k s fault e lost, call.perform d = .error fault e
      ∧ e.system.roster = d.system.roster ∧ s.registries = d.site.registries
      ∧ (c, (s.collector k).declared) ∈ call.offers
      ∧ d.system.roster.Interrupted c k s fault e.site lost := by
  rcases registersOnce creates d with quiet | ⟨m, c, y, before, offered, outcome⟩
  · exact absurd alarmed quiet.site.not_alarmed
  have same := before.aside.roster
  have recorded : m.site.Recorded m.system.roster.registry := by
    rw [same]
    exact reached.recorded.2.grows before.aside.site.grows (before.aside.site.registry _)
  have enrolling : (endOf (call.perform d)).site.Unasked (endOf (enroll c y m)).site →
      ∃ fault t lost, enroll c y m = .error fault ⟨m.system, t⟩
        ∧ m.system.roster.Interrupted c m.site.nextPlace (m.site.withAdded y) fault t lost :=
    fun after => interrupted_enroll recorded
      (alarmed.congr before.aside.site.suppliers before.site after)
  rcases outcome with ⟨fault, e, failed, ends⟩ | ⟨k, e, done, after⟩
  · obtain ⟨fault', t, lost, failed', interrupted⟩ := enrolling (by rw [ends, failed]; rfl)
    rw [failed] at failed'
    cases failed'
    rw [same] at interrupted
    refine ⟨c, _, m.site.withAdded y, fault, _, lost, ends, same, before.aside.site.registries,
      ?_, interrupted⟩
    rw [collector_withAdded]
    exact offered
  · obtain ⟨fault, t, lost, failed, -⟩ := enrolling (by rw [done]; exact after.site.symm)
    rw [done] at failed
    cases failed

/-- In every state that is reached from a reached roster, that of a new system included: a
registration during which a supplier raises fails with what was raised, and so does the call that
made it. The lists stay as they are; the registry keeps the same collectors and names exactly if the
registration `Mends`, otherwise it lacks the last ones of those that were displaced. -/
theorem alarm_interrupts_registration {start d : Deployment} {ms : List Moment}
    (first : start.system.roster.Reached start.site)
    (run : Run (fun d t => d.site.Disturbs d.system.roster.registry t) start ms d) :
    (∀ c k, d.site.Alarmed (endOf (d.system.roster.register c k d.site)) →
      ∃ fault t lost, d.system.roster.Interrupted c k d.site fault t lost)
    ∧ ∀ call : Call, call.Creates → d.site.Alarmed (endOf (call.perform d)).site →
      ∃ c k s fault e lost, call.perform d = .error fault e
        ∧ e.system.roster = d.system.roster ∧ s.registries = d.site.registries
        ∧ (c, (s.collector k).declared) ∈ call.offers
        ∧ d.system.roster.Interrupted c k s fault e.site lost := by
  have reached := run.reached first
  constructor
  · intro c k alarmed
    exact Roster.interrupted_of_alarmed reached.recorded.2 alarmed
  · intro call creates alarmed
    exact Call.interrupted_of_alarmed creates reached alarmed

/-- A new system on a site with two suppliers, the second of which answers once and then raises. -/
def Deployment.failing : Deployment :=
  ⟨.fresh (.ofList [⟨"shop", none⟩]) true ⟨0⟩,
    { suppliers := [.constant (.value (some 3)), ⟨.value (some 1), [.raises .runtime "down"]⟩],
      registries := [.vacant true] }⟩

/-- A gauge that the first supplier feeds. -/
def steadyGauge : Call := .gauge ⟨"shop", none⟩ "jobs" "h" ⟨0⟩

/-- A gauge of the same name that the second supplier feeds. -/
def failingGauge : Call := .gauge ⟨"shop", none⟩ "jobs" "h" ⟨1⟩

/-- The collector of that gauge. -/
def failingCollector : Collector := .gauge "shop_jobs" "h" ⟨1⟩

lemma failingGauge_alarms :
    (reached .failing [steadyGauge]).site.Alarmed
      (endOf (failingGauge.perform (reached .failing [steadyGauge]))).site :=
  ⟨[.collected ⟨1⟩, .asked ⟨1⟩, .collected ⟨0⟩, .asked ⟨0⟩, .collected ⟨1⟩], ⟨1⟩, [], .runtime,
    "down", rfl, rfl⟩

/-- The registration that the second gauge stands for, and the call itself. -/
theorem alarm_interrupts_registration_gauges :
    (let r := (reached .failing [steadyGauge]).system.roster
      let s := (reached .failing [steadyGauge]).site.withAdded failingCollector
      r.Reached s ∧ s.Alarmed (endOf (r.register ⟨"shop", none⟩ ⟨1⟩ s))
        ∧ ∃ fault t lost, r.Interrupted ⟨"shop", none⟩ ⟨1⟩ s fault t lost)
    ∧ Deployment.failing.system.roster.Reached Deployment.failing.site ∧ failingGauge.Creates
    ∧ (reached .failing [steadyGauge]).site.Alarmed
        (endOf (failingGauge.perform (reached .failing [steadyGauge]))).site
    ∧ ∃ c k s fault e lost,
        failingGauge.perform (reached .failing [steadyGauge]) = .error fault e
          ∧ e.system.roster = (reached .failing [steadyGauge]).system.roster
          ∧ s.registries = (reached .failing [steadyGauge]).site.registries
          ∧ (c, (s.collector k).declared) ∈ failingGauge.offers
          ∧ (reached .failing [steadyGauge]).system.roster.Interrupted c k s fault e.site lost := by
  let added : Deployment := ⟨(reached .failing [steadyGauge]).system,
    (reached .failing [steadyGauge]).site.withAdded failingCollector⟩
  have run := Run.of_calls (fun d t => d.site.Disturbs d.system.roster.registry t) .failing
    [steadyGauge]
  have unused : Deployment.failing.registry = .vacant true := rfl
  have now : added.system.roster.Reached added.site :=
    .disturbed (run.reached (.vacant unused)) (.beside (withAdded_aside _ _).grows rfl)
  have alarmed : added.site.Alarmed
      (endOf (added.system.roster.register ⟨"shop", none⟩ ⟨1⟩ added.site)) :=
    failingGauge_alarms.congr rfl rfl rfl
  refine ⟨⟨now, alarmed, ?_⟩, .vacant unused, trivial, failingGauge_alarms, ?_⟩
  · exact (alarm_interrupts_registration now .start).1 ⟨"shop", none⟩ ⟨1⟩ alarmed
  · exact (alarm_interrupts_registration (.vacant unused) run).2 failingGauge trivial
      failingGauge_alarms

/-- The call fails, the lists still have the first gauge, and the registry has lost it. -/
theorem displaced_lost_after_alarm :
    (reached .failing [steadyGauge]).site.Alarmed
        (endOf (failingGauge.perform (reached .failing [steadyGauge]))).site
      ∧ ∃ e, failingGauge.perform (reached .failing [steadyGauge])
            = .error (.raised .runtime "down") e
        ∧ e.system.roster = (reached .failing [steadyGauge]).system.roster
        ∧ (reached .failing [steadyGauge]).registry.held.keys = [⟨0⟩]
        ∧ e.registry.held.keys = [] :=
  ⟨failingGauge_alarms, _, rfl, rfl, rfl, rfl⟩

end Metering
