import Metering.Proofs.CallComposition
import Metering.Proofs.RecordsAddUp
import Metering.Proofs.SharedCacheCollector
import Metering.Proofs.ShutdownReset
import Metering.Proofs.WellLabelledMetrics

/-!
# What instruments are told

An instrument changes in two ways only: a child is asked for, which makes sure of a tally, or an
amount is recorded through a child. `Moment.asked` and `Moment.records` read off a call what it
means to the instruments, `Moment.instrument_after` says that nothing else happens to them.
-/

namespace Metering

open Site Operation Metering.System

lemma Site.placed_of_ne {s : Site} {k : CollectorId} (other : s.collector k ≠ .fixed []) :
    k.index < s.collectors.length := by
  by_contra outside
  rw [Site.collector, List.getElem?_eq_none_iff.mpr (Nat.le_of_not_lt outside)] at other
  exact other rfl

lemma Site.placed_of_instrument {s : Site} {k : CollectorId} {i : Instrument}
    (instrument : s.collector k = .instrument i) : k.index < s.collectors.length :=
  placed_of_ne (by simp [instrument])

section Keeping

/-- Instruments that have their place are as they were, nothing else has become one, and those that
have got a place since are new. -/
structure Deployment.KeepsInstruments (d e : Deployment) : Prop where
  room : d.site.collectors.length ≤ e.site.collectors.length
  kept : ∀ k : CollectorId, k.index < d.site.collectors.length →
    ∀ i, e.site.collector k = .instrument i ↔ d.site.collector k = .instrument i
  made : ∀ k : CollectorId, d.site.collectors.length ≤ k.index →
    ∀ i, e.site.collector k = .instrument i → i.New

instance : IsPreorder Deployment Deployment.KeepsInstruments where
  refl _ := by
    refine ⟨Nat.le_refl _, fun _ _ _ => Iff.rfl, fun k outside i instrument => ?_⟩
    have placed := Site.placed_of_instrument instrument
    omega
  trans d e _ h h' := by
    refine ⟨Nat.le_trans h.room h'.room, fun k placed i => ?_, fun k outside i instrument => ?_⟩
    · rw [h'.kept k (Nat.lt_of_lt_of_le placed h.room), h.kept k placed]
    · by_cases placed : k.index < e.site.collectors.length
      · exact h.made k outside i ((h'.kept k placed i).mp instrument)
      · exact h'.made k (Nat.not_lt.mp placed) i instrument

open Deployment

/-- The instrument was there as it is, or is new. -/
lemma Deployment.KeepsInstruments.cases {d e : Deployment} (h : d.KeepsInstruments e)
    {k : CollectorId} {i : Instrument} (instrument : e.site.collector k = .instrument i) :
    d.site.collector k = .instrument i ∨ d.site.collectors.length ≤ k.index ∧ i.New := by
  by_cases placed : k.index < d.site.collectors.length
  · exact Or.inl ((h.kept k placed i).mp instrument)
  · exact Or.inr ⟨Nat.not_lt.mp placed, h.made k (Nat.not_lt.mp placed) i instrument⟩

/-- No collector has got a place, and all are instruments as before. -/
lemma keepsInstruments_of_kept {d e : Deployment}
    (room : e.site.collectors.length = d.site.collectors.length)
    (kept : ∀ k : CollectorId, k.index < d.site.collectors.length →
      ∀ i, e.site.collector k = .instrument i ↔ d.site.collector k = .instrument i) :
    d.KeepsInstruments e := by
  refine ⟨Nat.le_of_eq room.symm, kept, fun k outside i instrument => ?_⟩
  have placed := Site.placed_of_instrument instrument
  omega

/-- Collectors that are the same keep all instruments. -/
lemma keepsInstruments_of_same {d e : Deployment}
    (same : e.site.collectors = d.site.collectors) : d.KeepsInstruments e := by
  refine keepsInstruments_of_kept (by rw [same]) fun k _ i => ?_
  rw [Site.collector, Site.collector, same]

/-- A collector that is no instrument can be replaced by another such. -/
lemma withCollector_keepsInstruments {d : Deployment} {k : CollectorId} {x : Collector}
    (before : ∀ i, d.site.collector k ≠ .instrument i) (after : ∀ i, x ≠ .instrument i) :
    d.KeepsInstruments { d with site := d.site.withCollector k x } := by
  refine keepsInstruments_of_kept List.length_set fun l placed i => ?_
  by_cases same : l = k
  · subst same
    rw [Site.collector_withCollector placed, if_pos rfl]
    exact iff_of_false (after i) (before i)
  · by_cases room : k.index < d.site.collectors.length
    · rw [Site.collector_withCollector room, if_neg same]
    · have outside : d.site.withCollector k x = d.site := by
        rw [Site.withCollector, List.set_eq_of_length_le (Nat.le_of_not_lt room)]
      rw [outside]

lemma System.enroll_keepsInstruments (c : Category) {y : Collector}
    (new : ∀ i, y = .instrument i → i.New) : Moves KeepsInstruments (enroll c y) := by
  intro d
  have moved := rearranged_enroll c y d
  refine ⟨(grows_enroll c y d).room, fun k placed i => ?_, fun k outside i instrument => ?_⟩
  · rw [moved.collector, collector_withAdded_of_lt placed]
  · have placed := Site.placed_of_instrument instrument
    rw [moved.rest] at placed
    simp only [Site.withAdded, List.length_append, List.length_singleton] at placed
    have next : k = d.site.nextPlace := by
      rw [Site.nextPlace, ← Nat.le_antisymm (Nat.lt_succ_iff.mp placed) outside]
    rw [next, collector_enroll] at instrument
    exact new i instrument

lemma Deployment.keepsInstruments_builds : Builds KeepsInstruments where
  noted s t quiet system := by
    refine keepsInstruments_of_same (d := ⟨system, s⟩) (e := ⟨system, t⟩) ?_
    rw [quiet]
  reported _ _ _ := keepsInstruments_of_same rfl
  issued _ _ _ := keepsInstruments_of_same rfl
  remembered _ _ := keepsInstruments_of_same rfl
  kept _ _ _ _ := keepsInstruments_of_same rfl
  enrolled c y made := by
    refine System.enroll_keepsInstruments c ?_
    rintro i rfl
    exact made

lemma System.attachCache_keepsInstruments (c : Category) (name : String) (cache : CacheId) :
    Moves KeepsInstruments (attachCache c name cache) := by
  refine attachCache_moves c name cache (enroll_keepsInstruments c (by simp))
    (fun _ _ => keepsInstruments_of_same rfl) fun d k stem attached caches => ?_
  exact withCollector_keepsInstruments (by simp [caches]) (by simp)

lemma Handle.supply_keepsInstruments (h : Handle) (supplier : SupplierId) (values : List String) :
    Moves KeepsInstruments (ofAction (h.supply supplier values)) := by
  intro d
  rw [endOf_ofAction]
  rcases h.supply_cases supplier values d.site with
    ⟨-, run⟩ | ⟨-, ⟨k, m, -, found, ⟨-, run⟩ | ⟨-, run⟩⟩ | ⟨-, run⟩⟩
  · rw [run]
    exact Std.Refl.refl d
  · rw [run]
    exact Std.Refl.refl d
  · rw [run]
    exact withCollector_keepsInstruments (by simp [found]) (by simp)
  · rw [run]
    exact Std.Refl.refl d

/-- The call is one that records. -/
def Call.IsRecording : Call → Prop
  | .increment .. | .observe .. | .stop _ => True
  | _ => False

/-- The call asks for a child. -/
def Call.GivesChild : Call → Prop
  | .childOf .. | .single .. => True
  | _ => False

/-- A call that neither asks for a child nor records keeps all instruments. -/
lemma Call.keepsInstruments {call : Call} (asking : ¬ call.GivesChild)
    (recording : ¬ call.IsRecording) : Moves KeepsInstruments call.perform := by
  by_cases builds : call.Builds
  · exact Call.builds_moves keepsInstruments_builds builds
  · cases call with
    | attachCache c name cache => exact attachCache_keepsInstruments c name cache
    | supply handle supplier values => exact handle.supply_keepsInstruments supplier values
    | shutdown =>
      intro d
      refine keepsInstruments_of_same ?_
      rw [Call.perform, (rearranged_shutdown d).rest]
    | childOf | single => exact absurd trivial asking
    | increment | observe | stop => exact absurd trivial recording
    | _ => exact absurd trivial builds

end Keeping

section Touching

lemma Instrument.labels_touch (i : Instrument) (values : List String) (now : Float) :
    (i.touch values now).labels = i.labels := by
  rw [touch]
  split <;> rfl

lemma Instrument.kind_touch (i : Instrument) (values : List String) (now : Float) :
    (i.touch values now).kind = i.kind := by
  rw [touch]
  split <;> rfl

/-- The collector with a tally for the label values, if it is an instrument. -/
def Collector.touched (values : List String) (now : Float) : Collector → Collector
  | .instrument i => .instrument (i.touch values now)
  | x => x

lemma Collector.instrument_of_touched {x : Collector} {values : List String} {now : Float}
    {j : Instrument} (h : x.touched values now = .instrument j) :
    ∃ i, x = .instrument i ∧ j = i.touch values now := by
  cases x with
  | instrument i => exact ⟨i, rfl, (Collector.instrument.inj h).symm⟩
  | _ => cases h

lemma Collector.instrument_of_gained {x : Collector} {amounts : List String → List Float}
    {j : Instrument} (h : x.gained amounts = .instrument j) :
    ∃ i, x = .instrument i ∧ j = i.gained amounts := by
  cases x with
  | instrument i => exact ⟨i, rfl, (Collector.instrument.inj h).symm⟩
  | _ => cases h

/-- The site after a child has been asked for. -/
def Site.touched (s : Site) (k : CollectorId) (values : List String) : Site :=
  endOf (Handle.onInstrument k (fun i => i.touch values s.clock) s)

lemma Site.collector_touched (s : Site) (k l : CollectorId) (values : List String) :
    (s.touched k values).collector l
      = if l = k then (s.collector l).touched values s.clock else s.collector l := by
  rw [touched, Handle.onInstrument, modify_ok, endOf]
  cases found : s.collector k with
  | instrument i =>
    simp only
    rw [collector_withCollector (placed_of_instrument found)]
    split
    · next same => rw [same, found, Collector.touched]
    · rfl
  | _ =>
    simp only
    split
    · next same =>
      rw [same, found]
      rfl
    · rfl

variable (h : Handle) (kind : ChildKind) (values : List String)

/-- Asking a handle for a child is refused without a trace, gives an inert child, or makes sure of a
tally. -/
lemma Handle.labels_cases (s : Site) :
    (values.length ≠ h.arity
        ∧ h.labels kind values s = .error (.arity h.arity values.length) s)
      ∨ values.length = h.arity
        ∧ (h.target = none ∧ h.labels kind values s = .ok ⟨kind, none⟩ s
          ∨ ∃ k, h.target = some k
            ∧ h.labels kind values s = .ok ⟨kind, some (k, values)⟩ (s.touched k values)) := by
  rcases h.checkArity_cases values s with ⟨right, checked⟩ | ⟨wrong, refused⟩
  · refine Or.inr ⟨right, ?_⟩
    rw [labels, bind_of_ok checked]
    cases h.target with
    | none => exact Or.inl ⟨rfl, rfl⟩
    | some k => exact Or.inr ⟨k, rfl, rfl⟩
  · exact Or.inl ⟨wrong, bind_of_error refused _⟩

end Touching

/-- An active child refuses to be lowered. -/
def Child.Refuses (c : Child) (amount : Float) : Prop := c.inert = false ∧ amount < 0

/-- A raise is refused without a trace, or does nothing but take in the amount. -/
lemma Child.increment_cases (c : Child) (amount : Float) (s : Site) :
    (c.Refuses amount ∧ c.increment amount s = .error .negativeIncrement s)
      ∨ ¬ c.Refuses amount ∧ c.increment amount s = .ok () (s.gained [(c, amount)]) := by
  rw [increment]
  cases inert : c.inert with
  | true =>
    refine Or.inr ⟨fun refuses => by simp [Refuses, inert] at refuses, ?_⟩
    rw [if_pos rfl, Site.gained_inert (Option.isNone_iff_eq_none.mp inert)]
    rfl
  | false =>
    rw [if_neg Bool.false_ne_true]
    by_cases lowers : amount < 0
    · exact Or.inl ⟨⟨inert, lowers⟩, by rw [if_pos lowers]; rfl⟩
    · refine Or.inr ⟨fun refuses => lowers refuses.2, ?_⟩
      rw [if_neg lowers, c.record_eq]

/-- The call can give such a reply, as far as handles and children go. -/
def Call.Suits : Call → Reply → Prop
  | .labelled .., .handle _ | .supplied .., .handle _ => True
  | .single .., .child _ | .childOf .., .child _ => True
  | _, .handle _ | _, .child _ => False
  | _, _ => True

namespace Moment

/-- What the call gave. -/
def Replies (m : Moment) (r : Reply) : Prop := outcome (m.call.reply m.before) = .ok r

lemma replies_of_map {α : Type} {g : α → Reply} {x : Operation α} {d e : Deployment} {call : Call}
    {a : α} (same : call.reply = g <$> x) (ran : x d = .ok a e) : Replies ⟨d, call⟩ (g a) := by
  rw [Replies, same, ← bind_pure_comp, bind_of_ok ran]
  rfl

/-- The label values for which the call has given a child of the collector. -/
def asked (m : Moment) (k : CollectorId) : List (List String) :=
  match outcome (m.call.reply m.before) with
  | .ok (.child ⟨_, some (j, values)⟩) => if j = k then [values] else []
  | _ => []

/-- What the call has added to counters. -/
def increments (m : Moment) : Records :=
  match m.call with
  | .increment child amount => if m.returned then [(child, amount)] else []
  | _ => []

/-- The durations that the call has recorded. -/
def durations (m : Moment) : Records :=
  match m.call with
  | .observe child seconds => [(child, seconds)]
  | .stop timing => timing.due none m.before.site.clock
  | _ => []

/-- All that the call has recorded. -/
def records (m : Moment) : Records := m.increments ++ m.durations

variable {m : Moment} {k : CollectorId} {values : List String} {c : Child}

lemma asked_eq (given : m.Replies (.child c)) (k : CollectorId) :
    m.asked k = match c.target with
      | some (j, values) => if j = k then [values] else []
      | none => [] := by
  obtain ⟨kind, target⟩ := c
  rw [asked, given]
  cases target <;> rfl

lemma mem_asked : values ∈ m.asked k ↔ ∃ c, m.Replies (.child c) ∧ c.target = some (k, values) := by
  constructor
  · intro member
    rw [asked] at member
    split at member
    · next kind j others given =>
      split at member
      · next same =>
        rw [List.mem_singleton.mp member, ← same]
        exact ⟨_, given, rfl⟩
      · cases member
    · cases member
  · rintro ⟨c, given, target⟩
    rw [asked_eq given, target]
    simp

lemma asked_eq_nil (h : ∀ c, ¬ m.Replies (.child c)) : m.asked k = [] :=
  List.eq_nil_iff_forall_not_mem.mpr fun _ member => by
    obtain ⟨c, given, -⟩ := mem_asked.mp member
    exact h c given

lemma suits_of_replies {r : Reply} (given : m.Replies r) : m.call.Suits r := by
  obtain ⟨d, call⟩ := m
  cases call with
  | labelled | single | supplied | childOf | start | stop | observations =>
    obtain ⟨_, -, rfl⟩ := reply_of_map given
    trivial
  | pull n stream =>
    obtain ⟨_, -, rfl⟩ := reply_of_bind (x := ofAction (Stream.pull d.system n stream)) given
    trivial
  | gather =>
    obtain ⟨_, -, rfl⟩ := reply_of_bind (x := ofAction (Site.gather _)) given
    trivial
  | sampleValue name labels =>
    obtain ⟨_, -, rfl⟩ := reply_of_bind (x := ofAction (Site.sampleValue _ name labels)) given
    trivial
  | _ =>
    obtain ⟨⟨⟩, -, rfl⟩ := reply_of_bind (g := fun _ => Reply.done) given
    trivial

/-- A child is given by a handle, or by the one of an instrument without labels. -/
lemma child_cases (given : m.Replies (.child c)) :
    (∃ h kind values t, m.call = .childOf h kind values
        ∧ h.labels kind values m.before.site = .ok c t ∧ m.after = { m.before with site := t })
      ∨ ∃ kind cat name help h e t, m.call = .single kind cat name help
        ∧ labelled kind cat name help [] m.before = .ok h e
        ∧ h.labels kind.childKind [] e.site = .ok c t ∧ m.after = { e with site := t } := by
  have suits := suits_of_replies given
  obtain ⟨d, call⟩ := m
  cases call with
  | childOf h kind values =>
    obtain ⟨child, made, same⟩ := reply_of_map given
    cases same
    obtain ⟨t, taken, ends⟩ := action_of_ok made
    exact Or.inl ⟨h, kind, values, t, rfl, taken, (after_discard rfl).trans ends⟩
  | single kind cat name help =>
    obtain ⟨child, made, same⟩ := reply_of_map given
    cases same
    obtain ⟨h, e, obtained, lifted⟩ := ok_of_bind_ok made
    obtain ⟨t, taken, ends⟩ := action_of_ok lifted
    exact Or.inr ⟨kind, cat, name, help, h, e, t, rfl, obtained, taken,
      (after_discard rfl).trans ends⟩
  | _ => exact absurd suits id

/-- A handle is given by a call that asks for an instrument or for a supplied metric. -/
lemma handle_cases {h : Handle} (given : m.Replies (.handle h)) :
    (∃ kind cat name help labels, m.call = .labelled kind cat name help labels
        ∧ labelled kind cat name help labels m.before = .ok h m.after)
      ∨ ∃ kind cat name help labels, m.call = .supplied kind cat name help labels
        ∧ supplied kind cat name help labels m.before = .ok h m.after := by
  have suits := suits_of_replies given
  obtain ⟨d, call⟩ := m
  cases call with
  | labelled kind cat name help labels =>
    obtain ⟨made, ran, same⟩ := reply_of_map given
    cases same
    have ends : after ⟨d, .labelled kind cat name help labels⟩ = _ := after_discard rfl
    exact Or.inl ⟨kind, cat, name, help, labels, rfl, by rw [ends]; exact ran⟩
  | supplied kind cat name help labels =>
    obtain ⟨made, ran, same⟩ := reply_of_map given
    cases same
    have ends : after ⟨d, .supplied kind cat name help labels⟩ = _ := after_discard rfl
    exact Or.inr ⟨kind, cat, name, help, labels, rfl, by rw [ends]; exact ran⟩
  | _ => exact absurd suits id

lemma gives_of_child (given : m.Replies (.child c)) : m.call.GivesChild := by
  rcases child_cases given with
    ⟨h, kind, values, t, called, -⟩ | ⟨kind, cat, name, help, h, e, t, called, -⟩
  all_goals
    rw [called]
    trivial

/-- In the call the first instrument has become the second: a tally was asked for, or amounts were
recorded. -/
def Turns (m : Moment) (k : CollectorId) (i j : Instrument) : Prop :=
  (∃ values now, m.asked k = [values] ∧ m.records = [] ∧ j = i.touch values now)
    ∨ m.asked k = [] ∧ j = i.gained (m.records.amounts k)

lemma Turns.labels {i j : Instrument} (turns : m.Turns k i j) : j.labels = i.labels := by
  rcases turns with ⟨values, now, -, -, rfl⟩ | ⟨-, rfl⟩
  · exact i.labels_touch values now
  · rfl

lemma turns_of_silent {i : Instrument} (none_asked : m.asked k = []) (silent : m.records = []) :
    m.Turns k i i := by
  refine Or.inr ⟨none_asked, ?_⟩
  rw [silent]
  exact i.gained_nothing.symm

/-- What asking a handle does to an instrument, in a call that comes to nothing else. -/
lemma asking {d e : Deployment} (call : Call) {x : Operation Child} {h : Handle} {kind : ChildKind}
    {j : Instrument} (replied : call.reply = Reply.child <$> x)
    (performed : call.perform = discard x) (silent : records ⟨d, call⟩ = [])
    (run : x d = ofAction (h.labels kind values) e)
    (instrument : (after ⟨d, call⟩).site.collector k = .instrument j) :
    ∃ i, e.site.collector k = .instrument i ∧ Turns ⟨d, call⟩ k i j := by
  rw [after_discard performed, run, endOf_ofAction] at instrument
  rcases h.labels_cases kind values e.site with
    ⟨-, refused⟩ | ⟨-, ⟨-, inert⟩ | ⟨l, -, active⟩⟩
  · rw [refused] at instrument
    refine ⟨j, instrument, turns_of_silent (asked_eq_nil fun c given => ?_) silent⟩
    rw [Replies, replied] at given
    obtain ⟨child, taken, -⟩ := reply_of_map given
    rw [run, ofAction_error refused] at taken
    cases taken
  · rw [inert] at instrument
    have given := replies_of_map replied (run.trans (ofAction_ok inert))
    exact ⟨j, instrument, turns_of_silent (asked_eq given k) silent⟩
  · have given := replies_of_map replied (run.trans (ofAction_ok active))
    have asked := asked_eq given k
    rw [active, endOf, collector_touched] at instrument
    by_cases own : k = l
    · rw [if_pos own] at instrument
      obtain ⟨i, found, rfl⟩ := Collector.instrument_of_touched instrument
      exact ⟨i, found, Or.inl ⟨_, e.site.clock, asked.trans (if_pos own.symm), silent, rfl⟩⟩
    · rw [if_neg own] at instrument
      exact ⟨j, instrument, turns_of_silent (asked.trans (if_neg (Ne.symm own))) silent⟩

/-- A raise is refused and changes nothing, or adds the amount to what was recorded. -/
lemma increment_after {amount : Float} (called : m.call = .increment c amount) :
    (c.Refuses amount ∧ m.returned = false ∧ m.after = m.before ∧ m.increments = [])
      ∨ ¬ c.Refuses amount ∧ m.returned = true ∧ m.increments = [(c, amount)]
        ∧ m.after = { m.before with site := m.before.site.gained [(c, amount)] } := by
  obtain ⟨d, call⟩ := m
  obtain rfl : call = .increment c amount := called
  rcases c.increment_cases amount d.site with ⟨refuses, refused⟩ | ⟨accepts, raised⟩
  · obtain ⟨ends, failed⟩ := after_of_error (m := ⟨d, .increment c amount⟩)
      (ofAction_error (d := d) refused)
    exact Or.inl ⟨refuses, failed, ends, if_neg (by rw [failed]; exact Bool.false_ne_true)⟩
  · obtain ⟨ends, returned⟩ := after_of_ok (m := ⟨d, .increment c amount⟩)
      (ofAction_ok (d := d) raised)
    exact Or.inr ⟨accepts, returned, if_pos returned, ends⟩

/-- A call that records does nothing else. -/
lemma site_after_recording (h : m.call.IsRecording) :
    m.after.site = m.before.site.gained m.records := by
  obtain ⟨d, call⟩ := m
  cases call with
  | increment child amount =>
    rcases increment_after (m := ⟨d, .increment child amount⟩) rfl with
      ⟨-, -, ends, nothing⟩ | ⟨-, -, raised, ends⟩
    · rw [ends, records, nothing]
      exact d.site.gained_nil.symm
    · rw [ends, records, raised]
      rfl
  | observe child seconds =>
    have ends : after ⟨d, .observe child seconds⟩
        = endOf (ofAction (child.observe seconds) d) := rfl
    rw [ends, endOf_ofAction, Child.observe, child.record_eq]
    rfl
  | stop timing =>
    have ends : after ⟨d, .stop timing⟩ = endOf (ofAction timing.stop d) := after_discard rfl
    rw [ends, endOf_ofAction, timing.stop_eq]
    rfl
  | _ => exact absurd h id

/-- An instrument without labels is made if need be, and then its child is asked for. -/
lemma instrument_after_single {kind : InstrumentKind} {c : Category} {name help : String}
    {d : Deployment} {j : Instrument}
    (instrument : (after ⟨d, .single kind c name help⟩).site.collector k = .instrument j) :
    ∃ i, (d.site.collector k = .instrument i ∨ d.site.collectors.length ≤ k.index ∧ i.New)
      ∧ Turns ⟨d, .single kind c name help⟩ k i j := by
  have kept := labelled_moves Deployment.keepsInstruments_builds c name help [] kind d
  cases created : System.labelled kind c name help [] d with
  | error fault e =>
    rw [created] at kept
    have failed : System.single kind c name help d = .error fault e := bind_of_error created _
    rw [after_discard (x := System.single kind c name help) rfl, failed] at instrument
    refine ⟨j, kept.cases instrument, turns_of_silent (asked_eq_nil fun child given => ?_) rfl⟩
    obtain ⟨_, made, -⟩ := reply_of_map (x := System.single kind c name help) given
    rw [failed] at made
    cases made
  | ok h e =>
    rw [created] at kept
    obtain ⟨i, found, turns⟩ :=
      asking (.single kind c name help) rfl rfl rfl (bind_of_ok created _) instrument
    exact ⟨i, kept.cases found, turns⟩

/-- All that a call does to an instrument that was there or is new. -/
lemma instrument_after {j : Instrument} (instrument : m.after.site.collector k = .instrument j) :
    ∃ i, (m.before.site.collector k = .instrument i
        ∨ m.before.site.collectors.length ≤ k.index ∧ i.New) ∧ m.Turns k i j := by
  by_cases gives : m.call.GivesChild
  · obtain ⟨d, call⟩ := m
    cases call with
    | childOf h kind values =>
      obtain ⟨i, found, turns⟩ := asking (.childOf h kind values) rfl rfl rfl rfl instrument
      exact ⟨i, Or.inl found, turns⟩
    | single kind c name help => exact instrument_after_single instrument
    | _ => exact absurd gives id
  · have none_asked : m.asked k = [] := asked_eq_nil fun c given => gives (gives_of_child given)
    by_cases recording : m.call.IsRecording
    · rw [site_after_recording recording, collector_gained] at instrument
      obtain ⟨i, found, rfl⟩ := Collector.instrument_of_gained instrument
      exact ⟨i, Or.inl found, Or.inr ⟨none_asked, rfl⟩⟩
    · have silent : m.records = [] := by
        obtain ⟨d, call⟩ := m
        cases call <;> first | rfl | exact absurd trivial recording
      have kept := Call.keepsInstruments gives recording m.before
      exact ⟨j, kept.cases instrument, turns_of_silent none_asked silent⟩

end Moment

section Telling

lemma Distinct.ofList_concat {α : Type} [DecidableEq α] (xs : List α) (x : α) :
    ofList (xs ++ [x]) = (ofList xs).insert x := List.foldl_append

/-- The combinations of label values that have a tally: the empty one if there are no labels, then
those that were asked for, each where it was asked for first. -/
def combinations (labels : List String) (asked : List (List String)) : Distinct (List String) :=
  .ofList ((if labels.isEmpty then [[]] else []) ++ asked)

lemma combinations_concat (labels : List String) (asked : List (List String))
    (values : List String) :
    combinations labels (asked ++ [values]) = (combinations labels asked).insert values := by
  rw [combinations, ← List.append_assoc, Distinct.ofList_concat]
  rfl

lemma mem_combinations {labels : List String} {asked : List (List String)} {values : List String} :
    values ∈ combinations labels asked ↔ (labels = [] ∧ values = []) ∨ values ∈ asked := by
  rw [combinations, Distinct.mem_ofList, List.mem_append]
  cases labels <;> simp

/-- The instrument has tallies for the combinations that were asked for, and each has taken in the
amounts for it. -/
structure Instrument.Tells (i : Instrument) (asked : List (List String))
    (amounts : List String → List Float) : Prop where
  own : ∀ label ∈ i.kind.ownLabel?, label ∉ i.labels
  even : ∀ values ∈ asked, values.length = i.labels.length
  entries : ∃ created : List String → Float, i.series.entries
    = (combinations i.labels asked).toList.map fun values =>
      (values, (Tally.start (created values)).addAll (amounts values))

namespace Instrument

variable {i : Instrument} {asked : List (List String)} {amounts : List String → List Float}

/-- A new instrument has been told nothing. -/
lemma New.tells (new : i.New) : i.Tells [] fun _ => [] := by
  obtain ⟨now, declared⟩ := new
  have own := own_of_declare declared
  rw [declare] at declared
  split at declared
  · cases declared
  · split at declared
    · cases declared
    · have series := congrArg series (Except.ok.inj declared)
      refine ⟨own, fun _ h => absurd h List.not_mem_nil, fun _ => now, ?_⟩
      rw [← series]
      cases i.labels <;> rfl

namespace Tells

variable (tells : i.Tells asked amounts)

include tells

lemma mem_series {values : List String} :
    values ∈ i.series ↔ values ∈ combinations i.labels asked := by
  obtain ⟨created, entries⟩ := tells.entries
  rw [Index.mem_def, Index.keys, entries, List.map_map, Distinct.mem_def]
  simp [Function.comp_def]

/-- Asking for a child makes sure of a tally that has taken in nothing yet. -/
lemma touch {values : List String} (right : values.length = i.labels.length)
    (idle : values ∉ combinations i.labels asked → amounts values = []) (now : Float) :
    (i.touch values now).Tells (asked ++ [values]) amounts := by
  refine ⟨?_, ?_, ?_⟩
  · rw [kind_touch, labels_touch]
    exact tells.own
  · rw [labels_touch]
    exact List.forall_mem_append.mpr ⟨tells.even, List.forall_mem_singleton.mpr right⟩
  · obtain ⟨created, entries⟩ := tells.entries
    rw [labels_touch, combinations_concat]
    by_cases old : values ∈ combinations i.labels asked
    · refine ⟨created, ?_⟩
      rw [Distinct.insert_of_mem old, Instrument.touch, if_pos (tells.mem_series.mpr old), entries]
    · refine ⟨fun others => if others = values then now else created others, ?_⟩
      have absent : values ∉ i.series := fun h => old (tells.mem_series.mp h)
      rw [Distinct.toList_insert_of_not_mem old, Instrument.touch, if_neg absent,
        Index.entries_put_of_not_mem _ absent, entries, List.map_append]
      congr 1
      · refine List.map_congr_left fun others member => ?_
        have apart : others ≠ values := fun same => old (same ▸ member)
        simp only [if_neg apart]
      · simp [idle old, Tally.addAll]

/-- Recording adds to what has been taken in. -/
lemma gained (more : List String → List Float) :
    (i.gained more).Tells asked fun values => amounts values ++ more values where
  own := tells.own
  even := tells.even
  entries := by
    obtain ⟨created, entries⟩ := tells.entries
    refine ⟨created, ?_⟩
    change i.series.entries.map (fun e => (e.1, e.2.addAll (more e.1))) = _
    rw [entries, List.map_map]
    refine List.map_congr_left fun values _ => ?_
    rw [Function.comp_apply, Tally.addAll_addAll]

/-- What a call does to an instrument is told. -/
lemma turns {m : Moment} {k : CollectorId} {j : Instrument} (turns : m.Turns k i j)
    (right : ∀ values ∈ m.asked k, values.length = i.labels.length)
    (idle : ∀ values, values ∉ asked → amounts values = []) :
    j.Tells (asked ++ m.asked k) fun values => amounts values ++ m.records.amounts k values := by
  rcases turns with ⟨values, now, one_asked, silent, rfl⟩ | ⟨none_asked, rfl⟩
  · rw [one_asked] at right ⊢
    simp only [silent, Records.amounts, List.filterMap_nil, List.append_nil]
    refine tells.touch (right values List.mem_cons_self) (fun absent => idle values ?_) now
    exact fun old => absent (mem_combinations.mpr (Or.inr old))
  · rw [none_asked, List.append_nil]
    exact tells.gained _

end Tells

end Instrument

end Telling

end Metering
