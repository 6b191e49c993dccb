import Metering.Proofs.SystemRuns

/-!
# What is recorded is shown

An amount that is recorded through a child of an active handle goes to the tally of its label
values. While no supplier raises, reading the system then shows it if the system lists the
instrument, and so does reading the registry if the registry holds it.
-/

namespace Metering

namespace Instrument

/-- The instrument after an amount has been recorded under label values at a time. -/
def recorded (i : Instrument) (values : List String) (now x : Float) : Instrument :=
  (i.touch values now).record values x

/-- The amount goes to the tally of the label values, which is started if there is none. -/
lemma get?_recorded (i : Instrument) (values : List String) (now x : Float) :
    (i.recorded values now x).series.get? values
      = some (((i.series.get? values).getD (.start now)).add x) := by
  rw [recorded, record, Index.get?_adjust, if_pos rfl, touch]
  by_cases known : values ∈ i.series
  · rw [if_pos known]
    cases kept : i.series.get? values with
    | none => exact absurd known (Index.get?_eq_none_iff.mp kept)
    | some t => rfl
  · rw [if_neg known, Index.get?_eq_none_iff.mpr known]
    have started := Index.get?_put_self i.series values (Tally.start now)
    rw [started]
    rfl

lemma sample_mem_samples {i : Instrument} {values : List String} {t : Tally}
    (kept : i.series.get? values = some t) {r : String × Option (String × String) × Float}
    (hr : r ∈ readings i.kind t) : i.sample values r ∈ i.samples :=
  List.mem_flatMap.mpr ⟨(values, t), Index.mem_entries_iff.mpr kept, List.mem_map_of_mem hr⟩

end Instrument

section Recording

variable {s : Site} {k : CollectorId} {i : Instrument}

lemma onInstrument_ok (f : Instrument → Instrument) (instrument : s.collector k = .instrument i) :
    Handle.onInstrument k f s = .ok () (s.withCollector k (.instrument (f i))) := by
  rw [Handle.onInstrument, modify_ok, instrument]

/-- Takes a child and records an amount through it: a counter is raised, a duration observed. -/
def Handle.put (h : Handle) (kind : ChildKind) (values : List String) (x : Float) :
    Action Unit := do
  let child ← h.labels kind values
  match kind with
  | .counter => child.increment x
  | .timer => child.observe x

lemma Handle.put_aside (h : Handle) (kind : ChildKind) (values : List String) (x : Float) :
    Moves Site.Aside (h.put kind values x) := by
  refine (h.labels_aside kind values).bind fun child => ?_
  cases kind with
  | counter => exact child.increment_aside x
  | timer => exact child.record_aside x

lemma put_ok {h : Handle} {kind : ChildKind} {values : List String} {x : Float}
    (active : h.target = some k) (arity : values.length = h.arity)
    (accepted : kind = .counter → ¬ x < 0) (instrument : s.collector k = .instrument i)
    (placed : k.index < s.collectors.length) :
    h.put kind values x s
      = .ok () (s.withCollector k (.instrument (i.recorded values s.clock x))) := by
  let t := s.withCollector k (.instrument (i.touch values s.clock))
  have checked : h.checkArity values s = .ok () s := by
    rw [Handle.checkArity, if_pos arity]
    rfl
  have touched : h.labels kind values s = .ok ⟨kind, some (k, values)⟩ t := by
    rw [Handle.labels, bind_of_ok checked, active]
    simp only
    rw [bind_get, bind_of_ok (onInstrument_ok _ instrument)]
    rfl
  have now : t.collector k = .instrument (i.touch values s.clock) := by
    rw [Site.collector_withCollector placed, if_pos rfl]
  have recorded : Child.record ⟨kind, some (k, values)⟩ x t
      = .ok () (s.withCollector k (.instrument (i.recorded values s.clock x))) := by
    refine (onInstrument_ok _ now).trans ?_
    simp [t, Site.withCollector, Instrument.recorded]
  rw [Handle.put, bind_of_ok touched]
  cases kind with
  | counter =>
    have raised := accepted rfl
    simp only [Child.increment, Child.inert, Option.isNone_some, Bool.false_eq_true,
      if_neg raised]
    exact recorded
  | timer => exact recorded

end Recording

/-- Both the system and its registry can be read, and show what the instrument has gathered. The
registry may hold more than the system lists, and that must not have an empty name. -/
structure Deployment.Shows (d : Deployment) (c : Category) (i : Instrument) : Prop where
  observed : ∃ observations e, System.observations none d = .ok observations e
    ∧ ∀ values tally, i.series.get? values = some tally →
      ∀ r ∈ Instrument.readings i.kind tally,
        .ofSample d.system.book c i.family (i.sample values r) ∈ observations
  exposed : (∀ k ∈ d.registry.held, (d.site.collector k).Nameable) →
    ∃ families t, Site.gather d.system.roster.registry d.site = .ok families t
      ∧ i.family ∈ families

/-- Whatever a child of the handle accepts is added to the tally of its label values, and shows from
then on. -/
def Deployment.Effective (d : Deployment) (c : Category) (k : CollectorId) (h : Handle)
    (kind : ChildKind) : Prop :=
  ∀ values x, values.length = h.arity → (kind = .counter → ¬ x < 0) →
    ∃ i j t, d.site.collector k = .instrument i
      ∧ h.put kind values x d.site = .ok () t
      ∧ t.collector k = .instrument j
      ∧ j.series.get? values = some (((i.series.get? values).getD (.start d.site.clock)).add x)
      ∧ Deployment.Shows ⟨d.system, t⟩ c j

namespace System

open Operation Site

variable {c : Category} {k : CollectorId} {i : Instrument} {d : Deployment}

lemma collect_instrument {s t : Site} {families : List Family}
    (collected : collect k s = .ok families t) (instrument : s.collector k = .instrument i) :
    families = [i.family] := by
  have run : collect k s
      = familiesOf (s.collector k) { s with activity := s.activity ++ [.collected k] } := rfl
  rw [run, instrument] at collected
  cases collected
  rfl

/-- Reading listed collectors succeeds, and whatever an instrument among them has gathered is
observed. -/
lemma observationsOf_calm (calm : d.site.Calm) {ks : List CollectorId}
    (nameable : ∀ k ∈ ks, (d.site.collector k).Nameable) :
    ∃ observations e, observationsOf c ks d = .ok observations e
      ∧ ∀ k ∈ ks, ∀ i, d.site.collector k = .instrument i →
        ∀ x ∈ i.samples, .ofSample d.system.book c i.family x ∈ observations := by
  induction ks generalizing d with
  | nil => exact ⟨[], d, rfl, fun _ h => absurd h List.not_mem_nil⟩
  | cons j ks ih =>
    obtain ⟨families, t, collected⟩ := collect_succeeds calm (nameable j List.mem_cons_self)
    have quiet := (collect_moves j).of_ok collected
    let m : Deployment := { d with site := t }
    obtain ⟨others, e, rest, shown⟩ := ih (d := m) (quiet.calm calm) fun k hk => by
      rw [quiet.collector]
      exact nameable k (List.mem_cons_of_mem j hk)
    refine ⟨_, e, (bind_of_ok (Operation.ofAction_ok collected) _).trans
      ((bind_system _ m).trans (bind_of_ok rest _)), ?_⟩
    intro k hk i instrument x hx
    rcases List.mem_cons.mp hk with rfl | later
    · apply List.mem_append_left
      rw [collect_instrument collected instrument, Observation.ofFamilies, List.flatMap_singleton]
      exact List.mem_map_of_mem hx
    · have still : t.collector k = .instrument i := (quiet.collector k).trans instrument
      exact List.mem_append_right _ (shown k later i still x hx)

lemma observationsIn_calm (calm : d.site.Calm) {cs : List Category}
    (nameable : ∀ c ∈ cs, ∀ k ∈ d.listed c, (d.site.collector k).Nameable) :
    ∃ observations e, observationsIn cs d = .ok observations e
      ∧ ∀ c ∈ cs, ∀ k ∈ d.listed c, ∀ i, d.site.collector k = .instrument i →
        ∀ x ∈ i.samples, .ofSample d.system.book c i.family x ∈ observations := by
  induction cs generalizing d with
  | nil => exact ⟨[], d, rfl, fun _ h => absurd h List.not_mem_nil⟩
  | cons c' cs ih =>
    obtain ⟨own, m, read, here⟩ := observationsOf_calm (c := c') calm
      (nameable c' List.mem_cons_self)
    have reads := (observationsOf_reads c' _).of_ok read
    have quiet := reads.site
    have lists : ∀ c, m.listed c = d.listed c := by
      intro c
      rw [Deployment.listed, reads.system]
    obtain ⟨others, e, rest, shown⟩ := ih (d := m) (quiet.calm calm) fun c hc k hk => by
      rw [lists] at hk
      rw [quiet.collector]
      exact nameable c (List.mem_cons_of_mem c' hc) k hk
    refine ⟨_, e, (bind_system _ d).trans ((bind_of_ok read _).trans (bind_of_ok rest _)), ?_⟩
    intro c hc k listed i instrument x hx
    rcases List.mem_cons.mp hc with rfl | later
    · exact List.mem_append_left _ (here k listed i instrument x hx)
    · rw [← lists] at listed
      have still := (quiet.collector k).trans instrument
      have found := shown c later k listed i still x hx
      rw [reads.system] at found
      exact List.mem_append_right _ found

lemma collectAll_calm {s : Site} (calm : s.Calm) {ks : List CollectorId}
    (nameable : ∀ k ∈ ks, (s.collector k).Nameable) :
    ∃ families t, collectAll ks s = .ok families t
      ∧ ∀ k ∈ ks, ∀ i, s.collector k = .instrument i → i.family ∈ families := by
  induction ks generalizing s with
  | nil => exact ⟨[], s, rfl, fun _ h => absurd h List.not_mem_nil⟩
  | cons j ks ih =>
    obtain ⟨own, t, collected⟩ := collect_succeeds calm (nameable j List.mem_cons_self)
    have quiet := (collect_moves j).of_ok collected
    obtain ⟨others, u, rest, shown⟩ := ih (quiet.calm calm) fun k hk => by
      rw [quiet.collector]
      exact nameable k (List.mem_cons_of_mem j hk)
    refine ⟨_, u, (bind_of_ok collected _).trans (bind_of_ok rest _), ?_⟩
    intro k hk i instrument
    rcases List.mem_cons.mp hk with rfl | later
    · rw [collect_instrument collected instrument]
      exact List.mem_append_left _ List.mem_cons_self
    · have still := (quiet.collector k).trans instrument
      exact List.mem_append_right _ (shown k later i still)

end System

namespace Deployment.Sound

variable {d : Deployment} {c : Category} {k : CollectorId} {i : Instrument}

/-- In a sound deployment an instrument that is listed shows. -/
lemma shows (sound : d.Sound) (listed : k ∈ d.listed c)
    (instrument : d.site.collector k = .instrument i) : d.Shows c i where
  observed := by
    have known := Roster.mem_categories listed
    have nameable : ∀ c ∈ d.system.roster.categories, ∀ k ∈ d.listed c,
        (d.site.collector k).Nameable := by
      intro c _ k hk
      exact sound.tidy.nameable hk
    obtain ⟨observations, e, read, shown⟩ := System.observationsIn_calm sound.calm nameable
    refine ⟨observations, e, (Operation.bind_system _ d).trans read, ?_⟩
    intro values tally kept r hr
    exact shown c known k listed i instrument _ (Instrument.sample_mem_samples kept hr)
  exposed := by
    intro nameable
    obtain ⟨families, t, gathered, shown⟩ := System.collectAll_calm sound.calm nameable
    exact ⟨families, t, gathered, shown k (sound.backed.mem_held listed) i instrument⟩

/-- So does whatever a handle of it records. -/
lemma effective (sound : d.Sound) (listed : k ∈ d.listed c)
    (instrument : d.site.collector k = .instrument i) {h : Handle} (active : h.target = some k)
    (kind : ChildKind) : d.Effective c k h kind := by
  intro values x arity accepted
  have placed := sound.tidy.placed listed
  let j := i.recorded values d.site.clock x
  let t := d.site.withCollector k (.instrument j)
  have recorded : h.put kind values x d.site = .ok () t :=
    put_ok active arity accepted instrument placed
  have now : t.collector k = .instrument j := by
    rw [Site.collector_withCollector placed, if_pos rfl]
  have aside : d.Aside ⟨d.system, t⟩ := ⟨rfl, (h.put_aside kind values x).of_ok recorded⟩
  have after : Deployment.Sound ⟨d.system, t⟩ := aside.sound sound
  exact ⟨i, j, t, instrument, recorded, now, i.get?_recorded values d.site.clock x,
    after.shows listed now⟩

end Deployment.Sound

end Metering
