import Metering.Proofs.HandleTargets
import Metering.Proofs.ObservationAddresses
import Metering.Proofs.StreamPages

/-!
# Timers read back

A listed instrument is read once in a reading, and what is read tells all that it was told: for each
combination of label values, in the order in which they were asked for, the figures of the amounts
that were recorded for it (`Instrument.Tells.observations`). For timers these are the count, or the
buckets, and the sum of the durations (`timer_read_back`).
-/

namespace Metering

open Operation Metering.System

/-- The amounts added up in their order. -/
def floatSum (xs : List Float) : Float := xs.foldl (· + ·) 0.0

/-- How many of the amounts are at most the bound. -/
def countUpTo (bound : Float) (xs : List Float) : Nat := xs.countP fun x => decide (x ≤ bound)

/-- What an instrument shows of a combination that has taken in the amounts: numbers, each with what
its label values have after those of the combination. -/
def InstrumentKind.figures (kind : InstrumentKind) (created : Float) (xs : List Float) :
    List (List String × Float) :=
  match kind with
  | .counter => [([], floatSum xs), (["created"], created)]
  | .timer =>
    [(["count"], xs.length.toFloat), (["sum"], floatSum xs), (["created"], created)]
  | .simpleTimer =>
    [(["bucket", "1.0"], (countUpTo briefBound xs).toFloat),
     (["bucket", "+Inf"], (countUpTo infinity xs).toFloat),
     (["count"], (countUpTo infinity xs).toFloat), (["sum"], floatSum xs), (["created"], created)]

/-- The observations of combinations that have taken in the amounts. -/
def InstrumentKind.observations (kind : InstrumentKind) (c : Category) (metric : String)
    (combinations : List (List String)) (created : List String → Float)
    (amounts : List String → List Float) : List Observation :=
  combinations.flatMap fun values =>
    (kind.figures (created values) (amounts values)).map fun f =>
      ⟨c, metric, some (.float f.2), values ++ f.1⟩

section Figures

variable (kind : InstrumentKind) (created : Float) (xs : List Float)

lemma InstrumentKind.endings_eq : kind.endings = (kind.figures created xs).map Prod.fst := by
  cases kind <;> rfl

/-- The numbers of a tally are the figures of the amounts that it has taken in. -/
lemma Instrument.numbers_readings :
    (readings kind ((Tally.start created).addAll xs)).map (fun r => r.2.2)
      = (kind.figures created xs).map Prod.snd := by
  cases kind <;>
    simp [readings, InstrumentKind.figures, Tally.total_addAll, Tally.count_addAll,
      Tally.brief_addAll, Tally.bounded_addAll, Tally.created_addAll, Tally.start, floatSum,
      countUpTo]

end Figures

section Telling

variable {i : Instrument} {asked : List (List String)} {amounts : List String → List Float}

lemma Instrument.metricName_family (b : NameBook) (c : Category) (i : Instrument) (x : Sample) :
    Observation.metricName b c i.family x = b.metric c i.kind.familyType i.familyName :=
  Observation.metricName_of_compound i.kind.isCompound_familyType x

/-- What is read of one combination are its figures. -/
lemma Instrument.observations_combination (b : NameBook) (c : Category) (nodup : i.labels.Nodup)
    (own : ∀ label ∈ i.kind.ownLabel?, label ∉ i.labels) {values : List String}
    (right : values.length = i.labels.length) (created : Float) (xs : List Float) :
    (readings i.kind ((Tally.start created).addAll xs)).map
        (fun r => Observation.ofSample b c i.family (i.sample values r))
      = (i.kind.figures created xs).map fun f =>
        ⟨c, b.metric c i.kind.familyType i.familyName, some (.float f.2), values ++ f.1⟩ := by
  have labels := labelValues_readings ((Tally.start created).addAll xs) nodup own right
  rw [i.kind.endings_eq created xs, List.map_map] at labels
  have pairs := congrArg₂ List.zip labels (numbers_readings i.kind created xs)
  rw [List.zip_map', List.zip_map'] at pairs
  have shown := congrArg (List.map fun p : List String × Float =>
    (⟨c, b.metric c i.kind.familyType i.familyName, some (.float p.2), p.1⟩ : Observation)) pairs
  rw [List.map_map, List.map_map] at shown
  refine Eq.trans (List.map_congr_left fun r _ => ?_) shown
  rw [Observation.ofSample, i.metricName_family]
  rfl

lemma Instrument.Tells.length_eq (tells : i.Tells asked amounts) {values : List String}
    (member : values ∈ combinations i.labels asked) : values.length = i.labels.length := by
  rcases mem_combinations.mp member with ⟨none_named, rfl⟩ | asked
  · rw [none_named]
  · exact tells.even values asked

/-- What is read from an instrument tells what it was told. -/
lemma Instrument.Tells.observations (tells : i.Tells asked amounts) (nodup : i.labels.Nodup)
    (c : Category) : ∃ created, ∀ b : NameBook, Observation.ofFamilies b c [i.family]
      = i.kind.observations c (b.metric c i.kind.familyType i.familyName)
        (combinations i.labels asked).toList created amounts := by
  obtain ⟨created, entries⟩ := tells.entries
  refine ⟨created, fun b => ?_⟩
  have samples : i.family.samples = i.samples := rfl
  rw [Observation.ofFamilies, List.flatMap_singleton, samples, Instrument.samples, entries,
    List.flatMap_map, List.map_flatMap, InstrumentKind.observations]
  refine List.flatMap_congr fun values member => ?_
  rw [List.map_map]
  exact observations_combination b c nodup tells.own (tells.length_eq member) _ _

end Telling

section Reading

variable {c : Category} {ks : List CollectorId} {k : CollectorId} {i : Instrument}
  {d e : Deployment} {rs : List (CollectorId × Observation)}

/-- Whenever a collector that is an instrument gives its families, they are the same. -/
lemma System.collect_instrument_noted {s t u : Site} {families : List Family} (notes : s.Notes t)
    (instrument : s.collector k = .instrument i) (collected : Site.collect k t = .ok families u) :
    families = [i.family] :=
  collect_instrument collected ((notes.collector k).trans instrument)

/-- What a stream gives of an instrument. -/
lemma System.streamed_instrument {s t u : Site} {families : List Family} (notes : s.Notes t)
    (instrument : s.collector k = .instrument i) (collected : Site.collect k t = .ok families u)
    (later : System) : (familySamples families).map (Stream.observed later c)
      = Observation.ofFamilies later.book c [i.family] := by
  rw [← ofFamilies_eq_observed, collect_instrument_noted notes instrument collected]

lemma System.readFrom_append (k : CollectorId) (rs more : List (CollectorId × Observation)) :
    readFrom k (rs ++ more) = readFrom k rs ++ readFrom k more := by
  rw [readFrom, List.filter_append, List.map_append]
  rfl

/-- A collector that is read once is read as its families. -/
lemma System.readFrom_instrument (nodup : ks.Nodup)
    (instrument : d.site.collector k = .instrument i) (read : readings c ks d = .ok rs e) :
    readFrom k rs = if k ∈ ks then Observation.ofFamilies d.system.book c [i.family] else [] := by
  split
  · next listed =>
    obtain ⟨given, gave, rfl⟩ := readings_ok read
    rw [← gave.each] at nodup listed
    obtain ⟨⟨j, families⟩, hg, rfl⟩ := List.mem_map.mp listed
    obtain ⟨t, u, before, collected, -⟩ := gave.collected _ hg
    rw [readFrom_readingsOf _ _ nodup hg, collect_instrument_noted before instrument collected]
  · next unlisted =>
    rw [readFrom, List.map_eq_nil_iff, List.filter_eq_nil_iff]
    rintro ⟨j, o⟩ member same
    obtain rfl : j = k := of_decide_eq_true same
    exact unlisted (mem_readings read member).1

end Reading

section Timers

variable {others : Deployment → Site → Prop} {enabled : Distinct Category} {timers : Bool}
  {r : RegistryId} {s : Site} {ms : List Moment} {d : Deployment} {m : Moment}
  {kind : InstrumentKind} {c : Category} {name help : String} {labels : List String} {h : Handle}
  {k : CollectorId}

/-- A handle that was not kept before was made by the call, and its collector was registered. -/
lemma Moment.registers_of_new (called : m.call = .labelled kind c name help labels)
    (new : (m.before.system.handles kind).get? (c.external name) = none)
    (given : m.Replies (.handle h)) :
    h.inert = !m.before.system.records kind c ∧ ∀ k, h.target = some k → m.Registers c k := by
  rcases handle_cases given with
    ⟨kind', c', name', help', labels', same, made⟩ | ⟨kind', c', name', help', labels', same, -⟩
  · rw [called] at same
    cases same
    rcases labelled_cases kind c name help labels m.before with
      ⟨old, kept, -⟩ | ⟨-, ⟨fault, e, run, -⟩ | ⟨fresh, e, built, -, run⟩⟩
    · rw [new] at kept
      cases kept
    · rw [run] at made
      cases made
    · rw [run] at made
      injection made with same ends
      subst same
      obtain ⟨inert, -, registered⟩ := build_ok built
      rw [Deployment.declaring_records] at inert
      refine ⟨inert, fun k target => ?_⟩
      obtain ⟨rfl, listed⟩ := registered k target
      refine ⟨by rw [Deployment.declaring_site]; exact Nat.le_refl _, ?_⟩
      rw [← ends, Deployment.listed]
      change _ ∈ (e.system.keep kind (c.external name) fresh).roster.ofCategory c
      rw [keep_roster]
      exact listed
  · rw [called] at same
    cases same

/-- An instrument that was registered is declared as it was asked for from then on. -/
lemma Run.instrument_of_labelled {start : Deployment} (run : Run others start ms d)
    (growing : ∀ d t, others d t → d.site.Grows t) (first : start.system.roster.Tidy start.site)
    (member : m ∈ ms) (called : m.call = .labelled kind c name help labels)
    (registered : m.Registers c k) : ∃ i, d.site.collector k = .instrument i
      ∧ i.kind = kind ∧ i.name = c.external name ∧ i.labels = labels := by
  have offered := run.offered_of_registers growing first member registered
  rw [called] at offered
  have declared := congrArg Prod.snd (List.mem_singleton.mp offered)
  obtain ⟨i, instrument⟩ := Collector.instrument_of_declared declared
  rw [instrument] at declared
  simp only [Collector.declared, instrumentOffer, Collector.instrument.injEq,
    Instrument.mk.injEq] at declared
  exact ⟨i, instrument, declared.1, declared.2.1, declared.2.2.2.1⟩

/-- A timer that was newly made under an enabled category while timers are on, with different
labels. However handles, children and timings are used from then on: while the category lists the
timer, a reading of the category reads from it, under its name, the figures of the durations that
were recorded for each combination of label values, in the order in which these were asked for
first; so does a stream, whatever the system is by the time that it gives the samples. -/
theorem timer_read_back (run : Run others ⟨fresh enabled timers r, s⟩ ms d)
    (gentle : ∀ d t, others d t → d.site.Grows t ∧ d.Unchanged t) (honest : Honest ms)
    (member : m ∈ ms) (called : m.call = .labelled kind c name help labels)
    (timer : kind.childKind = .timer) (on : m.before.system.timers = true)
    (takesPart : m.before.system.isEnabled c = true) (nodup : labels.Nodup)
    (new : (m.before.system.handles kind).get? (c.external name) = none)
    (given : m.Replies (.handle h)) :
    ∃ k, h.target = some k
      ∧ (d.site.Calm → ∃ rs e, readings c (d.listed c) d = .ok rs e)
      ∧ (k ∈ d.listed c → ∃ created : List String → Float,
          let shown := kind.observations c name (combinations labels (askedOf ms k)).toList created
            ((durationsOf ms).amounts k)
          (∀ rs e, readings c (d.listed c) d = .ok rs e →
            observations (some c) d = .ok (rs.map Prod.snd) e ∧ readFrom k rs = shown)
          ∧ ∀ t u families, d.site.Notes t → Site.collect k t = .ok families u →
            ∀ later : System, (familySamples families).map (Stream.observed later c) = shown) := by
  have growing : ∀ d t, others d t → d.site.Grows t := fun d t h => (gentle d t h).1
  have first := tidy_vacant r s
  obtain ⟨inert, registers⟩ := Moment.registers_of_new called new given
  have records : m.before.system.records kind c = true := by
    cases kind with
    | counter => cases timer
    | _ => simp [System.records, on, takesPart]
  obtain ⟨k, target⟩ : ∃ k, h.target = some k := by
    rw [records, Handle.inert, Bool.not_true, Option.isNone_eq_false_iff] at inert
    exact Option.isSome_iff_exists.mp inert
  obtain ⟨i, instrument, rfl, external, rfl⟩ :=
    run.instrument_of_labelled growing first member called (registers k target)
  have tidy := run.tidy growing first
  refine ⟨k, target, fun calm => ?_, fun listed => ?_⟩
  · obtain ⟨given, e, -, read⟩ := readings_calm c calm (d.listed c) fun j now => tidy.nameable now
    exact ⟨_, e, read⟩
  · obtain ⟨led, tells⟩ := run.tells gentle honest
    have told := tells c k listed i instrument
    have durations : (recordsOf ms).amounts k = (durationsOf ms).amounts k :=
      funext fun values => led.amounts_timer honest ⟨i, instrument, timer, rfl⟩
    rw [durations] at told
    obtain ⟨created, shown⟩ := told.observations nodup c
    have metric : ∀ b : NameBook, b.metric c i.kind.familyType i.familyName = name := by
      intro b
      have logical := c.logical_external name
      rw [← external] at logical
      rw [Instrument.familyName]
      cases kind : i.kind with
      | counter =>
        rw [kind] at timer
        cases timer
      | _ => exact logical
    simp only [metric] at shown
    refine ⟨created, fun rs e read => ⟨observations_of_readings read, ?_⟩, ?_⟩
    · rw [readFrom_instrument (tidy.nodup c) instrument read, if_pos listed, shown]
    · intro t u families notes collected later
      rw [streamed_instrument notes instrument collected, shown]

end Timers

/-- The only child that the next run asks for. -/
def mailTimer : Child := ⟨.timer, some (⟨0⟩, ["mail"])⟩

/-- A timer whose name ends as a count does, one of its children, and two durations. -/
def waits : List Call :=
  [.labelled .simpleTimer ⟨"shop", none⟩ "wait_count" "h" ["queue"],
    .childOf ⟨0, .recording .timer, 1, some ⟨0⟩⟩ .timer ["mail"], .observe mailTimer 0.5,
    .start mailTimer, .stop ⟨mailTimer, 1000.0, none⟩]

lemma waits_honest : Honest (moments (.small [⟨"shop", none⟩]) waits) := by
  refine ((((honest_nil.concat ⟨?_, ?_⟩).concat ⟨?_, ?_⟩).concat ⟨?_, ?_⟩).concat ⟨?_, ?_⟩).concat
    ⟨?_, ?_⟩
  case refine_3 =>
    -- the handle was given by the first call
    rintro _ _ _ ⟨⟩
    exact ⟨rfl, _, List.mem_cons_self, rfl⟩
  case refine_6 | refine_8 | refine_10 =>
    -- the child was given by the second call
    rintro _ _ ⟨⟩
    exact ⟨rfl, _, List.mem_of_getElem? (i := 1) rfl, rfl⟩
  case refine_1 | refine_5 | refine_7 | refine_9 => rintro _ _ _ ⟨⟩
  case refine_2 | refine_4 => rintro _ _ ⟨⟩

theorem timer_read_back_waits :
    let c : Category := ⟨"shop", none⟩
    let m : Moment := ⟨.small [c], .labelled .simpleTimer c "wait_count" "h" ["queue"]⟩
    let d := reached (.small [c]) waits
    Honest (moments (.small [c]) waits) ∧ m ∈ moments (.small [c]) waits
      ∧ m.before.system.timers = true ∧ m.before.system.isEnabled c = true ∧ ["queue"].Nodup
      ∧ (m.before.system.handles .simpleTimer).get? (c.external "wait_count") = none
      ∧ m.Replies (.handle ⟨0, .recording .timer, 1, some ⟨0⟩⟩) ∧ d.site.Calm
      ∧ ⟨0⟩ ∈ d.listed c
      ∧ ∃ created rs e, readings c (d.listed c) d = .ok rs e
        ∧ readFrom ⟨0⟩ rs = InstrumentKind.simpleTimer.observations c "wait_count" [["mail"]]
          created fun _ => [0.5, 1000.0 - 1000.0] := by
  intro c m d
  have member : m ∈ moments (.small [c]) waits := List.mem_cons_self
  have enabled : m.before.system.isEnabled c = true := by decide +kernel
  have new : (m.before.system.handles .simpleTimer).get? (c.external "wait_count") = none := rfl
  have given : m.Replies (.handle ⟨0, .recording .timer, 1, some ⟨0⟩⟩) := rfl
  have calm : d.site.Calm := Site.small_calm
  have listed : ⟨0⟩ ∈ d.listed c := by decide +kernel
  have run := Run.of_calls (fun d t => d.site.Grows t ∧ d.Unchanged t) (.small [c]) waits
  obtain ⟨k, target, reads, read⟩ := timer_read_back run (fun _ _ gentle => gentle) waits_honest
    member rfl rfl rfl enabled (by decide) new given
  cases target
  obtain ⟨created, shown, -⟩ := read listed
  obtain ⟨rs, e, ok⟩ := reads calm
  have asked : askedOf (moments (.small [c]) waits) ⟨0⟩ = [["mail"]] := rfl
  have durations : (durationsOf (moments (.small [c]) waits)).amounts ⟨0⟩ ["mail"]
      = [0.5, 1000.0 - 1000.0] := rfl
  have told := (shown rs e ok).2
  rw [asked] at told
  have combined : (combinations ["queue"] [["mail"]]).toList = [["mail"]] := by decide
  rw [combined, InstrumentKind.observations, List.flatMap_singleton, durations] at told
  exact ⟨waits_honest, member, rfl, enabled, by decide, new, given, calm, listed, created, rs, e,
    ok, told⟩

end Metering
