import Metering.Proofs.TimerReadBack

/-!
# Increments counted

Whatever raises a counter, through whichever handle and child, adds to the number of one combination
of label values. A reading of the whole system shows this number once for each combination that was
asked for, and it is the sum of the increments that were not refused (`increments_counted`).
-/

namespace Metering

open Site Operation Metering.System

lemma filter_eq_singleton {α β : Type} [DecidableEq β] {f : α → β} {l : List α}
    (nodup : (l.map f).Nodup) {a : α} (member : a ∈ l) : (l.filter fun x => f x = f a) = [a] := by
  induction l with
  | nil => cases member
  | cons x l ih =>
    obtain ⟨fresh, nodup⟩ := List.nodup_cons.mp nodup
    rcases List.mem_cons.mp member with rfl | later
    · have none_later : (l.filter fun x => f x = f a) = [] := by
        refine List.filter_eq_nil_iff.mpr fun y hy same => fresh ?_
        exact of_decide_eq_true same ▸ List.mem_map_of_mem hy
      rw [List.filter_cons_of_pos (by simp), none_later]
    · have other : f x ≠ f a := fun same => fresh (same ▸ List.mem_map_of_mem later)
      rw [List.filter_cons_of_neg (by simpa using other), ih nodup later]

/-- The numbers of the observations that have the label values. -/
def Observation.numbers (os : List Observation) (labels : List String) : List (Option Number) :=
  (os.filter fun o => o.labels = labels).map (·.value)

/-- What an instrument shows is told apart by its label values. -/
lemma InstrumentKind.numbers_observations (kind : InstrumentKind) (c : Category) (metric : String)
    {combinations : List (List String)} {n : Nat} (nodup : combinations.Nodup)
    (even : ∀ values ∈ combinations, values.length = n) (created : List String → Float)
    (amounts : List String → List Float) {values : List String} (member : values ∈ combinations)
    {f : List String × Float} (figure : f ∈ kind.figures (created values) (amounts values)) :
    Observation.numbers (kind.observations c metric combinations created amounts) (values ++ f.1)
      = [some (.float f.2)] := by
  have labels : (kind.observations c metric combinations created amounts).map (·.labels)
      = combinations.flatMap fun values => kind.endings.map (values ++ ·) := by
    rw [observations, List.map_flatMap]
    refine List.flatMap_congr fun values _ => ?_
    rw [kind.endings_eq (created values) (amounts values), List.map_map, List.map_map]
    rfl
  have distinct : kind.endings.Nodup := by cases kind <;> decide
  have shown : (⟨c, metric, some (.float f.2), values ++ f.1⟩ : Observation)
      ∈ kind.observations c metric combinations created amounts :=
    List.mem_flatMap.mpr ⟨values, member, List.mem_map_of_mem figure⟩
  have apart := nodup_append_endings nodup even distinct
  rw [← labels] at apart
  rw [Observation.numbers, filter_eq_singleton apart shown]
  rfl

section Reading

variable {c : Category} {k : CollectorId} {i : Instrument} {d e : Deployment}
  {rs : List (CollectorId × Observation)}

lemma System.readings_reads (c : Category) (ks : List CollectorId) :
    Moves Deployment.Reads (readings c ks) := by
  induction ks with
  | nil => exact Moves.pure _
  | cons k ks ih =>
    exact (ofAction_reads (Site.collect_moves k)).bind fun _ => system_moves.bind fun _ =>
      ih.bind fun _ => Moves.pure _

/-- A reading of different categories reads an instrument once, under its own. -/
lemma System.readFrom_readingsIn {cs : List Category} (nodup : cs.Nodup)
    (tidy : d.system.roster.Tidy d.site) (listed : k ∈ d.listed c)
    (instrument : d.site.collector k = .instrument i) (read : readingsIn cs d = .ok rs e) :
    readFrom k rs = if c ∈ cs then Observation.ofFamilies d.system.book c [i.family] else [] := by
  induction cs generalizing d rs with
  | nil =>
    cases read
    rfl
  | cons c' cs ih =>
    obtain ⟨fresh, nodup⟩ := List.nodup_cons.mp nodup
    rw [readingsIn, bind_system] at read
    obtain ⟨own, m, first, rest⟩ := ok_of_bind_ok read
    obtain ⟨more, u, later, ends⟩ := ok_of_bind_ok rest
    cases ends
    have reads := (readings_reads c' _).of_ok first
    have same : m.listed c = d.listed c := by rw [Deployment.listed, reads.system]
    have still : m.site.collector k = .instrument i := (reads.site.collector k).trans instrument
    have tidied : m.system.roster.Tidy m.site := by
      rw [reads.system]
      exact tidy.grows reads.site.aside.grows
    rw [readFrom_append, ih nodup tidied (same ▸ listed) still later,
      readFrom_instrument (tidy.nodup c') instrument first, reads.system]
    by_cases here : c' = c
    · subst here
      rw [if_pos listed, if_neg fresh, if_pos List.mem_cons_self, List.append_nil]
    · have elsewhere : k ∉ d.system.roster.ofCategory c' := fun now => here (tidy.apart now listed)
      have behind : c ∈ c' :: cs ↔ c ∈ cs := by simp [Ne.symm here]
      rw [if_neg elsewhere, List.nil_append]
      simp only [behind]

lemma System.readingsIn_calm (calm : d.site.Calm) (tidy : d.system.roster.Tidy d.site)
    (cs : List Category) : ∃ rs e, readingsIn cs d = .ok rs e := by
  have nameable : ∀ c ∈ cs, ∀ k ∈ d.listed c, (d.site.collector k).Nameable :=
    fun _ _ _ listed => tidy.nameable listed
  obtain ⟨os, u, read, -⟩ := observationsIn_calm calm nameable
  rw [observationsIn_eq, ← bind_pure_comp] at read
  obtain ⟨rs, e, ok, -⟩ := ok_of_bind_ok read
  exact ⟨rs, e, ok⟩

end Reading

namespace Moment

variable {m : Moment} {k : CollectorId}

/-- Asking an active handle for a child succeeds with the right number of label values, otherwise it
is refused and changes nothing. -/
lemma childOf_after {h : Handle} {kind : ChildKind} {values : List String}
    (called : m.call = .childOf h kind values) (active : h.target = some k) :
    (values.length = h.arity ∧ m.returned = true ∧ m.asked k = [values])
      ∨ values.length ≠ h.arity ∧ m.returned = false ∧ m.after = m.before := by
  obtain ⟨d, call⟩ := m
  obtain rfl : call = .childOf h kind values := called
  have run : Call.perform (.childOf h kind values) d
      = discard (ofAction (h.labels kind values)) d := rfl
  rw [discard_eq] at run
  rcases h.labels_cases kind values d.site with
    ⟨wrong, refused⟩ | ⟨right, ⟨inert, -⟩ | ⟨l, target, taken⟩⟩
  · rw [ofAction_error refused] at run
    obtain ⟨ends, failed⟩ := after_of_error (m := ⟨d, .childOf h kind values⟩) run
    exact Or.inr ⟨wrong, failed, ends⟩
  · rw [active] at inert
    cases inert
  · obtain rfl := Option.some.inj (active.symm.trans target)
    have given : Replies ⟨d, .childOf h kind values⟩ (.child ⟨kind, some (k, values)⟩) :=
      replies_of_map rfl (ofAction_ok taken)
    rw [ofAction_ok taken] at run
    obtain ⟨-, returned⟩ := after_of_ok (m := ⟨d, .childOf h kind values⟩) run
    exact Or.inl ⟨right, returned, (asked_eq given k).trans (if_pos rfl)⟩

end Moment

/-- The tally of a combination, if there is an instrument at the place that has one. -/
def Site.tally? (s : Site) (k : CollectorId) (values : List String) : Option Tally :=
  match s.collector k with
  | .instrument i => i.series.get? values
  | _ => none

/-- Recording leaves other collectors and other combinations alone. -/
lemma Site.gained_elsewhere (s : Site) {child : Child} (x : Float) {k : CollectorId} :
    ((∀ values, child.target ≠ some (k, values)) →
      (s.gained [(child, x)]).collector k = s.collector k)
    ∧ ∀ values, child.target ≠ some (k, values) →
      (s.gained [(child, x)]).tally? k values = s.tally? k values := by
  constructor
  · intro apart
    rw [collector_gained, Records.amounts_elsewhere x apart, Collector.gained_nothing]
  · intro values apart
    rw [tally?, tally?, collector_gained]
    cases s.collector k with
    | instrument i =>
      simp only [Collector.gained, Instrument.gained, Index.get?_mapValues]
      rw [Records.amounts_single, if_neg apart]
      cases i.series.get? values <;> rfl
    | _ => rfl

/-- Of a counter the observations show each combination that was asked for once, with the sum of
what was added for it, and once with the time of its creation. -/
def Counted (ms : List Moment) (k : CollectorId) (os : List Observation) : Prop :=
  ∀ values ∈ askedOf ms k,
    Observation.numbers os values
      = [some (.float (floatSum ((incrementsOf ms).amounts k values)))]
      ∧ ∃ created, Observation.numbers os (values ++ ["created"]) = [some (.float created)]

lemma Instrument.Tells.counted {i : Instrument} {ms : List Moment} {k : CollectorId}
    (tells : i.Tells (askedOf ms k) ((incrementsOf ms).amounts k)) (counter : i.kind = .counter)
    (nodup : i.labels.Nodup) (b : NameBook) (c : Category) :
    Counted ms k (Observation.ofFamilies b c [i.family]) := by
  obtain ⟨created, shown⟩ := tells.observations nodup c
  intro values asked
  have member : values ∈ (combinations i.labels (askedOf ms k)).toList :=
    mem_combinations.mpr (Or.inr asked)
  have numbers := fun f => i.kind.numbers_observations c
    (b.metric c i.kind.familyType i.familyName) (combinations i.labels (askedOf ms k)).nodup
    (fun _ => tells.length_eq) created ((incrementsOf ms).amounts k) member (f := f)
  rw [counter] at numbers
  rw [shown, counter]
  refine ⟨?_, created values, numbers _ (List.mem_cons_of_mem _ List.mem_cons_self)⟩
  have total := numbers _ List.mem_cons_self
  rwa [List.append_nil] at total

section Counters

variable {others : Deployment → Site → Prop} {enabled : Distinct Category} {timers : Bool}
  {r : RegistryId} {s : Site} {ms : List Moment} {d : Deployment} {m : Moment} {h : Handle}
  {c : Category} {k : CollectorId}

/-- An active handle of a counter with different labels. However handles and children are used:
while the counter is listed, a reading of the whole system, or a stream whatever the system has
become by the time that it gives the samples, shows each combination of label values that was asked
for once, with the sum of the increments that were made for it and not refused. A request for a
child with a wrong number of label values changes nothing, and no more does an increment that is
refused; one that is not changes no other collector and no other combination. -/
theorem increments_counted (run : Run others ⟨fresh enabled timers r, s⟩ ms d)
    (gentle : ∀ d t, others d t → d.site.Grows t ∧ d.Unchanged t) (honest : Honest ms)
    (member : m ∈ ms) (given : m.Replies (.handle h)) (counter : h.use = .recording .counter)
    (active : h.target = some k)
    (nodup : ∀ i, d.site.collector k = .instrument i → i.labels.Nodup) (listed : k ∈ d.listed c) :
    (d.site.Calm → ∃ rs e, readingsIn d.system.roster.categories d = .ok rs e)
      ∧ (∀ rs e, readingsIn d.system.roster.categories d = .ok rs e →
        observations none d = .ok (rs.map Prod.snd) e ∧ Counted ms k (readFrom k rs))
      ∧ (∀ t u families, d.site.Notes t → Site.collect k t = .ok families u → ∀ later : System,
        Counted ms k ((familySamples families).map (Stream.observed later c)))
      ∧ (∀ (n : Moment) kind values, n.call = .childOf h kind values →
        (values.length = h.arity ∧ n.returned = true ∧ n.asked k = [values])
          ∨ values.length ≠ h.arity ∧ n.returned = false ∧ n.after = n.before)
      ∧ ∀ (n : Moment) child amount, n.call = .increment child amount →
        (child.Refuses amount ∧ n.returned = false ∧ n.after = n.before)
          ∨ ¬ child.Refuses amount ∧ n.returned = true ∧ ∀ l,
            ((∀ values, child.target ≠ some (l, values)) →
              n.after.site.collector l = n.before.site.collector l)
            ∧ ∀ values, child.target ≠ some (l, values) →
              n.after.site.tally? l values = n.before.site.tally? l values := by
  have growing : ∀ d t, others d t → d.site.Grows t := fun d t h => (gentle d t h).1
  have tidy := run.tidy growing (tidy_vacant r s)
  obtain ⟨led, tells⟩ := run.tells gentle honest
  have serves := led.handles m member h given .counter k counter active
  obtain ⟨i, instrument, own, -⟩ := id serves
  have kind : i.kind = .counter := by
    cases kind : i.kind with
    | counter => rfl
    | _ =>
      rw [kind] at own
      cases own
  have told := tells c k listed i instrument
  have increments : (recordsOf ms).amounts k = (incrementsOf ms).amounts k :=
    funext fun values => led.amounts_counter honest serves
  rw [increments] at told
  have counted := told.counted kind (nodup i instrument)
  refine ⟨fun calm => readingsIn_calm calm tidy _, fun rs e read => ?_, ?_, ?_, ?_⟩
  · have distinct : d.system.roster.categories.Nodup := Index.keys_nodup _
    refine ⟨observations_of_readingsIn read, ?_⟩
    rw [readFrom_readingsIn distinct tidy listed instrument read,
      if_pos (Roster.mem_categories listed)]
    exact counted d.system.book c
  · intro t u families notes collected later
    rw [streamed_instrument notes instrument collected]
    exact counted later.book c
  · exact fun n kind values called => Moment.childOf_after called active
  · intro n child amount called
    rcases Moment.increment_after called with
      ⟨refuses, failed, ends, -⟩ | ⟨accepts, returned, -, ends⟩
    · exact Or.inl ⟨refuses, failed, ends⟩
    · refine Or.inr ⟨accepts, returned, fun l => ?_⟩
      rw [ends]
      exact n.before.site.gained_elsewhere amount

end Counters

/-- The only child that the next run asks for, twice. -/
def mailCounter : Child := ⟨.counter, some (⟨0⟩, ["mail"])⟩

/-- A counter that is created twice, with a raise that is refused between two others and a request
with too few label values. -/
def deliveries : List Call :=
  [.labelled .counter ⟨"shop", none⟩ "jobs" "h" ["queue"],
    .childOf ⟨0, .recording .counter, 1, some ⟨0⟩⟩ .counter ["mail"], .increment mailCounter 2,
    .labelled .counter ⟨"shop", none⟩ "jobs" "other" [],
    .childOf ⟨0, .recording .counter, 1, some ⟨0⟩⟩ .counter [], .increment mailCounter (-1),
    .childOf ⟨0, .recording .counter, 1, some ⟨0⟩⟩ .counter ["mail"], .increment mailCounter 3]

lemma deliveries_honest : Honest (moments (.small [⟨"shop", none⟩]) deliveries) := by
  refine (((((((honest_nil.concat ⟨?_, ?_⟩).concat ⟨?_, ?_⟩).concat ⟨?_, ?_⟩).concat
    ⟨?_, ?_⟩).concat ⟨?_, ?_⟩).concat ⟨?_, ?_⟩).concat ⟨?_, ?_⟩).concat ⟨?_, ?_⟩
  case refine_3 | refine_9 | refine_13 =>
    -- the handle was given by the first call
    rintro _ _ _ ⟨⟩
    exact ⟨rfl, _, List.mem_cons_self, rfl⟩
  case refine_6 | refine_12 | refine_16 =>
    -- the child was given by the second call
    rintro _ _ ⟨⟩
    exact ⟨rfl, _, List.mem_of_getElem? (i := 1) rfl, rfl⟩
  case refine_1 | refine_5 | refine_7 | refine_11 | refine_15 => rintro _ _ _ ⟨⟩
  case refine_2 | refine_4 | refine_8 | refine_10 | refine_14 => rintro _ _ ⟨⟩

/-- The second number is refused, and the sum is that of the others. -/
lemma increments_deliveries :
    (incrementsOf (moments (.small [⟨"shop", none⟩]) deliveries)).amounts ⟨0⟩ ["mail"] = [2, 3] :=
  rfl

lemma asked_deliveries :
    askedOf (moments (.small [⟨"shop", none⟩]) deliveries) ⟨0⟩ = [["mail"], ["mail"]] := rfl

theorem increments_counted_deliveries :
    let m : Moment :=
      ⟨.small [⟨"shop", none⟩], .labelled .counter ⟨"shop", none⟩ "jobs" "h" ["queue"]⟩
    let ms := moments (.small [⟨"shop", none⟩]) deliveries
    let d := reached (.small [⟨"shop", none⟩]) deliveries
    Honest ms ∧ m ∈ ms ∧ m.Replies (.handle ⟨0, .recording .counter, 1, some ⟨0⟩⟩)
      ∧ (∀ i, d.site.collector ⟨0⟩ = .instrument i → i.labels.Nodup)
      ∧ ⟨0⟩ ∈ d.listed ⟨"shop", none⟩ ∧ d.site.Calm
      ∧ ∃ rs e, readingsIn d.system.roster.categories d = .ok rs e
        ∧ Observation.numbers (readFrom ⟨0⟩ rs) ["mail"] = [some 5.0] := by
  have given : Moment.Replies
      ⟨.small [⟨"shop", none⟩], .labelled .counter ⟨"shop", none⟩ "jobs" "h" ["queue"]⟩
      (.handle ⟨0, .recording .counter, 1, some ⟨0⟩⟩) := rfl
  have listed : ⟨0⟩ ∈ (reached (.small [⟨"shop", none⟩]) deliveries).listed ⟨"shop", none⟩ := by
    decide +kernel
  have calm : (reached (.small [⟨"shop", none⟩]) deliveries).site.Calm := Site.small_calm
  have nodup : ∀ i, (reached (.small [⟨"shop", none⟩]) deliveries).site.collector ⟨0⟩
      = .instrument i → i.labels.Nodup := by
    rintro i ⟨⟩
    decide
  have run := Run.of_calls (fun d t => d.site.Grows t ∧ d.Unchanged t) (.small [⟨"shop", none⟩])
    deliveries
  obtain ⟨reads, read, -⟩ := increments_counted run (fun _ _ gentle => gentle) deliveries_honest
    List.mem_cons_self given rfl rfl nodup listed
  obtain ⟨rs, e, ok⟩ := reads calm
  have asked : ["mail"] ∈ askedOf (moments (.small [⟨"shop", none⟩]) deliveries) ⟨0⟩ := by
    rw [asked_deliveries]
    exact List.mem_cons_self
  have counted := ((read rs e ok).2 ["mail"] asked).1
  rw [increments_deliveries] at counted
  exact ⟨deliveries_honest, List.mem_cons_self, given, nodup, listed, calm, rs, e, ok, counted⟩

end Metering
