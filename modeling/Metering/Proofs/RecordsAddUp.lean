import Metering.Proofs.RecordedAmountsShown

/-!
# What has been recorded adds up

Recording through a child changes one tally of one instrument and nothing else, so a list of records
says all that has happened to a site: `Site.gained` takes it in at once. Records that follow each
other add up (`Site.gained_gained`), and `Child.record_eq` is the step. A timing records when it is
stopped for the first time (`Timing.stop_eq`).
-/

namespace Metering

/-- Amounts in the order in which they were recorded, each with its child. -/
abbrev Records := List (Child × Float)

/-- The amounts that go to one tally. -/
def Records.amounts (rs : Records) (k : CollectorId) (values : List String) : List Float :=
  rs.filterMap fun r => if r.1.target = some (k, values) then some r.2 else none

namespace Records

variable (rs more : Records) (k : CollectorId) (values : List String)

lemma amounts_append :
    amounts (rs ++ more) k values = amounts rs k values ++ amounts more k values :=
  List.filterMap_append

lemma amounts_single (c : Child) (x : Float) :
    amounts [(c, x)] k values = if c.target = some (k, values) then [x] else [] := by
  rw [amounts, List.filterMap_cons, List.filterMap_nil]
  split <;> simp_all

lemma amounts_elsewhere {k : CollectorId} {c : Child} (x : Float)
    (h : ∀ values, c.target ≠ some (k, values)) : amounts [(c, x)] k = fun _ => [] := by
  funext values
  rw [amounts_single, if_neg (h values)]

/-- The records that were made through active children. -/
def active : Records := rs.filter fun r => !r.1.inert

lemma amounts_active : amounts rs.active k values = amounts rs k values := by
  rw [amounts, active, List.filterMap_filter, amounts]
  congr 1
  funext r
  by_cases own : r.1.target = some (k, values)
  · simp [own, Child.inert]
  · simp [own]

end Records

namespace Index

variable {κ ν : Type}

/-- Changes all values. -/
def mapValues (m : Index κ ν) (f : κ → ν → ν) : Index κ ν :=
  ⟨m.entries.map fun e => (e.1, f e.1 e.2), by
    simpa [List.map_map, Function.comp_def] using m.nodup⟩

variable (m : Index κ ν) (f g : κ → ν → ν)

@[simp] lemma keys_mapValues : (m.mapValues f).keys = m.keys := by
  simp [mapValues, keys, List.map_map, Function.comp_def]

lemma mapValues_mapValues :
    (m.mapValues f).mapValues g = m.mapValues fun k v => g k (f k v) := by
  simp [mapValues, List.map_map, Function.comp_def]

lemma mapValues_same (h : ∀ k v, f k v = v) : m.mapValues f = m := by
  simp [mapValues, h]

variable [DecidableEq κ]

@[simp] lemma get?_mapValues (k : κ) : (m.mapValues f).get? k = (m.get? k).map (f k) := by
  change valueAt k (m.entries.map fun e => (e.1, f e.1 e.2)) = (valueAt k m.entries).map (f k)
  induction m.entries with
  | nil => rfl
  | cons e es ih =>
    by_cases h : e.1 = k
    · simp [valueAt, h]
    · simp [valueAt, h, ih]

lemma adjust_eq_mapValues (k : κ) (f : ν → ν) :
    m.adjust k f = m.mapValues fun l v => if l = k then f v else v := rfl

end Index

lemma Tally.addAll_addAll (t : Tally) (xs ys : List Float) :
    (t.addAll xs).addAll ys = t.addAll (xs ++ ys) :=
  List.foldl_append.symm

/-- The instrument with further amounts in its tallies. -/
def Instrument.gained (i : Instrument) (amounts : List String → List Float) : Instrument :=
  { i with series := i.series.mapValues fun values t => t.addAll (amounts values) }

/-- The collector with further amounts in its tallies, if it is an instrument. -/
def Collector.gained (amounts : List String → List Float) : Collector → Collector
  | .instrument i => .instrument (i.gained amounts)
  | x => x

/-- The site with further records in its instruments. -/
def Site.gained (s : Site) (rs : Records) : Site :=
  { s with collectors := s.collectors.mapIdx fun n x => x.gained (rs.amounts ⟨n⟩) }

namespace Instrument

variable (i : Instrument) (amounts more : List String → List Float)

lemma gained_gained :
    (i.gained amounts).gained more = i.gained fun values => amounts values ++ more values := by
  simp only [gained, Index.mapValues_mapValues, Tally.addAll_addAll]

lemma gained_nothing : (i.gained fun _ => []) = i := by
  have same : (i.series.mapValues fun _ t => t.addAll []) = i.series :=
    Index.mapValues_same _ _ fun _ _ => rfl
  rw [gained, same]

lemma gained_single (values : List String) (x : Float) :
    (i.gained fun other => if values = other then [x] else []) = i.record values x := by
  rw [gained, record, Index.adjust_eq_mapValues]
  congr 2
  funext other t
  by_cases same : values = other
  · rw [if_pos same, if_pos same.symm]
    rfl
  · rw [if_neg same, if_neg (Ne.symm same)]
    rfl

end Instrument

namespace Collector

variable (x : Collector) (amounts more : List String → List Float)

lemma gained_gained :
    (x.gained amounts).gained more = x.gained fun values => amounts values ++ more values := by
  cases x with
  | instrument i => exact congrArg instrument (i.gained_gained amounts more)
  | _ => rfl

lemma gained_nothing : (x.gained fun _ => []) = x := by
  cases x with
  | instrument i => exact congrArg instrument i.gained_nothing
  | _ => rfl

end Collector

namespace Site

variable (s : Site) (rs more : Records)

lemma getElem?_gained (n : Nat) :
    (s.gained rs).collectors[n]? = (s.collectors[n]?).map (Collector.gained (rs.amounts ⟨n⟩)) :=
  List.getElem?_mapIdx

lemma collector_gained (k : CollectorId) :
    (s.gained rs).collector k = (s.collector k).gained (rs.amounts k) := by
  rw [collector, collector, getElem?_gained]
  cases s.collectors[k.index]? <;> rfl

/-- To take in records is to change the collectors, one by one. -/
lemma gained_eq {s t : Site} {rs : Records} (rest : { s with collectors := t.collectors } = t)
    (each : ∀ n, t.collectors[n]? = (s.collectors[n]?).map (Collector.gained (rs.amounts ⟨n⟩))) :
    t = s.gained rs := by
  have collectors : t.collectors = (s.gained rs).collectors :=
    List.ext_getElem? fun n => (each n).trans (s.getElem?_gained rs n).symm
  rw [← rest, collectors]
  rfl

lemma gained_gained : (s.gained rs).gained more = s.gained (rs ++ more) := by
  refine gained_eq rfl fun n => ?_
  rw [getElem?_gained, getElem?_gained, Option.map_map]
  congr 1
  funext x
  simp only [Function.comp_apply, Collector.gained_gained, ← Records.amounts_append]

/-- What is recorded through inert children goes nowhere. -/
lemma gained_active_records : s.gained rs.active = s.gained rs := by
  have same : ∀ k, rs.active.amounts k = rs.amounts k := fun k =>
    funext fun values => rs.amounts_active k values
  simp only [gained, same]

lemma gained_nil : s.gained [] = s := by
  refine (gained_eq rfl fun n => ?_).symm
  cases s.collectors[n]? with
  | none => rfl
  | some y => exact congrArg some y.gained_nothing.symm

end Site

section Recording

variable {c : Child} {s t : Site} {k : CollectorId} {values : List String}

/-- What an inert child records goes nowhere. -/
lemma Site.gained_inert (inert : c.target = none) (x : Float) : s.gained [(c, x)] = s := by
  refine (gained_eq rfl fun n => ?_).symm
  rw [Records.amounts_elsewhere x (by simp [inert])]
  cases s.collectors[n]? with
  | none => rfl
  | some y => rw [Option.map_some, y.gained_nothing]

/-- What an active child records changes its collector at most. -/
lemma Site.gained_active (active : c.target = some (k, values)) {x : Float}
    (rest : { s with collectors := t.collectors } = t)
    (here : t.collectors[k.index]?
      = (s.collectors[k.index]?).map (Collector.gained fun other =>
        if values = other then [x] else []))
    (elsewhere : ∀ n, n ≠ k.index → t.collectors[n]? = s.collectors[n]?) :
    t = s.gained [(c, x)] := by
  refine gained_eq rest fun n => ?_
  by_cases own : n = k.index
  · rw [own, here]
    congr 2
    funext other
    simp [Records.amounts_single, active]
  · have apart : ∀ values, c.target ≠ some (⟨n⟩, values) := by
      intro others same
      rw [active] at same
      cases same
      exact own rfl
    rw [elsewhere n own, Records.amounts_elsewhere x apart]
    cases s.collectors[n]? with
    | none => rfl
    | some y => rw [Option.map_some, y.gained_nothing]

/-- Recording through a child never fails, and does nothing but take in the amount. -/
lemma Child.record_eq (c : Child) (x : Float) (s : Site) :
    c.record x s = .ok () (s.gained [(c, x)]) := by
  cases active : c.target with
  | none =>
    rw [record, active, Site.gained_inert active]
    rfl
  | some target =>
    obtain ⟨k, values⟩ := target
    rw [record, active]
    simp only [Handle.onInstrument, modify_ok]
    congr 1
    cases found : s.collectors[k.index]? with
    | none =>
      simp only [Site.collector, found, Option.getD_none]
      refine Site.gained_active active rfl ?_ fun _ _ => rfl
      rw [found]
      rfl
    | some y =>
      have collector : s.collector k = y := by rw [Site.collector, found, Option.getD_some]
      rw [collector]
      cases y with
      | instrument i =>
        have placed : k.index < s.collectors.length := (List.getElem?_eq_some_iff.mp found).1
        refine Site.gained_active active rfl ?_ fun n other => ?_
        · rw [found, Option.map_some, Collector.gained, i.gained_single]
          exact List.getElem?_set_self placed
        · exact List.getElem?_set_ne (Ne.symm other)
      | _ =>
        refine Site.gained_active active rfl ?_ fun _ _ => rfl
        rw [found]
        rfl

end Recording

namespace Timing

/-- How long a timing has taken, if it was stopped before or has been at the given time. -/
def duration? (t : Timing) (stop : Option Float) : Option Float :=
  t.elapsed.or (stop.map (· - t.started))

/-- What there is to record at a stop, given the first one before: nothing if there was any. -/
def due (t : Timing) (stop : Option Float) (clock : Float) : Records :=
  match t.duration? stop with
  | none => [(t.child, clock - t.started)]
  | some _ => []

/-- The timing when it was stopped for the first time at the given time. -/
def ended (t : Timing) (stop : Option Float) : Timing := { t with elapsed := t.duration? stop }

variable {t : Timing} {stop : Option Float} {clock : Float}

lemma duration?_ended (more : Option Float) :
    (t.ended stop).duration? more = t.duration? (stop.or more) := by
  rw [duration?, ended, duration?, duration?]
  cases t.elapsed <;> cases stop <;> rfl

lemma due_ended : (t.ended stop).due none clock = t.due stop clock := by
  rw [due, due, duration?_ended, Option.or_none]
  rfl

lemma ended_none : t.ended none = t := by
  rw [ended, duration?, Option.map_none, Option.or_none]

lemma ended_ended (more : Option Float) : (t.ended stop).ended more = t.ended (stop.or more) := by
  rw [ended, duration?_ended]
  rfl

lemma duration?_stopped :
    t.duration? (some clock) = some (t.elapsed.getD (clock - t.started)) := by
  rw [duration?]
  cases t.elapsed <;> rfl

/-- A later stop changes no duration. -/
lemma duration?_stays {seconds : Float} (h : t.duration? stop = some seconds)
    (more : Option Float) : t.duration? (stop.or more) = some seconds := by
  rw [← duration?_ended, duration?, ended, h]
  rfl

/-- A stop records what is due. -/
lemma stop_eq (t : Timing) (s : Site) : t.stop s
    = .ok (t.elapsed.getD (s.clock - t.started), t.ended (some s.clock))
      (s.gained (t.due none s.clock)) := by
  obtain ⟨child, started, elapsed⟩ := t
  cases elapsed with
  | none => exact bind_of_ok (child.record_eq (s.clock - started) s) _
  | some seconds =>
    have nothing : s.gained (due ⟨child, started, some seconds⟩ none s.clock) = s := s.gained_nil
    rw [nothing]
    rfl

end Timing

end Metering
