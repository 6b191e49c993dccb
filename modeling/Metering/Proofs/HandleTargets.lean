import Metering.Proofs.DistinctObservations
import Metering.Proofs.InstrumentChanges

/-!
# Where handles and children lead

A handle that was given leads to an instrument for children of its kind, with as many labels as the
handle insists on, and a child that was given leads to one of its kind (`Deployment.Led`). So if a
run uses only what it was given (`Honest`), nothing is recorded that was not asked for before, and
the listed instruments tell all that was asked for and recorded (`Run.tells`).
-/

namespace Metering

open Site Operation Metering.System

/-- The child through which the call records or times, with the kind that it has to have. -/
def Call.through? : Call → Option (ChildKind × Child)
  | .increment c _ => some (.counter, c)
  | .observe c _ | .start c => some (.timer, c)
  | .stop t => some (.timer, t.child)
  | _ => none

/-- At the place there is an instrument for children of the kind, with so many labels. -/
def Site.Serves (s : Site) (k : CollectorId) (kind : ChildKind) (width : Nat) : Prop :=
  ∃ i, s.collector k = .instrument i ∧ i.kind.childKind = kind ∧ i.labels.length = width

/-- An active handle for children leads to an instrument that serves them. -/
def Handle.Leads (h : Handle) (s : Site) : Prop :=
  ∀ kind k, h.use = .recording kind → h.target = some k → s.Serves k kind h.arity

/-- An active child leads to an instrument that serves it. -/
def Child.Leads (c : Child) (s : Site) : Prop :=
  ∀ k values, c.target = some (k, values) → s.Serves k c.kind values.length

section Growing

variable {s t : Site}

lemma Site.Grows.instrument {k : CollectorId} {i : Instrument} (grows : s.Grows t)
    (instrument : s.collector k = .instrument i) :
    ∃ j, t.collector k = .instrument j ∧ j.kind = i.kind ∧ j.labels = i.labels := by
  have declared := grows.declared k (placed_of_instrument instrument)
  rw [instrument] at declared
  obtain ⟨j, found⟩ := Collector.instrument_of_declared declared
  rw [found] at declared
  simp only [Collector.declared, Collector.instrument.injEq, Instrument.mk.injEq] at declared
  exact ⟨j, found, declared.1, declared.2.2.2.1⟩

lemma Site.Serves.grows {k : CollectorId} {kind : ChildKind} {width : Nat}
    (serves : s.Serves k kind width) (grows : s.Grows t) : t.Serves k kind width := by
  obtain ⟨i, instrument, served, labels⟩ := serves
  obtain ⟨j, found, same, alike⟩ := grows.instrument instrument
  exact ⟨j, found, by rw [same, served], by rw [alike, labels]⟩

lemma Handle.Leads.grows {h : Handle} (leads : h.Leads s) (grows : s.Grows t) : h.Leads t :=
  fun kind k use target => (leads kind k use target).grows grows

lemma Child.Leads.grows {c : Child} (leads : c.Leads s) (grows : s.Grows t) : c.Leads t :=
  fun k values target => (leads k values target).grows grows

end Growing

/-- A child that was asked for leads where its handle leads. -/
lemma Handle.Leads.labels {h : Handle} {kind : ChildKind} {values : List String} {s t : Site}
    {c : Child} (leads : h.Leads s) (use : h.use = .recording kind)
    (taken : h.labels kind values s = .ok c t) : c.Leads t := by
  have grows := ((h.labels_aside kind values).of_ok taken).grows
  rcases h.labels_cases kind values s with
    ⟨-, refused⟩ | ⟨right, ⟨-, inert⟩ | ⟨k, target, active⟩⟩
  · rw [refused] at taken
    cases taken
  · rw [inert] at taken
    cases taken
    intro k values target
    cases target
  · rw [active] at taken
    cases taken
    intro k' values' target'
    cases target'
    rw [right]
    exact (leads kind k use target).grows grows

/-- The handles that are kept lead to instruments of their kind. -/
def Deployment.KeepsLeading (d : Deployment) : Prop :=
  ∀ kind external h, (d.system.handles kind).get? external = some h →
    h.use = .recording kind.childKind ∧ h.Leads d.site

lemma Deployment.KeepsLeading.goes_on {d e : Deployment} (kept : d.KeepsLeading)
    (grows : d.site.Grows e.site)
    (handles : ∀ kind, e.system.handles kind = d.system.handles kind) : e.KeepsLeading := by
  intro kind external h now
  rw [handles] at now
  obtain ⟨use, leads⟩ := kept kind external h now
  exact ⟨use, leads.grows grows⟩

section Creating

variable {kind : InstrumentKind} {c : Category} {name external help : String}
  {labels : List String} {d e : Deployment} {h : Handle}

/-- A new handle leads to the instrument that was made for it. -/
lemma System.build_leads (built : build kind c external help labels d = .ok h e) :
    h.use = .recording kind.childKind ∧ h.Leads e.site := by
  rw [build, bind_system] at built
  split at built
  · obtain ⟨m, m', got, first⟩ := ok_of_bind_ok built
    cases got
    obtain ⟨i, u, declared, second⟩ := ok_of_bind_ok first
    obtain ⟨declared, rfl⟩ := ofExcept_ok declared
    obtain ⟨k, v, enrolled, issued⟩ := ok_of_bind_ok second
    cases issued
    refine ⟨rfl, fun kind' k' use target => ?_⟩
    cases use
    cases target
    obtain ⟨same, -, alike, -⟩ := Instrument.new_of_declare declared
    have made := collector_enroll c (.instrument i) u
    rw [enrolled, endOf, ← (enroll_ok enrolled).1] at made
    exact ⟨i, made, by rw [same], by rw [alike]⟩
  · obtain ⟨⟨⟩, m, -, issued⟩ := ok_of_bind_ok built
    cases issued
    exact ⟨rfl, fun kind' k' _ target => by cases target⟩

/-- Asking for an instrument gives a handle that leads to one of its kind. -/
lemma System.labelled_leads (kept : d.KeepsLeading) :
    (endOf (labelled kind c name help labels d)).KeepsLeading
      ∧ ∀ h e, labelled kind c name help labels d = .ok h e →
        h.use = .recording kind.childKind ∧ h.Leads e.site := by
  have grows := (labelled_enrols c name help labels kind d).grows
  rcases labelled_cases kind c name help labels d with
    ⟨made, found, run⟩ | ⟨-, ⟨fault, e, run, notes⟩ | ⟨made, e, built, notes, run⟩⟩
  · rw [run] at grows ⊢
    refine ⟨kept.goes_on grows fun kind => d.declaring_handles _ _ kind, ?_⟩
    rintro h e ⟨⟩
    obtain ⟨use, leads⟩ := kept kind _ made found
    exact ⟨use, leads.grows grows⟩
  · rw [run] at grows ⊢
    refine ⟨kept.goes_on grows fun kind => ?_, fun h e same => by cases same⟩
    rw [endOf, notes.handles, Deployment.declaring_handles]
  · rw [run] at grows ⊢
    have leading := build_leads built
    refine ⟨fun asked x h now => ?_, ?_⟩
    · change ((e.system.keep kind (c.external name) made).handles asked).get? x = some h at now
      rw [get?_keep] at now
      split at now
      · next same =>
        cases now
        rw [← same.1]
        exact leading
      · rw [notes.handles, Deployment.declaring_handles] at now
        obtain ⟨use, leads⟩ := kept asked x h now
        exact ⟨use, leads.grows grows⟩
    · rintro h e ⟨⟩
      exact leading

end Creating

namespace Moment

lemma keepsLeading {m : Moment} (kept : m.before.KeepsLeading) : m.after.KeepsLeading := by
  cases resets : m.resets with
  | true =>
    obtain ⟨t, ends⟩ := reset_of_resets resets
    rw [ends]
    intro kind external h now
    cases kind <;> cases now
  | false =>
    cases unasked : m.call.instrument? with
    | none =>
      refine kept.goes_on m.grows fun kind => ?_
      rw [(notes_of_unasked unasked resets).handles, Deployment.noting_handles]
    | some request =>
      obtain ⟨d, call⟩ := m
      cases call with
      | labelled kind c name help labels =>
        rw [after_discard rfl]
        exact (labelled_leads kept).1
      | single kind c name help =>
        rw [after_discard (x := System.single kind c name help) rfl]
        have asked : (endOf (System.labelled kind c name help [] d)).KeepsLeading :=
          (labelled_leads kept).1
        cases created : System.labelled kind c name help [] d with
        | error fault e =>
          rw [created] at asked
          rw [System.single, bind_of_error created]
          exact asked
        | ok h e =>
          rw [created] at asked
          rw [System.single, bind_of_ok created]
          change (endOf (ofAction (h.labels kind.childKind []) e)).KeepsLeading
          rw [endOf_ofAction]
          exact asked.goes_on (h.labels_aside _ _ e.site).grows fun _ => rfl
      | _ => cases unasked

variable {m : Moment} {h : Handle} {c : Child}

/-- A handle that was given leads to an instrument. -/
lemma leads_of_handle (kept : m.before.KeepsLeading) (given : m.Replies (.handle h)) :
    h.Leads m.after.site := by
  rcases handle_cases given with
    ⟨kind, cat, name, help, labels, -, made⟩ | ⟨kind, cat, name, help, labels, -, made⟩
  · exact ((labelled_leads kept).2 h m.after made).2
  · intro asked k use
    have supplying := (supplied_ok made).1
    rw [use] at supplying
    cases supplying

/-- The call asks handles that earlier calls have given for the children that they have, and raises
counters and times with timers that earlier calls have given. -/
structure Uses (earlier : List Moment) (m : Moment) : Prop where
  handle : ∀ h kind values, m.call = .childOf h kind values →
    h.use = .recording kind ∧ ∃ m' ∈ earlier, m'.Replies (.handle h)
  child : ∀ kind c, m.call.through? = some (kind, c) →
    c.kind = kind ∧ ∃ m' ∈ earlier, m'.Replies (.child c)

/-- A child that was given leads to an instrument, if it was asked for properly. -/
lemma leads_of_child (kept : m.before.KeepsLeading)
    (asked : ∀ h kind values, m.call = .childOf h kind values →
      h.use = .recording kind ∧ h.Leads m.before.site)
    (given : m.Replies (.child c)) : c.Leads m.after.site := by
  rcases child_cases given with
    ⟨h, kind, values, t, called, taken, ends⟩ |
      ⟨kind, cat, name, help, h, e, t, -, made, taken, ends⟩
  · obtain ⟨use, leads⟩ := asked h kind values called
    rw [ends]
    exact leads.labels use taken
  · obtain ⟨use, leads⟩ := (labelled_leads kept).2 h e made
    rw [ends]
    exact leads.labels use taken

end Moment

/-- Nothing is used in the run but what was given in it before. -/
def Honest (ms : List Moment) : Prop :=
  ∀ earlier m later, ms = earlier ++ m :: later → m.Uses earlier

lemma honest_nil : Honest [] := by
  intro earlier m later split
  simp at split

lemma honest_concat {ms : List Moment} {m : Moment} :
    Honest (ms ++ [m]) ↔ Honest ms ∧ m.Uses ms := forall_splits_snoc

lemma Honest.concat {ms : List Moment} {m : Moment} (honest : Honest ms) (uses : m.Uses ms) :
    Honest (ms ++ [m]) := honest_concat.mpr ⟨honest, uses⟩

/-- All that was kept or given leads to instruments of the site. -/
structure Deployment.Led (ms : List Moment) (d : Deployment) : Prop where
  kept : d.KeepsLeading
  handles : ∀ m ∈ ms, ∀ h, m.Replies (.handle h) → h.Leads d.site
  children : ∀ m ∈ ms, ∀ c, m.Replies (.child c) → c.Leads d.site

lemma Deployment.Led.call {ms : List Moment} {m : Moment} (led : m.before.Led ms)
    (uses : m.Uses ms) : m.after.Led (ms ++ [m]) where
  kept := Moment.keepsLeading led.kept
  handles m' hm h given := by
    rcases List.mem_append.mp hm with old | new
    · exact (led.handles m' old h given).grows m.grows
    · obtain rfl := List.mem_singleton.mp new
      exact Moment.leads_of_handle led.kept given
  children m' hm c given := by
    rcases List.mem_append.mp hm with old | new
    · exact (led.children m' old c given).grows m.grows
    · obtain rfl := List.mem_singleton.mp new
      refine Moment.leads_of_child led.kept (fun h kind values called => ?_) given
      obtain ⟨use, m', earlier, given⟩ := uses.handle h kind values called
      exact ⟨use, led.handles m' earlier h given⟩

lemma Deployment.Led.others {ms : List Moment} {d : Deployment} {t : Site} (led : d.Led ms)
    (grows : d.site.Grows t) : Deployment.Led ms { d with site := t } where
  kept := led.kept.goes_on grows fun _ => rfl
  handles m hm h given := (led.handles m hm h given).grows grows
  children m hm c given := (led.children m hm c given).grows grows

/-- The label values for which the calls have given children of the collector, in their order. -/
def askedOf (ms : List Moment) (k : CollectorId) : List (List String) := ms.flatMap (·.asked k)

/-- What the calls have added to counters, in its order. -/
def incrementsOf (ms : List Moment) : Records := ms.flatMap (·.increments)

/-- The durations that the calls have recorded, in their order. -/
def durationsOf (ms : List Moment) : Records := ms.flatMap (·.durations)

/-- All that the calls have recorded, in its order. -/
def recordsOf (ms : List Moment) : Records := ms.flatMap (·.records)

section Histories

variable {ms : List Moment} {m : Moment} {k : CollectorId} {values : List String}

lemma mem_askedOf : values ∈ askedOf ms k
    ↔ ∃ m ∈ ms, ∃ c, m.Replies (.child c) ∧ c.target = some (k, values) := by
  simp only [askedOf, List.mem_flatMap, Moment.mem_asked]

lemma askedOf_concat : askedOf (ms ++ [m]) k = askedOf ms k ++ m.asked k := by
  rw [askedOf, List.flatMap_append, List.flatMap_singleton]
  rfl

lemma recordsOf_concat : recordsOf (ms ++ [m]) = recordsOf ms ++ m.records := by
  rw [recordsOf, List.flatMap_append, List.flatMap_singleton]
  rfl

lemma Moment.through_of_increments {r : Child × Float} (raised : r ∈ m.increments) :
    m.call.through? = some (.counter, r.1) := by
  rw [increments] at raised
  split at raised
  · next child amount called =>
    split at raised
    · rw [called, List.mem_singleton.mp raised]
      rfl
    · cases raised
  · cases raised

lemma Moment.through_of_durations {r : Child × Float} (timed : r ∈ m.durations) :
    m.call.through? = some (.timer, r.1) := by
  rw [durations] at timed
  split at timed
  · next child seconds called =>
    rw [called, List.mem_singleton.mp timed]
    rfl
  · next timing called =>
    rw [Timing.due] at timed
    split at timed
    · rw [called, List.mem_singleton.mp timed]
      rfl
    · cases timed
  · cases timed

/-- What is recorded goes through children that were given before. -/
lemma Honest.given_of_records (honest : Honest ms) {r : Child × Float}
    (recorded : r ∈ recordsOf ms) : ∃ m ∈ ms, m.Replies (.child r.1) := by
  obtain ⟨m, hm, own⟩ := List.mem_flatMap.mp recorded
  obtain ⟨earlier, later, split⟩ := List.append_of_mem hm
  have uses := honest earlier m later split
  have given : ∃ m' ∈ earlier, m'.Replies (.child r.1) := by
    rcases List.mem_append.mp own with raised | timed
    · exact (uses.child _ _ (Moment.through_of_increments raised)).2
    · exact (uses.child _ _ (Moment.through_of_durations timed)).2
  obtain ⟨m', before, replies⟩ := given
  exact ⟨m', split ▸ List.mem_append_left _ before, replies⟩

lemma Records.mem_of_amounts {rs : Records} {x : Float} (h : x ∈ rs.amounts k values) :
    ∃ c, (c, x) ∈ rs ∧ c.target = some (k, values) := by
  obtain ⟨⟨c, y⟩, member, found⟩ := List.mem_filterMap.mp h
  split at found
  · next target =>
    obtain rfl := Option.some.inj found
    exact ⟨c, member, target⟩
  · cases found

lemma Records.amounts_flatMap (f : Moment → Records) :
    amounts (ms.flatMap f) k values = ms.flatMap fun m => (f m).amounts k values :=
  List.filterMap_flatMap

/-- Nothing was recorded for label values that were not asked for. -/
lemma Honest.amounts_eq_nil (honest : Honest ms) (unasked : values ∉ askedOf ms k) :
    (recordsOf ms).amounts k values = [] := by
  refine List.eq_nil_iff_forall_not_mem.mpr fun x recorded => unasked ?_
  obtain ⟨c, member, target⟩ := Records.mem_of_amounts recorded
  obtain ⟨m, hm, given⟩ := honest.given_of_records member
  exact mem_askedOf.mpr ⟨m, hm, c, given, target⟩

end Histories

section Runs

variable {others : Deployment → Site → Prop} {ms : List Moment} {d : Deployment}

/-- Nobody has asked for children of a collector that is still to come. -/
lemma Deployment.Led.askedOf_eq_nil (led : d.Led ms) {k : CollectorId}
    (outside : d.site.collectors.length ≤ k.index) : askedOf ms k = [] := by
  refine List.eq_nil_iff_forall_not_mem.mpr fun values member => ?_
  obtain ⟨m, hm, c, given, target⟩ := mem_askedOf.mp member
  obtain ⟨i, instrument, -, -⟩ := led.children m hm c given k values target
  have placed := placed_of_instrument instrument
  omega

section Kinds

variable {k : CollectorId} {kind : ChildKind} {width : Nat} {values : List String}

/-- Only what has the kind of a collector leads to it. -/
lemma Deployment.Led.kind_eq (led : d.Led ms) (honest : Honest ms)
    (serves : d.site.Serves k kind width) {m : Moment} (hm : m ∈ ms) {other : ChildKind} {c : Child}
    (through : m.call.through? = some (other, c)) (target : c.target = some (k, values)) :
    other = kind := by
  obtain ⟨earlier, later, split⟩ := List.append_of_mem hm
  obtain ⟨rfl, m', before, given⟩ := (honest earlier m later split).child other c through
  have known : m' ∈ ms := split ▸ List.mem_append_left _ before
  obtain ⟨i, instrument, served, -⟩ := serves
  obtain ⟨j, found, own, -⟩ := led.children m' known c given k values target
  obtain rfl := Collector.instrument.inj (found.symm.trans instrument)
  exact own.symm.trans served

/-- What has the other kind adds nothing. -/
lemma Deployment.Led.amounts_eq_nil (led : d.Led ms) (honest : Honest ms)
    (serves : d.site.Serves k kind width) {m : Moment} (hm : m ∈ ms) {rs : Records}
    {other : ChildKind} (through : ∀ r ∈ rs, m.call.through? = some (other, r.1))
    (different : other ≠ kind) : rs.amounts k values = [] := by
  refine List.eq_nil_iff_forall_not_mem.mpr fun x recorded => different ?_
  obtain ⟨c, member, target⟩ := Records.mem_of_amounts recorded
  exact led.kind_eq honest serves hm (through _ member) target

lemma Deployment.Led.amounts_counter (led : d.Led ms) (honest : Honest ms)
    (serves : d.site.Serves k .counter width) :
    (recordsOf ms).amounts k values = (incrementsOf ms).amounts k values := by
  rw [recordsOf, incrementsOf, Records.amounts_flatMap, Records.amounts_flatMap]
  refine List.flatMap_congr fun m hm => ?_
  have nothing : m.durations.amounts k values = [] :=
    led.amounts_eq_nil honest serves hm (fun _ => Moment.through_of_durations) nofun
  rw [Moment.records, Records.amounts_append, nothing, List.append_nil]

lemma Deployment.Led.amounts_timer (led : d.Led ms) (honest : Honest ms)
    (serves : d.site.Serves k .timer width) :
    (recordsOf ms).amounts k values = (durationsOf ms).amounts k values := by
  rw [recordsOf, durationsOf, Records.amounts_flatMap, Records.amounts_flatMap]
  refine List.flatMap_congr fun m hm => ?_
  have nothing : m.increments.amounts k values = [] :=
    led.amounts_eq_nil honest serves hm (fun _ => Moment.through_of_increments) nofun
  rw [Moment.records, Records.amounts_append, nothing, List.nil_append]

end Kinds

/-- The listed instruments tell all that was asked for and recorded. -/
def Deployment.Tells (ms : List Moment) (d : Deployment) : Prop :=
  ∀ c, ∀ k ∈ d.listed c, ∀ i, d.site.collector k = .instrument i →
    i.Tells (askedOf ms k) ((recordsOf ms).amounts k)

/-- A call adds to the history what it does to the instruments. -/
lemma Moment.tells {m : Moment} (led : m.before.Led ms) (tells : m.before.Tells ms)
    (honest : Honest (ms ++ [m])) : m.after.Tells (ms ++ [m]) := by
  obtain ⟨before, uses⟩ := honest_concat.mp honest
  intro c k listed j instrument
  obtain ⟨i, origin, turns⟩ := m.instrument_after instrument
  have told : i.Tells (askedOf ms k) ((recordsOf ms).amounts k) := by
    rcases origin with old | ⟨outside, new⟩
    · rcases (listed_after listed).2 with listed | ⟨⟨late, -⟩, -⟩
      · exact tells c k listed i old
      · have placed := placed_of_instrument old
        omega
    · have unasked := led.askedOf_eq_nil outside
      have nothing : (recordsOf ms).amounts k = fun _ => [] := by
        funext values
        refine before.amounts_eq_nil ?_
        rw [unasked]
        exact List.not_mem_nil
      rw [unasked, nothing]
      exact new.tells
  rw [askedOf_concat, recordsOf_concat]
  have sum : Records.amounts (recordsOf ms ++ m.records) k
      = fun values => (recordsOf ms).amounts k values ++ m.records.amounts k values :=
    funext fun values => Records.amounts_append _ _ k values
  rw [sum]
  refine told.turns turns (fun values asked => ?_) fun values => before.amounts_eq_nil
  obtain ⟨child, given, target⟩ := mem_asked.mp asked
  have last : m ∈ ms ++ [m] := List.mem_append_right ms List.mem_cons_self
  obtain ⟨i', found, -, width⟩ := (led.call uses).children m last child given k values target
  obtain rfl := Collector.instrument.inj (found.symm.trans instrument)
  rw [← width, turns.labels]

/-- After an honest run all that was given leads to instruments, and the listed instruments tell all
that was asked for and recorded. -/
lemma Run.tells {enabled : Distinct Category} {timers : Bool} {r : RegistryId} {s : Site}
    (run : Run others ⟨fresh enabled timers r, s⟩ ms d)
    (gentle : ∀ d t, others d t → d.site.Grows t ∧ d.Unchanged t) (honest : Honest ms) :
    d.Led ms ∧ d.Tells ms := by
  induction run with
  | start =>
    refine ⟨⟨fun kind external h now => ?_, ?_, ?_⟩, ?_⟩
    · cases kind <;> cases now
    · exact fun _ hm => absurd hm List.not_mem_nil
    · exact fun _ hm => absurd hm List.not_mem_nil
    · exact fun _ _ listed => absurd listed List.not_mem_nil
  | @call ms d run call ih =>
    obtain ⟨before, uses⟩ := honest_concat.mp honest
    obtain ⟨led, tells⟩ := ih before
    exact ⟨led.call (m := ⟨d, call⟩) uses, Moment.tells (m := ⟨d, call⟩) led tells honest⟩
  | @others ms d t run disturbed ih =>
    obtain ⟨led, tells⟩ := ih honest
    obtain ⟨grows, unchanged⟩ := gentle d t disturbed
    refine ⟨led.others grows, fun c k listed i instrument => ?_⟩
    exact tells c k listed i ((unchanged c k listed).symm.trans instrument)

end Runs

end Metering
