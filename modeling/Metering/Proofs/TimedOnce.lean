import Metering.Proofs.RecordsAddUp
import Metering.Scenario.Perform

/-!
# What is timed is recorded once

A `Task` is a program that starts and stops timings, by itself or as blocks, and moves the clock
meanwhile. Its history says when each timing was started and stopped. Whatever the program does, a
timing has recorded the time from its start to its first stop, and all that timers have recorded
are these times and the durations that were observed directly, in the order of the history
(`timed_once`).
-/

namespace Metering

namespace Scenario

/-- Something that happens to timings and timers; starts and stops with the clock. -/
inductive Beat where
  | started (child : Child) (clock : Float)
  | stopped (i : TimingId) (clock answer : Float)
  | observed (child : Child) (seconds : Float)

/-- A workspace with what has happened in it, latest first. -/
structure Watched where
  workspace : Workspace
  history : List Beat := []

/-- A computation that tells what it does. -/
abbrev Watch := EStateM Fault Watched

namespace Watch

/-- A computation of a scenario, which tells nothing by itself. -/
def ofSession {α : Type} (x : Session α) : Watch α := fun w =>
  match x w.workspace with
  | .ok a v => .ok a { w with workspace := v }
  | .error e v => .error e { w with workspace := v }

/-- Tells what has happened. -/
def tell (b : Beat) : Watch Unit := modify fun w => { w with history := b :: w.history }

/-- What the clock shows. -/
def clock : Watch Float := do return (← get).workspace.site.clock

/-- Starts a timing. -/
def start (c : Child) : Watch TimingId := do
  let now ← clock
  let t ← ofSession (Timing.start c)
  let i ← ofSession (Session.addTiming t)
  tell (.started c now)
  return i

/-- Stops a timing. -/
def stop (i : TimingId) : Watch Float := do
  let now ← clock
  let answer ← ofSession (Session.stopTiming i)
  tell (.stopped i now answer)
  return answer

/-- Records a duration directly. -/
def observe (c : Child) (seconds : Float) : Watch Unit := do
  ofSession (c.observe seconds)
  tell (.observed c seconds)

end Watch

/-- What a block is entered with: a new timing, or one that there is already. -/
inductive Entry where
  | new (child : Child)
  | old (i : TimingId)

/-- Enters a block. -/
def Entry.enter : Entry → Watch TimingId
  | .new child => Watch.start child
  | .old i => do
    if i.index < (← get).workspace.timings.length then return i
    else throw (.unbound (toString i.index))

/-- A program on timings. -/
inductive Task where
  | advance (seconds : Float)
  | observe (child : Child) (seconds : Float)
  | start (child : Child)
  | stop (i : TimingId)
  | fail (fault : Fault)
  | both (first second : Task)
  | block (entry : Entry) (body : Task)
  | guard (body : Task)

/-- Carries out a program. A block stops its timing when its body ends, and passes on the fault of a
body that fails; a guard goes on after any fault. -/
def Task.perform : Task → Watch Unit
  | .advance seconds => Watch.ofSession (Site.advance seconds)
  | .observe child seconds => Watch.observe child seconds
  | .start child => do
    let _ ← Watch.start child
  | .stop i => do
    let _ ← Watch.stop i
  | .fail fault => throw fault
  | .both first second => do
    first.perform
    second.perform
  | .block entry body => do
    let i ← entry.enter
    tryCatch body.perform fun fault => do
      let _ ← Watch.stop i
      throw fault
    let _ ← Watch.stop i
  | .guard body => tryCatch body.perform fun _ => return

/-- The timings as they were when they were started: those of the beginning, then the others. -/
def contexts (first : List Timing) : List Beat → List Timing
  | [] => first
  | .started child clock :: earlier => contexts first earlier ++ [⟨child, clock, none⟩]
  | .stopped _ _ _ :: earlier | .observed _ _ :: earlier => contexts first earlier

/-- The clock at the first stop of a timing. -/
def firstStop? (i : TimingId) : List Beat → Option Float
  | [] => none
  | .stopped j clock _ :: earlier =>
    (firstStop? i earlier).or (if j = i then some clock else none)
  | .started _ _ :: earlier | .observed _ _ :: earlier => firstStop? i earlier

/-- What is recorded when a timing is stopped: its duration, unless it was stopped before. -/
def recordedAt (first : List Timing) (earlier : List Beat) (i : TimingId) (clock : Float) :
    Records :=
  match (contexts first earlier)[i.index]? with
  | none => []
  | some t => t.due (firstStop? i earlier) clock

/-- All that is recorded, in its order. -/
def recorded (first : List Timing) : List Beat → Records
  | [] => []
  | .started _ _ :: earlier => recorded first earlier
  | .stopped i clock _ :: earlier =>
    recorded first earlier ++ recordedAt first earlier i clock
  | .observed child seconds :: earlier => recorded first earlier ++ [(child, seconds)]

/-- What the history says of the workspace in which it ends, given the one in which it began. -/
structure Watched.Told (w : Workspace) (e : Watched) : Prop where
  timings : ∀ i : TimingId, e.workspace.timings[i.index]?
    = ((contexts w.timings e.history)[i.index]?).map fun t => t.ended (firstStop? i e.history)
  answers : ∀ i clock answer, .stopped i clock answer ∈ e.history →
    ∃ t, (contexts w.timings e.history)[i.index]? = some t
      ∧ t.duration? (firstStop? i e.history) = some answer
  site : e.workspace.site
    = { w.site.gained (recorded w.timings e.history) with clock := e.workspace.site.clock }

lemma firstStop?_eq_none {i : TimingId} {history : List Beat}
    (none_stopped : ∀ clock answer, .stopped i clock answer ∉ history) :
    firstStop? i history = none := by
  induction history with
  | nil => rfl
  | cons b earlier ih =>
    have before := ih fun clock answer h => none_stopped clock answer (List.mem_cons_of_mem b h)
    cases b with
    | stopped j clock answer =>
      have other : j ≠ i := by
        rintro rfl
        exact none_stopped clock answer List.mem_cons_self
      rw [firstStop?, before, if_neg other]
      rfl
    | _ => exact before

section Steps

variable {w : Workspace} {e : Watched} {i : TimingId} {t : Timing} {c : Child}

lemma Watch.start_ok : Watch.start c e
    = .ok ⟨e.workspace.timings.length⟩
      ⟨{ e.workspace with
          timings := e.workspace.timings ++ [⟨c, e.workspace.site.clock, none⟩] },
        .started c e.workspace.site.clock :: e.history⟩ := rfl

lemma Watch.ofSession_ok {α : Type} {x : Session α} {a : α} {v : Workspace}
    (h : x e.workspace = .ok a v) :
    Watch.ofSession x e = .ok a { e with workspace := v } := by
  rw [ofSession, h]

lemma Watch.ofSession_error {α : Type} {x : Session α} {fault : Fault} {v : Workspace}
    (h : x e.workspace = .error fault v) :
    Watch.ofSession x e = .error fault { e with workspace := v } := by
  rw [ofSession, h]

lemma Session.ofAction_ok {α : Type} {x : Action α} {a : α} {s : Site} {v : Workspace}
    (h : x v.site = .ok a s) : Session.ofAction x v = .ok a { v with site := s } := by
  rw [ofAction, h]

lemma Watch.observe_ok {seconds : Float} : Watch.observe c seconds e
    = .ok () ⟨{ e.workspace with site := e.workspace.site.gained [(c, seconds)] },
        .observed c seconds :: e.history⟩ := by
  have recorded := Session.ofAction_ok (v := e.workspace) (c.record_eq seconds _)
  exact bind_of_ok (Watch.ofSession_ok recorded) _

/-- Stopping a timing that there is never fails. -/
lemma Session.stopTiming_ok {v : Workspace} (h : v.timings[i.index]? = some t) :
    Session.stopTiming i v
      = .ok (t.elapsed.getD (v.site.clock - t.started)) { v with
          site := v.site.gained (t.due none v.site.clock)
          timings := v.timings.set i.index (t.ended (some v.site.clock)) } := by
  rw [Session.stopTiming, bind_get, h]
  exact bind_of_ok (Session.ofAction_ok (t.stop_eq v.site)) _

lemma Watch.stop_ok (h : e.workspace.timings[i.index]? = some t) :
    let now := e.workspace.site.clock
    let answer := t.elapsed.getD (now - t.started)
    Watch.stop i e
      = .ok answer ⟨{ e.workspace with
          site := e.workspace.site.gained (t.due none now)
          timings := e.workspace.timings.set i.index (t.ended (some now)) },
        .stopped i now answer :: e.history⟩ :=
  bind_of_ok (Watch.ofSession_ok (Session.stopTiming_ok h)) _

lemma Watch.stop_error (h : e.workspace.timings[i.index]? = none) :
    Watch.stop i e = .error (.unbound (toString i.index)) e := by
  have run : Session.stopTiming i e.workspace
      = .error (.unbound (toString i.index)) e.workspace := by
    rw [Session.stopTiming, bind_get, h]
    rfl
  exact bind_of_error (Watch.ofSession_error run) _

end Steps

namespace Watched.Told

variable {w : Workspace} {e : Watched}

lemma length_contexts (told : e.Told w) :
    (contexts w.timings e.history).length = e.workspace.timings.length := by
  have ended : ∀ n, (contexts w.timings e.history).length ≤ n
      ↔ e.workspace.timings.length ≤ n := by
    intro n
    rw [← List.getElem?_eq_none_iff, ← List.getElem?_eq_none_iff, told.timings ⟨n⟩,
      Option.map_eq_none_iff]
  exact Nat.le_antisymm ((ended _).mpr (Nat.le_refl _)) ((ended _).mp (Nat.le_refl _))

/-- Nothing was stopped that had not been started. -/
lemma firstStop?_unplaced (told : e.Told w) {i : TimingId}
    (unplaced : (contexts w.timings e.history)[i.index]? = none) :
    firstStop? i e.history = none := by
  refine firstStop?_eq_none fun clock answer stopped => ?_
  obtain ⟨t, placed, -⟩ := told.answers i clock answer stopped
  rw [unplaced] at placed
  cases placed

lemma site_gained (told : e.Told w) (rs : Records) : e.workspace.site.gained rs
    = { w.site.gained (recorded w.timings e.history ++ rs) with
        clock := e.workspace.site.clock } := by
  rw [told.site, ← Site.gained_gained]
  rfl

lemma started (told : e.Told w) (c : Child) :
    Watched.Told w ⟨{ e.workspace with
        timings := e.workspace.timings ++ [⟨c, e.workspace.site.clock, none⟩] },
      .started c e.workspace.site.clock :: e.history⟩ where
  timings i := by
    simp only [contexts, firstStop?]
    rw [List.getElem?_append, List.getElem?_append, told.length_contexts]
    split
    · exact told.timings i
    · next late =>
      have unplaced : (contexts w.timings e.history)[i.index]? = none := by
        rw [List.getElem?_eq_none_iff, told.length_contexts]
        exact Nat.not_lt.mp late
      simp only [told.firstStop?_unplaced unplaced, Timing.ended_none, Option.map_id_fun', id_eq]
  answers i clock answer stopped := by
    rcases List.mem_cons.mp stopped with now | before
    · cases now
    · obtain ⟨t, placed, duration⟩ := told.answers i clock answer before
      refine ⟨t, ?_, duration⟩
      have inside := (List.getElem?_eq_some_iff.mp placed).1
      rw [contexts, List.getElem?_append_left inside, placed]
  site := told.site

lemma observed (told : e.Told w) (c : Child) (seconds : Float) :
    Watched.Told w ⟨{ e.workspace with site := e.workspace.site.gained [(c, seconds)] },
      .observed c seconds :: e.history⟩ where
  timings i := told.timings i
  answers i clock answer stopped := by
    rcases List.mem_cons.mp stopped with now | before
    · cases now
    · exact told.answers i clock answer before
  site := told.site_gained [(c, seconds)]

lemma moved (told : e.Told w) (clock : Float) :
    Watched.Told w { e with workspace :=
      { e.workspace with site := { e.workspace.site with clock := clock } } } where
  timings := told.timings
  answers := told.answers
  site := by
    simp only
    rw [told.site]

/-- The first stop of a timing gives it its duration and records it, a later one only tells it. -/
lemma stopped (told : e.Told w) {i : TimingId} {t : Timing}
    (h : e.workspace.timings[i.index]? = some t) :
    Watched.Told w ⟨{ e.workspace with
        site := e.workspace.site.gained (t.due none e.workspace.site.clock)
        timings := e.workspace.timings.set i.index (t.ended (some e.workspace.site.clock)) },
      .stopped i e.workspace.site.clock
        (t.elapsed.getD (e.workspace.site.clock - t.started)) :: e.history⟩ := by
  obtain ⟨origin, placed, rfl⟩ : ∃ origin, (contexts w.timings e.history)[i.index]? = some origin
      ∧ origin.ended (firstStop? i e.history) = t := by
    rw [told.timings i, Option.map_eq_some_iff] at h
    exact h
  refine ⟨fun j => ?_, fun j clock answer stopped => ?_, ?_⟩
  · by_cases own : i = j
    · subst own
      have inside := (List.getElem?_eq_some_iff.mp h).1
      simp only [contexts, firstStop?, placed, List.getElem?_set_self inside, if_true,
        Option.map_some, Timing.ended_ended]
    · have apart : i.index ≠ j.index := fun same => own (by cases i; cases j; cases same; rfl)
      simp only [contexts, firstStop?, if_neg own, Option.or_none, List.getElem?_set_ne apart]
      exact told.timings j
  · rcases List.mem_cons.mp stopped with now | before
    · cases now
      refine ⟨origin, placed, ?_⟩
      simp only [firstStop?, if_true]
      rw [← Timing.duration?_ended, Timing.duration?_stopped]
    · obtain ⟨u, started, duration⟩ := told.answers j clock answer before
      exact ⟨u, started, Timing.duration?_stays duration _⟩
  · refine (told.site_gained _).trans ?_
    simp only [recorded, recordedAt, placed, Timing.due_ended]
    rfl

end Watched.Told

/-- What was told goes on being told, and no timing is lost. -/
structure Watched.Continues (e e' : Watched) : Prop where
  told : ∀ w, e.Told w → e'.Told w
  timings : e.workspace.timings.length ≤ e'.workspace.timings.length

instance : IsPreorder Watched Watched.Continues where
  refl _ := ⟨fun _ told => told, Nat.le_refl _⟩
  trans _ _ _ h h' := ⟨fun w told => h'.told w (h.told w told), Nat.le_trans h.timings h'.timings⟩

section Programs

open Watched

lemma Watch.start_continues (c : Child) : Moves Continues (Watch.start c) := by
  intro e
  rw [Watch.start_ok]
  refine ⟨fun w told => told.started c, ?_⟩
  rw [endOf, List.length_append]
  exact Nat.le_add_right _ _

lemma Watch.stop_continues (i : TimingId) : Moves Continues (Watch.stop i) := by
  intro e
  cases h : e.workspace.timings[i.index]? with
  | none =>
    rw [Watch.stop_error h]
    exact Std.Refl.refl e
  | some t =>
    rw [Watch.stop_ok h]
    exact ⟨fun w told => told.stopped h, Nat.le_of_eq List.length_set.symm⟩

lemma Watch.observe_continues (c : Child) (seconds : Float) :
    Moves Continues (Watch.observe c seconds) := by
  intro e
  rw [Watch.observe_ok]
  exact ⟨fun w told => told.observed c seconds, Nat.le_refl _⟩

lemma Entry.enter_continues (entry : Entry) : Moves Continues entry.enter := by
  cases entry with
  | new child => exact Watch.start_continues child
  | old i =>
    refine Moves.get.bind fun e => ?_
    split
    · exact Moves.pure _
    · exact Moves.throw _

/-- By induction on the program. -/
lemma Task.perform_continues (task : Task) : Moves Continues task.perform := by
  induction task with
  | advance seconds => exact fun e => ⟨fun w told => told.moved _, Nat.le_refl _⟩
  | observe child seconds => exact Watch.observe_continues child seconds
  | start child => exact (Watch.start_continues child).bind fun _ => Moves.pure _
  | stop i => exact (Watch.stop_continues i).bind fun _ => Moves.pure _
  | fail fault => exact Moves.throw fault
  | both first second ih ih' => exact ih.bind fun _ => ih'
  | block entry body ih =>
    refine (Entry.enter_continues entry).bind fun i => Moves.bind ?_ fun _ => ?_
    · exact ih.tryCatch fun fault => (Watch.stop_continues i).bind fun _ => Moves.throw fault
    · exact (Watch.stop_continues i).bind fun _ => Moves.pure _
  | guard body ih => exact ih.tryCatch fun _ => Moves.pure _

/-- A block that has been entered has a timing to stop. -/
lemma Entry.enter_placed {entry : Entry} {before entered : Watched} {i : TimingId}
    (h : entry.enter before = .ok i entered) : i.index < entered.workspace.timings.length := by
  cases entry with
  | new child =>
    rw [enter, Watch.start_ok] at h
    cases h
    simp
  | old j =>
    rw [enter, bind_get] at h
    split at h
    · next inside =>
      cases h
      exact inside
    · cases h

/-- A block that has been entered ends as its body does, after it has stopped its timing. -/
lemma Task.block_ends {entry : Entry} (body : Task) {before entered : Watched} {i : TimingId}
    (h : entry.enter before = .ok i entered) : ∃ answer e,
    Watch.stop i (endOf (body.perform entered)) = .ok answer e
      ∧ (Task.block entry body).perform before = match body.perform entered with
        | .ok _ _ => .ok () e
        | .error fault _ => .error fault e := by
  have kept := (body.perform_continues entered).timings
  have inside := Nat.lt_of_lt_of_le (Entry.enter_placed h) kept
  obtain ⟨answer, e, stopped⟩ : ∃ answer e,
      Watch.stop i (endOf (body.perform entered)) = .ok answer e :=
    ⟨_, _, Watch.stop_ok (List.getElem?_eq_getElem inside)⟩
  refine ⟨answer, e, stopped, ?_⟩
  rw [perform, bind_of_ok h]
  cases run : body.perform entered with
  | ok a u =>
    rw [run, endOf] at stopped
    rw [bind_of_ok (tryCatch_of_ok run _)]
    exact bind_of_ok stopped _
  | error fault u =>
    rw [run, endOf] at stopped
    exact bind_of_error ((tryCatch_of_error run _).trans (bind_of_ok stopped _)) _

/-- What a step of a scenario does in a block. -/
def Task.within (seconds : Float) : Option String → Task
  | none => .advance seconds
  | some message => .both (.advance seconds) (.fail (.raised .runtime message))

/-- A timed step of a scenario is a block. -/
theorem perform_within {w : Workspace} {timedBy : TimedBy} {i : TimingId} {entered : Workspace}
    (found : timingFor timedBy w = .ok i entered) (inside : i.index < entered.timings.length)
    (seconds : Float) (failure : Option String) :
    endOf (perform (.within timedBy seconds failure) w)
      = (endOf ((Task.block (.old i) (.within seconds failure)).perform
          ⟨entered, []⟩)).workspace := by
  let late : Workspace :=
    { entered with site := { entered.site with clock := entered.site.clock + seconds } }
  have placed : late.timings[i.index]? = some entered.timings[i.index] :=
    List.getElem?_eq_getElem inside
  have enters : (Entry.old i).enter ⟨entered, []⟩ = .ok i ⟨entered, []⟩ := by
    rw [Entry.enter, bind_get, if_pos inside]
    rfl
  obtain ⟨answer, e, stopped, ends⟩ := Task.block_ends (.within seconds failure) enters
  have passed : endOf ((Task.within seconds failure).perform ⟨entered, []⟩) = ⟨late, []⟩ := by
    cases failure <;> rfl
  rw [passed, Watch.stop_ok placed] at stopped
  cases stopped
  rw [perform, bind_of_ok found, ends]
  have advanced : (liftM (Site.advance seconds) : Session Unit) entered = .ok () late := rfl
  rw [bind_of_ok advanced, bind_of_ok (Session.stopTiming_ok placed)]
  cases failure <;> rfl

end Programs

/-- Whatever a program does, each timing has the duration from its start to its first stop, by
itself or at the end of a block, and every stop has answered with it. The first stops and the direct
observations are all that has been recorded: the amounts of a tally are those through the children
that lead to it, in their order, each of them counted once and added to the total, and inert
children have left no trace. A block stops its timing also when its body fails, and passes on the
fault. -/
theorem timed_once (w : Workspace) (task : Task) :
    let e := endOf (task.perform ⟨w, []⟩)
    let rs := recorded w.timings e.history
    e.Told w
      ∧ (∀ k i values t, w.site.collector k = .instrument i → i.series.get? values = some t →
          let amounts := rs.amounts k values
          ∃ j u, e.workspace.site.collector k = .instrument j ∧ j.series.get? values = some u
            ∧ u = t.addAll amounts ∧ u.count = t.count + amounts.length
            ∧ u.total = amounts.foldl (· + ·) t.total)
      ∧ w.site.gained rs = w.site.gained rs.active
      ∧ ∀ entry body before i entered, Entry.enter entry before = .ok i entered →
          ∃ answer e, Watch.stop i (endOf (body.perform entered)) = .ok answer e
            ∧ (Task.block entry body).perform before = match body.perform entered with
              | .ok _ _ => .ok () e
              | .error fault _ => .error fault e := by
  intro e rs
  have begun : Watched.Told w ⟨w, []⟩ := by
    refine ⟨fun i => ?_, fun _ _ _ h => absurd h List.not_mem_nil, ?_⟩
    · simp only [contexts, firstStop?, Timing.ended_none, Option.map_id_fun', id_eq]
    · simp only [recorded, Site.gained_nil]
  have told : e.Told w := (task.perform_continues _).told w begun
  refine ⟨told, ?_, (w.site.gained_active_records rs).symm,
    fun _ body _ _ _ => Task.block_ends body⟩
  intro k i values t instrument kept amounts
  refine ⟨i.gained (rs.amounts k), t.addAll amounts, ?_, ?_, rfl, t.count_addAll amounts,
    t.total_addAll amounts⟩
  · have same : e.workspace.site.collector k = (w.site.gained rs).collector k := by
      rw [told.site]
      rfl
    rw [same, Site.collector_gained, instrument]
    rfl
  · rw [Instrument.gained, Index.get?_mapValues, kept]
    rfl

/-- A timer without labels, and the one child that it has. -/
def idle : Workspace :=
  { site := { collectors := [.instrument ⟨.timer, "shop_wait", "h", [],
      (∅ : Index (List String) Tally).put [] (.start 1000.0)⟩] } }

def idleChild : Child := ⟨.timer, some (⟨0⟩, [])⟩

/-- A block whose body turns the clock back and fails, and a further stop of its timing. -/
def overrun : Task :=
  .both (.guard (.block (.new idleChild) (.both (.advance (-2.0)) (.fail .notHeld)))) (.stop ⟨0⟩)

theorem timed_once_overrun :
    let e := endOf (overrun.perform ⟨idle, []⟩)
    let seconds : Float := 1000.0 + -2.0 - 1000.0
    recorded [] e.history = [(idleChild, seconds)]
      ∧ (∃ j u, e.workspace.site.collector ⟨0⟩ = .instrument j ∧ j.series.get? [] = some u
          ∧ u = (Tally.start 1000.0).addAll [seconds] ∧ u.count = 1 ∧ u.total = 0.0 + seconds)
      ∧ ∃ u, (Task.block (.new idleChild) (.both (.advance (-2.0)) (.fail .notHeld))).perform
          ⟨idle, []⟩ = .error .notHeld u := by
  intro e seconds
  obtain ⟨-, shown, -, blocks⟩ := timed_once idle overrun
  refine ⟨rfl, shown ⟨0⟩ _ [] _ rfl rfl, ?_⟩
  obtain ⟨answer, u, -, failed⟩ :=
    blocks (.new idleChild) (.both (.advance (-2.0)) (.fail .notHeld)) ⟨idle, []⟩ ⟨0⟩ _ rfl
  exact ⟨u, failed⟩

end Scenario

end Metering
