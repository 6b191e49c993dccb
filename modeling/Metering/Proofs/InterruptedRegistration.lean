import Metering.Proofs.ReleaseAndRestore
import Metering.Proofs.SystemRuns

/-!
# Registrations that a supplier interrupts

A supplier can raise while a registration looks for rivals, while the registry asks the new
collector for its names, and while displaced collectors are put back. The registration fails each
time and the lists stay. The registry stays too unless rivals had been taken out: those are put
back only after a refused value, and only up to the first that is kept out itself.
-/

namespace Metering

open Site

namespace Roster

/-- What a registration collects before it changes anything: the new collector, and those listed
under its category. -/
def survey (r : Roster) (c : Category) (k : CollectorId) :
    Action (List CollectorId × List CollectorId) := do
  partAll (← familyNames k) (r.ofCategory c)

/-- A registration up to the point where the new collector is held or kept out. -/
def attempt (r : Roster) (c : Category) (k : CollectorId) : Action Unit := do
  let parts ← r.survey c k
  releaseAll r.registry parts.1
  hold r.registry k

/-- What a supplier can interrupt in a registration. -/
inductive Stage where
  | surveying
  | describing
  | restoring

/-- A supplier raises at a stage of the registration of `k` under `c`. -/
inductive RaisesAt (r : Roster) (c : Category) (k : CollectorId) (s : Site) : Stage → Alarm → Prop
  | surveying {alarm : Alarm} {message : String} {t : Site}
      (surveyed : r.survey c k s = .error (.raised alarm message) t) :
      RaisesAt r c k s .surveying alarm
  | describing {displaced kept : List CollectorId} {alarm : Alarm} {message : String} {u v t : Site}
      (surveyed : r.survey c k s = .ok (displaced, kept) u)
      (released : releaseAll r.registry displaced u = .ok () v)
      (held : hold r.registry k v = .error (.raised alarm message) t) :
      RaisesAt r c k s .describing alarm
  | restoring {displaced kept : List CollectorId} {fault : Fault} {alarm : Alarm}
      {message : String} {u v w t : Site}
      (surveyed : r.survey c k s = .ok (displaced, kept) u)
      (released : releaseAll r.registry displaced u = .ok () v)
      (held : hold r.registry k v = .error fault w) (refusal : fault.isRefusal = true)
      (restored : holdAll r.registry displaced w = .error (.raised alarm message) t) :
      RaisesAt r c k s .restoring alarm

/-- An interrupted registration leaves the registry as it was: nothing had been displaced, or what
had been displaced came back. -/
def Mends (r : Roster) (c : Category) (k : CollectorId) (s : Site) : Prop :=
  (∃ alarm, RaisesAt r c k s .surveying alarm)
    ∨ ∃ alarm, RaisesAt r c k s .describing alarm
      ∧ (r.rivals s c k = []
        ∨ alarm.isRefusal = true ∧ ∀ other, ¬ RaisesAt r c k s .restoring other)

/-- The registration has failed with what a supplier raised, and the registry lacks `lost`, the last
ones of the rivals: none of them exactly if the registration `Mends`. -/
structure Interrupted (r : Roster) (c : Category) (k : CollectorId) (s : Site) (fault : Fault)
    (t : Site) (lost : List CollectorId) : Prop where
  failed : r.register c k s = .error fault t
  raised : ∃ alarm message, fault = .raised alarm message
  last : lost <:+ r.rivals s c k
  mends : lost = [] ↔ r.Mends c k s
  lacks : Registry.Lacks (fun j => (s.collector j).claims (s.registry r.registry).describes)
    (r.rivals s c k) lost (s.registry r.registry) (t.registry r.registry)

section Interrupting

variable {r r' : Roster} {c : Category} {k : CollectorId} {s t u : Site} {fault : Fault}

lemma survey_heeds (r : Roster) (c : Category) (k : CollectorId) : Heeds (r.survey c k) :=
  (familyNames_heeds k).bind fun _ => partAll_heeds _ _

lemma attempt_heeds (r : Roster) (c : Category) (k : CollectorId) : Heeds (r.attempt c k) :=
  (survey_heeds r c k).bind fun parts =>
    (Heeds.forM (release_heeds r.registry) parts.1).bind fun _ => hold_heeds r.registry k

lemma survey_moves (r : Roster) (c : Category) (k : CollectorId) :
    Moves OnlyActivity (r.survey c k) :=
  (familyNames_moves k).bind fun _ => partAll_moves _ _

lemma partAll_nameable {names : Distinct String} {ks : List CollectorId}
    {parts : List CollectorId × List CollectorId} (h : partAll names ks s = .ok parts t) :
    ∀ j ∈ ks, (s.collector j).Nameable := by
  induction ks generalizing s t parts with
  | nil => exact fun _ h => absurd h List.not_mem_nil
  | cons k ks ih =>
    obtain ⟨own, u, named, h⟩ := ok_of_bind_ok h
    obtain ⟨others, v, parted, -⟩ := ok_of_bind_ok h
    have quiet := (familyNames_moves k).of_ok named
    intro j hj
    rcases List.mem_cons.mp hj with rfl | hj
    · exact (familyNames_ok named).2
    · rw [← quiet.collector]
      exact ih parted j hj

/-- What was surveyed has names, and the rivals are known from it. -/
lemma surveyed_ok {parts : List CollectorId × List CollectorId}
    (h : r.survey c k s = .ok parts u) :
    parts = (r.rivals s c k, r.bystanders s c k) ∧ (s.collector k).Nameable
      ∧ ∀ j ∈ r.rivals s c k, (s.collector j).Nameable := by
  obtain ⟨names, v, named, parted⟩ := ok_of_bind_ok h
  have quiet := (familyNames_moves k).of_ok named
  refine ⟨parted_of_names named parted, (familyNames_ok named).2, ?_⟩
  intro j hj
  rw [← quiet.collector]
  exact partAll_nameable parted j (mem_rivals.mp hj).1

lemma register_of_survey_error (h : r.survey c k s = .error fault t) :
    r.register c k s = .error fault t := by
  rcases error_of_bind_error h with failed | ⟨names, u, named, failed⟩
  · exact bind_of_error failed _
  · exact (bind_of_ok named _).trans (bind_of_error failed _)

/-- After the survey a registration goes as its exchange goes. -/
lemma register_of_survey_ok {displaced kept : List CollectorId}
    (surveyed : r.survey c k s = .ok (displaced, kept) u) :
    (∀ t, exchange r.registry displaced k u = .ok () t →
        ∃ t', r.register c k s = .ok (r.publish c kept k) t' ∧ t'.activity = t.activity)
      ∧ ∀ fault t, exchange r.registry displaced k u = .error fault t →
        r.register c k s = .error fault t := by
  obtain ⟨names, v, named, parted⟩ := ok_of_bind_ok surveyed
  have run : r.register c k s = (do
      exchange r.registry displaced k
      reportReplaced c names displaced
      return r.publish c kept k : Action Roster) u :=
    (bind_of_ok named _).trans (bind_of_ok parted _)
  constructor
  · intro t exchanged
    obtain ⟨w, reported, logged⟩ := reportReplaced_ok c names displaced t
    refine ⟨w, run.trans ((bind_of_ok exchanged _).trans (bind_of_ok reported _)), ?_⟩
    rw [logged]
  · intro fault t exchanged
    exact run.trans (bind_of_error exchanged _)

/-- An exchange after the release goes as holding the new collector goes, and restoring after it. -/
lemma exchange_of_released {i : RegistryId} {displaced : List CollectorId}
    (released : releaseAll i displaced s = .ok () u) :
    exchange i displaced k s = tryCatch (hold i k) (restore i displaced) u :=
  bind_of_ok released _

lemma restore_of_refusal {i : RegistryId} {displaced : List CollectorId}
    (refusal : fault.isRefusal = true) :
    (∀ t, holdAll i displaced s = .ok () t → restore i displaced fault s = .error fault t)
      ∧ ∀ other t, holdAll i displaced s = .error other t →
        restore i displaced fault s = .error other t := by
  rw [restore, if_pos refusal]
  exact ⟨fun t restored => bind_of_ok restored _, fun other t failed => bind_of_error failed _⟩

end Interrupting

end Roster

/-- What the registry holds is known to the site, and is held with the names that it claims. -/
def Site.Recorded (s : Site) (i : RegistryId) : Prop :=
  ∀ j names, (s.registry i).held.get? j = some names →
    j.index < s.collectors.length ∧ names = (s.collector j).claims (s.registry i).describes

namespace Roster

section Interrupted

variable {r : Roster} {c : Category} {k : CollectorId} {s t u v w : Site}
  {displaced kept : List CollectorId} {fault : Fault}

lemma interrupted_surveying (surveyed : r.survey c k s = .error fault t) (alarmed : s.Alarmed t) :
    Interrupted r c k s fault t [] := by
  obtain ⟨alarm, message, rfl⟩ := (survey_heeds r c k).raised_of_error surveyed alarmed
  have same : t.registry r.registry = s.registry r.registry := by
    rw [(survey_moves r c k).of_error surveyed]
    rfl
  refine ⟨register_of_survey_error surveyed, ⟨alarm, message, rfl⟩, List.nil_suffix,
    iff_of_true rfl (Or.inl ⟨alarm, .surveying surveyed⟩), ?_⟩
  rw [same]
  exact .nothing

/-- The rivals can be taken out only if they were held, and what was free then is known. -/
lemma out_of_released (recorded : s.Recorded r.registry)
    (surveyed : r.survey c k s = .ok (displaced, kept) u)
    (released : releaseAll r.registry displaced u = .ok () v) :
    let names := fun j => (s.collector j).claims (s.registry r.registry).describes
    displaced.Nodup ∧ (∀ j ∈ displaced, (s.registry r.registry).held.get? j = some (names j))
      ∧ (displaced.flatMap names).Nodup
      ∧ (s.registry r.registry).Without (v.registry r.registry) displaced
        (displaced.flatMap names) := by
  intro names
  have same : u.registry r.registry = s.registry r.registry := by
    rw [(survey_moves r c k).of_ok surveyed]
    rfl
  have known : ∀ j ∈ displaced, ∀ own, (u.registry r.registry).held.get? j = some own →
      own = names j := fun j _ own hown => (recorded j own (same ▸ hown)).2
  obtain ⟨distinct, held, apart, -, out⟩ := released_of_ok known released
  rw [same] at held out
  exact ⟨distinct, held, apart, out⟩

section KeptOut

variable (surveyed : r.survey c k s = .ok (displaced, kept) u)
  (released : releaseAll r.registry displaced u = .ok () v)
  (held : hold r.registry k v = .error fault w)

include surveyed released held

lemma raisesAt_restoring_iff {alarm : Alarm} :
    RaisesAt r c k s .restoring alarm ↔ fault.isRefusal = true
      ∧ ∃ message t, holdAll r.registry displaced w = .error (.raised alarm message) t := by
  constructor
  · rintro (_ | _ | ⟨surveyed', released', held', refusal, restored⟩)
    rw [surveyed] at surveyed'
    cases surveyed'
    rw [released] at released'
    cases released'
    rw [held] at held'
    cases held'
    exact ⟨refusal, _, _, restored⟩
  · rintro ⟨refusal, message, t, restored⟩
    exact .restoring surveyed released held refusal restored

/-- When the new collector has been kept out, the registration mends itself exactly if a supplier
kept it out and there is nothing to put back, or everything can be put back. -/
lemma mends_iff :
    r.Mends c k s ↔ ∃ alarm message, fault = .raised alarm message
      ∧ (displaced = [] ∨ alarm.isRefusal = true
        ∧ ∀ other message t,
          holdAll r.registry displaced w ≠ .error (.raised other message) t) := by
  have rivals : displaced = r.rivals s c k := congrArg Prod.fst (surveyed_ok surveyed).1
  constructor
  · rintro (⟨alarm, ⟨surveyed'⟩⟩ | ⟨alarm, ⟨⟩ | ⟨surveyed', released', held'⟩, mended⟩)
    · rw [surveyed] at surveyed'
      cases surveyed'
    · rw [surveyed] at surveyed'
      cases surveyed'
      rw [released] at released'
      cases released'
      rw [held] at held'
      cases held'
      refine ⟨alarm, _, rfl, mended.imp rivals.trans ?_⟩
      rintro ⟨refusal, restorable⟩
      refine ⟨refusal, fun other message t restored => restorable other ?_⟩
      exact (raisesAt_restoring_iff surveyed released held).mpr
        ⟨(Fault.isRefusal_raised ..).trans refusal, message, t, restored⟩
  · rintro ⟨alarm, message, rfl, mended⟩
    refine Or.inr ⟨alarm, .describing surveyed released held,
      mended.imp rivals.symm.trans (And.imp_right ?_)⟩
    rintro restorable other restoring
    obtain ⟨-, message, t, restored⟩ := (raisesAt_restoring_iff surveyed released held).mp restoring
    exact restorable other message t restored

lemma register_of_kept_out :
    (fault.isRefusal = false → r.register c k s = .error fault w)
      ∧ (fault.isRefusal = true → ∀ t,
        (holdAll r.registry displaced w = .ok () t → r.register c k s = .error fault t)
          ∧ ∀ other, holdAll r.registry displaced w = .error other t →
            r.register c k s = .error other t) := by
  have run := (exchange_of_released (k := k) released).trans (tryCatch_of_error held _)
  have later := (register_of_survey_ok surveyed).2
  refine ⟨fun passed => later fault w ?_, fun refusal t => ⟨fun ok => later fault t ?_, ?_⟩⟩
  · rw [run, restore, if_neg (by simp [passed])]
    rfl
  · exact run.trans ((restore_of_refusal refusal).1 t ok)
  · exact fun other failed =>
      later other t (run.trans ((restore_of_refusal refusal).2 other t failed))

/-- When the new collector is kept out, putting the rivals back is stopped by nothing but a
supplier. -/
lemma restored_until (recorded : s.Recorded r.registry) :
    let names := fun j => (s.collector j).claims (s.registry r.registry).describes
    ∃ back lost, displaced = back ++ lost
      ∧ Registry.PutBack names back (w.registry r.registry)
        ((endOf (holdAll r.registry displaced w)).registry r.registry)
      ∧ ((∃ t, holdAll r.registry displaced w = .ok () t ∧ lost = [])
        ∨ ∃ alarm message t, holdAll r.registry displaced w = .error (.raised alarm message) t
          ∧ lost ≠ []) := by
  intro names
  obtain ⟨parted, -, nameable⟩ := surveyed_ok surveyed
  cases parted
  obtain ⟨distinct, was, apart, out⟩ := out_of_released recorded surveyed released
  have frame : Rearranged r.registry s w :=
    IsTrans.trans _ _ _ ((survey_moves r c k).of_ok surveyed).rearranged <|
      IsTrans.trans _ _ _ ((Moves.forM (release_moves r.registry) _).of_ok released)
        ((hold_moves r.registry k).of_error held)
  have same : w.registry r.registry = v.registry r.registry := by
    rw [quiet_of_hold_error held]
    rfl
  rw [← same] at out
  apply holdAll_restores_until
  · intro some_displaced
    obtain ⟨j, hj⟩ := List.exists_mem_of_ne_nil _ some_displaced
    rw [frame.room]
    exact room_of_held (was j hj)
  · intro j hj
    rw [frame.collector]
    exact nameable j hj
  · intro j _
    rw [frame.collector, out.describes]
  · exact distinct
  · exact apart
  · intro name hname
    rw [out.owners, if_pos hname]

/-- When the new collector is kept out, the rivals are put back if a value was refused. -/
lemma interrupted_of_kept_out (recorded : s.Recorded r.registry)
    (alarmed : s.Alarmed (endOf (r.register c k s))) :
    ∃ other t lost, Interrupted r c k s other t lost := by
  obtain ⟨parted, -, -⟩ := surveyed_ok surveyed
  cases parted
  obtain ⟨distinct, was, apart, out⟩ := out_of_released recorded surveyed released
  have mends := mends_iff surveyed released held
  have register := register_of_kept_out surveyed released held
  have same : w.registry r.registry = v.registry r.registry := by
    rw [quiet_of_hold_error held]
    rfl
  rw [← same] at out
  have heeding := attempt_heeds r c k
  have trial : r.attempt c k s = .error fault w :=
    (bind_of_ok surveyed _).trans ((bind_of_ok released _).trans held)
  cases refusal : fault.isRefusal with
  | false =>
    have failed := register.1 refusal
    rw [failed] at alarmed
    obtain ⟨alarm, message, rfl⟩ := heeding.raised_of_error trial alarmed
    refine ⟨_, w, r.rivals s c k, failed, ⟨alarm, message, rfl⟩, List.suffix_refl _, ?_, out.lacks⟩
    rw [mends]
    constructor
    · exact fun none_displaced => ⟨alarm, message, rfl, Or.inl none_displaced⟩
    · rintro ⟨alarm', message', ⟨⟩, none_displaced | ⟨refused, -⟩⟩
      · exact none_displaced
      · rw [Fault.isRefusal_raised, refused] at refusal
        cases refusal
  | true =>
    obtain ⟨back, lost, parts, put, outcome⟩ := restored_until surveyed released held recorded
    have lacks := put.lacks parts distinct was apart out
    have last : lost <:+ r.rivals s c k := ⟨back, parts.symm⟩
    rcases outcome with ⟨t, restored, rfl⟩ | ⟨alarm, message, t, unrestored, some_lost⟩
    · have failed := (register.2 refusal t).1 restored
      rw [failed] at alarmed
      rw [restored] at lacks
      have restoring := Heeds.forM (hold_heeds r.registry) (r.rivals s c k)
      have early := (alarmed.split (heeding.follows.of_error trial)
        (restoring.follows.of_ok restored)).resolve_right (restoring.not_alarmed_of_ok restored)
      obtain ⟨alarm, message, rfl⟩ := heeding.raised_of_error trial early
      refine ⟨_, t, [], failed, ⟨alarm, message, rfl⟩, last, iff_of_true rfl ?_, lacks⟩
      rw [Fault.isRefusal_raised] at refusal
      refine mends.mpr ⟨alarm, message, rfl, Or.inr ⟨refusal, ?_⟩⟩
      intro other text t' unrestored
      rw [restored] at unrestored
      cases unrestored
    · have failed := (register.2 refusal t).2 _ unrestored
      rw [unrestored] at lacks
      refine ⟨_, t, lost, failed, ⟨alarm, message, rfl⟩, last, iff_of_false some_lost ?_, lacks⟩
      rw [mends]
      rintro ⟨-, -, -, none_displaced | ⟨-, restorable⟩⟩
      · rw [none_displaced] at last
        exact some_lost (List.suffix_nil.mp last)
      · exact restorable alarm message t unrestored

end KeptOut

/-- Whenever a supplier raises during a registration, the registration is interrupted. -/
lemma interrupted_of_alarmed (recorded : s.Recorded r.registry)
    (alarmed : s.Alarmed (endOf (r.register c k s))) :
    ∃ fault t lost, Interrupted r c k s fault t lost := by
  have surveying := survey_heeds r c k
  cases surveyed : r.survey c k s with
  | error fault t =>
    rw [register_of_survey_error surveyed] at alarmed
    exact ⟨fault, t, [], interrupted_surveying surveyed alarmed⟩
  | ok parts u =>
    obtain ⟨displaced, kept⟩ := parts
    obtain ⟨through, stopped⟩ := register_of_survey_ok surveyed
    cases released : releaseAll r.registry displaced u with
    | error fault t =>
      rw [stopped fault t (bind_of_error released _)] at alarmed
      have quiet := (Moves.forM (release_unasked r.registry) displaced).of_error released
      have releasing := Heeds.forM (release_heeds r.registry) displaced
      rcases alarmed.split (surveying.follows.of_ok surveyed)
        (releasing.follows.of_error released) with early | late
      · exact absurd early (surveying.not_alarmed_of_ok surveyed)
      · exact absurd late quiet.not_alarmed
    | ok x v =>
      cases held : hold r.registry k v with
      | error fault w => exact interrupted_of_kept_out surveyed released held recorded alarmed
      | ok y t =>
        obtain ⟨t', registered, same⟩ := through t
          ((exchange_of_released released).trans (tryCatch_of_ok held _))
        have trial : r.attempt c k s = .ok y t :=
          (bind_of_ok surveyed _).trans ((bind_of_ok released _).trans held)
        rw [registered, endOf, Alarmed, same] at alarmed
        exact absurd alarmed ((attempt_heeds r c k).not_alarmed_of_ok trial)

end Interrupted

end Roster

end Metering
