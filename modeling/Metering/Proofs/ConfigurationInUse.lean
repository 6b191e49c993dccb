import Metering.Proofs.Consultations

/-!
# Which settings are in use

The configuration is asked for at any time and in whatever environment there happens to be. What has
been asked so far (`consultations`) decides what is in use: the settings of the environment in which
a snapshot was last taken (`InUse`). A snapshot that could not be taken counts for nothing.
-/

namespace Metering.Scenario

namespace Consultation

/-- The environment has settings that can be read. -/
def Readable (c : Consultation) : Prop :=
  ∃ settings, Settings.ofEnvironment c.environment = .ok settings

/-- A snapshot is to be taken: a new one is wanted, or none could be taken so far. -/
def Builds (earlier : List Consultation) (c : Consultation) : Prop :=
  c.refresh = true ∨ ∀ b ∈ earlier, ¬ b.Readable

/-- A snapshot is taken. -/
def Takes (earlier : List Consultation) (c : Consultation) : Prop :=
  c.Builds earlier ∧ c.Readable

/-- A snapshot can be given, a new one or the one in use. -/
def Answered (earlier : List Consultation) (c : Consultation) : Prop :=
  c.Builds earlier → c.Readable

end Consultation

variable {past : List Consultation} {c : Consultation}
  {P : List Consultation → Consultation → Prop} {w w' : Workspace} {step : Step}

/-- None of the later consultations takes a snapshot. -/
def NoneTaken (past later : List Consultation) : Prop :=
  ∀ front c back, later = front ++ c :: back → ¬ c.Takes (past ++ front)

/-- One of the consultations is as described, and no snapshot has been taken since. -/
def Lately (P : List Consultation → Consultation → Prop) (past : List Consultation) : Prop :=
  ∃ earlier c later, past = earlier ++ c :: later ∧ P earlier c ∧ NoneTaken (earlier ++ [c]) later

/-- The settings are those of the environment in which the last snapshot was taken. -/
def InUse (settings : Settings) (past : List Consultation) : Prop :=
  Lately (fun earlier c => c.Builds earlier
    ∧ Settings.ofEnvironment c.environment = .ok settings) past

/-- The last snapshot that was taken has been handed to a call. -/
def Handed (past : List Consultation) : Prop :=
  Lately (fun earlier c => c.byCall = true ∧ c.Answered earlier) past

lemma noneTaken_of_unreadable {later : List Consultation} (h : ∀ c ∈ later, ¬ c.Readable) :
    NoneTaken past later := by
  rintro front c back rfl takes
  exact h c (by simp) takes.2

lemma noneTaken_nil : NoneTaken past [] :=
  noneTaken_of_unreadable fun _ h => absurd h List.not_mem_nil

lemma noneTaken_snoc {later : List Consultation} :
    NoneTaken past (later ++ [c]) ↔ NoneTaken past later ∧ ¬ c.Takes (past ++ later) := by
  constructor
  · intro idle
    refine ⟨fun front b back split => idle front b (back ++ [c]) (by simp [split]), ?_⟩
    exact idle later c [] rfl
  · rintro ⟨idle, last⟩ front b back split
    rcases split_snoc split with ⟨rfl, rfl, -⟩ | ⟨back, -, inner⟩
    · exact last
    · exact idle front b back inner

lemma noneTaken_append {later more : List Consultation} :
    NoneTaken past (later ++ more) ↔ NoneTaken past later ∧ NoneTaken (past ++ later) more := by
  induction more using List.reverseRecOn with
  | nil =>
    rw [List.append_nil]
    exact (and_iff_left noneTaken_nil).symm
  | append_singleton more c ih =>
    rw [← List.append_assoc, noneTaken_snoc, ih, noneTaken_snoc, List.append_assoc, and_assoc]

/-- What has been so lately either is so now or was so before, and then nothing is taken now. -/
lemma lately_snoc : Lately P (past ++ [c]) ↔ P past c ∨ ¬ c.Takes past ∧ Lately P past := by
  constructor
  · rintro ⟨earlier, b, later, split, holds, idle⟩
    rcases split_snoc split with ⟨rfl, rfl, -⟩ | ⟨later, rfl, rfl⟩
    · exact Or.inl holds
    · obtain ⟨idle, now⟩ := noneTaken_snoc.mp idle
      rw [List.append_assoc, List.singleton_append] at now
      exact Or.inr ⟨now, earlier, b, later, rfl, holds, idle⟩
  · rintro (holds | ⟨now, earlier, b, later, rfl, holds, idle⟩)
    · exact ⟨past, c, [], rfl, holds, noneTaken_nil⟩
    · refine ⟨earlier, b, later ++ [c], by simp, holds, noneTaken_snoc.mpr ⟨idle, ?_⟩⟩
      rw [List.append_assoc, List.singleton_append]
      exact now

lemma inUse_snoc {settings : Settings} : InUse settings (past ++ [c])
    ↔ (c.Builds past ∧ Settings.ofEnvironment c.environment = .ok settings)
      ∨ ¬ c.Takes past ∧ InUse settings past := lately_snoc

lemma handed_snoc : Handed (past ++ [c])
    ↔ (c.byCall = true ∧ c.Answered past) ∨ ¬ c.Takes past ∧ Handed past := lately_snoc

/-- The consultations that steps make from a state on. -/
def consultations (w : Workspace) : List Step → List Consultation
  | [] => []
  | step :: steps => (step.consultation? w).toList ++ consultations (advanceBy w step).2 steps

/-- The environment after steps: the one that was set last. -/
def lastEnvironment (steps : List Step) : Environment :=
  steps.foldl Step.environmentAfter {}

section Histories

variable (w : Workspace) (steps : List Step) (step : Step)

lemma runFrom_snoc :
    (runFrom w (steps ++ [step])).2 = (advanceBy (runFrom w steps).2 step).2 := by
  rw [runFrom_append]
  rfl

lemma consultations_snoc : consultations w (steps ++ [step])
    = consultations w steps ++ (step.consultation? (runFrom w steps).2).toList := by
  induction steps generalizing w with
  | nil => simp [consultations, runFrom]
  | cons first steps ih => simp [consultations, runFrom, ih]

lemma lastEnvironment_snoc :
    lastEnvironment (steps ++ [step]) = step.environmentAfter (lastEnvironment steps) := by
  rw [lastEnvironment, List.foldl_append]
  rfl

end Histories

/-- The configuration is what has been asked for so far. -/
structure Reflects (past : List Consultation) (w : Workspace) : Prop where
  absent : w.configuration.snapshot = none ↔ ∀ c ∈ past, ¬ c.Readable
  current : ∀ snapshot, w.configuration.snapshot = some snapshot →
    InUse snapshot.settings past ∧ snapshot.serial < w.configuration.taken
      ∧ (w.shown = some snapshot.serial ↔ Handed past)
  shown : ∀ n, w.shown = some n → n < w.configuration.taken

namespace Reflects

lemma start : Reflects [] {} where
  absent := iff_of_true rfl fun _ h => absurd h List.not_mem_nil
  current _ h := by cases h
  shown _ h := by cases h

lemma builds_iff (h : Reflects past w) :
    c.Builds past ↔ c.refresh = true ∨ w.configuration.snapshot = none :=
  or_congr_right h.absent.symm

/-- Asking gives the snapshot in use, or takes a new one, or fails and changes nothing. -/
lemma asking (h : Reflects past w) (found : c.environment = w.configuration.environment) :
    (¬ c.Builds past ∧ ∃ old, w.configuration.snapshot = some old
      ∧ Configuration.current c.refresh w.configuration = .ok old w.configuration)
    ∨ (c.Builds past ∧ ∃ settings, Settings.ofEnvironment c.environment = .ok settings
      ∧ Configuration.current c.refresh w.configuration
        = .ok ⟨settings, w.configuration.taken⟩ { w.configuration with
            snapshot := some ⟨settings, w.configuration.taken⟩
            taken := w.configuration.taken + 1 })
    ∨ (c.Builds past ∧ ¬ c.Readable
      ∧ ∃ fault, Settings.ofEnvironment c.environment = .error fault
        ∧ Configuration.current c.refresh w.configuration = .error fault w.configuration) := by
  by_cases builds : c.Builds past
  · have wanted := h.builds_iff.mp builds
    cases read : Settings.ofEnvironment c.environment with
    | ok settings =>
      have accepted := found ▸ read
      exact Or.inr (Or.inl ⟨builds, settings, rfl,
        Configuration.current_of_accepted wanted accepted⟩)
    | error fault =>
      have refused := found ▸ read
      have unreadable : ¬ c.Readable := by
        rintro ⟨settings, accepted⟩
        rw [read] at accepted
        cases accepted
      exact Or.inr (Or.inr ⟨builds, unreadable, fault, rfl,
        Configuration.current_of_refused wanted refused⟩)
  · obtain ⟨stale, there⟩ := not_or.mp (mt h.builds_iff.mpr builds)
    obtain ⟨old, taken⟩ := Option.ne_none_iff_exists'.mp there
    rw [Bool.not_eq_true] at stale
    refine Or.inl ⟨builds, old, taken, ?_⟩
    rw [stale]
    exact Configuration.current_of_snapshot taken

/-- The snapshot in use is given again. -/
lemma given (h : Reflects past w) (idle : ¬ c.Builds past) {old : Snapshot}
    (inUse : w.configuration.snapshot = some old) (same : w'.configuration = w.configuration)
    (shown : w'.shown = if c.byCall then some old.serial else w.shown) :
    Reflects (past ++ [c]) w' := by
  obtain ⟨used, low, handed⟩ := h.current old inUse
  have untaken : ¬ c.Takes past := fun takes => idle takes.1
  have answered : c.Answered past := fun builds => absurd builds idle
  refine ⟨?_, ?_, ?_⟩
  · rw [same, inUse]
    refine iff_of_false (by simp) fun unreadable => idle (Or.inr fun b hb => ?_)
    exact unreadable b (List.mem_append_left _ hb)
  · intro snapshot now
    rw [same, inUse] at now
    cases now
    rw [same, shown, handed_snoc]
    refine ⟨inUse_snoc.mpr (Or.inr ⟨untaken, used⟩), low, ?_⟩
    cases c.byCall with
    | true => exact iff_of_true rfl (Or.inl ⟨rfl, answered⟩)
    | false => simpa [untaken] using handed
  · intro n now
    rw [shown] at now
    rw [same]
    split at now
    · cases now
      exact low
    · exact h.shown n now

/-- A new snapshot is taken. No other one has its serial. -/
lemma took (h : Reflects past w) (builds : c.Builds past) {settings : Settings}
    (read : Settings.ofEnvironment c.environment = .ok settings)
    (new : w'.configuration = { w.configuration with
      snapshot := some ⟨settings, w.configuration.taken⟩
      taken := w.configuration.taken + 1 })
    (shown : w'.shown = if c.byCall then some w.configuration.taken else w.shown) :
    Reflects (past ++ [c]) w' := by
  have takes : c.Takes past := ⟨builds, settings, read⟩
  refine ⟨?_, ?_, ?_⟩
  · rw [new]
    exact iff_of_false (by simp) fun unreadable => unreadable c (by simp) takes.2
  · intro snapshot now
    rw [new] at now
    cases now
    rw [new, shown, handed_snoc]
    refine ⟨inUse_snoc.mpr (Or.inl ⟨builds, read⟩), Nat.lt_succ_self _, ?_⟩
    cases c.byCall with
    | true => exact iff_of_true rfl (Or.inl ⟨rfl, fun _ => takes.2⟩)
    | false =>
      refine iff_of_false (fun same => ?_) (by simp [takes])
      exact absurd (h.shown _ same) (Nat.lt_irrefl _)
  · intro n now
    rw [shown] at now
    rw [new]
    split at now
    · cases now
      exact Nat.lt_succ_self _
    · exact Nat.lt_succ_of_lt (h.shown n now)

/-- A snapshot that cannot be taken leaves everything as it is. -/
lemma refused (h : Reflects past w) (builds : c.Builds past) (unreadable : ¬ c.Readable)
    (same : w'.configuration = w.configuration) (shown : w'.shown = w.shown) :
    Reflects (past ++ [c]) w' := by
  have untaken : ¬ c.Takes past := fun takes => unreadable takes.2
  have unanswered : ¬ c.Answered past := fun answered => unreadable (answered builds)
  refine ⟨?_, ?_, ?_⟩
  · rw [same, h.absent]
    simp [unreadable, or_imp, forall_and]
  · intro snapshot now
    rw [same] at now
    obtain ⟨used, low, handed⟩ := h.current snapshot now
    rw [same, shown, handed, handed_snoc]
    refine ⟨inUse_snoc.mpr (Or.inr ⟨untaken, used⟩), low, ?_⟩
    simp [untaken, unanswered]
  · intro n now
    rw [shown] at now
    rw [same]
    exact h.shown n now

lemma asked (h : Reflects past w) (found : c.environment = w.configuration.environment)
    (asked : Asked c w w') : Reflects (past ++ [c]) w' := by
  obtain ⟨configuration, shown⟩ := asked
  rcases h.asking found with ⟨idle, old, inUse, run⟩ | ⟨builds, settings, read, run⟩
    | ⟨builds, unreadable, fault, -, run⟩
  · rw [run] at configuration shown
    exact h.given idle inUse configuration shown
  · rw [run] at configuration shown
    exact h.took builds read configuration shown
  · rw [run] at configuration shown
    exact h.refused builds unreadable configuration shown

lemma advance (h : Reflects past w) (step : Step) :
    Reflects (past ++ (step.consultation? w).toList) (advanceBy w step).2 := by
  cases asks : step.consultation? w with
  | none =>
    obtain ⟨same, shown⟩ := unasked asks
    rw [Option.toList_none, List.append_nil]
    exact ⟨by rw [same]; exact h.absent, by rw [same, shown]; exact h.current,
      by rw [same, shown]; exact h.shown⟩
  | some c => exact h.asked (environment_of_consultation asks) (asked_of_consultation asks)

/-- A step leaves the snapshot in use, unless it takes one, which then is newer. -/
lemma inUse_advance (h : Reflects past w) {old : Snapshot}
    (inUse : w.configuration.snapshot = some old) (step : Step) :
    let later := (step.consultation? w).toList
    let w' := (advanceBy w step).2
    (NoneTaken past later ∧ w'.configuration.snapshot = some old)
      ∨ ¬ NoneTaken past later
        ∧ ∃ new, w'.configuration.snapshot = some new ∧ old.serial < new.serial := by
  intro later w'
  cases asks : step.consultation? w with
  | none =>
    refine Or.inl ⟨by simpa [later, asks] using noneTaken_nil, ?_⟩
    rw [(unasked asks).1]
    exact inUse
  | some c =>
    have only : NoneTaken past later ↔ ¬ c.Takes past := by
      have one : later = [] ++ [c] := by simp [later, asks]
      rw [one, noneTaken_snoc, List.append_nil]
      exact and_iff_right noneTaken_nil
    have configuration := (asked_of_consultation asks).configuration
    rcases h.asking (environment_of_consultation asks) with ⟨kept, _, -, run⟩
      | ⟨builds, settings, read, run⟩ | ⟨builds, unreadable, fault, -, run⟩
    · rw [run] at configuration
      refine Or.inl ⟨only.mpr fun takes => kept takes.1, ?_⟩
      exact (congrArg Configuration.snapshot configuration).trans inUse
    · rw [run] at configuration
      refine Or.inr ⟨mt only.mp (not_not_intro ⟨builds, settings, read⟩), _,
        congrArg Configuration.snapshot configuration, ?_⟩
      exact (h.current old inUse).2.1
    · rw [run] at configuration
      refine Or.inl ⟨only.mpr fun takes => unreadable takes.2, ?_⟩
      exact (congrArg Configuration.snapshot configuration).trans inUse

lemma run (h : Reflects past w) (steps : List Step) :
    Reflects (past ++ consultations w steps) (runFrom w steps).2 := by
  induction steps using List.reverseRecOn with
  | nil => simpa [consultations, runFrom] using h
  | append_singleton steps step ih =>
    rw [runFrom_snoc, consultations_snoc, ← List.append_assoc]
    exact ih.advance step

/-- A snapshot that is in use stays in use as long as none is taken, and never comes back after
that. -/
lemma inUse_run (h : Reflects past w) {old : Snapshot}
    (inUse : w.configuration.snapshot = some old) (steps : List Step) :
    let later := consultations w steps
    let w' := (runFrom w steps).2
    (NoneTaken past later ∧ w'.configuration.snapshot = some old)
      ∨ ¬ NoneTaken past later
        ∧ ∃ new, w'.configuration.snapshot = some new ∧ old.serial < new.serial := by
  induction steps using List.reverseRecOn with
  | nil => exact Or.inl ⟨noneTaken_nil, inUse⟩
  | append_singleton steps step ih =>
    intro later w'
    have before := h.run steps
    simp only [later, w', runFrom_snoc, consultations_snoc, noneTaken_append]
    rcases ih with ⟨idle, kept⟩ | ⟨taken, new, found, newer⟩
    · rcases before.inUse_advance kept step with ⟨still, same⟩ | ⟨now, new, found, newer⟩
      · exact Or.inl ⟨⟨idle, still⟩, same⟩
      · exact Or.inr ⟨fun none => now none.2, new, found, newer⟩
    · rcases before.inUse_advance found step with ⟨-, same⟩ | ⟨-, newest, found, still⟩
      · exact Or.inr ⟨fun none => taken none.1, new, same, newer⟩
      · exact Or.inr ⟨fun none => taken none.1, newest, found, Nat.lt_trans newer still⟩

end Reflects

lemma environment_runFrom (steps : List Step) :
    (runFrom {} steps).2.configuration.environment = lastEnvironment steps := by
  induction steps using List.reverseRecOn with
  | nil => rfl
  | append_singleton steps step ih =>
    rw [runFrom_snoc, lastEnvironment_snoc, environment_advanceBy, ih]

namespace Reflects

/-- Whoever can be given a snapshot is given the one of the last environment in which one was taken.
It is the very one that was handed out last if it has been handed out at all. -/
lemma answer (h : Reflects past w) (found : c.environment = w.configuration.environment)
    (answered : c.Answered past) : ∃ snapshot configuration,
      Configuration.current c.refresh w.configuration = .ok snapshot configuration
        ∧ InUse snapshot.settings (past ++ [c])
        ∧ (w.shown = some snapshot.serial ↔ ¬ c.Takes past ∧ Handed past) := by
  rcases h.asking found with ⟨idle, old, inUse, run⟩ | ⟨builds, settings, read, run⟩
    | ⟨builds, unreadable, -⟩
  · have untaken : ¬ c.Takes past := fun takes => idle takes.1
    obtain ⟨used, -, handed⟩ := h.current old inUse
    exact ⟨old, _, run, inUse_snoc.mpr (Or.inr ⟨untaken, used⟩),
      handed.trans (and_iff_right untaken).symm⟩
  · refine ⟨_, _, run, inUse_snoc.mpr (Or.inl ⟨builds, read⟩), iff_of_false ?_ ?_⟩
    · intro same
      exact absurd (h.shown _ same) (Nat.lt_irrefl _)
    · rintro ⟨untaken, -⟩
      exact untaken ⟨builds, settings, read⟩
  · exact absurd (answered builds) unreadable

/-- Whoever needs a new snapshot that cannot be taken is told why, and nothing changes. -/
lemma refusal (h : Reflects past w) (asks : step.consultation? w = some c)
    (unanswered : ¬ c.Answered past) :
    ∃ fault, Settings.ofEnvironment w.configuration.environment = .error fault
      ∧ fault.kind = .configuration ∧ (advanceBy w step).1.result = .error fault
      ∧ (advanceBy w step).2.configuration = w.configuration
      ∧ (advanceBy w step).2.systems = w.systems := by
  have found := environment_of_consultation asks
  have configuration := (asked_of_consultation asks).configuration
  rcases h.asking found with ⟨idle, -⟩ | ⟨-, settings, read, -⟩
    | ⟨-, -, fault, refused, run⟩
  · exact absurd (fun builds => absurd builds idle) unanswered
  · exact absurd (fun _ => ⟨settings, read⟩) unanswered
  · rw [run] at configuration
    obtain ⟨told, systems⟩ := result_of_refused asks run
    exact ⟨fault, found ▸ refused, Settings.kind_of_refused refused, told, configuration, systems⟩

end Reflects

/-- After any steps the configuration is the one of the last snapshot that was taken. A snapshot is
taken by whoever asks for a new one, and by whoever asks while there is none. If its environment
cannot be read, the reason is given to whoever asked, and the configuration stays as it was. Calls
are answered with the settings of the last snapshot, and with the very same one as the previous
call that was answered unless one has been taken since; systems without settings of their own are
gated by these settings. The snapshot in use stays in use exactly as long as no other one is taken.
-/
theorem configuration_of_last_snapshot (steps : List Step) :
    let w := (runFrom {} steps).2
    let past := consultations {} steps
    w.configuration.environment = lastEnvironment steps
      ∧ (∀ step c, step.consultation? w = some c →
        (c.Builds past ↔ c.refresh = true ∨ w.configuration.snapshot = none)
          ∧ (¬ c.Builds past → (advanceBy w step).2.configuration = w.configuration)
          ∧ (c.Takes past →
            ∃ settings, Settings.ofEnvironment w.configuration.environment = .ok settings
              ∧ (advanceBy w step).2.configuration = { w.configuration with
                  snapshot := some ⟨settings, w.configuration.taken⟩
                  taken := w.configuration.taken + 1 })
          ∧ (¬ c.Answered past →
            ∃ fault, Settings.ofEnvironment w.configuration.environment = .error fault
              ∧ fault.kind = .configuration ∧ (advanceBy w step).1.result = .error fault
              ∧ (advanceBy w step).2.configuration = w.configuration
              ∧ (advanceBy w step).2.systems = w.systems))
      ∧ (∀ refresh, let c : Consultation := ⟨true, refresh, w.configuration.environment⟩
        c.Answered past → ∃ settings same,
          (advanceBy w (.configuration refresh)).1.result = .ok (.configuration settings same)
            ∧ InUse settings (past ++ [c]) ∧ (same = true ↔ ¬ c.Takes past ∧ Handed past))
      ∧ (∀ id categories registry init c,
        let step : Step := .system id (.fromSettings categories none registry init)
        step.consultation? w = some c → c.Answered past → ∃ s settings,
          (advanceBy w step).2.systems = w.systems ++ [s] ∧ InUse settings (past ++ [c])
            ∧ s.enabled = (Gating.resolve (categories ++ Category.standard) settings).1
            ∧ s.timers = settings.timers)
      ∧ ∀ old, w.configuration.snapshot = some old → ∀ more,
        (runFrom w more).2.configuration.snapshot = some old
          ↔ NoneTaken past (consultations w more) := by
  intro w past
  have reflects : Reflects past w := by simpa [past, w] using Reflects.start.run steps
  refine ⟨environment_runFrom steps, ?_, ?_, ?_, ?_⟩
  · intro step c asks
    have found := environment_of_consultation asks
    refine ⟨reflects.builds_iff, ?_, ?_, reflects.refusal asks⟩
    · intro idle
      rw [(asked_of_consultation asks).configuration]
      rcases reflects.asking found with ⟨-, old, -, run⟩ | ⟨builds, -⟩ | ⟨builds, -⟩
      · rw [run]
        rfl
      · exact absurd builds idle
      · exact absurd builds idle
    · intro takes
      rw [(asked_of_consultation asks).configuration]
      rcases reflects.asking found with ⟨idle, -⟩ | ⟨-, settings, read, run⟩ | ⟨-, unreadable, -⟩
      · exact absurd takes.1 idle
      · rw [run]
        exact ⟨settings, found ▸ read, rfl⟩
      · exact absurd takes.2 unreadable
  · intro refresh c answered
    obtain ⟨snapshot, configuration, run, used, same⟩ := reflects.answer rfl answered
    refine ⟨snapshot.settings, _, result_of_given run, used, ?_⟩
    rw [← same]
    exact beq_iff_eq
  · intro id categories registry init c step asks answered
    obtain ⟨snapshot, configuration, run, used, -⟩ :=
      reflects.answer (environment_of_consultation asks) answered
    have made := asks
    simp only [step, Step.consultation?] at made
    split at made
    · next known =>
      cases made
      obtain ⟨-, -, s, systems, enabled, timers⟩ := makeSystem_given known run id categories init
      refine ⟨s, snapshot.settings, ?_, used, enabled, timers⟩
      rw [advanceBy_snd, endOf_perform_system]
      exact systems
    · cases made
  · intro old inUse more
    rcases reflects.inUse_run inUse more with ⟨idle, kept⟩ | ⟨taken, new, found, newer⟩
    · exact iff_of_true kept idle
    · refine iff_of_false (fun kept => ?_) taken
      rw [found] at kept
      cases kept
      exact absurd newer (Nat.lt_irrefl _)

/-- A snapshot is taken, and then one in an environment that cannot be read. -/
def refusedOnce : List Step :=
  [.environment { enabled := some "no" }, .configuration false,
   .environment { enabled := some "maybe" }, .configuration true]

theorem configuration_of_last_snapshot_refused :
    let w := (runFrom {} refusedOnce).2
    let launching : Step := .system "s" (.fromSettings [] none none true)
    w.configuration.environment = { enabled := some "maybe" }
      ∧ (∃ fault, (advanceBy w (.configuration true)).1.result = .error fault
        ∧ fault.kind = .configuration
        ∧ (advanceBy w (.configuration true)).2.configuration = w.configuration)
      ∧ ∃ settings, Settings.ofEnvironment { enabled := some "no" } = .ok settings
        ∧ (∃ used, (advanceBy w (.configuration false)).1.result
            = .ok (.configuration used true))
        ∧ (∃ s, (advanceBy w launching).2.systems = w.systems ++ [s])
        ∧ (runFrom w [launching, .configuration true]).2.configuration.snapshot
          = some ⟨settings, 0⟩ := by
  let off : Environment := { enabled := some "no" }
  let odd : Environment := { enabled := some "maybe" }
  have past : consultations {} refusedOnce = [⟨true, false, off⟩, ⟨true, true, odd⟩] := rfl
  have readable : Consultation.Readable ⟨true, false, off⟩ := ⟨_, rfl⟩
  have unreadable : ∀ {byCall refresh}, ¬ Consultation.Readable ⟨byCall, refresh, odd⟩ := by
    rintro byCall refresh ⟨settings, accepted⟩
    cases accepted
  have idle : ∀ {byCall}, ¬ Consultation.Builds (consultations {} refusedOnce)
      ⟨byCall, false, odd⟩ := by
    rintro byCall (wanted | missing)
    · cases wanted
    · exact missing ⟨true, false, off⟩ (by simp [past]) readable
  obtain ⟨environment, asking, calls, launches, lasts⟩ :=
    configuration_of_last_snapshot refusedOnce
  obtain ⟨-, -, -, refused⟩ := asking (.configuration true) ⟨true, true, odd⟩ rfl
  obtain ⟨fault, -, kind, told, same, -⟩ :=
    refused fun answered => unreadable (answered (Or.inl rfl))
  obtain ⟨used, flag, replied, -, very⟩ := calls false fun builds => absurd builds idle
  have handed : Handed (consultations {} refusedOnce) := by
    refine ⟨[], ⟨true, false, off⟩, [⟨true, true, odd⟩], past, ⟨rfl, fun _ => readable⟩, ?_⟩
    exact noneTaken_of_unreadable (by simp [unreadable])
  obtain rfl : flag = true := very.mpr ⟨fun takes => idle takes.1, handed⟩
  obtain ⟨s, -, systems, -⟩ := launches "s" [] none true ⟨false, false, odd⟩ rfl
    fun builds => absurd builds idle
  have later : consultations (runFrom {} refusedOnce).2
      [.system "s" (.fromSettings [] none none true), .configuration true]
        = [⟨false, false, odd⟩, ⟨true, true, odd⟩] := rfl
  refine ⟨environment, ⟨fault, told, kind, same⟩, _, rfl, ⟨used, replied⟩, ⟨s, systems⟩, ?_⟩
  refine (lasts _ rfl _).mpr ?_
  rw [later]
  exact noneTaken_of_unreadable (by simp [unreadable])

end Metering.Scenario
