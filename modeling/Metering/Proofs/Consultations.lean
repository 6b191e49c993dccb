import Metering.Proofs.CallComposition
import Metering.Proofs.LaunchFromEnvironment

/-!
# Asking for the configuration

The configuration is asked for by calls and by systems that are made without settings of their own.
What such a step does to the configuration is what asking does (`asked_of_consultation`); all other
steps leave it alone, apart from the environment (`unasked`).
-/

namespace Metering

/-- The same categories are enabled, and timers record as before. -/
structure Deployment.SameGates (d e : Deployment) : Prop where
  enabled : e.system.enabled = d.system.enabled
  timers : e.system.timers = d.system.timers

instance : IsPreorder Deployment Deployment.SameGates where
  refl _ := ⟨rfl, rfl⟩
  trans _ _ _ hde hef := ⟨hef.enabled.trans hde.enabled, hef.timers.trans hde.timers⟩

lemma Deployment.sameGates_builds : Builds SameGates where
  noted _ _ _ _ := ⟨rfl, rfl⟩
  reported _ _ _ := ⟨rfl, rfl⟩
  issued _ _ _ := ⟨rfl, rfl⟩
  remembered _ _ := ⟨rfl, rfl⟩
  kept _ kind _ _ := by cases kind <;> exact ⟨rfl, rfl⟩
  enrolled c y _ := by
    intro d
    rcases System.endOf_enroll c y d with ⟨roster, t, -, ends⟩ | ⟨fault, t, -, ends⟩
    · rw [ends]
      exact ⟨rfl, rfl⟩
    · rw [ends]
      exact ⟨rfl, rfl⟩

lemma Settings.kind_of_readFlag {name : String} {given : Option String} {fault : Fault}
    (failed : readFlag name given = .error fault) : fault.kind = .configuration := by
  cases given with
  | none => cases failed
  | some given =>
    simp only [readFlag] at failed
    split at failed
    · cases failed
    · split at failed
      · cases failed
      · split at failed
        · cases failed
        · cases failed
          rfl

lemma Settings.kind_of_refused {env : Environment} {fault : Fault}
    (refused : Settings.ofEnvironment env = .error fault) : fault.kind = .configuration := by
  rw [ofEnvironment] at refused
  split at refused
  · next failed =>
    cases refused
    exact kind_of_readFlag failed
  · split at refused
    · next failed =>
      cases refused
      exact kind_of_readFlag failed
    · cases refused

namespace Configuration

variable {s : Configuration} {refresh : Bool} {settings : Settings} {fault : Fault}

lemma current_of_wanted (wanted : refresh = true ∨ s.snapshot = none) :
    current refresh s = takeSnapshot s := by
  rcases wanted with rfl | missing
  · simp [current]
  · simp [current, missing]

lemma current_of_accepted (wanted : refresh = true ∨ s.snapshot = none)
    (accepted : Settings.ofEnvironment s.environment = .ok settings) :
    current refresh s = .ok ⟨settings, s.taken⟩
      { s with snapshot := some ⟨settings, s.taken⟩, taken := s.taken + 1 } := by
  rw [current_of_wanted wanted, takeSnapshot, accepted]

lemma current_of_refused (wanted : refresh = true ∨ s.snapshot = none)
    (refused : Settings.ofEnvironment s.environment = .error fault) :
    current refresh s = .error fault s := by
  rw [current_of_wanted wanted, takeSnapshot, refused]

lemma environment_current (refresh : Bool) (s : Configuration) :
    (endOf (current refresh s)).environment = s.environment := by
  rw [current.eq_def]
  split
  · rfl
  · rw [takeSnapshot]
    split <;> rfl

end Configuration

namespace Scenario

open Session Workspace

/-- The configuration is asked for: by a call, which is handed it, or for a system; for a new
snapshot, or for any; in some environment. -/
structure Consultation where
  byCall : Bool
  refresh : Bool
  environment : Environment

variable {c : Consultation} {w w' : Workspace} {step : Step}

/-- The consultation that a step makes in a state. A system on a registry that nobody knows is given
up before. -/
def Step.consultation? (w : Workspace) : Step → Option Consultation
  | .configuration refresh => some ⟨true, refresh, w.configuration.environment⟩
  | .system _ (.fromSettings _ none place _) =>
    if ∀ name ∈ place, name ∈ w.bound.registries then
      some ⟨false, false, w.configuration.environment⟩
    else none
  | _ => none

lemma environment_of_consultation (asks : step.consultation? w = some c) :
    c.environment = w.configuration.environment := by
  rw [Step.consultation?.eq_def] at asks
  split at asks
  · cases asks
    rfl
  · split at asks
    · cases asks
      rfl
    · cases asks
  · cases asks

/-- The environment after a step. -/
def Step.environmentAfter (env : Environment) : Step → Environment
  | .environment new => new
  | _ => env

/-- What a step that asks leaves of the configuration. -/
structure Asked (c : Consultation) (w w' : Workspace) : Prop where
  configuration : w'.configuration = endOf (Configuration.current c.refresh w.configuration)
  shown : w'.shown = match Configuration.current c.refresh w.configuration with
    | .ok snapshot _ => if c.byCall then some snapshot.serial else w.shown
    | .error .. => w.shown

/-- The configuration is as it was, and so is what was shown of it. -/
structure Workspace.SameConfiguration (w w' : Workspace) : Prop where
  configuration : w'.configuration = w.configuration
  shown : w'.shown = w.shown

instance : IsPreorder Workspace SameConfiguration where
  refl _ := ⟨rfl, rfl⟩
  trans _ _ _ h h' := ⟨h'.configuration.trans h.configuration, h'.shown.trans h.shown⟩

/-- What is done quietly does not touch the configuration. -/
lemma sameConfiguration_of_quiet {α : Type} {x : Session α} (quiet : Moves Quiet x) :
    Moves SameConfiguration x :=
  quiet.mono fun _ _ h => ⟨h.configuration, h.shown⟩

lemma pullFrom_sameConfiguration (i : StreamId) (n : Nat) :
    Moves SameConfiguration (pullFrom i n) := by
  have set : ∀ opened, Moves SameConfiguration (setStream i opened) :=
    fun opened w => ⟨rfl, rfl⟩
  refine Moves.get.bind fun w => ?_
  split
  · exact Moves.throw _
  · refine ((sameConfiguration_of_quiet (onSystem_quiet _ _)).tryCatch fun fault => ?_).bind
      fun page => ?_
    · exact (set _).bind fun _ => Moves.throw _
    · exact (set _).bind fun _ => Moves.pure _

section Asking

variable {refresh : Bool} {snapshot : Snapshot} {configuration : Configuration} {fault : Fault}
  {registry : Option String}

namespace Session

lemma ofConfiguration_ok
    (given : Configuration.current refresh w.configuration = .ok snapshot configuration) :
    ofConfiguration (Configuration.current refresh) w
      = .ok snapshot { w with configuration := configuration } := by
  simp only [ofConfiguration, given]

lemma ofConfiguration_error
    (refused : Configuration.current refresh w.configuration = .error fault configuration) :
    ofConfiguration (Configuration.current refresh) w
      = .error fault { w with configuration := configuration } := by
  simp only [ofConfiguration, refused]

lemma registryOr_known (known : ∀ name ∈ registry, name ∈ w.bound.registries) :
    ∃ r site, registryOr registry w = .ok r { w with site := site } := by
  cases registry with
  | none => exact ⟨_, _, rfl⟩
  | some name =>
    obtain ⟨r, found⟩ := Option.isSome_iff_exists.mp
      (Option.isSome_iff_ne_none.mpr fun missing =>
        Index.get?_eq_none_iff.mp missing (known name rfl))
    exact ⟨r, w.site, find_ok found⟩

lemma registryOr_unknown {name : String} (unknown : name ∉ w.bound.registries) :
    registryOr (some name) w = .error (.unbound name) w :=
  find_error (Index.get?_eq_none_iff.mpr unknown)

end Session

lemma perform_configuration_ok
    (given : Configuration.current refresh w.configuration = .ok snapshot configuration) :
    perform (.configuration refresh) w
      = .ok (.configuration snapshot.settings (w.shown == some snapshot.serial))
          { w with configuration := configuration, shown := some snapshot.serial } := by
  rw [perform, bind_of_ok (ofConfiguration_ok given)]
  rfl

lemma perform_configuration_error
    (refused : Configuration.current refresh w.configuration = .error fault configuration) :
    perform (.configuration refresh) w
      = .error fault { w with configuration := configuration } := by
  rw [perform, bind_of_error (ofConfiguration_error refused)]

/-- A system that is made from the configuration gets its gates from the snapshot that is given,
also if its built-in collectors cannot be registered. -/
lemma makeSystem_given (known : ∀ name ∈ registry, name ∈ w.bound.registries)
    (given : Configuration.current false w.configuration = .ok snapshot configuration)
    (id : String) (categories : List Category) (init : Bool) :
    let w' := endOf (makeSystem id (.fromSettings categories none registry init) w)
    w'.configuration = configuration ∧ w'.shown = w.shown
      ∧ ∃ s, w'.systems = w.systems ++ [s]
        ∧ s.enabled = (Gating.resolve (categories ++ Category.standard) snapshot.settings).1
        ∧ s.timers = snapshot.settings.timers := by
  intro w'
  obtain ⟨r, site, opened⟩ := registryOr_known known
  let w₁ : Workspace := { w with site := site }
  have read : settingsOr none w₁
      = .ok snapshot.settings { w₁ with configuration := configuration } :=
    bind_of_ok (ofConfiguration_ok (w := w₁) given) _
  let resolved := Gating.resolve (categories ++ Category.standard) snapshot.settings
  let d : Deployment := ⟨System.fresh resolved.1 snapshot.settings.timers r,
    { site with journal := site.journal ++ resolved.2 }⟩
  have made := makeSystem_of_opened opened read (rfl : d = _) init id
  have gates : d.SameGates (endOf (if init then System.init d else .ok () d)) := by
    split
    · exact System.init_moves Deployment.sameGates_builds d
    · exact Std.Refl.refl d
  cases run : (if init then System.init d else .ok () d) with
  | ok x e | error fault e =>
    rw [run] at made gates
    have ends : w' = endOf (makeSystem id (.fromSettings categories none registry init) w) := rfl
    rw [made] at ends
    rw [ends]
    exact ⟨rfl, rfl, e.system, rfl, gates.enabled, gates.timers⟩

lemma makeSystem_refused (known : ∀ name ∈ registry, name ∈ w.bound.registries)
    (refused : Configuration.current false w.configuration = .error fault configuration)
    (id : String) (categories : List Category) (init : Bool) :
    ∃ site, makeSystem id (.fromSettings categories none registry init) w
      = .error fault { w with site := site, configuration := configuration } := by
  obtain ⟨r, site, opened⟩ := registryOr_known known
  let w₁ : Workspace := { w with site := site }
  have failed : settingsOr none w₁
      = .error fault { w₁ with configuration := configuration } :=
    bind_of_error (ofConfiguration_error (w := w₁) refused) _
  exact ⟨site, (bind_of_ok opened _).trans (bind_of_error failed _)⟩

lemma endOf_perform_system (id : String) (plan : SystemPlan) :
    endOf (perform (.system id plan) w) = endOf (makeSystem id plan w) := by
  rw [perform]
  cases run : makeSystem id plan w with
  | ok x w' => rw [bind_of_ok run]; rfl
  | error fault w' => rw [bind_of_error run]; rfl

/-- A step that asks does to the configuration what asking does, and nothing more. -/
lemma asked_of_consultation (asks : step.consultation? w = some c) :
    Asked c w (advanceBy w step).2 := by
  rw [advanceBy_snd]
  cases step with
  | configuration refresh =>
    cases asks
    cases given : Configuration.current refresh w.configuration with
    | ok snapshot configuration =>
      rw [perform_configuration_ok given]
      exact ⟨by simp only [given]; rfl, by simp only [given]; rfl⟩
    | error fault configuration =>
      rw [perform_configuration_error given]
      exact ⟨by simp only [given]; rfl, by simp only [given]; rfl⟩
  | system id plan =>
    cases plan with
    | direct | isolated => cases asks
    | fromSettings categories settings registry init =>
      cases settings with
      | some settings => cases asks
      | none =>
        rw [Step.consultation?] at asks
        split at asks
        · next known =>
          cases asks
          rw [endOf_perform_system]
          cases given : Configuration.current false w.configuration with
          | ok snapshot configuration =>
            obtain ⟨same, shown, -⟩ := makeSystem_given known given id categories init
            exact ⟨by simp only [given]; exact same, by simp only [given]; exact shown⟩
          | error fault configuration =>
            obtain ⟨site, failed⟩ := makeSystem_refused known given id categories init
            rw [failed]
            exact ⟨by simp only [given]; rfl, by simp only [given]; rfl⟩
        · cases asks
  | _ => cases asks

/-- Steps that do not ask leave the configuration as it is, apart from the environment. -/
lemma unasked (asks : step.consultation? w = none) :
    (advanceBy w step).2.configuration = { w.configuration with
        environment := step.environmentAfter w.configuration.environment }
      ∧ (advanceBy w step).2.shown = w.shown := by
  rw [advanceBy_snd]
  by_cases plain : step.Plain
  · have quiet := perform_quiet plain w
    cases step with
    | environment => exact plain.elim
    | _ => exact ⟨quiet.configuration, quiet.shown⟩
  · cases step with
    | pull name n =>
      have pulls : Moves SameConfiguration (perform (.pull name n)) :=
        (sameConfiguration_of_quiet (find_quiet _ name)).bind fun i =>
          (pullFrom_sameConfiguration i n).bind fun _ => Moves.pure _
      exact ⟨(pulls w).configuration, (pulls w).shown⟩
    | environment env => exact ⟨rfl, rfl⟩
    | configuration refresh => cases asks
    | system id plan =>
      cases plan with
      | direct | isolated => exact absurd trivial plain
      | fromSettings categories settings registry init =>
        cases settings with
        | some settings => exact absurd trivial plain
        | none =>
          rw [Step.consultation?] at asks
          split at asks
          · cases asks
          · next unknown =>
            push Not at unknown
            obtain ⟨name, rfl, missing⟩ := unknown
            rw [endOf_perform_system, makeSystem, bind_of_error (registryOr_unknown missing)]
            exact ⟨rfl, rfl⟩
    | _ => exact absurd trivial plain

end Asking

lemma Step.environmentAfter_of_consultation (env : Environment)
    (asks : step.consultation? w = some c) : step.environmentAfter env = env := by
  cases step with
  | environment => cases asks
  | _ => rfl

lemma environment_advanceBy (w : Workspace) (step : Step) :
    (advanceBy w step).2.configuration.environment
      = step.environmentAfter w.configuration.environment := by
  cases asks : step.consultation? w with
  | none => rw [(unasked asks).1]
  | some c =>
    rw [(asked_of_consultation asks).configuration, Configuration.environment_current,
      Step.environmentAfter_of_consultation _ asks]

section Answers

variable {refresh : Bool} {snapshot : Snapshot} {configuration : Configuration} {fault : Fault}

/-- A call is answered with the settings of the snapshot that it is given. -/
lemma result_of_given
    (given : Configuration.current refresh w.configuration = .ok snapshot configuration) :
    (advanceBy w (.configuration refresh)).1.result
      = .ok (.configuration snapshot.settings (w.shown == some snapshot.serial)) := by
  rw [advanceBy, perform_configuration_ok given]

/-- Whoever asks is told why no snapshot can be taken, and no system is made. -/
lemma result_of_refused (asks : step.consultation? w = some c)
    (refused : Configuration.current c.refresh w.configuration = .error fault configuration) :
    (advanceBy w step).1.result = .error fault ∧ (advanceBy w step).2.systems = w.systems := by
  rw [Step.consultation?.eq_def] at asks
  split at asks
  · cases asks
    rw [advanceBy, perform_configuration_error refused]
    exact ⟨rfl, rfl⟩
  · next id categories registry init =>
    split at asks
    · next known =>
      cases asks
      obtain ⟨site, failed⟩ := makeSystem_refused known refused id categories init
      rw [advanceBy, perform, bind_of_error failed]
      exact ⟨rfl, rfl⟩
    · cases asks
  · cases asks

end Answers

end Scenario

end Metering
