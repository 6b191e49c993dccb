import Mathlib.Data.List.Infix
import Metering.Proofs.Moves
import Metering.Scenario.Perform

/-!
# What the steps of a scenario leave alone

Most steps of a scenario neither read on in a stream nor look at the configuration: they go about
their work quietly (`perform_quiet`). Streams stay where they are as long as nobody reads on in
them, and a system is never lost. Only a pull from a stream moves it; all else that can happen in a
scenario, on the same system or elsewhere, spares it (`perform_spares`).
-/

namespace Metering.Scenario

/-- No stream has moved, no system has lost its place, and the configuration is as it was, together
with what was shown of it. -/
structure Workspace.Quiet (w w' : Workspace) : Prop where
  streams : w.streams <+: w'.streams
  systems : w.systems.length ≤ w'.systems.length
  configuration : w'.configuration = w.configuration
  shown : w'.shown = w.shown

instance : IsPreorder Workspace Workspace.Quiet where
  refl _ := ⟨List.prefix_rfl, Nat.le_refl _, rfl, rfl⟩
  trans _ _ _ h h' := ⟨h.streams.trans h'.streams, Nat.le_trans h.systems h'.systems,
    h'.configuration.trans h.configuration, h'.shown.trans h.shown⟩

/-- The stream at a place is as it was, if there is one, and no system has lost its place. -/
structure Workspace.Spares (i : StreamId) (w w' : Workspace) : Prop where
  stream : ∀ opened, w.streams[i.index]? = some opened → w'.streams[i.index]? = some opened
  systems : w.systems.length ≤ w'.systems.length

instance (i : StreamId) : IsPreorder Workspace (Workspace.Spares i) where
  refl _ := ⟨fun _ h => h, Nat.le_refl _⟩
  trans _ _ _ h h' :=
    ⟨fun _ at_place => h'.stream _ (h.stream _ at_place), Nat.le_trans h.systems h'.systems⟩

open Workspace

variable {α β : Type} {i : StreamId}

lemma Workspace.Quiet.spares {w w' : Workspace} (quiet : Quiet w w') : Spares i w w' := by
  refine ⟨fun opened at_place => ?_, quiet.systems⟩
  obtain ⟨more, split⟩ := quiet.streams
  rw [← split, List.getElem?_append_left (List.getElem?_eq_some_iff.mp at_place).1]
  exact at_place

/-- What is done quietly spares every stream. -/
lemma spares_of_quiet {x : Session α} (quiet : Moves Quiet x) : Moves (Spares i) x :=
  quiet.mono fun _ _ => Quiet.spares

lemma modify_quiet {g : Workspace → Workspace}
    (same : ∀ w, (g w).streams = w.streams ∧ (g w).systems = w.systems
      ∧ (g w).configuration = w.configuration ∧ (g w).shown = w.shown) :
    Moves Quiet (modify g : Session Unit) := by
  refine Moves.modify fun w => ?_
  obtain ⟨streams, systems, configuration, shown⟩ := same w
  exact ⟨by rw [streams], by rw [systems], configuration, shown⟩

namespace Session

lemma ofAction_quiet (a : Action α) : Moves Quiet (ofAction a) := by
  intro w
  rw [ofAction]
  split <;> exact ⟨List.prefix_rfl, Nat.le_refl _, rfl, rfl⟩

/-- The configuration has nothing to do with the streams. -/
lemma ofConfiguration_spares (a : EStateM Fault Configuration α) :
    Moves (Spares i) (ofConfiguration a) := by
  intro w
  rw [ofConfiguration]
  split <;> exact ⟨fun _ h => h, Nat.le_refl _⟩

lemma onSystem_ok {n : SystemId} {s : System} {op : Operation α} {w : Workspace} {x : α}
    {d : Deployment} (placed : w.systems[n.index]? = some s) (h : op ⟨s, w.site⟩ = .ok x d) :
    onSystem n op w
      = .ok x { w with site := d.site, systems := w.systems.set n.index d.system } := by
  simp only [onSystem, placed, h]

lemma onSystem_error {n : SystemId} {s : System} {op : Operation α} {w : Workspace}
    {fault : Fault} {d : Deployment} (placed : w.systems[n.index]? = some s)
    (h : op ⟨s, w.site⟩ = .error fault d) :
    onSystem n op w
      = .error fault { w with site := d.site, systems := w.systems.set n.index d.system } := by
  simp only [onSystem, placed, h]

lemma onSystem_quiet (n : SystemId) (op : Operation α) : Moves Quiet (onSystem n op) := by
  intro w
  rw [onSystem]
  split
  · exact Std.Refl.refl w
  · split <;> exact ⟨List.prefix_rfl, Nat.le_of_eq List.length_set.symm, rfl, rfl⟩

lemma find_ok {kind : Bindings → Index String β} {id : String} {x : β} {w : Workspace}
    (h : (kind w.bound).get? id = some x) : find kind id w = .ok x w := by
  rw [find, bind_get, h]
  rfl

lemma find_error {kind : Bindings → Index String β} {id : String} {w : Workspace}
    (h : (kind w.bound).get? id = none) : find kind id w = .error (.unbound id) w := by
  rw [find, bind_get, h]
  rfl

lemma find_quiet (kind : Bindings → Index String β) (id : String) :
    Moves Quiet (find kind id) := by
  refine Moves.get.bind fun w => ?_
  split
  · exact Moves.pure _
  · exact Moves.throw _

lemma assign_quiet (f : Bindings → Bindings) : Moves Quiet (assign f) :=
  modify_quiet fun _ => ⟨rfl, rfl, rfl, rfl⟩

lemma addSystem_quiet (s : System) : Moves Quiet (addSystem s) := by
  refine fun w => ⟨List.prefix_rfl, ?_, rfl, rfl⟩
  change w.systems.length ≤ (w.systems ++ [s]).length
  simp

lemma managerAt_quiet (m : ManagerId) : Moves Quiet (managerAt m) :=
  Moves.get.bind fun _ => Moves.pure _

lemma setManager_quiet (m : ManagerId) (r : Roster) : Moves Quiet (setManager m r) :=
  modify_quiet fun _ => ⟨rfl, rfl, rfl, rfl⟩

lemma addManager_quiet (r : Roster) : Moves Quiet (addManager r) :=
  fun _ => ⟨List.prefix_rfl, Nat.le_refl _, rfl, rfl⟩

lemma addTiming_quiet (t : Timing) : Moves Quiet (addTiming t) :=
  fun _ => ⟨List.prefix_rfl, Nat.le_refl _, rfl, rfl⟩

lemma stopTiming_quiet (t : TimingId) : Moves Quiet (stopTiming t) := by
  refine Moves.get.bind fun w => ?_
  split
  · exact Moves.throw _
  · exact (ofAction_quiet _).bind fun _ =>
      Moves.bind (modify_quiet fun _ => ⟨rfl, rfl, rfl, rfl⟩) fun _ => Moves.pure _

lemma addStream_quiet (opened : OpenedStream) : Moves Quiet (addStream opened) :=
  fun _ => ⟨List.prefix_append _ _, Nat.le_refl _, rfl, rfl⟩

lemma supplierOf_quiet (t : SupplierTerm) : Moves Quiet (supplierOf t) := by
  cases t with
  | constant a =>
    rw [supplierOf]
    exact ofAction_quiet _
  | named id => exact find_quiet _ id

lemma cacheOf_quiet (t : CacheTerm) : Moves Quiet (cacheOf t) := by
  cases t with
  | numbers info =>
    rw [cacheOf]
    exact ofAction_quiet _
  | named id => exact find_quiet _ id

lemma registryOr_quiet (id : Option String) : Moves Quiet (registryOr id) := by
  cases id with
  | some id => exact find_quiet _ id
  | none =>
    rw [registryOr]
    exact ofAction_quiet _

lemma setStream_spares {j : StreamId} (other : j ≠ i) (opened : OpenedStream) :
    Moves (Spares i) (setStream j opened) := by
  refine Moves.modify fun w => ⟨fun _ at_place => ?_, Nat.le_refl _⟩
  have apart : j.index ≠ i.index := fun same => other (by cases i; cases j; cases same; rfl)
  rw [List.getElem?_set_ne apart]
  exact at_place

/-- A pull spares all streams but its own. -/
lemma pullFrom_spares {j : StreamId} (other : j ≠ i) (n : Nat) :
    Moves (Spares i) (pullFrom j n) := by
  refine Moves.get.bind fun w => ?_
  split
  · exact Moves.throw _
  · refine ((spares_of_quiet (onSystem_quiet _ _)).tryCatch fun fault => ?_).bind fun page => ?_
    · exact (setStream_spares other _).bind fun _ => Moves.throw _
    · exact (setStream_spares other _).bind fun _ => Moves.pure _

end Session

open Session

section Steps

lemma bindHandle_quiet (h : Handle) (name : String) : Moves Quiet (bindHandle h name) := by
  refine Moves.get.bind fun w => ?_
  exact Moves.bind (modify_quiet fun _ => ⟨rfl, rfl, rfl, rfl⟩) fun _ =>
    (assign_quiet _).bind fun _ => Moves.pure _

lemma bindChild_quiet (c : Child) (name : String) : Moves Quiet (bindChild c name) :=
  (assign_quiet _).bind fun _ => Moves.pure _

lemma findChild_quiet (kind : ChildKind) (id : String) :
    Moves Quiet (findChild kind id) := by
  refine (find_quiet _ id).bind fun c => ?_
  split
  · exact Moves.pure _
  · exact Moves.throw _

lemma initIf_quiet (wanted : Bool) (n : SystemId) : Moves Quiet (initIf wanted n) := by
  cases wanted with
  | true => exact onSystem_quiet n _
  | false => exact Moves.pure _

lemma leave_quiet (n : SystemId) : Moves Quiet (leave n) := by
  refine Moves.get.bind fun w => ?_
  split
  · exact Moves.bind (modify_quiet fun _ => ⟨rfl, rfl, rfl, rfl⟩) fun _ => onSystem_quiet n _
  · exact Moves.pure _

lemma timingFor_quiet (t : TimedBy) : Moves Quiet (timingFor t) := by
  cases t with
  | timing id => exact find_quiet _ id
  | child id =>
    exact (findChild_quiet _ id).bind fun _ => (ofAction_quiet _).bind fun _ =>
      addTiming_quiet _

/-- The system does not get its settings from the configuration. -/
def SystemPlan.Plain : SystemPlan → Prop
  | .fromSettings _ none _ _ => False
  | .fromSettings _ (some _) _ _ | .direct .. | .isolated .. => True

lemma makeSystem_quiet (id : String) {plan : SystemPlan} (plain : plan.Plain) :
    Moves Quiet (makeSystem id plan) := by
  cases plan with
  | direct categories timers registry =>
    exact (registryOr_quiet _).bind fun _ => (addSystem_quiet _).bind fun _ => assign_quiet _
  | isolated categories timers =>
    exact (ofAction_quiet _).bind fun _ => (addSystem_quiet _).bind fun _ =>
      Moves.bind (modify_quiet fun _ => ⟨rfl, rfl, rfl, rfl⟩) fun _ => assign_quiet _
  | fromSettings categories settings registry init =>
    cases settings with
    | none => exact plain.elim
    | some settings =>
      exact (registryOr_quiet _).bind fun _ => (Moves.pure _).bind fun _ =>
        (ofAction_quiet _).bind fun _ => (addSystem_quiet _).bind fun _ =>
          (initIf_quiet _ _).bind fun _ => assign_quiet _

lemma performOn_quiet (n : SystemId) (step : SystemStep) :
    Moves Quiet (performOn n step) := by
  cases step with
  | labelled | supplied => exact (onSystem_quiet n _).bind fun _ => bindHandle_quiet _ _
  | single => exact (onSystem_quiet n _).bind fun _ => bindChild_quiet _ _
  | gauge c name help supplier | summary c name help supplier =>
    exact (supplierOf_quiet _).bind fun _ => (onSystem_quiet n _).bind fun _ => Moves.pure _
  | attachCache c name cache =>
    exact (cacheOf_quiet _).bind fun _ => (onSystem_quiet n _).bind fun _ => Moves.pure _
  | openStream scope id =>
    exact (addStream_quiet _).bind fun _ => (assign_quiet _).bind fun _ => Moves.pure _
  | leave => exact (leave_quiet n).bind fun _ => Moves.pure _
  | observations | init | shutdown | status | isEnabled =>
    exact (onSystem_quiet n _).bind fun _ => Moves.pure _

lemma registryOf_quiet (holder : Holder) : Moves Quiet (registryOf holder) := by
  cases holder with
  | registry id => exact find_quiet _ id
  | manager id =>
    exact (find_quiet _ id).bind fun _ => (managerAt_quiet _).bind fun _ => Moves.pure _
  | system id =>
    exact (find_quiet _ id).bind fun _ => (onSystem_quiet _ _).bind fun _ => Moves.pure _

lemma makeCollector_quiet (draft : CollectorDraft) : Moves Quiet (makeCollector draft) := by
  cases draft with
  | fixed | supplied => exact (Moves.ofExcept _).bind fun _ => Moves.pure _
  | gauge | summary => exact (supplierOf_quiet _).bind fun _ => Moves.pure _
  | caches => exact Moves.pure _

lemma performNaming_quiet (step : NamingStep) : Moves Quiet (performNaming step) := by
  cases step with
  | externalCounter | clear =>
    exact Moves.bind (modify_quiet fun _ => ⟨rfl, rfl, rfl, rfl⟩) fun _ => Moves.pure _
  | logicalCounter => exact Moves.get.bind fun _ => Moves.pure _
  | external | logical => exact Moves.pure _

end Steps

/-- The step neither reads on in a stream nor has to do with the configuration. -/
def Step.Plain : Step → Prop
  | .pull .. | .environment _ | .configuration _ => False
  | .system _ plan => plan.Plain
  | _ => True

lemma perform_quiet {step : Step} (plain : step.Plain) : Moves Quiet (perform step) := by
  cases step with
  | pull | environment | configuration => exact plain.elim
  | registry | supplier =>
    exact (ofAction_quiet _).bind fun _ => (assign_quiet _).bind fun _ => Moves.pure _
  | system id plan => exact (makeSystem_quiet id plain).bind fun _ => Moves.pure _
  | onSystem id step => exact (find_quiet _ id).bind fun n => performOn_quiet n step
  | calls id => exact (find_quiet _ id).bind fun _ => Moves.get.bind fun _ => Moves.pure _
  | cache id info =>
    refine Moves.get.bind fun w => ?_
    split
    · exact (ofAction_quiet _).bind fun _ => Moves.pure _
    · exact (ofAction_quiet _).bind fun _ => (assign_quiet _).bind fun _ => Moves.pure _
  | advance => exact (ofAction_quiet _).bind fun _ => Moves.pure _
  | labels handle values id =>
    refine (find_quiet _ handle).bind fun h => ?_
    split
    · exact Moves.throw _
    · exact (ofAction_quiet _).bind fun _ => bindChild_quiet _ id
  | supply handle supplier values =>
    exact (find_quiet _ handle).bind fun _ => (supplierOf_quiet supplier).bind fun _ =>
      (ofAction_quiet _).bind fun _ => Moves.pure _
  | increment child | observe child =>
    exact (findChild_quiet _ child).bind fun _ => (ofAction_quiet _).bind fun _ => Moves.pure _
  | start child id =>
    exact (findChild_quiet _ child).bind fun _ => (ofAction_quiet _).bind fun _ =>
      (addTiming_quiet _).bind fun _ => (assign_quiet _).bind fun _ => Moves.pure _
  | stop timing =>
    exact (find_quiet _ timing).bind fun _ => (stopTiming_quiet _).bind fun _ => Moves.pure _
  | within timedBy seconds failure =>
    refine (timingFor_quiet timedBy).bind fun _ => (ofAction_quiet _).bind fun _ =>
      (stopTiming_quiet _).bind fun _ => ?_
    split
    · exact Moves.throw _
    · exact Moves.pure _
  | sample holder | gather holder =>
    exact (registryOf_quiet holder).bind fun _ => (ofAction_quiet _).bind fun _ => Moves.pure _
  | collector id draft =>
    exact (makeCollector_quiet draft).bind fun _ => (ofAction_quiet _).bind fun _ =>
      Moves.bind (modify_quiet fun _ => ⟨rfl, rfl, rfl, rfl⟩) fun _ =>
        (assign_quiet _).bind fun _ => Moves.pure _
  | addSupplier collector values supplier =>
    exact (find_quiet _ collector).bind fun _ => (supplierOf_quiet supplier).bind fun _ =>
      (ofAction_quiet _).bind fun _ => Moves.pure _
  | addCache collector name cache =>
    exact (find_quiet _ collector).bind fun _ => (cacheOf_quiet cache).bind fun _ =>
      (ofAction_quiet _).bind fun _ => Moves.pure _
  | collect collector | familyNames collector =>
    exact (find_quiet _ collector).bind fun _ => (ofAction_quiet _).bind fun _ => Moves.pure _
  | manager id registry =>
    exact (registryOr_quiet registry).bind fun _ => (addManager_quiet _).bind fun _ =>
      (assign_quiet _).bind fun _ => Moves.pure _
  | register manager c collector =>
    exact (find_quiet _ collector).bind fun _ => (find_quiet _ manager).bind fun _ =>
      (managerAt_quiet _).bind fun _ => (ofAction_quiet _).bind fun _ =>
        (setManager_quiet _ _).bind fun _ => Moves.pure _
  | collectorsOf manager =>
    exact (find_quiet _ manager).bind fun _ => (managerAt_quiet _).bind fun _ =>
      Moves.get.bind fun _ => Moves.pure _
  | categoriesOf manager =>
    exact (find_quiet _ manager).bind fun _ => (managerAt_quiet _).bind fun _ => Moves.pure _
  | clear manager =>
    exact (find_quiet _ manager).bind fun _ => (managerAt_quiet _).bind fun _ =>
      (setManager_quiet _ _).bind fun _ => (ofAction_quiet _).bind fun _ => Moves.pure _
  | naming step => exact performNaming_quiet step
  | read =>
    exact (Moves.ofExcept _).bind fun _ => Moves.get.bind fun _ => Moves.pure _

/-- Neither the environment nor the configuration nor a system that is made from it moves a stream.
-/
lemma perform_spares_of_not_pull {step : Step} (other : ∀ name n, step ≠ .pull name n) :
    Moves (Spares i) (perform step) := by
  by_cases plain : step.Plain
  · exact spares_of_quiet (perform_quiet plain)
  · cases step with
    | pull name n => exact absurd rfl (other name n)
    | environment env => exact fun w => ⟨fun _ h => h, Nat.le_refl _⟩
    | configuration refresh =>
      refine (ofConfiguration_spares _).bind fun _ => Moves.get.bind fun _ => ?_
      exact fun w => ⟨fun _ h => h, Nat.le_refl _⟩
    | system id plan =>
      cases plan with
      | direct | isolated => exact absurd trivial plain
      | fromSettings categories settings registry init =>
        cases settings with
        | some settings => exact absurd trivial plain
        | none =>
          refine Moves.bind ?_ fun _ => Moves.pure _
          refine (spares_of_quiet (registryOr_quiet registry)).bind fun _ => ?_
          refine Moves.bind ((ofConfiguration_spares _).bind fun _ => Moves.pure _) fun _ => ?_
          exact spares_of_quiet ((ofAction_quiet _).bind fun _ => (addSystem_quiet _).bind fun _ =>
            (initIf_quiet _ _).bind fun _ => assign_quiet _)
    | _ => exact absurd trivial plain

/-- A pull with the state that it found. -/
structure Pull where
  before : Workspace
  name : String
  size : Nat

/-- The pull that a step makes from the stream at a place, if it makes one. -/
def Step.pullOf? (i : StreamId) (w : Workspace) : Step → Option Pull
  | .pull name n => if w.bound.streams.get? name = some i then some ⟨w, name, n⟩ else none
  | _ => none

lemma pullOf_eq_some {w : Workspace} {step : Step} {p : Pull}
    (h : step.pullOf? i w = some p) :
    step = .pull p.name p.size ∧ p.before = w ∧ w.bound.streams.get? p.name = some i := by
  cases step with
  | pull name k =>
    rw [Step.pullOf?] at h
    split at h
    · next bound =>
      cases h
      exact ⟨rfl, rfl, bound⟩
    · cases h
  | _ => cases h

/-- A step that does not pull from a stream leaves it where it is. -/
lemma perform_spares {w : Workspace} {step : Step} (other : step.pullOf? i w = none) :
    Spares i w (endOf (perform step w)) := by
  by_cases pulls : ∃ name n, step = .pull name n
  · obtain ⟨name, n, rfl⟩ := pulls
    cases found : w.bound.streams.get? name with
    | none =>
      have missing : find (·.streams) name w = .error (.unbound name) w := find_error found
      rw [perform, bind_of_error missing]
      exact Std.Refl.refl w
    | some j =>
      have apart : j ≠ i := by
        rintro rfl
        simp [Step.pullOf?, found] at other
      have bound : find (·.streams) name w = .ok j w := find_ok found
      rw [perform, bind_of_ok bound]
      exact ((pullFrom_spares apart n).bind fun _ => Moves.pure _) w
  · exact perform_spares_of_not_pull (fun name n same => pulls ⟨name, n, same⟩) w

lemma advanceBy_snd (w : Workspace) (step : Step) :
    (advanceBy w step).2 = endOf (perform step w) := by
  rw [advanceBy]
  cases perform step w <;> rfl

lemma spares_advanceBy {w : Workspace} {step : Step}
    (other : step.pullOf? i w = none) : Spares i w (advanceBy w step).2 := by
  rw [advanceBy_snd]
  exact perform_spares other

end Metering.Scenario
