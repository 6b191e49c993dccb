import Metering.Proofs.SystemRuns

/-!
# What calls are made of

Whatever a call does is put together from a few steps: collecting and recording on the site, a
report, a new serial, a note of the system, and the enrolment of a collector. A relation that holds
across each of them (`Steps`) holds across every call but the attaching of a cache and a shutdown,
wherever the call fails (`Call.moves`). Calls that only build or read do no recording, so that a
relation need not hold across that (`Builds`, `Call.builds_moves`).
-/

namespace Metering

open Site Operation Metering.System

/-- The relation holds when a system finds itself on the second site instead of the first. -/
def Deployment.OnSite (R : Deployment → Deployment → Prop) (s t : Site) : Prop :=
  ∀ system : System, R ⟨system, s⟩ ⟨system, t⟩

instance (R : Deployment → Deployment → Prop) [IsPreorder Deployment R] :
    IsPreorder Site (Deployment.OnSite R) where
  refl _ _ := Std.Refl.refl _
  trans _ _ _ hst htu system := IsTrans.trans _ _ _ (hst system) (htu system)

/-- The instrument is as it was declared. -/
def Instrument.New (i : Instrument) : Prop :=
  ∃ now, Instrument.declare i.kind i.name i.help i.labels now = .ok i

/-- The collector is as a call makes it: an instrument is new, and caches are attached later. -/
def Collector.Made : Collector → Prop
  | .instrument i => i.New
  | .caches .. => False
  | _ => True

/-- What could be declared is new, and has the labels that were asked for. -/
lemma Instrument.new_of_declare {kind : InstrumentKind} {name help : String} {labels : List String}
    {now : Float} {i : Instrument}
    (declared : Instrument.declare kind name help labels now = .ok i) :
    i.kind = kind ∧ i.name = name ∧ i.labels = labels ∧ i.New := by
  have same := declared
  rw [Instrument.declare] at declared
  split at declared
  · cases declared
  · split at declared
    · cases declared
    · cases declared
      exact ⟨rfl, rfl, rfl, now, same⟩

/-- What could be declared has no label that it needs for itself. -/
lemma Instrument.own_of_declare {kind : InstrumentKind} {name help : String} {labels : List String}
    {now : Float} {i : Instrument}
    (declared : Instrument.declare kind name help labels now = .ok i) :
    ∀ label ∈ kind.ownLabel?, label ∉ labels := by
  intro own ownLabel member
  rw [Instrument.declare] at declared
  split at declared
  · cases declared
  · next sane =>
    have fault := List.findSome?_eq_none_iff.mp sane own member
    rw [Instrument.labelFault?] at fault
    split at fault
    · cases fault
    · rw [if_pos (Option.mem_def.mp ownLabel)] at fault
      cases fault

/-- The relation holds across the steps that building and reading are made of. -/
structure Deployment.Builds (R : Deployment → Deployment → Prop) : Prop where
  noted : ∀ s t, s.OnlyActivity t → OnSite R s t
  reported : ∀ (s : Site) e, OnSite R s { s with journal := s.journal ++ [e] }
  issued : ∀ (s : Site) n, OnSite R s { s with issued := n }
  remembered : ∀ d name, R d { d with system := d.system.remember name }
  kept : ∀ d kind external h, R d { d with system := d.system.keep kind external h }
  enrolled : ∀ c y, y.Made → Moves R (enroll c y)

/-- The relation holds across the steps that calls are made of. -/
structure Deployment.Steps (R : Deployment → Deployment → Prop) : Prop extends Builds R where
  gathered : ∀ (s : Site) k x, (s.collector k).Gathers x → OnSite R s (s.withCollector k x)

/-- The call creates collectors or reads them, or starts a timing: it records nothing. -/
def Call.Builds : Call → Prop
  | labelled .. | supplied .. | gauge .. | summary .. | init | start _ | observations _ | pull .. |
    gather | sampleValue .. => True
  | _ => False

section Calls

variable {R : Deployment → Deployment → Prop}

lemma Operation.ofAction_moves {α : Type} {a : Action α} (h : Moves (Deployment.OnSite R) a) :
    Moves R (ofAction a) := by
  intro d
  rw [endOf_ofAction]
  exact h d.site d.system

lemma Operation.reading_moves (builds : Deployment.Builds R) {α : Type} {a : Action α}
    (h : Moves OnlyActivity a) : Moves R (ofAction a) :=
  ofAction_moves (h.mono fun s t => builds.noted s t)

variable [IsPreorder Deployment R]

/-- What is only done under an enabled category. -/
lemma System.ifEnabled_moves (c : Category) {x : Operation Unit} (h : Moves R x) :
    Moves R (do if (← Operation.system).isEnabled c then x) := by
  refine system_moves.bind fun s => ?_
  split
  · exact h
  · exact Moves.pure _

/-- What holds across the registration of a cache collector, across notes of the system and across
the attaching itself holds across all of it. -/
lemma System.attachCache_moves (c : Category) (name : String) (cache : CacheId)
    (enrolled : Moves R (enroll c (.caches c.stem ∅)))
    (changed : ∀ (d : Deployment) (f : System → System), R d { d with system := f d.system })
    (attached : ∀ (d : Deployment) k stem caches, d.site.collector k = .caches stem caches →
      R d { d with site := d.site.withCollector k (.caches stem (caches.put name cache)) }) :
    Moves R (attachCache c name cache) := by
  have noted : ∀ f : System → System, Moves R (change f) :=
    fun f => Moves.modify fun d => changed d f
  have attaching : ∀ k, Moves R (ofAction (attachTo k name cache)) := by
    intro k d
    rw [endOf_ofAction, attachTo, modify_ok, endOf]
    split
    · next caches => exact attached d k _ _ caches
    · exact Std.Refl.refl d
  refine system_moves.bind fun s => ?_
  split
  · split
    · exact Moves.throw _
    · refine Moves.bind (system_moves.bind fun s => ?_) fun k =>
        (noted _).bind fun _ => attaching k
      split
      · exact Moves.pure _
      · exact enrolled.bind fun _ => (noted _).bind fun _ => Moves.pure _
  · exact Moves.pure _

variable (builds : Deployment.Builds R) (c : Category) (name external help : String)
  (labels : List String)

include builds

namespace System

lemma issue_moves (use : HandleUse) (arity : Nat) (target : Option CollectorId) :
    Moves R (issue use arity target) := by
  have issued : Moves (Deployment.OnSite R) Site.issueSerial := fun s => builds.issued s _
  exact (ofAction_moves issued).bind fun _ => Moves.pure _

lemma declareName_moves (isCounter : Bool) : Moves R (declareName isCounter name) := by
  rw [declareName]
  split
  · exact Moves.modify fun d => builds.remembered d name
  · exact Moves.pure _

lemma build_moves (kind : InstrumentKind) : Moves R (build kind c external help labels) := by
  refine system_moves.bind fun s => ?_
  split
  · refine Moves.get.bind fun d => Moves.ofExcept_bind fun i declared => ?_
    have made : (Collector.instrument i).Made := (Instrument.new_of_declare declared).2.2.2
    exact (builds.enrolled c _ made).bind fun _ => issue_moves builds _ _ _
  · have reported : Moves (Deployment.OnSite R) (Site.report (.inertHandle kind external)) :=
      fun s => builds.reported s _
    exact (ofAction_moves reported).bind fun _ => issue_moves builds _ _ _

lemma labelled_moves (kind : InstrumentKind) : Moves R (labelled kind c name help labels) := by
  refine (declareName_moves builds name _).bind fun _ => system_moves.bind fun s => ?_
  split
  · exact Moves.pure _
  · refine (build_moves builds c _ help labels kind).bind fun h => ?_
    exact (Moves.modify fun d => builds.kept d kind _ h).bind fun _ => Moves.pure h

lemma supplied_moves (kind : SuppliedKind) : Moves R (supplied kind c name help labels) := by
  refine (declareName_moves builds name _).bind fun _ => system_moves.bind fun s => ?_
  split
  · exact (builds.enrolled c _ (by trivial)).bind fun _ => issue_moves builds _ _ _
  · exact issue_moves builds _ _ _

lemma registerBuiltins_moves {bs : List Collector} (made : ∀ b ∈ bs, b.Made) :
    Moves R (registerBuiltins c bs) :=
  ifEnabled_moves c (Moves.forM_of_mem fun b hb => (builds.enrolled c b (made b hb)).discard)

lemma init_moves : Moves R init := by
  refine (registerBuiltins_moves builds .process ?_).bind fun _ =>
    registerBuiltins_moves builds .runtime ?_
  · exact List.forall_mem_singleton.mpr trivial
  · exact List.forall_mem_cons.mpr ⟨trivial, List.forall_mem_singleton.mpr trivial⟩

end System

/-- What holds across the building and the reading steps holds across every call that builds or
reads, and across the start of a timing. -/
lemma Call.builds_moves {call : Call} (h : call.Builds) : Moves R call.perform := by
  cases call with
  | labelled kind c name help labels =>
    exact (labelled_moves builds c name help labels kind).discard
  | supplied kind c name help labels =>
    exact (supplied_moves builds c name help labels kind).discard
  | gauge c | summary c =>
    exact ifEnabled_moves c (builds.enrolled c _ (by trivial)).discard
  | init => exact init_moves builds
  | start child => exact (ofAction_moves (Timing.start_moves child)).discard
  | observations scope =>
    refine ((observations_reads scope).mono ?_).discard
    rintro ⟨s, site⟩ ⟨s', t⟩ ⟨same, quiet⟩
    obtain rfl : s' = s := same
    exact builds.noted _ _ quiet _
  | pull n stream =>
    exact system_moves.bind fun s =>
      (reading_moves builds (Stream.pull_moves s n stream)).discard
  | gather => exact system_moves.bind fun s => (reading_moves builds (gather_moves _)).discard
  | sampleValue name labels =>
    exact system_moves.bind fun s =>
      (reading_moves builds (sampleValue_moves _ name labels)).discard
  | _ => exact absurd h id

omit builds

variable (steps : Deployment.Steps R)

include steps

lemma System.single_moves (kind : InstrumentKind) : Moves R (single kind c name help) :=
  (labelled_moves steps.toBuilds c name help [] kind).bind fun h =>
    ofAction_moves (h.labels_moves steps.gathered _ _)

/-- What holds across every step holds across every call that attaches no cache and does not shut
down. -/
lemma Call.moves {call : Call} (others : ∀ c name cache, call ≠ attachCache c name cache)
    (running : call ≠ shutdown) : Moves R call.perform := by
  by_cases builds : call.Builds
  · exact Call.builds_moves steps.toBuilds builds
  · cases call with
    | single kind c name help => exact (single_moves c name help steps kind).discard
    | attachCache c name cache => exact absurd rfl (others c name cache)
    | shutdown => exact absurd rfl running
    | childOf h kind values =>
      exact (ofAction_moves (h.labels_moves steps.gathered kind values)).discard
    | supply h supplier values =>
      exact ofAction_moves (h.supply_moves steps.gathered supplier values)
    | increment child amount =>
      exact ofAction_moves (child.increment_moves steps.gathered amount)
    | observe child seconds => exact ofAction_moves (child.record_moves steps.gathered seconds)
    | stop timing => exact (ofAction_moves (timing.stop_moves steps.gathered)).discard
    | _ => exact absurd trivial builds

end Calls

end Metering
