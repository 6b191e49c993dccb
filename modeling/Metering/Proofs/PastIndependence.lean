import Metering.Proofs.SystemRuns
import Metering.Proofs.VeiledPast

/-!
# Systems that do not know the past

A system that knows no place of the past (`System.Beyond`) answers every call as it would if those
places held anything else, and remains so (`Call.reply_blind`); neither does it change its switches.
Whatever is done through a handle of the past stays behind the veil (`Call.behind_of_stale`). So of
two deployments that differ in the past alone, one on which old handles go on being used gives the
same replies as the other, on which they are not (`transcript_veiled`).
-/

namespace Metering

open Site Operation Metering.System

/-- The system has the switches and the registry of the veil and knows no place of the past. -/
structure System.Beyond (s : System) (v : Veil) : Prop where
  enabled : s.enabled = v.enabled
  timers : s.timers = v.timers
  roster : s.roster.Beyond v
  counterHandles : ∀ external h, s.counterHandles.get? external = some h → h.Beyond v
  timerHandles : ∀ external h, s.timerHandles.get? external = some h → h.Beyond v
  shared : ∀ c k, s.shared.get? c = some k → v.past ≤ k.index

lemma System.Beyond.handles {s : System} {v : Veil} (beyond : s.Beyond v) (kind : InstrumentKind) :
    ∀ external h, (s.handles kind).get? external = some h → h.Beyond v := by
  cases kind with
  | counter => exact beyond.counterHandles
  | _ => exact beyond.timerHandles

lemma System.beyond_fresh (v : Veil) : (System.fresh v.enabled v.timers v.registry).Beyond v where
  enabled := rfl
  timers := rfl
  roster := Roster.beyond_vacant
  counterHandles external h kept := by cases kept
  timerHandles external h kept := by cases kept
  shared c k kept := by cases kept

/-- Two deployments of one system that knows no place of the past; only their sites may differ. -/
structure Deployment.Veiled (v : Veil) (d e : Deployment) : Prop where
  system : e.system = d.system
  beyond : d.system.Beyond v
  site : d.site.Veiled v e.site

/-- With nothing behind the veil, it only tells the switches and the registry. -/
lemma Deployment.veiled_self {v : Veil} {d : Deployment} (unveiled : v.past = 0)
    (beyond : d.system.Beyond v)
    (describes : (d.site.registry v.registry).describes = v.describes) : d.Veiled v d := by
  have later : ∀ n, v.past ≤ n := fun n => unveiled ▸ Nat.zero_le n
  exact ⟨rfl, beyond, rfl, rfl, later _, fun _ _ => rfl, fun _ _ => later _, describes⟩

section Rules

variable {v : Veil} {α β : Type} {Q : α → Prop} {P : β → Prop}

lemma Operation.ofAction_blind {a : Action α} (h : Blind (Site.Veiled v) Q a) :
    Blind (Deployment.Veiled v) Q (ofAction a) := by
  intro d e veiled
  rcases h d.site e.site veiled.site with
    ⟨x, s, t, hs, ht, result, sites⟩ | ⟨fault, s, t, hs, ht, sites⟩
  · exact Or.inl ⟨x, { d with site := s }, { e with site := t }, ofAction_ok hs, ofAction_ok ht,
      result, veiled.system, veiled.beyond, sites⟩
  · exact Or.inr ⟨fault, { d with site := s }, { e with site := t }, ofAction_error hs,
      ofAction_error ht, veiled.system, veiled.beyond, sites⟩

lemma Operation.system_bind_blind {f : System → Operation β}
    (hf : ∀ s, s.Beyond v → Blind (Deployment.Veiled v) P (f s)) :
    Blind (Deployment.Veiled v) P (Operation.system >>= f) := by
  intro d e veiled
  rw [bind_system, bind_system, veiled.system]
  exact hf d.system veiled.beyond d e veiled

lemma Operation.change_blind {f : System → System} (h : ∀ s, s.Beyond v → (f s).Beyond v) :
    Blind (Deployment.Veiled v) Anything (change f) :=
  .modify fun d e veiled => ⟨by rw [veiled.system], h d.system veiled.beyond, veiled.site⟩

end Rules

namespace System

variable {v : Veil} (c : Category) (name external help : String) (labels : List String)

lemma register_blind {k : CollectorId} (later : v.past ≤ k.index) :
    Blind (Deployment.Veiled v) Anything (register c k) :=
  system_bind_blind fun _ beyond =>
    (ofAction_blind (Roster.register_blind beyond.roster c later)).bind fun _ hr =>
      change_blind fun _ h => { h with roster := hr }

lemma enroll_blind (x : Collector) :
    Blind (Deployment.Veiled v) (fun k => v.past ≤ k.index) (enroll c x) := by
  have added : Blind (Site.Veiled v) (fun k => v.past ≤ k.index) (addCollector x) := by
    intro s t h
    refine Or.inl ⟨⟨s.collectors.length⟩, s.withAdded x, t.withAdded x, rfl, ?_, h.past,
      h.withAdded x⟩
    rw [← h.room]
    rfl
  refine (ofAction_blind added).bind fun k later => ?_
  exact (register_blind c later).bind fun _ _ => .pure later

lemma declareName_blind (isCounter : Bool) :
    Blind (Deployment.Veiled v) Anything (declareName isCounter name) := by
  rw [declareName]
  split
  · exact change_blind fun _ h =>
      ⟨h.enabled, h.timers, h.roster, h.counterHandles, h.timerHandles, h.shared⟩
  · exact .pure trivial

lemma issue_blind (use : HandleUse) (arity : Nat) {target : Option CollectorId}
    (later : ∀ k ∈ target, v.past ≤ k.index) :
    Blind (Deployment.Veiled v) (fun h => h.Beyond v) (issue use arity target) := by
  have issued : Blind (Site.Veiled v) Anything issueSerial := by
    intro s t h
    have moved := h.update (g := fun s => { s with issued := s.issued + 1 }) (fun _ => rfl)
      (fun _ => rfl) fun _ _ => rfl
    refine Or.inl ⟨s.issued, _, _, rfl, ?_, trivial, moved⟩
    rw [h.rest]
    rfl
  exact (ofAction_blind issued).bind fun _ _ => .pure later

lemma build_blind (kind : InstrumentKind) :
    Blind (Deployment.Veiled v) (fun h => h.Beyond v) (build kind c external help labels) := by
  refine system_bind_blind fun s _ => ?_
  split
  · refine .get_bind (fun d e veiled => by simp only [veiled.site.clock]) fun d e _ => ?_
    refine (Blind.ofExcept _).bind fun i _ => (enroll_blind c _).bind fun k later => ?_
    exact issue_blind _ _ fun j hj => Option.some.inj hj ▸ later
  · refine (ofAction_blind (report_blind _)).bind fun _ _ => ?_
    exact issue_blind _ _ fun j hj => absurd hj (Option.not_mem_none j)

lemma beyond_keep {s : System} {h : Handle} (beyond : s.Beyond v) (kind : InstrumentKind)
    (later : h.Beyond v) : (s.keep kind external h).Beyond v := by
  have kept : ∀ (m : Index String Handle), (∀ e h', m.get? e = some h' → h'.Beyond v) →
      ∀ e h', (m.put external h).get? e = some h' → h'.Beyond v := by
    intro m old e h' found
    rw [Index.get?_put] at found
    split at found
    · cases found
      exact later
    · exact old e h' found
  cases kind with
  | counter => exact { beyond with counterHandles := kept _ beyond.counterHandles }
  | _ => exact { beyond with timerHandles := kept _ beyond.timerHandles }

lemma labelled_blind (kind : InstrumentKind) :
    Blind (Deployment.Veiled v) (fun h => h.Beyond v) (labelled kind c name help labels) := by
  refine (declareName_blind name _).bind fun _ _ => system_bind_blind fun s beyond => ?_
  split
  · next h kept => exact .pure (beyond.handles kind _ h kept)
  · refine (build_blind c _ help labels kind).bind fun h later => ?_
    exact (change_blind fun _ beyond => beyond_keep _ beyond kind later).bind fun _ _ => .pure later

lemma single_blind (kind : InstrumentKind) :
    Blind (Deployment.Veiled v) (fun child => child.Beyond v) (single kind c name help) :=
  (labelled_blind c name help [] kind).bind fun _ later =>
    ofAction_blind (Handle.labels_blind later _ _)

lemma ifEnabled_blind {x : Operation Unit} (h : Blind (Deployment.Veiled v) Anything x) :
    Blind (Deployment.Veiled v) Anything (do if (← Operation.system).isEnabled c then x) := by
  refine system_bind_blind fun s _ => ?_
  split
  · exact h
  · exact .pure trivial

lemma discard_blind {α : Type} {Q : α → Prop} {x : Operation α}
    (h : Blind (Deployment.Veiled v) Q x) : Blind (Deployment.Veiled v) Anything (discard x) :=
  h.map fun _ _ => trivial

lemma supplied_blind (kind : SuppliedKind) :
    Blind (Deployment.Veiled v) (fun h => h.Beyond v) (supplied kind c name help labels) := by
  refine (declareName_blind name _).bind fun _ _ => system_bind_blind fun s _ => ?_
  split
  · refine (enroll_blind c _).bind fun k later => ?_
    exact issue_blind _ _ fun j hj => Option.some.inj hj ▸ later
  · exact issue_blind _ _ fun j hj => absurd hj (Option.not_mem_none j)

lemma attachTo_blind {k : CollectorId} (later : v.past ≤ k.index) (cache : CacheId) :
    Blind (Site.Veiled v) Anything (attachTo k name cache) := by
  refine .modify fun s t veiled => ?_
  rw [veiled.same k later]
  split
  · exact veiled.withCollector _
  · exact veiled

lemma sharedCollector_blind :
    Blind (Deployment.Veiled v) (fun k => v.past ≤ k.index) (sharedCollector c) := by
  refine system_bind_blind fun s beyond => ?_
  split
  · next k kept => exact .pure (beyond.shared c k kept)
  · refine (enroll_blind c _).bind fun k later => ?_
    refine Blind.bind (change_blind fun s beyond => ?_) fun _ _ => .pure later
    refine { beyond with shared := fun c' j kept => ?_ }
    rw [Index.get?_put] at kept
    split at kept
    · cases kept
      exact later
    · exact beyond.shared c' j kept

lemma attachCache_blind (cache : CacheId) :
    Blind (Deployment.Veiled v) Anything (attachCache c name cache) := by
  refine system_bind_blind fun s _ => ?_
  split
  · split
    · exact .throw _
    · refine (sharedCollector_blind c).bind fun k later => ?_
      refine Blind.bind (change_blind fun s h => ?_) fun _ _ =>
        ofAction_blind (attachTo_blind name later cache)
      exact ⟨h.enabled, h.timers, h.roster, h.counterHandles, h.timerHandles, h.shared⟩
  · exact .pure trivial

lemma registerBuiltins_blind (bs : List Collector) :
    Blind (Deployment.Veiled v) Anything (registerBuiltins c bs) :=
  ifEnabled_blind c (.forM fun b _ => discard_blind (enroll_blind c b))

lemma init_blind : Blind (Deployment.Veiled v) Anything init :=
  (registerBuiltins_blind .process _).bind fun _ _ => registerBuiltins_blind .runtime _

lemma shutdown_blind : Blind (Deployment.Veiled v) Anything shutdown := by
  refine system_bind_blind fun s beyond => ?_
  have emptied : s.roster.emptied.Beyond v := by
    rw [Roster.emptied, beyond.roster.registry]
    exact Roster.beyond_vacant
  refine Blind.bind (change_blind fun s' h => ?_) fun _ _ => ?_
  · exact { h with roster := emptied }
  refine (ofAction_blind (Roster.dismiss_blind beyond.roster)).bind fun _ _ => ?_
  refine Blind.bind (change_blind fun s' h => ?_) fun _ _ => ofAction_blind (report_blind _)
  rw [reset, h.enabled, h.timers, h.roster.registry]
  exact beyond_fresh v

lemma observationsOf_blind {ks : List CollectorId} (later : ∀ k ∈ ks, v.past ≤ k.index) :
    Blind (Deployment.Veiled v) Anything (observationsOf c ks) := by
  induction ks with
  | nil => exact .pure trivial
  | cons k ks ih =>
    refine (ofAction_blind (collect_blind (later k List.mem_cons_self))).bind fun _ _ => ?_
    refine system_bind_blind fun _ _ => ?_
    exact (ih fun j hj => later j (List.mem_cons_of_mem k hj)).bind fun _ _ => .pure trivial

lemma observationsIn_blind (cs : List Category) :
    Blind (Deployment.Veiled v) Anything (observationsIn cs) := by
  induction cs with
  | nil => exact .pure trivial
  | cons c cs ih =>
    refine system_bind_blind fun s beyond => ?_
    exact (observationsOf_blind c (beyond.roster.listed c)).bind fun _ _ =>
      ih.bind fun _ _ => .pure trivial

lemma observations_blind (scope : Option Category) :
    Blind (Deployment.Veiled v) Anything (observations scope) := by
  cases scope with
  | some c => exact observationsIn_blind [c]
  | none => exact system_bind_blind fun s _ => observationsIn_blind _

end System

/-- The place to which a child leads, if it leads to one. -/
def Child.places (c : Child) : List CollectorId := (c.target.map Prod.fst).toList

/-- What a call gives. -/
inductive Reply where
  | done
  | handle (h : Handle)
  | child (c : Child)
  | timing (t : Timing)
  | stopped (seconds : Float) (t : Timing)
  | observations (os : List Observation)
  | page (p : Stream.Page)
  | families (fs : List Family)
  | value (x : Option Number)

/-- The places to which a handle, a child or a timing that was given leads. -/
def Reply.places : Reply → List CollectorId
  | handle h => h.target.toList
  | child c => c.places
  | timing t | stopped _ t => t.child.places
  | _ => []

namespace Call

/-- Carries out the call and gives what it gives. -/
def reply : Call → Operation Reply
  | labelled kind c name help labels => Reply.handle <$> System.labelled kind c name help labels
  | single kind c name help => Reply.child <$> System.single kind c name help
  | supplied kind c name help labels => Reply.handle <$> System.supplied kind c name help labels
  | childOf h kind values => Reply.child <$> ofAction (h.labels kind values)
  | start child => Reply.timing <$> ofAction (Timing.start child)
  | stop timing => (fun e => Reply.stopped e.1 e.2) <$> ofAction timing.stop
  | observations scope => Reply.observations <$> System.observations scope
  | pull n stream => do return .page (← ofAction (Stream.pull (← system) n stream))
  | gather => do return .families (← ofAction (Site.gather (← system).roster.registry))
  | sampleValue name labels => do
    return .value (← ofAction (Site.sampleValue (← system).roster.registry name labels))
  | call => do
    call.perform
    return .done

/-- The places that a call is given with a handle, a child, a timing or a stream. -/
def places : Call → List CollectorId
  | childOf h _ _ | supply h _ _ => h.target.toList
  | increment child _ | observe child _ | start child | stop ⟨child, _, _⟩ => child.places
  | pull _ (.reading p) => p.collectors
  | _ => []

/-- The call goes through a handle, a child or a timing of the past. -/
def IsStale (past : Nat) (call : Call) : Prop :=
  match call with
  | childOf .. | supply .. | increment .. | observe .. | start .. | stop .. =>
    ∃ k ∈ call.places, k.index < past
  | _ => False

/-- The call is given no place of the past. -/
def IsCurrent (past : Nat) (call : Call) : Prop := ∀ k ∈ call.places, past ≤ k.index

instance (past : Nat) (call : Call) : Decidable (call.IsStale past) := by
  cases call <;> unfold IsStale <;> infer_instance

/-- The call does not read on in a stream of the past. -/
def ReadsAnew (past : Nat) (call : Call) : Prop :=
  match call with
  | pull .. => call.IsCurrent past
  | _ => True

/-- Whoever does not read on in a stream of the past uses what is of the past, or nothing of it. -/
lemma stale_or_current {past : Nat} {call : Call} (anew : call.ReadsAnew past) :
    call.IsStale past ∨ call.IsCurrent past := by
  have either : (∃ k ∈ call.places, k.index < past) ∨ call.IsCurrent past := by
    by_cases old : ∃ k ∈ call.places, k.index < past
    · exact Or.inl old
    · exact Or.inr fun k hk => Nat.le_of_not_lt fun earlier => old ⟨k, hk, earlier⟩
  cases call with
  | pull => exact Or.inr anew
  | childOf | supply | increment | observe | start | stop => exact either
  | _ => exact Or.inr fun k hk => absurd hk List.not_mem_nil

/-- What a call gives is all that was left out of performing it. -/
lemma discard_reply (call : Call) : discard call.reply = call.perform := by
  have forgotten : ∀ {α : Type} (x : Operation α), discard x = x >>= fun _ => Pure.pure () := by
    intro α x
    rw [bind_pure_comp]
    rfl
  cases call <;> simp [reply, perform, forgotten]

/-- Nobody who knows no place of the past can tell what the places of the past hold, or comes to
know one. -/
lemma reply_blind {v : Veil} {call : Call} (current : call.IsCurrent v.past) :
    Blind (Deployment.Veiled v) (fun r => ∀ k ∈ r.places, v.past ≤ k.index) call.reply := by
  have performed : ∀ {x : Operation Unit}, Blind (Deployment.Veiled v) Anything x →
      Blind (Deployment.Veiled v) (fun r => ∀ k ∈ r.places, v.past ≤ k.index)
        (do x; return Reply.done) :=
    fun h => h.bind fun _ _ => .pure fun k hk => absurd hk List.not_mem_nil
  have ofHandle : ∀ {h : Handle}, h.Beyond v ↔ ∀ k ∈ h.target.toList, v.past ≤ k.index := by
    intro h
    simp [Handle.Beyond]
  have ofChild : ∀ {child : Child}, child.Beyond v ↔ ∀ k ∈ child.places, v.past ≤ k.index := by
    intro child
    simp [Child.Beyond, Child.places]
  cases call with
  | labelled kind c name help labels =>
    exact (labelled_blind c name help labels kind).map fun _ => ofHandle.mp
  | single kind c name help => exact (single_blind c name help kind).map fun _ => ofChild.mp
  | supplied kind c name help labels =>
    exact (supplied_blind c name help labels kind).map fun _ => ofHandle.mp
  | gauge c name help supplier =>
    exact performed (ifEnabled_blind c (discard_blind (enroll_blind c _)))
  | summary c name help supplier =>
    exact performed (ifEnabled_blind c (discard_blind (enroll_blind c _)))
  | attachCache c name cache => exact performed (attachCache_blind c name cache)
  | init => exact performed init_blind
  | shutdown => exact performed shutdown_blind
  | childOf h kind values =>
    exact (ofAction_blind (h.labels_blind (ofHandle.mpr current) kind values)).map
      fun _ => ofChild.mp
  | supply h supplier values =>
    exact performed (ofAction_blind (h.supply_blind (ofHandle.mpr current) supplier values))
  | increment child amount =>
    exact performed (ofAction_blind (child.increment_blind (ofChild.mpr current) amount))
  | observe child seconds =>
    exact performed (ofAction_blind (child.record_blind (ofChild.mpr current) seconds))
  | start child =>
    refine (ofAction_blind (Timing.start_blind child)).map ?_
    rintro t rfl
    exact current
  | stop timing =>
    refine (ofAction_blind (Timing.stop_blind (ofChild.mpr current))).map ?_
    intro e same
    change ∀ k ∈ e.2.child.places, _
    rw [same]
    exact current
  | observations scope =>
    exact (observations_blind scope).map fun _ _ k hk => absurd hk List.not_mem_nil
  | pull n stream =>
    have later : stream.Beyond v := by
      cases stream with
      | reading p => exact current
      | _ => trivial
    exact system_bind_blind fun s beyond =>
      (ofAction_blind (Stream.pull_blind beyond.roster n later)).bind
        fun _ _ => .pure fun k hk => absurd hk List.not_mem_nil
  | gather =>
    refine system_bind_blind fun s beyond => ?_
    rw [beyond.roster.registry]
    exact (ofAction_blind gather_blind).bind
      fun _ _ => .pure fun k hk => absurd hk List.not_mem_nil
  | sampleValue name labels =>
    refine system_bind_blind fun s beyond => ?_
    rw [beyond.roster.registry]
    exact (ofAction_blind (sampleValue_blind name labels)).bind
      fun _ _ => .pure fun k hk => absurd hk List.not_mem_nil

end Call

/-- With nothing behind the veil, every call keeps the switches and the registry of a system. -/
lemma Moment.veiled_after {v : Veil} {m : Moment} (unveiled : v.past = 0)
    (veiled : m.before.Veiled v m.before) : m.after.Veiled v m.after := by
  have current : m.call.IsCurrent v.past := fun k _ => unveiled ▸ Nat.zero_le _
  have ends : m.after = endOf (m.call.reply m.before) := by
    rw [Moment.after, ← Call.discard_reply, endOf_discard]
  rw [ends]
  rcases Call.reply_blind current m.before m.before veiled with
    ⟨r, e, f, he, hf, -, after⟩ | ⟨fault, e, f, he, hf, after⟩
  · cases he.symm.trans hf
    rw [he]
    exact after
  · cases he.symm.trans hf
    rw [he]
    exact after

namespace Site

variable {v : Veil} {k : CollectorId}

/-- Whatever has happened to the first site, it cannot be seen through the veil. -/
def Behind (v : Veil) (s t : Site) : Prop := ∀ u, s.Veiled v u → t.Veiled v u

instance (v : Veil) : IsPreorder Site (Behind v) where
  refl _ _ veiled := veiled
  trans _ _ _ hst htu u veiled := htu u (hst u veiled)

lemma onInstrument_behind (old : k.index < v.past) (f : Instrument → Instrument) :
    Moves (Behind v) (Handle.onInstrument k f) := by
  refine Moves.modify fun s u veiled => ?_
  split
  · exact veiled.past_withCollector old _
  · exact veiled

lemma checkArity_behind (h : Handle) (values : List String) :
    Moves (Behind v) (h.checkArity values) := by
  rw [Handle.checkArity]
  split
  · exact Moves.pure _
  · exact Moves.throw _

variable {h : Handle} {c : Child}

lemma labels_behind (old : ∀ k ∈ h.target, k.index < v.past) (kind : ChildKind)
    (values : List String) : Moves (Behind v) (h.labels kind values) := by
  refine (checkArity_behind h values).bind fun _ => ?_
  split
  · exact Moves.pure _
  · next k target =>
    exact Moves.get.bind fun _ => (onInstrument_behind (old k target) _).bind fun _ => Moves.pure _

lemma supply_behind (old : ∀ k ∈ h.target, k.index < v.past) (supplier : SupplierId)
    (values : List String) : Moves (Behind v) (h.supply supplier values) := by
  refine (checkArity_behind h values).bind fun _ => ?_
  split
  · exact Moves.pure _
  · next k target =>
    intro s
    rw [Handle.addSupplied, bind_get]
    cases s.collector k with
    | supplied m =>
      by_cases taken : values ∈ m.suppliers
      · simp only [Supplied.add, if_pos taken]
        exact Std.Refl.refl s
      · simp only [Supplied.add, if_neg taken]
        exact fun u veiled => veiled.past_withCollector (old k target) _
    | _ => exact Std.Refl.refl s

lemma record_behind (old : ∀ place ∈ c.target, place.1.index < v.past) (x : Float) :
    Moves (Behind v) (c.record x) := by
  rw [Child.record]
  split
  · exact Moves.pure _
  · next k values target => exact onInstrument_behind (old (k, values) target) _

lemma increment_behind (old : ∀ place ∈ c.target, place.1.index < v.past) (amount : Float) :
    Moves (Behind v) (c.increment amount) := by
  rw [Child.increment]
  split
  · exact Moves.pure _
  · split
    · exact Moves.throw _
    · exact record_behind old amount

lemma start_behind (c : Child) : Moves (Behind v) (Timing.start c) :=
  Moves.get.bind fun _ => Moves.pure _

lemma stop_behind {t : Timing} (old : ∀ place ∈ t.child.target, place.1.index < v.past) :
    Moves (Behind v) t.stop := by
  rw [Timing.stop]
  split
  · exact Moves.pure _
  · exact Moves.get.bind fun _ => (record_behind old _).bind fun _ => Moves.pure _

end Site

/-- Whatever has happened to the first deployment, it cannot be seen through the veil. -/
def Deployment.Behind (v : Veil) (d e : Deployment) : Prop :=
  ∀ f, d.Veiled v f → e.Veiled v f

instance (v : Veil) : IsPreorder Deployment (Deployment.Behind v) where
  refl _ _ veiled := veiled
  trans _ _ _ hde hef f veiled := hef f (hde f veiled)

lemma Operation.ofAction_behind {v : Veil} {α : Type} {a : Action α} (h : Moves (Site.Behind v) a) :
    Moves (Deployment.Behind v) (ofAction a) := by
  intro d f veiled
  rw [endOf_ofAction]
  exact ⟨veiled.system, veiled.beyond, h d.site f.site veiled.site⟩

/-- What is done through a handle of the past stays behind the veil. -/
lemma Call.behind_of_stale {v : Veil} {call : Call} (stale : call.IsStale v.past) :
    Moves (Deployment.Behind v) call.reply := by
  have ofTarget : ∀ {child : Child}, (∃ k ∈ child.places, k.index < v.past) →
      ∀ place ∈ child.target, place.1.index < v.past := by
    rintro child ⟨k, hk, old⟩ place hplace
    rw [Child.places, Option.mem_def.mp hplace] at hk
    rwa [← List.mem_singleton.mp hk]
  have ofHandle : ∀ {h : Handle}, (∃ k ∈ h.target.toList, k.index < v.past) →
      ∀ k ∈ h.target, k.index < v.past := by
    rintro h ⟨j, hj, old⟩ k hk
    rw [Option.mem_def.mp hk] at hj
    rwa [← List.mem_singleton.mp hj]
  have performed : ∀ {x : Operation Unit}, Moves (Deployment.Behind v) x →
      Moves (Deployment.Behind v) (do x; return Reply.done) := fun h => h.bind fun _ => Moves.pure _
  cases call with
  | childOf h kind values =>
    exact (ofAction_behind (labels_behind (ofHandle stale) kind values)).map _
  | supply h supplier values =>
    exact performed (ofAction_behind (supply_behind (ofHandle stale) supplier values))
  | increment child amount =>
    exact performed (ofAction_behind (increment_behind (ofTarget stale) amount))
  | observe child seconds =>
    exact performed (ofAction_behind (record_behind (ofTarget stale) seconds))
  | start child => exact (ofAction_behind (start_behind child)).map _
  | stop timing => exact (ofAction_behind (stop_behind (ofTarget stale))).map _
  | _ => exact absurd stale id

/-- What the surroundings of a system may do. -/
inductive Surrounding where
  | advance (seconds : Float)
  | supplier (t : Supplier)
  | cache (c : CacheInfo)
  | update (i : CacheId) (c : CacheInfo)

namespace Surrounding

/-- Does it. -/
def act : Surrounding → Action Unit
  | advance seconds => Site.advance seconds
  | supplier t => discard (Site.addSupplier t)
  | cache c => discard (Site.addCache c)
  | update i c => Site.updateCache i c

lemma act_blind {v : Veil} (x : Surrounding) : Blind (Site.Veiled v) Anything x.act := by
  cases x with
  | advance seconds =>
    exact .modify fun _ _ h => h.update (g := fun s => { s with clock := s.clock + seconds })
      (fun _ => rfl) (fun _ => rfl) fun _ _ => rfl
  | supplier t =>
    exact fun s u h => Or.inl ⟨(), _, _, rfl, rfl, trivial,
      h.update (g := fun s => { s with suppliers := s.suppliers ++ [t] }) (fun _ => rfl)
        (fun _ => rfl) fun _ _ => rfl⟩
  | cache c =>
    exact fun s u h => Or.inl ⟨(), _, _, rfl, rfl, trivial,
      h.update (g := fun s => { s with caches := s.caches ++ [c] }) (fun _ => rfl)
        (fun _ => rfl) fun _ _ => rfl⟩
  | update i c =>
    exact .modify fun _ _ h => h.update (g := fun s => { s with caches := s.caches.set i.index c })
      (fun _ => rfl) (fun _ => rfl) fun _ _ => rfl

end Surrounding

/-- A call, or something that happens around the system. -/
inductive Deed where
  | call (c : Call)
  | around (x : Surrounding)

namespace Deed

/-- Carries out the deed and gives what it gives. -/
def reply : Deed → Operation Reply
  | call c => c.reply
  | around x => do
    ofAction x.act
    return .done

/-- The deed goes through a handle, a child or a timing of the past. -/
def IsStale (past : Nat) : Deed → Prop
  | call c => c.IsStale past
  | around _ => False

/-- The deed is given no place of the past. -/
def IsCurrent (past : Nat) : Deed → Prop
  | call c => c.IsCurrent past
  | around _ => True

instance (past : Nat) (deed : Deed) : Decidable (deed.IsStale past) := by
  cases deed <;> unfold IsStale <;> infer_instance

/-- The deed does not read on in a stream of the past. -/
def ReadsAnew (past : Nat) : Deed → Prop
  | call c => c.ReadsAnew past
  | around _ => True

lemma stale_or_current {past : Nat} {deed : Deed} (anew : deed.ReadsAnew past) :
    deed.IsStale past ∨ deed.IsCurrent past := by
  cases deed with
  | call c => exact Call.stale_or_current anew
  | around x => exact Or.inr trivial

lemma reply_blind {v : Veil} {deed : Deed} (current : deed.IsCurrent v.past) :
    Blind (Deployment.Veiled v) (fun r => ∀ k ∈ r.places, v.past ≤ k.index) deed.reply := by
  cases deed with
  | call c => exact Call.reply_blind current
  | around x =>
    exact (ofAction_blind x.act_blind).bind fun _ _ => .pure fun k hk => absurd hk List.not_mem_nil

lemma behind_of_stale {v : Veil} {deed : Deed} (stale : deed.IsStale v.past) :
    Moves (Deployment.Behind v) deed.reply := by
  cases deed with
  | call c => exact Call.behind_of_stale stale
  | around x => exact absurd stale id

end Deed

/-- What came out, without the state that was reached. -/
def outcome {α : Type} : EStateM.Result Fault Deployment α → Except Fault α
  | .ok a _ => .ok a
  | .error fault _ => .error fault

/-- The deeds of a run with what each of them gave. -/
def transcript : List Deed → Deployment → List (Deed × Except Fault Reply)
  | [], _ => []
  | deed :: deeds, d =>
    (deed, outcome (deed.reply d)) :: transcript deeds (endOf (deed.reply d))

/-- A run in which handles of the past are used gives the replies of the run in which they are not,
whatever the places of the past hold there. -/
lemma transcript_veiled {v : Veil} {deeds : List Deed} {d e : Deployment} (veiled : d.Veiled v e)
    (anew : ∀ deed ∈ deeds, deed.ReadsAnew v.past) :
    (transcript deeds d).filter (fun entry => ¬ entry.1.IsStale v.past)
      = transcript (deeds.filter fun deed => ¬ deed.IsStale v.past) e := by
  induction deeds generalizing d e with
  | nil => rfl
  | cons deed deeds ih =>
    have rest : ∀ later ∈ deeds, later.ReadsAnew v.past :=
      fun later h => anew later (List.mem_cons_of_mem deed h)
    rw [transcript]
    by_cases stale : deed.IsStale v.past
    · -- the deed stays behind the veil, so the other run need not move
      rw [List.filter_cons_of_neg (by simpa using stale),
        List.filter_cons_of_neg (by simpa using stale)]
      exact ih (Deed.behind_of_stale stale d e veiled) rest
    · -- both runs are given the same, and go on from deployments that look the same again
      have current := (Deed.stale_or_current (anew deed List.mem_cons_self)).resolve_left stale
      rw [List.filter_cons_of_pos (by simpa using stale),
        List.filter_cons_of_pos (by simpa using stale), transcript]
      rcases Deed.reply_blind current d e veiled with
        ⟨r, d', e', hd, he, -, after⟩ | ⟨fault, d', e', hd, he, after⟩
      · rw [hd, he, outcome, endOf, outcome, endOf, ih after rest]
      · rw [hd, he, outcome, endOf, outcome, endOf, ih after rest]

/-- What is given to those who use nothing of the past leads nowhere into the past. -/
lemma places_of_transcript {v : Veil} {deeds : List Deed} {d e : Deployment} (veiled : d.Veiled v e)
    (anew : ∀ deed ∈ deeds, deed.ReadsAnew v.past) {deed : Deed} {r : Reply}
    (entry : (deed, .ok r) ∈ transcript deeds d) (fresh : ¬ deed.IsStale v.past) :
    ∀ k ∈ r.places, v.past ≤ k.index := by
  induction deeds generalizing d e with
  | nil => cases entry
  | cons first deeds ih =>
    have rest : ∀ later ∈ deeds, later.ReadsAnew v.past :=
      fun later h => anew later (List.mem_cons_of_mem first h)
    rcases Deed.stale_or_current (anew first List.mem_cons_self) with stale | current
    · rcases List.mem_cons.mp entry with same | later
      · obtain ⟨rfl, -⟩ := Prod.mk.inj same
        exact absurd stale fresh
      · exact ih (Deed.behind_of_stale stale d e veiled) rest later
    · rcases Deed.reply_blind current d e veiled with
        ⟨r', d', e', hd, -, given, after⟩ | ⟨fault, d', e', hd, -, after⟩
      · rw [transcript, hd] at entry
        rcases List.mem_cons.mp entry with same | later
        · cases same
          exact given
        · exact ih after rest later
      · rw [transcript, hd] at entry
        rcases List.mem_cons.mp entry with same | later
        · cases same
        · exact ih after rest later

end Metering
