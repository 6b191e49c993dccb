import Metering.Proofs.DisplacedHandles
import Metering.Proofs.ExpositionAgreement
import Metering.Proofs.PastIndependence

/-!
# Starting anew

A system that has its registry to itself can always be shut down while no supplier raises, and is as
a new system on an empty registry then. From there on it answers as a new system does, and what is
still done through handles, children and timings from before never shows (`shutdown_resets`).
-/

namespace Metering

open Site Operation Metering.System

section Given

variable {d e : Deployment} {h : Handle} {k : CollectorId}

/-- Every handle that is kept leads to a place of the site. -/
def Deployment.KeepsPlaced (d : Deployment) : Prop :=
  ∀ kind external h, (d.system.handles kind).get? external = some h →
    ∀ k ∈ h.target, k.index < d.site.collectors.length

lemma labels_ok {kind : ChildKind} {values : List String} {s t : Site} {c : Child}
    (taken : h.labels kind values s = .ok c t) : c.places = h.target.toList := by
  obtain ⟨⟨⟩, u, -, taken⟩ := ok_of_bind_ok taken
  cases target : h.target with
  | none =>
    rw [target] at taken
    cases taken
    rfl
  | some k =>
    rw [target] at taken
    cases taken
    rfl

lemma stop_ok {t t' : Timing} {seconds : Float} {s u : Site}
    (stopped : t.stop s = .ok (seconds, t') u) : t'.child = t.child := by
  obtain ⟨c, started, elapsed⟩ := t
  cases elapsed with
  | some earlier =>
    cases stopped
    rfl
  | none =>
    obtain ⟨_, _, got, rest⟩ := ok_of_bind_ok stopped
    cases got
    obtain ⟨⟨⟩, v, -, ends⟩ := ok_of_bind_ok rest
    cases ends
    rfl

lemma labelled_placed {kind : InstrumentKind} {c : Category} {name help : String}
    {labels : List String} (tidy : d.system.roster.Tidy d.site) (kept : d.KeepsPlaced)
    (given : labelled kind c name help labels d = .ok h e) :
    ∀ k ∈ h.target, k.index < e.site.collectors.length := by
  have enrols := labelled_enrols c name help labels kind d
  rw [given] at enrols
  intro k target
  rcases labelled_cases kind c name help labels d with
    ⟨made, found, run⟩ | ⟨-, ⟨fault, u, run, -⟩ | ⟨made, u, built, -, run⟩⟩
  · rw [run] at given
    cases given
    rw [Deployment.declaring_site]
    exact kept kind _ h found k target
  · rw [run] at given
    cases given
  · rw [run] at given
    cases given
    obtain ⟨-, -, registered⟩ := build_ok built
    refine (enrols.tidy tidy).placed (c := c) ?_
    change k ∈ (u.system.keep kind (c.external name) h).roster.ofCategory c
    rw [keep_roster]
    exact (registered k target).2

lemma reply_of_bind {α : Type} {g : α → Reply} {x : Operation α} {r : Reply}
    (gave : outcome ((x >>= fun a => Pure.pure (g a)) d) = .ok r) :
    ∃ a, x d = .ok a (endOf (x d)) ∧ r = g a := by
  cases run : x d with
  | ok a e =>
    rw [bind_of_ok run] at gave
    exact ⟨a, rfl, (Except.ok.inj gave).symm⟩
  | error fault e =>
    rw [bind_of_error run] at gave
    cases gave

lemma reply_of_map {α : Type} {g : α → Reply} {x : Operation α} {r : Reply}
    (gave : outcome ((g <$> x) d) = .ok r) :
    ∃ a, x d = .ok a (endOf (x d)) ∧ r = g a := by
  rw [← bind_pure_comp] at gave
  exact reply_of_bind gave

/-- What a call gives leads to places of the site if what it was given does. -/
lemma Moment.reply_placed {m : Moment} (tidy : m.before.system.roster.Tidy m.before.site)
    (kept : m.before.KeepsPlaced)
    (given : ∀ k ∈ m.call.places, k.index < m.before.site.collectors.length) {r : Reply}
    (gave : outcome (m.call.reply m.before) = .ok r) :
    ∀ k ∈ r.places, k.index < m.after.site.collectors.length := by
  have room := m.grows.room
  obtain ⟨d, call⟩ := m
  have passed : ∀ {ks : List CollectorId}, (∀ k ∈ ks, k.index < d.site.collectors.length) →
      ∀ k ∈ ks, k.index < (Moment.after ⟨d, call⟩).site.collectors.length :=
    fun placed k hk => Nat.lt_of_lt_of_le (placed k hk) room
  have nowhere : ∀ {r : Reply}, r.places = [] →
      ∀ k ∈ r.places, k.index < (Moment.after ⟨d, call⟩).site.collectors.length := by
    intro r none_there k hk
    rw [none_there] at hk
    cases hk
  cases call with
  | labelled kind c name help labels =>
    obtain ⟨h, made, rfl⟩ := reply_of_map gave
    rw [Moment.after_discard rfl]
    exact fun k hk => labelled_placed tidy kept made k (Option.mem_toList.mp hk)
  | supplied kind c name help labels =>
    obtain ⟨h, made, rfl⟩ := reply_of_map gave
    rw [Moment.after_discard rfl]
    exact fun k hk => ((supplied_ok made).2.2.2 k (Option.mem_toList.mp hk)).2.1
  | single kind c name help =>
    obtain ⟨child, made, rfl⟩ := reply_of_map gave
    rw [Moment.after_discard rfl]
    obtain ⟨h, u, obtained, lifted⟩ := ok_of_bind_ok made
    obtain ⟨t, taken, ends⟩ := action_of_ok lifted
    have grown := ((h.labels_aside _ _).of_ok taken).grows.room
    intro k hk
    change k ∈ child.places at hk
    rw [labels_ok taken, Option.mem_toList] at hk
    have placed := labelled_placed tidy kept obtained k hk
    rw [ends]
    exact Nat.lt_of_lt_of_le placed grown
  | childOf h kind values =>
    obtain ⟨child, made, rfl⟩ := reply_of_map gave
    obtain ⟨t, taken, -⟩ := action_of_ok made
    refine passed fun k hk => given k ?_
    change k ∈ child.places at hk
    rwa [labels_ok taken] at hk
  | start child =>
    obtain ⟨timing, made, rfl⟩ := reply_of_map gave
    cases made
    exact passed given
  | stop timing =>
    obtain ⟨⟨seconds, t⟩, made, rfl⟩ := reply_of_map gave
    obtain ⟨u, stopped, -⟩ := action_of_ok made
    refine passed fun k hk => given k ?_
    change k ∈ t.child.places at hk
    rwa [stop_ok stopped] at hk
  | observations scope =>
    obtain ⟨os, -, rfl⟩ := reply_of_map gave
    exact nowhere rfl
  | pull n stream =>
    obtain ⟨p, -, rfl⟩ := reply_of_bind (x := ofAction (Stream.pull d.system n stream)) gave
    exact nowhere rfl
  | gather =>
    obtain ⟨fs, -, rfl⟩ := reply_of_bind (x := ofAction (Site.gather _)) gave
    exact nowhere rfl
  | sampleValue name labels =>
    obtain ⟨x, -, rfl⟩ := reply_of_bind (x := ofAction (Site.sampleValue _ name labels)) gave
    exact nowhere rfl
  | _ =>
    obtain ⟨⟨⟩, -, rfl⟩ := reply_of_bind (g := fun _ => Reply.done) gave
    exact nowhere rfl

lemma Run.keepsPlaced {others : Deployment → Site → Prop} {start : Deployment} {ms : List Moment}
    (run : Run others start ms d) (growing : ∀ d t, others d t → d.site.Grows t)
    (first : start.system.roster.Tidy start.site)
    (none_kept : ∀ kind external, (start.system.handles kind).get? external = none) :
    d.KeepsPlaced := by
  intro kind external h kept k target
  obtain ⟨earlier, m, later, c, split, -, registered, -⟩ :=
    run.kept_since (none_kept kind external) kept target
  refine run.placed growing first ?_ registered
  rw [split]
  exact List.mem_append_right earlier List.mem_cons_self

/-- What a call of a run gives leads to places of the site if what it was given does. -/
lemma Run.reply_placed {others : Deployment → Site → Prop} {start : Deployment} {ms : List Moment}
    (run : Run others start ms d) (growing : ∀ d t, others d t → d.site.Grows t)
    (first : start.system.roster.Tidy start.site)
    (none_kept : ∀ kind external, (start.system.handles kind).get? external = none)
    {m : Moment} (hm : m ∈ ms)
    (given : ∀ k ∈ m.call.places, k.index < m.before.site.collectors.length) {r : Reply}
    (gave : outcome (m.call.reply m.before) = .ok r) :
    ∀ k ∈ r.places, k.index < d.site.collectors.length := by
  induction run with
  | start => exact absurd hm List.not_mem_nil
  | @call ms d run call ih =>
    rcases List.mem_append.mp hm with old | new
    · have room := (Moment.grows ⟨d, call⟩).room
      exact fun k hk => Nat.lt_of_lt_of_le (ih old k hk) room
    · obtain rfl := List.mem_singleton.mp new
      exact Moment.reply_placed (run.tidy growing first)
        (run.keepsPlaced growing first none_kept) given gave
  | others _ h ih => exact fun k hk => Nat.lt_of_lt_of_le (ih hm k hk) (growing _ _ h).room

end Given

/-- The system has its registry to itself, and both have the switches of the veil. -/
structure Deployment.Undisturbed (v : Veil) (d : Deployment) : Prop where
  sound : d.Sound
  sole : d.system.roster.Sole d.site
  veiled : d.Veiled v d

section Undisturbed

variable {v : Veil} {d : Deployment}

lemma Deployment.Undisturbed.called {m : Moment} (unveiled : v.past = 0)
    (h : m.before.Undisturbed v) : m.after.Undisturbed v :=
  ⟨m.sound h.sound, m.sole h.sound h.sole, Moment.veiled_after unveiled h.veiled⟩

lemma Deployment.Undisturbed.leftAlone {t : Site} (unveiled : v.past = 0)
    (h : d.Undisturbed v) (alone : d.LeftAlone t) (calm : t.Calm) :
    Deployment.Undisturbed v { d with site := t } where
  sound := alone.sound calm h.sound
  sole := alone.sole h.sound.tidy h.sole
  veiled := by
    refine Deployment.veiled_self unveiled h.veiled.beyond ?_
    have describes := h.veiled.site.describes
    rw [← h.veiled.beyond.roster.registry] at describes ⊢
    rw [alone.registry]
    exact describes

/-- A system that has its registry to itself can be shut down, and leaves the registry empty. -/
lemma Deployment.Undisturbed.shutdown (h : d.Undisturbed v) :
    ∃ t, System.shutdown d = .ok () ⟨fresh v.enabled v.timers v.registry, t⟩
      ∧ Rearranged v.registry d.site t ∧ t.registry v.registry = .vacant v.describes := by
  obtain ⟨t, completes⟩ := shutdown_ok h.sound.tidy h.sound.backed
  have moved := rearranged_shutdown d
  have sole := sole_shutdown h.sound h.sole
  have blind := shutdown_blind d d h.veiled
  rw [completes] at moved sole
  have reset_eq : reset d.system = fresh v.enabled v.timers v.registry := by
    rw [reset, h.veiled.beyond.enabled, h.veiled.beyond.timers, h.veiled.beyond.roster.registry]
  rw [h.veiled.beyond.roster.registry] at moved
  rw [reset_eq] at completes sole
  refine ⟨t, completes, moved, ?_⟩
  -- whatever the registry still held or knew would have to be listed, and nothing is
  have held : (t.registry v.registry).held = ∅ := by
    refine Index.eq_empty_of_get? fun k => Index.get?_eq_none_iff.mpr fun hk => ?_
    obtain ⟨c, listed⟩ := sole.held k hk
    cases listed
  have owners : (t.registry v.registry).owners = ∅ := by
    refine Index.eq_empty_of_get? fun name => ?_
    cases owned : (t.registry v.registry).owners.get? name with
    | none => rfl
    | some k =>
      obtain ⟨⟨c, listed⟩, -⟩ := sole.owned name k owned
      cases listed
  rcases blind with ⟨_, e, f, he, -, -, after⟩ | ⟨fault, e, f, he, -⟩
  · cases completes.symm.trans he
    have describes := after.site.describes
    calc t.registry v.registry
      _ = ⟨(t.registry v.registry).describes, (t.registry v.registry).held,
            (t.registry v.registry).owners⟩ := rfl
      _ = .vacant v.describes := by
        rw [describes, held, owners]
        rfl
  · rw [completes] at he
    cases he

/-- A new system sees nothing of the past, whatever the places of the past hold. -/
lemma Deployment.veiled_fresh {enabled : Distinct Category} {timers describes : Bool}
    {r : RegistryId} {t u : Site} (vacant : t.registry r = .vacant describes)
    (rest : u = { t with collectors := u.collectors })
    (room : u.collectors.length = t.collectors.length) :
    Deployment.Veiled ⟨t.collectors.length, r, describes, enabled, timers⟩
      ⟨fresh enabled timers r, t⟩ ⟨fresh enabled timers r, u⟩ := by
  refine ⟨rfl, beyond_fresh ⟨_, r, describes, enabled, timers⟩, rest, room, Nat.le_refl _,
    ?_, ?_, ?_⟩
  · intro k later
    rw [collector, collector, List.getElem?_eq_none later, List.getElem?_eq_none (room ▸ later)]
  · intro k hk
    change k ∈ (t.registry r).held at hk
    rw [vacant] at hk
    exact absurd hk List.not_mem_nil
  · change (t.registry r).describes = describes
    rw [vacant]
    rfl

end Undisturbed

/-- A system that has its registry to itself can be shut down after every run without raising
suppliers, and is a new system on an empty registry then. From there on, whatever is done through
handles, children and timings of the past, all others are given the same as if it were not done,
whatever the collectors of the past hold, and never a place of the past. -/
theorem shutdown_resets {enabled : Distinct Category} {timers describes : Bool} {r : RegistryId}
    {s : Site} (room : r.index < s.registries.length) (vacant : s.registry r = .vacant describes)
    (calm : s.Calm) {ms : List Moment} {d : Deployment}
    (run : Run (fun d t => d.LeftAlone t ∧ t.Calm) ⟨fresh enabled timers r, s⟩ ms d) :
    ∃ t, System.shutdown d = .ok () ⟨fresh enabled timers r, t⟩
      ∧ Rearranged r d.site t ∧ t.registry r = .vacant describes
      ∧ (∀ m ∈ ms, (∀ k ∈ m.call.places, k.index < m.before.site.collectors.length) →
          ∀ reply, outcome (m.call.reply m.before) = .ok reply →
            ∀ k ∈ reply.places, k.index < t.collectors.length)
      ∧ ∀ deeds : List Deed, (∀ deed ∈ deeds, deed.ReadsAnew t.collectors.length) →
          (∀ u : Site, u = { t with collectors := u.collectors } →
            u.collectors.length = t.collectors.length →
            (transcript deeds ⟨fresh enabled timers r, t⟩).filter
                (fun entry => ¬ entry.1.IsStale t.collectors.length)
              = transcript (deeds.filter fun deed => ¬ deed.IsStale t.collectors.length)
                ⟨fresh enabled timers r, u⟩)
          ∧ ∀ deed reply, (deed, .ok reply) ∈ transcript deeds ⟨fresh enabled timers r, t⟩ →
            ¬ deed.IsStale t.collectors.length →
            ∀ k ∈ reply.places, t.collectors.length ≤ k.index := by
  let v : Veil := ⟨0, r, describes, enabled, timers⟩
  have growing : ∀ (d : Deployment) t, d.LeftAlone t ∧ t.Calm → d.site.Grows t :=
    fun _ _ h => h.1.grows
  have first : Deployment.Undisturbed v ⟨fresh enabled timers r, s⟩ := by
    refine ⟨sound_fresh room calm, Deployment.sole_vacant vacant,
      Deployment.veiled_self rfl (beyond_fresh v) ?_⟩
    change (s.registry r).describes = describes
    rw [vacant]
    rfl
  have undisturbed : d.Undisturbed v :=
    run.invariant first (fun _ h => h.called rfl) fun _ _ h others =>
      h.leftAlone rfl others.1 others.2
  obtain ⟨t, completes, frame, empty⟩ := undisturbed.shutdown
  refine ⟨t, completes, frame, empty, ?_, ?_⟩
  · intro m hm given reply gave
    rw [frame.rest]
    exact run.reply_placed growing first.sound.tidy (fun kind _ => by cases kind <;> rfl) hm given
      gave
  · intro deeds anew
    have veiled : ∀ u : Site, u = { t with collectors := u.collectors } →
        u.collectors.length = t.collectors.length →
        Deployment.Veiled ⟨t.collectors.length, r, describes, enabled, timers⟩
          ⟨fresh enabled timers r, t⟩ ⟨fresh enabled timers r, u⟩ :=
      fun u rest room => Deployment.veiled_fresh empty rest room
    refine ⟨fun u rest room => transcript_veiled (veiled u rest room) anew, ?_⟩
    exact fun deed reply entry current => places_of_transcript (veiled t rfl rfl) anew entry current

/-- What may come after a shutdown of the replaced counter: an increment through a child from before
it, the same counter once more, and a look at what there is. -/
def aftermath : List Deed :=
  [.call (.increment ⟨.counter, some (⟨0⟩, [])⟩ 5),
    .call (.labelled .counter ⟨"shop", none⟩ "jobs" "h" []), .call (.observations none)]

theorem shutdown_resets_replaced :
    (⟨0⟩ : RegistryId).index < Site.small.registries.length
      ∧ Site.small.registry ⟨0⟩ = .vacant true ∧ Site.small.Calm
      ∧ ∃ t, System.shutdown replaced = .ok () ⟨fresh (.ofList [⟨"shop", none⟩]) true ⟨0⟩, t⟩
        ∧ t.collectors.length = 2 ∧ t.registry ⟨0⟩ = .vacant true
        ∧ (∀ m ∈ moments (.small [⟨"shop", none⟩]) replacement,
            ∀ reply, outcome (m.call.reply m.before) = .ok reply →
              ∀ k ∈ reply.places, k.index < 2)
        ∧ (∀ u : Site, u = { t with collectors := u.collectors } → u.collectors.length = 2 →
            (transcript aftermath ⟨fresh (.ofList [⟨"shop", none⟩]) true ⟨0⟩, t⟩).filter
                (fun entry => ¬ entry.1.IsStale 2)
              = transcript aftermath.tail ⟨fresh (.ofList [⟨"shop", none⟩]) true ⟨0⟩, u⟩)
        ∧ ∀ deed reply,
            (deed, .ok reply) ∈
              transcript aftermath ⟨fresh (.ofList [⟨"shop", none⟩]) true ⟨0⟩, t⟩ →
            ¬ deed.IsStale 2 → ∀ k ∈ reply.places, 2 ≤ k.index := by
  refine ⟨by decide, rfl, Site.small_calm, ?_⟩
  obtain ⟨t, completes, frame, empty, placed, later⟩ :=
    shutdown_resets (by decide) rfl Site.small_calm
      (Run.of_calls _ (.small [⟨"shop", none⟩]) replacement)
  have two : t.collectors.length = 2 := by
    rw [frame.rest]
    rfl
  have given : ∀ m ∈ moments (.small [⟨"shop", none⟩]) replacement, m.call.places = [] := by
    decide
  rw [two] at placed later
  have anew : ∀ deed ∈ aftermath, deed.ReadsAnew 2 := by
    simp [aftermath, Deed.ReadsAnew, Call.ReadsAnew]
  obtain ⟨same, current⟩ := later aftermath anew
  refine ⟨t, completes, two, empty, ?_, same, current⟩
  intro m hm
  refine placed m hm fun k hk => ?_
  rw [given m hm] at hk
  cases hk

end Metering
