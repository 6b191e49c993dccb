import Metering.Proofs.RecordedAmountsShown
import Metering.Proofs.SystemMemory

/-!
# Handles whose collector was displaced

A collector that shares a family name with a new one of its category gives way to it, and nobody
tells the handles. So the handle that is kept for an external name goes on leading to its collector,
which is listed and held exactly as long as no later call has displaced it, and up to then shows
whatever is recorded.
-/

namespace Metering

open Metering.System

/-- Others have taken nothing of what the system lists out of its registry. -/
structure Deployment.Spared (d : Deployment) (t : Site) : Prop where
  grows : d.site.Grows t
  room : d.site.registries.length ≤ t.registries.length
  describes : (t.registry d.system.roster.registry).describes = d.registry.describes
  holds : ∀ {k c names}, k ∈ d.listed c → d.registry.Holds k names →
    (t.registry d.system.roster.registry).Holds k names

lemma Deployment.Sound.spared {d : Deployment} {t : Site} (sound : d.Sound) (spared : d.Spared t)
    (calm : t.Calm) : Deployment.Sound { d with site := t } where
  tidy := sound.tidy.grows spared.grows
  backed := by
    constructor
    · exact Nat.lt_of_lt_of_le sound.backed.room spared.room
    · intro k c listed
      have same := Collector.claims_congr (spared.grows.declared k (sound.tidy.placed listed))
      change (t.registry d.system.roster.registry).Holds k
        ((t.collector k).claims (t.registry d.system.roster.registry).describes)
      rw [spared.describes, same]
      exact spared.holds listed (sound.backed.holds listed)
  calm := calm

namespace Moment

def Displaces (m : Moment) (c : Category) (k : CollectorId) : Prop :=
  ∃ j, m.Registers c j ∧ (m.after.site.collector j).Shares (m.after.site.collector k)

variable {m : Moment} {c : Category} {k : CollectorId}

lemma resets_of_shutdown (sound : m.before.Sound) (h : m.call = .shutdown) : m.resets = true := by
  obtain ⟨d, call⟩ := m
  subst h
  obtain ⟨t, completes⟩ := shutdown_ok sound.tidy sound.backed
  rw [resets, returned, Call.perform, completes]
  rfl

/-- A listed collector stays listed exactly if the call does not displace it. -/
lemma listed_after_iff (tidy : m.before.system.roster.Tidy m.before.site) (h : m.call ≠ .shutdown)
    (listed : k ∈ m.before.listed c) : k ∈ m.after.listed c ↔ ¬ m.Displaces c k := by
  have placed := tidy.placed listed
  constructor
  · rintro stays ⟨j, ⟨late, new⟩, shared⟩
    have same := (m.tidy tidy).disjoint new stays shared
    subst same
    omega
  · intro spared
    refine ((enrols h).displaced (fitting_offers m.call).apart tidy listed).resolve_right ?_
    rintro ⟨j, new, late, shared⟩
    exact spared ⟨j, ⟨late, new⟩, shared⟩

/-- A call that gives a handle registers nothing but an instrument. -/
lemma instrument_of_registers (tidy : m.before.system.roster.Tidy m.before.site)
    {kind : InstrumentKind} {external : String} {c₀ : Category}
    (provided : m.provider? kind external = some c₀) (registered : m.Registers c k) :
    ∃ i, m.after.site.collector k = .instrument i := by
  obtain ⟨-, asked, name, request, -, -⟩ := provider?_eq_some_iff.mp provided
  have offered := offered_of_registers tidy registered
  obtain ⟨d, call⟩ := m
  cases call with
  | labelled | single =>
    exact Collector.instrument_of_declared (congrArg Prod.snd (List.mem_singleton.mp offered))
  | _ => cases request

end Moment

section Runs

variable {start d : Deployment} {ms : List Moment}

lemma Run.sound (run : Run (fun d t => d.Spared t ∧ t.Calm) start ms d) (first : start.Sound) :
    d.Sound :=
  run.invariant first (fun _ h => Moment.sound h) fun _ _ h disturbed =>
    h.spared disturbed.1 disturbed.2

/-- A collector that was registered is listed where it was registered, and nowhere else, exactly if
no later call has displaced it. -/
lemma Run.listed_iff_of_registers (run : Run (fun d t => d.Spared t ∧ t.Calm) start ms d)
    (first : start.Sound) {earlier later : List Moment} {m : Moment} {c : Category}
    {k : CollectorId} (split : ms = earlier ++ m :: later) (registered : m.Registers c k)
    (going : ∀ m' ∈ later, m'.resets = false) :
    (∀ c', k ∈ d.listed c' → c' = c) ∧ (k ∈ d.listed c ↔ ∀ m' ∈ later, ¬ m'.Displaces c k) := by
  induction run generalizing later with
  | start => simp at split
  | @call ms d run call ih =>
    have sound := run.sound first
    rcases split_snoc split with ⟨-, rfl, rfl⟩ | ⟨later, rfl, old⟩
    · refine ⟨fun c' now => ?_, iff_of_true registered.2 (by simp)⟩
      exact (Moment.tidy (m := ⟨d, call⟩) sound.tidy).apart now registered.2
    · simp only [List.mem_append, List.mem_singleton, or_imp, forall_and, forall_eq] at going ⊢
      obtain ⟨apart, listed⟩ := ih old going.1
      have ongoing : call ≠ .shutdown := by
        intro h
        have resets := Moment.resets_of_shutdown (m := ⟨d, call⟩) sound h
        rw [going.2] at resets
        cases resets
      have placed := run.placed (fun _ _ h => h.1.grows) first.tidy
        (by rw [old]; exact List.mem_append_right earlier List.mem_cons_self) registered
      have before : ∀ c', k ∈ (Moment.after ⟨d, call⟩).listed c' → k ∈ d.listed c' := by
        intro c' now
        rcases Moment.listed_after now with ⟨-, old | ⟨⟨late, -⟩, -⟩⟩
        · exact old
        · have late : d.site.collectors.length ≤ k.index := late
          omega
      refine ⟨fun c' now => apart c' (before c' now), ?_⟩
      rw [← listed]
      constructor
      · intro now
        exact ⟨before c now, (Moment.listed_after_iff sound.tidy ongoing (before c now)).mp now⟩
      · rintro ⟨old, spared⟩
        exact (Moment.listed_after_iff (m := ⟨d, call⟩) sound.tidy ongoing old).mpr spared
  | others _ _ ih => exact ih split going

/-- A handle that is kept was made by one call, and there has been no reset since. -/
lemma Run.kept_since {others : Deployment → Site → Prop} (run : Run others start ms d)
    {kind : InstrumentKind} {external : String} {h : Handle} {k : CollectorId}
    (none_kept : (start.system.handles kind).get? external = none)
    (kept : (d.system.handles kind).get? external = some h) (target : h.target = some k) :
    ∃ earlier m later c, ms = earlier ++ m :: later ∧ m.provider? kind external = some c
      ∧ m.Registers c k ∧ ∀ m' ∈ later, m'.resets = false := by
  obtain ⟨earlier, m, later, split, ⟨c, given, registers⟩, going⟩ :=
    run.remembered_since (fun s => (s.handles kind).get? external)
      (fun m h => ∃ c, m.provider? kind external = some c
        ∧ ∀ k, h.target = some k → m.Registers c k)
      (fun m => by
        rcases m.kept_after kind external with
          forgotten | ⟨going, same, -⟩ | ⟨-, -, c, made, given, kept, -, registers⟩
        · exact Or.inl forgotten
        · exact Or.inr (Or.inl ⟨going, same⟩)
        · exact Or.inr (Or.inr ⟨made, kept, c, given, registers⟩))
      none_kept kept
  exact ⟨earlier, m, later, c, split, given, registers k target, going⟩

/-- The collector of a kept handle was registered by the call that made the handle, and it is listed
where it was registered exactly if no later call has displaced it. -/
lemma Run.kept_listed_iff (run : Run (fun d t => d.Spared t ∧ t.Calm) start ms d)
    (first : start.Sound) {kind : InstrumentKind} {external : String} {h : Handle}
    {k : CollectorId} (none_kept : (start.system.handles kind).get? external = none)
    (kept : (d.system.handles kind).get? external = some h) (target : h.target = some k) :
    ∃ earlier m later c, ms = earlier ++ m :: later ∧ m.provider? kind external = some c
      ∧ m.Registers c k ∧ (∀ m' ∈ later, m'.resets = false)
      ∧ (∀ c', k ∈ d.listed c' → c' = c)
      ∧ (k ∈ d.listed c ↔ ∀ m' ∈ later, ¬ m'.Displaces c k) := by
  obtain ⟨earlier, m, later, c, split, given, registered, going⟩ :=
    run.kept_since none_kept kept target
  exact ⟨earlier, m, later, c, split, given, registered, going,
    run.listed_iff_of_registers first split registered going⟩

/-- The collector of a handle that was given is an instrument for good. -/
lemma Run.instrument_of_registers {others : Deployment → Site → Prop} (run : Run others start ms d)
    (growing : ∀ d t, others d t → d.site.Grows t) (first : start.system.roster.Tidy start.site)
    {m : Moment} (hm : m ∈ ms) {kind : InstrumentKind} {external : String} {c : Category}
    {k : CollectorId} (provided : m.provider? kind external = some c)
    (registered : m.Registers c k) : ∃ i, d.site.collector k = .instrument i := by
  have before := run.before_tidy growing first hm
  obtain ⟨i, made⟩ := Moment.instrument_of_registers before provided registered
  have placed := (Moment.tidy before).placed registered.2
  have same := (run.after_grows growing hm).declared k placed
  rw [made] at same
  exact Collector.instrument_of_declared same

/-- Asking for an instrument gives an active handle whose collector is listed and held exactly if no
call after the one that made the handle has registered, under the same category, a collector that
shares a family name with it. In that case whatever is recorded through the handle shows. -/
theorem active_iff_not_displaced {enabled : Distinct Category} {timers : Bool} {r : RegistryId}
    {s : Site} {e : Deployment} {kind : InstrumentKind} {c : Category} {name help : String}
    {labels : List String} {h : Handle} {k : CollectorId} (room : r.index < s.registries.length)
    (calm : s.Calm)
    (run : Run (fun d t => d.Spared t ∧ t.Calm) ⟨fresh enabled timers r, s⟩ ms d)
    (given : labelled kind c name help labels d = .ok h e) (active : h.target = some k) :
    ∃ earlier m later c₀,
      ms ++ [⟨d, .labelled kind c name help labels⟩] = earlier ++ m :: later
      ∧ m.provider? kind (c.external name) = some c₀ ∧ m.Registers c₀ k
      ∧ (∀ m' ∈ later, m'.resets = false)
      ∧ ((∃ c', k ∈ e.listed c') ∧ k ∈ e.registry.held ↔ ∀ m' ∈ later, ¬ m'.Displaces c₀ k)
      ∧ ((∀ m' ∈ later, ¬ m'.Displaces c₀ k) → e.Effective c₀ k h kind.childKind) := by
  have first : Deployment.Sound ⟨fresh enabled timers r, s⟩ :=
    ⟨tidy_vacant r s, backed_vacant room, calm⟩
  have ends : Moment.after ⟨d, .labelled kind c name help labels⟩ = e := by
    rw [Moment.after, Call.perform, endOf_discard, given]
    rfl
  have whole := run.call (.labelled kind c name help labels)
  rw [ends] at whole
  obtain ⟨earlier, m, later, c₀, split, provided, registered, going, apart, listed⟩ :=
    whole.kept_listed_iff first (by cases kind <;> rfl) (kept_of_labelled given) active
  have sound := whole.sound first
  refine ⟨earlier, m, later, c₀, split, provided, registered, going, ?_⟩
  rw [← listed]
  constructor
  · constructor
    · rintro ⟨⟨c', now⟩, -⟩
      have same := apart c' now
      subst same
      exact now
    · intro now
      exact ⟨⟨c₀, now⟩, sound.backed.mem_held now⟩
  · intro now
    have made : m ∈ ms ++ [⟨d, .labelled kind c name help labels⟩] := by simp [split]
    obtain ⟨i, instrument⟩ := whole.instrument_of_registers (fun _ _ h => h.1.grows) first.tidy
      made provided registered
    exact sound.effective now instrument active kind.childKind

theorem active_iff_not_displaced_replaced :
    (⟨0⟩ : RegistryId).index < Site.small.registries.length ∧ Site.small.Calm ∧ ∃ h e k,
      labelled .counter ⟨"shop", none⟩ "jobs" "h" [] replaced = .ok h e ∧ h.target = some k
      ∧ ∃ earlier m later c₀,
        moments (.small [⟨"shop", none⟩]) replacement
            ++ [⟨replaced, .labelled .counter ⟨"shop", none⟩ "jobs" "h" []⟩]
          = earlier ++ m :: later
        ∧ m.provider? .counter "shop_jobs" = some c₀ ∧ m.Registers c₀ k
        ∧ (∀ m' ∈ later, m'.resets = false)
        ∧ ((∃ c', k ∈ e.listed c') ∧ k ∈ e.registry.held ↔ ∀ m' ∈ later, ¬ m'.Displaces c₀ k)
        ∧ ((∀ m' ∈ later, ¬ m'.Displaces c₀ k) → e.Effective c₀ k h .counter) :=
  ⟨by decide, Site.small_calm, _, _, _, rfl, rfl,
    active_iff_not_displaced (by decide) Site.small_calm
      (Run.of_calls _ (.small [⟨"shop", none⟩]) replacement) rfl rfl⟩

/-- The handle that is given again after the gauge has come is active, and leads to a collector that
is neither listed nor held. -/
theorem active_but_displaced : ∃ h e k,
    labelled .counter ⟨"shop", none⟩ "jobs" "h" [] replaced = .ok h e ∧ h.target = some k
      ∧ k ∉ e.system.roster.collectors ∧ k ∉ e.registry.held :=
  ⟨_, _, _, rfl, rfl, by decide, by decide⟩

end Runs

end Metering
