import Metering.Proofs.RegistryRecords
import Metering.Proofs.SystemMemory

/-!
# Runs of a roster

A roster is also used without a system: whoever has it registers collectors and dismisses them, in
any order and whatever becomes of the calls. A run remembers each call with the state that it found
(`Roster.Turn`), and what others do to the site between two calls is a parameter. A system uses its
roster in no other way, so that a run of a system is also one of its roster (`Run.roster`). In every
state of a run, no two collectors of a category give a family of the same name.
-/

namespace Metering

open Site

namespace Roster

/-- A call of a roster. -/
inductive Call where
  | register (c : Category) (k : CollectorId)
  | dismiss

/-- The collector that is to be registered has its place on the site. -/
def Call.Placed (s : Site) : Call → Prop
  | register _ k => k.index < s.collectors.length
  | dismiss => True

instance (s : Site) : (call : Call) → Decidable (call.Placed s)
  | .register _ k => inferInstanceAs (Decidable (k.index < s.collectors.length))
  | .dismiss => inferInstanceAs (Decidable True)

/-- A call with the roster and the site that it found. -/
structure Turn where
  roster : Roster
  site : Site
  call : Call

namespace Turn

/-- The roster and the site after the call. -/
def after (m : Turn) : Roster × Site :=
  match m.call with
  | .register c k =>
    match m.roster.register c k m.site with
    | .ok r t => (r, t)
    | .error _ t => (m.roster, t)
  | .dismiss => (m.roster.emptied, endOf (m.roster.dismiss m.site))

/-- The call is a dismissal that failed. -/
def Breaks (m : Turn) : Prop :=
  m.call = .dismiss ∧ ∃ fault t, m.roster.dismiss m.site = .error fault t

end Turn

/-- The turns of a run and the state that it has reached. -/
inductive Run (others : RegistryId → Site → Site → Prop) (r₀ : Roster) (s₀ : Site) :
    List Turn → Roster → Site → Prop
  | start : Run others r₀ s₀ [] r₀ s₀
  | call {turns : List Turn} {r : Roster} {s : Site} (run : Run others r₀ s₀ turns r s)
      (call : Call) (placed : call.Placed s) :
      Run others r₀ s₀ (turns ++ [⟨r, s, call⟩])
        (Turn.after ⟨r, s, call⟩).1 (Turn.after ⟨r, s, call⟩).2
  | others {turns : List Turn} {r : Roster} {s t : Site} (run : Run others r₀ s₀ turns r s)
      (h : others r.registry s t) : Run others r₀ s₀ turns r t

/-- A registration either succeeds or leaves the roster. -/
lemma after_register (r : Roster) (s : Site) (c : Category) (k : CollectorId) :
    (∃ r' t, r.register c k s = .ok r' t ∧ Turn.after ⟨r, s, .register c k⟩ = (r', t))
      ∨ ∃ fault t, r.register c k s = .error fault t
        ∧ Turn.after ⟨r, s, .register c k⟩ = (r, t) := by
  cases h : r.register c k s with
  | ok r' t => exact Or.inl ⟨r', t, rfl, by simp only [Turn.after, h]⟩
  | error fault t => exact Or.inr ⟨fault, t, rfl, by simp only [Turn.after, h]⟩

/-- A dismissal leaves nothing listed, whether it completes or not. -/
lemma after_dismiss (r : Roster) (s : Site) :
    Turn.after ⟨r, s, .dismiss⟩ = (r.emptied, endOf (r.dismiss s)) := rfl

/-- The state after calls that follow one another. -/
def afterCalls : Roster × Site → List Call → Roster × Site
  | state, [] => state
  | (r, s), call :: calls => afterCalls (Turn.after ⟨r, s, call⟩) calls

lemma Turn.rearranged (m : Turn) : Rearranged m.roster.registry m.site m.after.2 := by
  obtain ⟨r, s, call⟩ := m
  cases call with
  | dismiss => exact System.dismiss_moves r s
  | register c k =>
    rcases after_register r s c k with ⟨r', t, ok, ends⟩ | ⟨fault, t, failed, ends⟩
    · rw [ends]
      exact (register_moves r c k).of_ok ok
    · rw [ends]
      exact (register_moves r c k).of_error failed

namespace Run

variable {others : RegistryId → Site → Site → Prop} {r₀ r : Roster} {s₀ s : Site}
  {turns : List Turn}

/-- An invariant that every call keeps, whether it fails or not, and the others too, holds after
every run. -/
lemma invariant {P : Roster → Site → Prop} (run : Run others r₀ s₀ turns r s) (first : P r₀ s₀)
    (registered : ∀ {r r' s t c k}, P r s → k.index < s.collectors.length →
      r.register c k s = .ok r' t → P r' t)
    (refused : ∀ {r s t c k fault}, P r s → k.index < s.collectors.length →
      r.register c k s = .error fault t → P r t)
    (dismissed : ∀ {r s}, P r s → P r.emptied (endOf (r.dismiss s)))
    (disturbed : ∀ {r s t}, P r s → others r.registry s t → P r t) : P r s := by
  induction run with
  | start => exact first
  | @call _ r s _ call placed ih =>
    cases call with
    | dismiss => exact dismissed ih
    | register c k =>
      rcases after_register r s c k with ⟨r', t, ok, ends⟩ | ⟨fault, t, failed, ends⟩
      · rw [ends]
        exact registered ih placed ok
      · rw [ends]
        exact refused ih placed failed
  | others _ h ih => exact disturbed ih h

lemma reached (run : Run (fun i s t => s.Disturbs i t) r₀ s₀ turns r s)
    (first : r₀.Reached s₀) : r.Reached s := by
  apply run.invariant first
  · exact fun h placed ok => .registered h placed ok
  · exact fun h placed failed => .refused h placed failed
  · exact fun h => .dismissed h
  · exact fun h disturbed => .disturbed h disturbed

lemma append_calls (run : Run others r₀ s₀ turns r s) (calls : List Call)
    (placed : ∀ call ∈ calls, call.Placed s) :
    ∃ later, Run others r₀ s₀ (turns ++ later) (afterCalls (r, s) calls).1
      (afterCalls (r, s) calls).2 := by
  induction calls generalizing turns r s with
  | nil => exact ⟨[], by rw [List.append_nil]; exact run⟩
  | cons call calls ih =>
    have same : (Turn.after ⟨r, s, call⟩).2.collectors = s.collectors := by
      rw [(Turn.rearranged ⟨r, s, call⟩).rest]
    have still : ∀ later ∈ calls, later.Placed (Turn.after ⟨r, s, call⟩).2 := by
      intro later member
      have before := placed later (List.mem_cons_of_mem call member)
      cases later with
      | dismiss => trivial
      | register c k =>
        rw [Call.Placed, same]
        exact before
    obtain ⟨later, rest⟩ := ih (run.call call (placed call List.mem_cons_self)) still
    rw [List.append_assoc] at rest
    exact ⟨_, rest⟩

end Run

end Roster

/-- The collectors that were there are still there and give families of the same names. -/
structure Site.KeepsFamilies (s t : Site) : Prop where
  room : s.collectors.length ≤ t.collectors.length
  families : ∀ k, k.index < s.collectors.length →
    (t.collector k).familyNames = (s.collector k).familyNames

namespace Roster

variable {r r' : Roster} {c : Category} {k : CollectorId} {s t : Site}

/-- The listed collectors have their places, and those at different positions of a category give
no family of the same name. -/
structure Apart (r : Roster) (s : Site) : Prop where
  seated : r.Seated s
  apart : ∀ c, (r.ofCategory c).Pairwise fun j k => ¬ (s.collector j).Shares (s.collector k)

lemma apart_vacant (i : RegistryId) (s : Site) : (vacant i).Apart s :=
  ⟨seated_vacant i s, fun _ => List.Pairwise.nil⟩

lemma Apart.keepsFamilies (apart : r.Apart s) (keeps : s.KeepsFamilies t) : r.Apart t := by
  constructor
  · exact apart.seated.of_room keeps.room
  · intro c
    apply (List.Pairwise.and_mem.mp (apart.apart c)).imp
    rintro j k ⟨hj, hk, different⟩ ⟨name, first, second⟩
    rw [keeps.families _ (apart.seated c j hj)] at first
    rw [keeps.families _ (apart.seated c k hk)] at second
    exact different ⟨name, first, second⟩

lemma Apart.rearranged {i : RegistryId} (apart : r.Apart s) (moved : Rearranged i s t) :
    r.Apart t := by
  apply apart.keepsFamilies
  constructor
  · exact moved.grows.room
  · intro k _
    rw [moved.collector]

/-- The new collector comes after those with which it shares no family name. -/
lemma Apart.register_ok (apart : r.Apart s) (placed : k.index < s.collectors.length)
    (ok : r.register c k s = .ok r' t) : r'.Apart t := by
  have moved := (register_moves r c k).of_ok ok
  refine ⟨apart.seated.register_ok placed ok, fun c' => ?_⟩
  obtain ⟨rfl, -, -⟩ := exchanged_of_register_ok ok
  simp only [moved.collector]
  rw [ofCategory_publish]
  split
  · apply List.pairwise_append.mpr
    refine ⟨(apart.apart c).filter _, List.pairwise_singleton _ k, ?_⟩
    intro j stays k' new shared
    rw [List.mem_singleton.mp new] at shared
    exact (mem_bystanders.mp stays).2 (Collector.shares_comm.mp shared)
  · exact apart.apart c'

lemma Run.apart {others : RegistryId → Site → Site → Prop} {i : RegistryId} {s₀ : Site}
    {turns : List Turn} (run : Run others (.vacant i) s₀ turns r s)
    (keeping : ∀ i s t, others i s t → s.KeepsFamilies t) : r.Apart s := by
  apply run.invariant (P := Apart) (apart_vacant i s₀)
  · intro r r' s t c k apart placed ok
    exact apart.register_ok placed ok
  · intro r s t c k fault apart placed failed
    exact apart.rearranged ((register_moves r c k).of_error failed)
  · intro r s _
    exact apart_vacant _ _
  · intro r s t apart disturbed
    exact apart.keepsFamilies (keeping _ s t disturbed)

lemma Apart.at_positions (apart : r.Apart s) {m n : Nat} {j : CollectorId}
    (first : (r.ofCategory c)[m]? = some j) (second : (r.ofCategory c)[n]? = some k)
    (different : m ≠ n) : ¬ (s.collector j).Shares (s.collector k) := by
  obtain ⟨hm, rfl⟩ := List.getElem?_eq_some_iff.mp first
  obtain ⟨hn, rfl⟩ := List.getElem?_eq_some_iff.mp second
  have ordered := List.pairwise_iff_getElem.mp (apart.apart c)
  rcases Nat.lt_or_gt_of_ne different with before | after
  · exact ordered m n hm hn before
  · exact fun shared => ordered n m hn hm after (Collector.shares_comm.mp shared)

/-- In every state that a roster reaches, whatever registry it is on and whatever fails, two
collectors at different positions of a category have no family name in common; so none is found
either when both are collected for their names. -/
theorem one_producer_per_family {others : RegistryId → Site → Site → Prop} {i : RegistryId}
    {s₀ : Site} {turns : List Turn} (run : Run others (.vacant i) s₀ turns r s)
    (keeping : ∀ i s t, others i s t → s.KeepsFamilies t) {m n : Nat} {j : CollectorId}
    (first : (r.ofCategory c)[m]? = some j) (second : (r.ofCategory c)[n]? = some k)
    (different : m ≠ n) :
    (∀ name ∈ (s.collector j).familyNames, name ∉ (s.collector k).familyNames)
      ∧ ∀ t t' u u' own other, s.OnlyActivity t → s.OnlyActivity u →
        familyNames j t = .ok own t' → familyNames k u = .ok other u' →
        ∀ name ∈ own, name ∉ other := by
  have unshared := (run.apart keeping).at_positions first second different
  have declared : ∀ name ∈ (s.collector j).familyNames, name ∉ (s.collector k).familyNames :=
    fun name own other => unshared ⟨name, own, other⟩
  refine ⟨declared, ?_⟩
  intro t t' u u' own other before before' named named' name hown hother
  obtain ⟨rfl, -⟩ := familyNames_ok named
  obtain ⟨rfl, -⟩ := familyNames_ok named'
  rw [Distinct.mem_ofList, before.collector] at hown
  rw [Distinct.mem_ofList, before'.collector] at hother
  exact declared name hown hother

/-- A site with five collectors, the last of which asks a supplier that raises. -/
def mergingSite : Site :=
  let family (name : String) : Family := ⟨name, .gauge, "h", []⟩
  { suppliers := [.constant (.raises .runtime "down")]
    collectors := [.fixed [family "a"], .fixed [family "b"], .fixed [family "c"],
      .fixed [family "a", family "b"], .gauge "c" "h" ⟨0⟩]
    registries := [.vacant true] }

/-- The fourth collector displaces the first two, the last one is not taken in, and the fourth is
registered once more. -/
def merging : List Call :=
  [.register ⟨"shop", none⟩ ⟨0⟩, .register ⟨"shop", none⟩ ⟨1⟩, .register ⟨"shop", none⟩ ⟨2⟩,
    .register ⟨"shop", none⟩ ⟨3⟩, .register ⟨"shop", none⟩ ⟨4⟩, .register ⟨"shop", none⟩ ⟨3⟩]

theorem one_producer_per_family_merging :
    let state := afterCalls (.vacant ⟨0⟩, mergingSite) merging
    (state.1.ofCategory ⟨"shop", none⟩)[0]? = some ⟨2⟩
      ∧ (state.1.ofCategory ⟨"shop", none⟩)[1]? = some ⟨3⟩
      ∧ (∀ name ∈ (state.2.collector ⟨2⟩).familyNames, name ∉ (state.2.collector ⟨3⟩).familyNames)
      ∧ ∀ t t' u u' own other, state.2.OnlyActivity t → state.2.OnlyActivity u →
        familyNames ⟨2⟩ t = .ok own t' → familyNames ⟨3⟩ u = .ok other u' →
        ∀ name ∈ own, name ∉ other := by
  have first_state := @Run.start (fun _ s t => s.KeepsFamilies t) (.vacant ⟨0⟩) mergingSite
  obtain ⟨turns, run⟩ := first_state.append_calls merging (by decide)
  have first : ((afterCalls (.vacant ⟨0⟩, mergingSite) merging).1.ofCategory ⟨"shop", none⟩)[0]?
      = some ⟨2⟩ := by decide +kernel
  have second : ((afterCalls (.vacant ⟨0⟩, mergingSite) merging).1.ofCategory ⟨"shop", none⟩)[1]?
      = some ⟨3⟩ := by decide +kernel
  refine ⟨first, second, ?_⟩
  exact one_producer_per_family run (fun _ _ _ keeps => keeps) first second (by decide)

end Roster

section Systems

open Metering.System

variable {others : RegistryId → Site → Site → Prop} {r₀ : Roster} {s₀ : Site}
  {turns : List Roster.Turn} {d e : Deployment}
  (beside : ∀ {i s t}, s.Grows t → t.registry i = s.registry i → others i s t)

include beside

/-- Whoever enrols collectors registers them with the roster, and does nothing else to it. -/
lemma System.Enrols.onRoster {offers : List Offer} (h : Enrols Deployment.Aside offers d e)
    (run : Roster.Run others r₀ s₀ turns d.system.roster d.site) :
    ∃ later, Roster.Run others r₀ s₀ (turns ++ later) e.system.roster e.site
      ∧ ∀ m ∈ later, m.call ≠ .dismiss := by
  have meanwhile : ∀ {turns : List Roster.Turn} {d e : Deployment},
      Roster.Run others r₀ s₀ turns d.system.roster d.site → d.Aside e →
        Roster.Run others r₀ s₀ turns e.system.roster e.site := by
    intro turns d e run aside
    rw [aside.roster]
    exact run.others (beside aside.site.grows (aside.site.registry _))
  induction h generalizing turns with
  | rest h => exact ⟨[], by rw [List.append_nil]; exact meanwhile run h, by simp⟩
  | leave _ ih => exact ih run
  | @take c x y _ d m e before _ _ ih =>
    have added : Roster.Run others r₀ s₀ turns m.system.roster (m.site.withAdded y) :=
      (meanwhile run before).others (beside (withAdded_aside m.site y).grows rfl)
    have placed : m.site.nextPlace.index < (m.site.withAdded y).collectors.length := by
      simp [nextPlace, withAdded]
    have registered := added.call (.register c m.site.nextPlace) placed
    have ends : Roster.Turn.after
          ⟨m.system.roster, m.site.withAdded y, .register c m.site.nextPlace⟩
        = ((endOf (enroll c y m)).system.roster, (endOf (enroll c y m)).site) := by
      rw [Roster.Turn.after, enroll_eq]
      dsimp only
      cases m.system.roster.register c m.site.nextPlace (m.site.withAdded y) <;> rfl
    rw [ends] at registered
    obtain ⟨later, rest, registering⟩ := ih registered
    rw [List.append_assoc] at rest
    refine ⟨_, rest, ?_⟩
    intro turn member
    rcases List.mem_append.mp member with new | old
    · rw [List.mem_singleton.mp new]
      exact Roster.Call.noConfusion
    · exact registering turn old

/-- A call of a system works on the roster, and breaks off a dismissal only as a shutdown that
fails. -/
lemma Moment.onRoster {m : Moment}
    (run : Roster.Run others r₀ s₀ turns m.before.system.roster m.before.site) :
    ∃ later, Roster.Run others r₀ s₀ (turns ++ later) m.after.system.roster m.after.site
      ∧ ∀ turn ∈ later, turn.Breaks → m.call = .shutdown ∧ m.returned = false := by
  obtain ⟨d, call⟩ := m
  by_cases h : call = .shutdown
  · subst h
    have dismissed := run.call .dismiss trivial
    rw [after_shutdown, roster_shutdown, shutdown_eq]
    cases ends : d.system.roster.dismiss d.site with
    | error fault t =>
      rw [Roster.Turn.after, ends] at dismissed
      refine ⟨_, dismissed, fun _ _ _ => ⟨rfl, ?_⟩⟩
      rw [returned, Call.perform, shutdown_eq, ends]
    | ok x t =>
      rw [Roster.Turn.after, ends] at dismissed
      refine ⟨_, dismissed.others (beside ⟨Nat.le_refl _, fun _ _ => rfl⟩ rfl), ?_⟩
      intro turn member breaks
      obtain ⟨-, fault, u, failed⟩ := breaks
      rw [List.mem_singleton.mp member, ends] at failed
      cases failed
  · obtain ⟨later, rest, registering⟩ := (enrols h).onRoster beside run
    exact ⟨later, rest, fun turn member breaks => absurd breaks.1 (registering turn member)⟩

/-- A run of a system is a run of its roster, in which no dismissal fails unless a shutdown does. -/
lemma Run.onRoster {start : Deployment} {ms : List Moment}
    (run : Run (fun d t => others d.system.roster.registry d.site t) start ms d) :
    ∃ turns, Roster.Run others start.system.roster start.site turns d.system.roster d.site
      ∧ ((∃ turn ∈ turns, turn.Breaks) → ∃ m ∈ ms, m.call = .shutdown ∧ m.returned = false) := by
  induction run with
  | start => exact ⟨[], .start, by simp⟩
  | @call ms d _ call ih =>
    obtain ⟨turns, run, broken⟩ := ih
    obtain ⟨later, rest, breaks⟩ := Moment.onRoster (m := ⟨d, call⟩) beside run
    refine ⟨turns ++ later, rest, ?_⟩
    rintro ⟨turn, member, broke⟩
    rcases List.mem_append.mp member with old | new
    · obtain ⟨m, hm, failed⟩ := broken ⟨turn, old, broke⟩
      exact ⟨m, List.mem_append_left _ hm, failed⟩
    · exact ⟨_, List.mem_append_right _ List.mem_cons_self, breaks turn new broke⟩
  | others _ h ih =>
    obtain ⟨turns, run, broken⟩ := ih
    exact ⟨turns, run.others h, broken⟩

end Systems

end Metering
