import Metering.Proofs.Enrolment

/-!
# What enrolments list

Whatever an operation enrols, the lists stay tidy, every newly listed collector is one of the
offers, and a collector that is no longer listed gave way to a new one that shares a family name
with it. While no supplier raises, the registry keeps in step: it holds whatever is listed
(`Sound`), and nothing else if it held nothing else before (`Sole`). A shutdown that completes
leaves nothing listed or held.
-/

namespace Metering

open Site

namespace Deployment

/-- The collectors that are listed under a category. -/
abbrev listed (d : Deployment) (c : Category) : List CollectorId := d.system.roster.ofCategory c

/-- The registry of the system. -/
abbrev registry (d : Deployment) : Registry := d.site.registry d.system.roster.registry

/-- The lists are tidy, the registry holds what they list, and no supplier raises. -/
structure Sound (d : Deployment) : Prop where
  tidy : d.system.roster.Tidy d.site
  backed : d.system.roster.Backed d.site
  calm : d.site.Calm

variable {d e : Deployment}

lemma Aside.tidy (h : d.Aside e) (tidy : d.system.roster.Tidy d.site) :
    e.system.roster.Tidy e.site := by
  rw [h.roster]
  exact tidy.grows h.site.grows

lemma Aside.sound (h : d.Aside e) (sound : d.Sound) : e.Sound := by
  refine ⟨h.tidy sound.tidy, ?_, h.site.calm sound.calm⟩
  rw [h.roster]
  exact sound.backed.grows sound.tidy h.site.grows (Nat.le_of_eq (by rw [h.site.registries]))
    (h.site.registry _)

lemma Aside.sole (h : d.Aside e) (tidy : d.system.roster.Tidy d.site)
    (sole : d.system.roster.Sole d.site) : e.system.roster.Sole e.site := by
  rw [h.roster]
  exact sole.grows tidy h.site.grows (h.site.registry _)

end Deployment

namespace System

open Deployment

section OneEnrolment

variable {c : Category} {y : Collector} {m e : Deployment} {k : CollectorId}

/-- Enrolling ends as the registration ends. -/
lemma endOf_enroll (c : Category) (y : Collector) (m : Deployment) :
    (∃ roster t,
      Roster.register m.system.roster c m.site.nextPlace (m.site.withAdded y) = .ok roster t
        ∧ endOf (enroll c y m) = ⟨{ m.system with roster := roster }, t⟩)
      ∨ ∃ fault t,
        Roster.register m.system.roster c m.site.nextPlace (m.site.withAdded y) = .error fault t
          ∧ endOf (enroll c y m) = ⟨m.system, t⟩ := by
  rw [enroll_eq]
  cases h : Roster.register m.system.roster c m.site.nextPlace (m.site.withAdded y) with
  | ok roster t => exact Or.inl ⟨roster, t, rfl, rfl⟩
  | error fault t => exact Or.inr ⟨fault, t, rfl, rfl⟩

lemma site_enroll (c : Category) (y : Collector) (m : Deployment) :
    (endOf (enroll c y m)).site
      = endOf (m.system.roster.register c m.site.nextPlace (m.site.withAdded y)) := by
  rw [enroll_eq]
  split <;> next registered => rw [registered]; rfl

lemma rearranged_enroll (c : Category) (y : Collector) (m : Deployment) :
    Rearranged m.system.roster.registry (m.site.withAdded y) (endOf (enroll c y m)).site := by
  have moved := Roster.register_moves m.system.roster c m.site.nextPlace
  rcases endOf_enroll c y m with ⟨roster, t, h, ends⟩ | ⟨fault, t, h, ends⟩
  · rw [ends]
    exact moved.of_ok h
  · rw [ends]
    exact moved.of_error h

/-- Enrolling changes nothing of a system but its roster. -/
lemma sameNotes_enroll (c : Category) (y : Collector) (m : Deployment) :
    m.SameNotes (endOf (enroll c y m)) := by
  rcases endOf_enroll c y m with ⟨roster, t, h, ends⟩ | ⟨fault, t, h, ends⟩
  · rw [ends]
    rfl
  · rw [ends]
    rfl

lemma suppliers_enroll (c : Category) (y : Collector) (m : Deployment) :
    (endOf (enroll c y m)).site.suppliers = m.site.suppliers :=
  (rearranged_enroll c y m).suppliers

lemma grows_enroll (c : Category) (y : Collector) (m : Deployment) :
    m.site.Grows (endOf (enroll c y m)).site :=
  IsTrans.trans _ _ _ (withAdded_aside m.site y).grows (rearranged_enroll c y m).grows

lemma collector_enroll (c : Category) (y : Collector) (m : Deployment) :
    (endOf (enroll c y m)).site.collector m.site.nextPlace = y := by
  rw [(rearranged_enroll c y m).collector, collector_withAdded]

lemma nextPlace_lt_enroll (c : Category) (y : Collector) (m : Deployment) :
    m.site.nextPlace.index < (endOf (enroll c y m)).site.collectors.length := by
  have added : m.site.nextPlace.index < (m.site.withAdded y).collectors.length := by
    simp [nextPlace, withAdded]
  have room := (rearranged_enroll c y m).grows.room
  omega

lemma registry_enroll (c : Category) (y : Collector) (m : Deployment) :
    (endOf (enroll c y m)).system.roster.registry = m.system.roster.registry := by
  rcases endOf_enroll c y m with ⟨roster, t, h, ends⟩ | ⟨fault, t, h, ends⟩
  · rw [ends, (Roster.exchanged_of_register_ok h).1]
    rfl
  · rw [ends]

lemma registered_of_enroll (h : enroll c y m = .ok k e) : k = m.site.nextPlace
    ∧ m.system.roster.register c k (m.site.withAdded y) = .ok e.system.roster e.site := by
  rw [enroll_eq] at h
  split at h
  · next registered =>
    cases h
    exact ⟨rfl, registered⟩
  · cases h

lemma refused_of_enroll {fault : Fault} (h : enroll c y m = .error fault e) :
    e.system = m.system
      ∧ m.system.roster.register c m.site.nextPlace (m.site.withAdded y)
        = .error fault e.site := by
  rw [enroll_eq] at h
  split at h
  · cases h
  · next refused =>
    cases h
    exact ⟨rfl, refused⟩

/-- A collector that could be enrolled is listed. -/
lemma enroll_ok (h : enroll c y m = .ok k e) : k = m.site.nextPlace ∧ k ∈ e.listed c := by
  obtain ⟨rfl, registered⟩ := registered_of_enroll h
  refine ⟨rfl, ?_⟩
  rw [Deployment.listed, (Roster.exchanged_of_register_ok registered).1]
  exact Roster.mem_ofCategory_publish.mpr (Or.inr ⟨rfl, rfl⟩)

lemma not_listed_nextPlace (tidy : m.system.roster.Tidy m.site) (c : Category) :
    m.site.nextPlace ∉ m.listed c := by
  intro listed
  have placed := tidy.placed listed
  have next : m.site.nextPlace.index = m.site.collectors.length := rfl
  omega

lemma tidy_enroll (tidy : m.system.roster.Tidy m.site) :
    (endOf (enroll c y m)).system.roster.Tidy (endOf (enroll c y m)).site := by
  have added := tidy.grows (withAdded_aside m.site y).grows
  have moved := rearranged_enroll c y m
  rcases endOf_enroll c y m with ⟨roster, t, h, ends⟩ | ⟨fault, t, h, ends⟩
  · rw [ends] at moved ⊢
    obtain ⟨rfl, nameable, -⟩ := Roster.exchanged_of_register_ok h
    refine (added.publish ?_ (fun c' listed => ?_) nameable).grows moved.grows
    · simp [nextPlace, withAdded]
    · exact absurd listed (not_listed_nextPlace tidy c')
  · rw [ends] at moved ⊢
    exact added.grows moved.grows

/-- Nothing but the new collector comes to be listed. -/
lemma listed_of_enroll {c' : Category} (h : k ∈ (endOf (enroll c y m)).listed c') :
    k ∈ m.listed c' ∨ (c' = c ∧ k = m.site.nextPlace) := by
  rcases endOf_enroll c y m with ⟨roster, t, registered, ends⟩ | ⟨fault, t, -, ends⟩
  · rw [ends] at h
    obtain ⟨rfl, -, -⟩ := Roster.exchanged_of_register_ok registered
    exact (Roster.mem_ofCategory_publish.mp h).imp And.left id
  · rw [ends] at h
    exact Or.inl h

/-- Whatever is no longer listed has given way to the new collector. -/
lemma stays_enroll {c' : Category} (h : k ∈ m.listed c') :
    k ∈ (endOf (enroll c y m)).listed c'
      ∨ (c' = c ∧ m.site.nextPlace ∈ (endOf (enroll c y m)).listed c'
        ∧ ((endOf (enroll c y m)).site.collector m.site.nextPlace).Shares
          ((endOf (enroll c y m)).site.collector k)) := by
  have moved := rearranged_enroll c y m
  rcases endOf_enroll c y m with ⟨roster, t, registered, ends⟩ | ⟨fault, t, -, ends⟩
  · rw [ends] at moved ⊢
    obtain ⟨rfl, -, -⟩ := Roster.exchanged_of_register_ok registered
    rw [moved.collector, moved.collector]
    by_cases rival : c' = c ∧ ((m.site.withAdded y).collector m.site.nextPlace).Shares
        ((m.site.withAdded y).collector k)
    · exact Or.inr ⟨rival.1, Roster.mem_ofCategory_publish.mpr (Or.inr ⟨rival.1, rfl⟩), rival.2⟩
    · exact Or.inl (Roster.mem_ofCategory_publish.mpr (Or.inl ⟨h, rival⟩))
  · rw [ends]
    exact Or.inl h

lemma sound_enroll (nodup : ∀ describes, (y.claims describes).Nodup) (sound : m.Sound) :
    (endOf (enroll c y m)).Sound := by
  have added := withAdded_aside m.site y
  have tidy := sound.tidy.grows added.grows
  have backed := sound.backed.grows sound.tidy added.grows (Nat.le_refl _) (added.registry _)
  have calm := added.calm sound.calm
  refine ⟨tidy_enroll sound.tidy, ?_, (rearranged_enroll c y m).calm calm⟩
  rcases endOf_enroll c y m with ⟨roster, t, registered, ends⟩ | ⟨fault, t, refused, ends⟩
  · rw [ends]
    refine Roster.backed_of_register_ok tidy backed ?_ registered
    rw [collector_withAdded]
    exact nodup _
  · rw [ends]
    obtain ⟨frame, unchanged⟩ := Roster.unchanged_of_register_error calm tidy backed refused
    exact backed.of_unchanged frame unchanged

lemma sole_enroll (sound : m.Sound) (sole : m.system.roster.Sole m.site) :
    (endOf (enroll c y m)).system.roster.Sole (endOf (enroll c y m)).site := by
  have added := withAdded_aside m.site y
  have tidy := sound.tidy.grows added.grows
  have backed := sound.backed.grows sound.tidy added.grows (Nat.le_refl _) (added.registry _)
  have still := sole.grows sound.tidy added.grows (added.registry _)
  rcases endOf_enroll c y m with ⟨roster, t, registered, ends⟩ | ⟨fault, t, refused, ends⟩
  · rw [ends]
    exact Roster.sole_of_register_ok tidy backed still registered
  · rw [ends]
    obtain ⟨frame, unchanged⟩ :=
      Roster.unchanged_of_register_error (added.calm sound.calm) tidy backed refused
    exact still.of_unchanged frame unchanged

end OneEnrolment

/-- The claimed names of an offer are distinct, and no two offers for one category give a family of
the same name. -/
structure Fitting (offers : List Offer) : Prop where
  nodup : ∀ o ∈ offers, ∀ describes, (o.2.claims describes).Nodup
  apart : offers.Pairwise fun o p => o.1 = p.1 → ¬ o.2.Shares p.2

namespace Enrols

variable {offers : List Offer} {d e : Deployment} {c : Category} {k : CollectorId}

lemma sameNotes (h : Enrols Deployment.Discreet offers d e) : d.SameNotes e := by
  induction h with
  | rest h => exact h.notes
  | leave _ ih => exact ih
  | take before _ _ ih =>
    exact IsTrans.trans _ _ _ (IsTrans.trans _ _ _ before.notes (sameNotes_enroll _ _ _)) ih

lemma grows (h : Enrols Deployment.Aside offers d e) : d.site.Grows e.site := by
  induction h with
  | rest h => exact h.site.grows
  | leave _ ih => exact ih
  | take before _ _ ih =>
    exact IsTrans.trans _ _ _ (IsTrans.trans _ _ _ before.site.grows (grows_enroll _ _ _)) ih

lemma suppliers (h : Enrols Deployment.Aside offers d e) : e.site.suppliers = d.site.suppliers := by
  induction h with
  | rest h => exact h.site.suppliers
  | leave _ ih => exact ih
  | take before _ _ ih => rw [ih, suppliers_enroll, before.site.suppliers]

lemma registry (h : Enrols Deployment.Aside offers d e) :
    e.system.roster.registry = d.system.roster.registry := by
  induction h with
  | rest h => rw [h.roster]
  | leave _ ih => exact ih
  | take before _ _ ih => rw [ih, registry_enroll, before.roster]

lemma tidy (h : Enrols Deployment.Aside offers d e) (tidy : d.system.roster.Tidy d.site) :
    e.system.roster.Tidy e.site := by
  induction h with
  | rest h => exact h.tidy tidy
  | leave _ ih => exact ih tidy
  | take before _ _ ih => exact ih (tidy_enroll (before.tidy tidy))

/-- A newly listed collector is new on the site and is what was offered. -/
lemma listed_of_new (h : Enrols Deployment.Aside offers d e) (hk : k ∈ e.listed c) :
    k ∈ d.listed c
      ∨ d.site.collectors.length ≤ k.index ∧ (c, (e.site.collector k).declared) ∈ offers := by
  induction h with
  | rest h =>
    rw [listed, h.roster] at hk
    exact Or.inl hk
  | leave _ ih => exact (ih hk).imp_right (And.imp_right (List.mem_cons_of_mem _))
  | @take c' x y _ d m e before declared after ih =>
    have room := before.site.grows.room
    rcases ih hk with old | ⟨later, offered⟩
    · rcases listed_of_enroll old with older | ⟨rfl, rfl⟩
      · rw [listed, before.roster] at older
        exact Or.inl older
      · refine Or.inr ⟨room, ?_⟩
        rw [after.grows.declared _ (nextPlace_lt_enroll _ _ _), collector_enroll, declared]
        exact List.mem_cons_self
    · refine Or.inr ⟨?_, List.mem_cons_of_mem _ offered⟩
      have enrolled := (grows_enroll c' y m).room
      omega

/-- Whatever is no longer listed has given way to a new collector, which is listed. -/
lemma displaced (h : Enrols Deployment.Aside offers d e)
    (apart : offers.Pairwise fun o p => o.1 = p.1 → ¬ o.2.Shares p.2)
    (tidy : d.system.roster.Tidy d.site) (hk : k ∈ d.listed c) :
    k ∈ e.listed c ∨ ∃ j ∈ e.listed c, d.site.collectors.length ≤ j.index
      ∧ (e.site.collector j).Shares (e.site.collector k) := by
  induction h generalizing k with
  | rest h =>
    rw [listed, h.roster]
    exact Or.inl hk
  | leave _ ih => exact ih (List.pairwise_cons.mp apart).2 tidy hk
  | @take c' x y _ d m e before declared after ih =>
    obtain ⟨first, among⟩ := List.pairwise_cons.mp apart
    have tidied := before.tidy tidy
    have enrolled := tidy_enroll (c := c') (y := y) tidied
    have beyond : d.site.collectors.length ≤ m.site.nextPlace.index := before.site.grows.room
    have next := nextPlace_lt_enroll c' y m
    have hm : k ∈ m.listed c := by
      rw [listed, before.roster]
      exact hk
    have fixed := after.grows.declared _ next
    rcases stays_enroll (c := c') (y := y) hm with stays | ⟨rfl, new, shared⟩
    · rcases ih among enrolled stays with listed | ⟨j, hj, later, meets⟩
      · exact Or.inl listed
      · refine Or.inr ⟨j, hj, ?_, meets⟩
        omega
    · have placed : k.index < (endOf (enroll c y m)).site.collectors.length := by
        have old := tidied.placed hm
        have room := (grows_enroll c y m).room
        omega
      have known := after.grows.declared k placed
      have now := (Collector.shares_congr fixed known).mpr shared
      rcases ih among enrolled new with stays | ⟨j, hj, later, meets⟩
      · exact Or.inr ⟨_, stays, beyond, now⟩
      · -- a later offer for the same category would have to share a name with this one
        rcases after.listed_of_new hj with old | ⟨-, offered⟩
        · have placed := enrolled.placed old
          omega
        · refine absurd ?_ (first _ offered rfl)
          rw [collector_enroll] at fixed
          rw [← declared, ← fixed, Collector.shares_declared]
          exact Collector.shares_comm.mp meets

lemma sound (h : Enrols Deployment.Aside offers d e)
    (nodup : ∀ o ∈ offers, ∀ describes, (o.2.claims describes).Nodup) (sound : d.Sound) :
    e.Sound := by
  induction h with
  | rest h => exact h.sound sound
  | leave _ ih => exact ih (fun o ho => nodup o (List.mem_cons_of_mem _ ho)) sound
  | take before declared _ ih =>
    refine ih (fun o ho => nodup o (List.mem_cons_of_mem _ ho)) ?_
    refine sound_enroll ?_ (before.sound sound)
    intro describes
    have own := nodup _ List.mem_cons_self describes
    rwa [← declared, Collector.claims_declared] at own

lemma sole (h : Enrols Deployment.Aside offers d e)
    (nodup : ∀ o ∈ offers, ∀ describes, (o.2.claims describes).Nodup) (sound : d.Sound)
    (sole : d.system.roster.Sole d.site) : e.system.roster.Sole e.site := by
  induction h with
  | rest h => exact h.sole sound.tidy sole
  | leave _ ih => exact ih (fun o ho => nodup o (List.mem_cons_of_mem _ ho)) sound sole
  | take before declared _ ih =>
    have calm := before.sound sound
    refine ih (fun o ho => nodup o (List.mem_cons_of_mem _ ho)) (sound_enroll ?_ calm)
      (sole_enroll calm (before.sole sound.tidy sole))
    intro describes
    have own := nodup _ List.mem_cons_self describes
    rwa [← declared, Collector.claims_declared] at own

end Enrols

section Shutdown

variable {d : Deployment}

/-- A shutdown ends as the dismissal of the roster ends. -/
lemma shutdown_eq (d : Deployment) :
    shutdown d
      = match d.system.roster.dismiss d.site with
      | .ok _ t => .ok () ⟨reset d.system, { t with journal := t.journal ++ [.shutdown] }⟩
      | .error fault t =>
        .error fault ⟨{ d.system with roster := d.system.roster.emptied }, t⟩ := by
  let emptied : Deployment := ⟨{ d.system with roster := d.system.roster.emptied }, d.site⟩
  have cleared : Operation.change (fun s => { s with roster := d.system.roster.emptied }) d
      = .ok () emptied := rfl
  rw [shutdown, Operation.bind_system, bind_of_ok cleared]
  cases h : d.system.roster.dismiss d.site with
  | ok x t =>
    have lifted : (liftM d.system.roster.dismiss : Operation Unit) emptied
        = .ok x ⟨{ d.system with roster := d.system.roster.emptied }, t⟩ :=
      Operation.ofAction_ok (d := emptied) h
    rw [bind_of_ok lifted]
    rfl
  | error fault t =>
    have lifted : (liftM d.system.roster.dismiss : Operation Unit) emptied
        = .error fault ⟨{ d.system with roster := d.system.roster.emptied }, t⟩ :=
      Operation.ofAction_error (d := emptied) h
    rw [bind_of_error lifted]

lemma dismiss_moves (r : Roster) : Moves (Rearranged r.registry) r.dismiss := by
  refine Moves.bind (Moves.forM (release_moves r.registry) _) fun _ => ?_
  exact Moves.modify fun _ => ⟨rfl, rfl, fun _ _ => rfl⟩

lemma rearranged_shutdown (d : Deployment) :
    Rearranged d.system.roster.registry d.site (endOf (shutdown d)).site := by
  have moved := dismiss_moves d.system.roster d.site
  rw [shutdown_eq]
  cases h : d.system.roster.dismiss d.site with
  | ok x t =>
    rw [h] at moved
    exact IsTrans.trans _ _ _ moved ⟨rfl, rfl, fun _ _ => rfl⟩
  | error fault t =>
    rw [h] at moved
    exact moved

/-- Nothing is listed after a shutdown, whether it completes or not. -/
lemma roster_shutdown (d : Deployment) :
    (endOf (shutdown d)).system.roster = .vacant d.system.roster.registry := by
  rw [shutdown_eq]
  cases d.system.roster.dismiss d.site <;> rfl

lemma tidy_vacant (r : RegistryId) (s : Site) : (Roster.vacant r).Tidy s where
  nodup _ := List.nodup_nil
  apart h := absurd h List.not_mem_nil
  placed h := absurd h List.not_mem_nil
  nameable h := absurd h List.not_mem_nil
  disjoint h := absurd h List.not_mem_nil

lemma backed_vacant {r : RegistryId} {s : Site} (room : r.index < s.registries.length) :
    (Roster.vacant r).Backed s where
  room := room
  holds h := absurd h List.not_mem_nil

lemma sound_fresh {enabled : Distinct Category} {timers : Bool} {r : RegistryId} {s : Site}
    (room : r.index < s.registries.length) (calm : s.Calm) :
    Deployment.Sound ⟨fresh enabled timers r, s⟩ :=
  ⟨tidy_vacant r s, backed_vacant room, calm⟩

/-- What is listed can be dismissed, and is no longer held then. -/
lemma dismiss_ok {r : Roster} {s : Site} (tidy : r.Tidy s) (backed : r.Backed s) :
    ∃ t, r.dismiss s = .ok () t
      ∧ (s.registry r.registry).Without (t.registry r.registry) r.collectors
        (r.collectors.flatMap fun k =>
          (s.collector k).claims (s.registry r.registry).describes) := by
  have holds : ∀ k ∈ r.collectors, (s.registry r.registry).Holds k
      ((s.collector k).claims (s.registry r.registry).describes) := by
    intro k hk
    obtain ⟨c, listed⟩ := Roster.mem_collectors.mp hk
    exact backed.holds listed
  obtain ⟨u, released, -, without⟩ :=
    releaseAll_ok (Roster.nodup_collectors tidy) backed.room holds
  exact ⟨_, (bind_of_ok released _).trans rfl, without⟩

lemma sound_shutdown (sound : d.Sound) : (endOf (shutdown d)).Sound := by
  have moved := rearranged_shutdown d
  refine ⟨?_, ?_, moved.calm sound.calm⟩
  · rw [roster_shutdown]
    exact tidy_vacant _ _
  · rw [roster_shutdown]
    exact backed_vacant (by rw [moved.room]; exact sound.backed.room)

/-- While the registry is in step, a shutdown completes. -/
lemma shutdown_ok (tidy : d.system.roster.Tidy d.site) (backed : d.system.roster.Backed d.site) :
    ∃ t, shutdown d = .ok () ⟨reset d.system, t⟩ := by
  obtain ⟨t, dismissed, -⟩ := dismiss_ok tidy backed
  rw [shutdown_eq, dismissed]
  exact ⟨_, rfl⟩

/-- Whatever the registry held was listed, and is gone after a dismissal. -/
lemma sole_dismiss {r : Roster} {s : Site} (tidy : r.Tidy s) (backed : r.Backed s)
    (sole : r.Sole s) : r.emptied.Sole (endOf (r.dismiss s)) := by
  obtain ⟨t, dismissed, without⟩ := dismiss_ok tidy backed
  rw [dismissed]
  constructor
  · intro k hk
    obtain ⟨held, unlisted⟩ := without.mem_held.mp hk
    exact absurd (Roster.mem_collectors.mpr (sole.held k held)) unlisted
  · intro name k owned
    change (t.registry r.registry).owners.get? name = some k at owned
    rw [without.owners] at owned
    split at owned
    · cases owned
    · next spared =>
      obtain ⟨listed, member⟩ := sole.owned name k owned
      exact absurd (List.mem_flatMap.mpr ⟨k, Roster.mem_collectors.mpr listed, member⟩) spared

lemma sole_shutdown (sound : d.Sound) (sole : d.system.roster.Sole d.site) :
    (endOf (shutdown d)).system.roster.Sole (endOf (shutdown d)).site := by
  have emptied := sole_dismiss sound.tidy sound.backed sole
  obtain ⟨t, dismissed, -⟩ := dismiss_ok sound.tidy sound.backed
  rw [dismissed] at emptied
  rw [roster_shutdown, shutdown_eq, dismissed]
  exact ⟨emptied.held, emptied.owned⟩

end Shutdown

end System

end Metering
