import Mathlib.Data.List.Nodup
import Mathlib.Data.List.Pairwise
import Metering.Proofs.HeldCollectors
import Metering.System.Lifecycle

/-!
# Registering under a category

A roster is tidy (`Roster.Tidy`) when every collector is listed at most once and no two of a
category give a family of the same name, and backed (`Roster.Backed`) when its registry holds every
listed collector with its names. Registering keeps both, whether it succeeds or is refused:
`entered_of_register_ok` says what a success does to the registry, `unchanged_of_register_error`
that a refusal does nothing to it.
-/

namespace Metering

/-- The two collectors give a family of the same name. -/
def Collector.Shares (x y : Collector) : Prop := ∃ name ∈ x.familyNames, name ∈ y.familyNames

instance (x y : Collector) : Decidable (x.Shares y) :=
  inferInstanceAs (Decidable (∃ name ∈ x.familyNames, name ∈ y.familyNames))

namespace Collector

lemma shares_comm {x y : Collector} : x.Shares y ↔ y.Shares x :=
  ⟨fun ⟨name, hx, hy⟩ => ⟨name, hy, hx⟩, fun ⟨name, hy, hx⟩ => ⟨name, hx, hy⟩⟩

lemma shares_declared {x y : Collector} : x.declared.Shares y.declared ↔ x.Shares y := by
  rw [Shares, Shares, familyNames_declared, familyNames_declared]

lemma shares_congr {x x' y y' : Collector} (hx : x'.declared = x.declared)
    (hy : y'.declared = y.declared) : x'.Shares y' ↔ x.Shares y := by
  rw [← shares_declared, hx, hy, shares_declared]

end Collector

/-- Whatever was declared on the first site is still declared on the second. -/
structure Site.Grows (s t : Site) : Prop where
  room : s.collectors.length ≤ t.collectors.length
  declared : ∀ k, k.index < s.collectors.length →
    (t.collector k).declared = (s.collector k).declared

instance : IsPreorder Site Site.Grows where
  refl _ := ⟨Nat.le_refl _, fun _ _ => rfl⟩
  trans s t u hst htu := by
    have hst' := hst.room
    have htu' := htu.room
    constructor
    · omega
    · intro k hk
      have hk' : k.index < t.collectors.length := by omega
      rw [htu.declared k hk', hst.declared k hk]

namespace Site

lemma Rearranged.grows {i : RegistryId} {s t : Site} (h : Rearranged i s t) : s.Grows t := by
  have same : t.collectors = s.collectors := by rw [h.rest]
  exact ⟨Nat.le_of_eq (by rw [same]), fun k _ => by rw [h.collector]⟩

end Site

namespace Roster

open Site

/-- Each collector is listed once, known to the site and can be collected, and no two of a
category give a family of the same name. -/
structure Tidy (r : Roster) (s : Site) : Prop where
  nodup : ∀ c, (r.ofCategory c).Nodup
  apart : ∀ {k c c'}, k ∈ r.ofCategory c → k ∈ r.ofCategory c' → c = c'
  placed : ∀ {k c}, k ∈ r.ofCategory c → k.index < s.collectors.length
  nameable : ∀ {k c}, k ∈ r.ofCategory c → (s.collector k).Nameable
  disjoint : ∀ {j k c}, j ∈ r.ofCategory c → k ∈ r.ofCategory c →
    (s.collector j).Shares (s.collector k) → j = k

/-- The registry holds every listed collector with all its names. -/
structure Backed (r : Roster) (s : Site) : Prop where
  room : r.registry.index < s.registries.length
  holds : ∀ {k c}, k ∈ r.ofCategory c →
    (s.registry r.registry).Holds k ((s.collector k).claims (s.registry r.registry).describes)

lemma Backed.mem_held {r : Roster} {s : Site} (backed : r.Backed s) {k : CollectorId} {c : Category}
    (listed : k ∈ r.ofCategory c) : k ∈ (s.registry r.registry).held :=
  Index.mem_of_get?_eq_some (backed.holds listed).held

/-- The registry holds and knows nothing but the listed collectors and their names. -/
structure Sole (r : Roster) (s : Site) : Prop where
  held : ∀ k, k ∈ (s.registry r.registry).held → ∃ c, k ∈ r.ofCategory c
  owned : ∀ name k, (s.registry r.registry).owners.get? name = some k →
    (∃ c, k ∈ r.ofCategory c) ∧ name ∈ (s.collector k).claims (s.registry r.registry).describes

lemma ofCategory_of_entry {r : Roster} {e : Category × List CollectorId}
    (he : e ∈ r.listed.entries) : r.ofCategory e.1 = e.2 := by
  rw [ofCategory, Index.getD, Index.mem_entries_iff.mp he]
  rfl

lemma mem_categories {r : Roster} {k : CollectorId} {c : Category} (listed : k ∈ r.ofCategory c) :
    c ∈ r.categories := by
  by_contra absent
  have missing : r.listed.get? c = none := Index.get?_eq_none_iff.mpr absent
  rw [ofCategory, Index.getD, missing] at listed
  cases listed

lemma mem_collectors {r : Roster} {k : CollectorId} :
    k ∈ r.collectors ↔ ∃ c, k ∈ r.ofCategory c := by
  simp only [collectors, Index.values, List.mem_flatten, List.mem_map]
  constructor
  · rintro ⟨ks, ⟨e, he, rfl⟩, hk⟩
    refine ⟨e.1, ?_⟩
    rw [ofCategory_of_entry he]
    exact hk
  · rintro ⟨c, hk⟩
    obtain ⟨e, he, rfl⟩ := List.mem_map.mp (mem_categories hk)
    rw [ofCategory_of_entry he] at hk
    exact ⟨e.2, ⟨e, he, rfl⟩, hk⟩

/-- A collector is listed once in all exactly if it is listed once per category and under one
category at most. -/
lemma nodup_collectors_iff {r : Roster} :
    r.collectors.Nodup ↔ (∀ c, (r.ofCategory c).Nodup)
      ∧ ∀ {k c c'}, k ∈ r.ofCategory c → k ∈ r.ofCategory c' → c = c' := by
  have keys : r.listed.entries.Pairwise fun e e' => e.1 ≠ e'.1 :=
    List.pairwise_map.mp r.listed.nodup
  rw [collectors, Index.values, List.nodup_flatten, List.pairwise_map]
  constructor
  · rintro ⟨nodup, disjoint⟩
    constructor
    · intro c
      by_cases known : c ∈ r.categories
      · obtain ⟨e, he, rfl⟩ := List.mem_map.mp known
        rw [ofCategory_of_entry he]
        exact nodup e.2 (List.mem_map_of_mem he)
      · rw [List.eq_nil_iff_forall_not_mem.mpr fun k listed => known (mem_categories listed)]
        exact List.nodup_nil
    · intro k c c' hk hk'
      by_contra different
      obtain ⟨e, he, rfl⟩ := List.mem_map.mp (mem_categories hk)
      obtain ⟨e', he', rfl⟩ := List.mem_map.mp (mem_categories hk')
      rw [ofCategory_of_entry he] at hk
      rw [ofCategory_of_entry he'] at hk'
      have symmetric : Std.Symm fun e e' : Category × List CollectorId => e.2.Disjoint e'.2 :=
        ⟨fun _ _ apart _ hk hk' => apart hk' hk⟩
      exact disjoint.forall he he' (fun same => different (congrArg Prod.fst same)) hk hk'
  · rintro ⟨nodup, apart⟩
    constructor
    · intro ks hks
      obtain ⟨e, he, rfl⟩ := List.mem_map.mp hks
      rw [← ofCategory_of_entry he]
      exact nodup e.1
    · refine (List.Pairwise.and_mem.mp keys).imp ?_
      rintro e e' ⟨he, he', different⟩ k hk hk'
      rw [← ofCategory_of_entry he] at hk
      rw [← ofCategory_of_entry he'] at hk'
      exact different (apart hk hk')

lemma nodup_collectors {r : Roster} {s : Site} (tidy : r.Tidy s) : r.collectors.Nodup :=
  nodup_collectors_iff.mpr ⟨tidy.nodup, tidy.apart⟩

lemma ofCategory_publish (r : Roster) (c c' : Category) (kept : List CollectorId)
    (k : CollectorId) :
    (r.publish c kept k).ofCategory c' = if c' = c then kept ++ [k] else r.ofCategory c' := by
  simp only [ofCategory, publish, Index.getD, Index.get?_put]
  by_cases h : c' = c <;> simp [h]

lemma overlaps_iff {names : List String} {own : Distinct String} :
    overlaps names own = true ↔ ∃ name ∈ names, name ∈ own := by
  simp [overlaps]

/-- Parting goes by the declared names, whatever the suppliers answered meanwhile. -/
lemma partAll_ok {names : Distinct String} {ks : List CollectorId} {s t : Site}
    {parts : List CollectorId × List CollectorId} (h : partAll names ks s = .ok parts t) :
    parts = (ks.filter fun j => overlaps names.toList (.ofList (s.collector j).familyNames),
      ks.filter fun j => !overlaps names.toList (.ofList (s.collector j).familyNames)) := by
  induction ks generalizing s parts t with
  | nil =>
    cases h
    rfl
  | cons k ks ih =>
    obtain ⟨own, u, hown, h⟩ := ok_of_bind_ok h
    obtain ⟨rest, v, hrest, h⟩ := ok_of_bind_ok h
    have quiet := (familyNames_moves k).of_ok hown
    have same : ∀ j, u.collector j = s.collector j := by
      intro j
      rw [quiet]
      rfl
    obtain rfl := (familyNames_ok hown).1
    have parted := ih hrest
    simp only [same] at parted
    subst parted
    cases h
    by_cases shared : overlaps names.toList (.ofList (s.collector k).familyNames) = true
    · simp [shared]
    · simp [shared]

lemma partAll_moves (names : Distinct String) (ks : List CollectorId) :
    Moves OnlyActivity (partAll names ks) := by
  induction ks with
  | nil => exact Moves.pure _
  | cons k ks ih =>
    exact (familyNames_moves k).bind fun _ => ih.bind fun _ => Moves.pure _

/-- The collectors of a category that share a family name with the given one. -/
def rivals (r : Roster) (s : Site) (c : Category) (k : CollectorId) : List CollectorId :=
  (r.ofCategory c).filter fun j => (s.collector k).Shares (s.collector j)

/-- The collectors of a category that share no family name with the given one. -/
def bystanders (r : Roster) (s : Site) (c : Category) (k : CollectorId) : List CollectorId :=
  (r.ofCategory c).filter fun j => ¬ (s.collector k).Shares (s.collector j)

lemma mem_rivals {r : Roster} {s : Site} {c : Category} {j k : CollectorId} :
    j ∈ r.rivals s c k ↔ j ∈ r.ofCategory c ∧ (s.collector k).Shares (s.collector j) := by
  simp [rivals]

lemma mem_bystanders {r : Roster} {s : Site} {c : Category} {j k : CollectorId} :
    j ∈ r.bystanders s c k ↔ j ∈ r.ofCategory c ∧ ¬ (s.collector k).Shares (s.collector j) := by
  simp [bystanders]

lemma overlaps_ofList (x y : Collector) :
    overlaps (Distinct.ofList x.familyNames).toList (.ofList y.familyNames)
      = decide (x.Shares y) := by
  rw [Bool.eq_iff_iff, overlaps_iff, decide_eq_true_iff]
  simp only [Collector.Shares, ← Distinct.mem_def, Distinct.mem_ofList]

/-- The names of the new collector and the parting of the category are settled first. -/
lemma parted_of_names {r : Roster} {c : Category} {k : CollectorId} {s u v : Site}
    {names : Distinct String} {parts : List CollectorId × List CollectorId}
    (named : familyNames k s = .ok names u)
    (parted : partAll names (r.ofCategory c) u = .ok parts v) :
    parts = (r.rivals s c k, r.bystanders s c k) := by
  have quiet := (familyNames_moves k).of_ok named
  have same : ∀ j, u.collector j = s.collector j := by
    intro j
    rw [quiet]
    rfl
  rw [partAll_ok parted, (familyNames_ok named).1]
  simp only [same, overlaps_ofList, rivals, bystanders, decide_not]

lemma reportReplaced_ok (c : Category) (names : Distinct String) (displaced : List CollectorId)
    (s : Site) : ∃ t, reportReplaced c names displaced s = .ok () t
      ∧ t = { s with journal := t.journal } := by
  cases displaced with
  | nil => exact ⟨s, rfl, rfl⟩
  | cons k ks => exact ⟨_, rfl, rfl⟩

/-- A registration that succeeds has exchanged the rivals for the new collector. -/
lemma exchanged_of_register_ok {r r' : Roster} {c : Category} {k : CollectorId} {s t : Site}
    (h : register r c k s = .ok r' t) :
    r' = r.publish c (r.bystanders s c k) k ∧ (s.collector k).Nameable
      ∧ ∃ u v, OnlyActivity s u ∧ exchange r.registry (r.rivals s c k) k u = .ok () v
        ∧ t = { v with journal := t.journal } := by
  obtain ⟨names, u, named, h⟩ := ok_of_bind_ok h
  obtain ⟨parts, v, parted, h⟩ := ok_of_bind_ok h
  obtain rfl := parted_of_names named parted
  obtain ⟨⟨⟩, w, exchanged, h⟩ := ok_of_bind_ok h
  obtain ⟨w', reported, logged⟩ := reportReplaced_ok c names (r.rivals s c k) w
  rw [bind_of_ok reported] at h
  cases h
  have quiet : OnlyActivity s v :=
    IsTrans.trans _ _ _ ((familyNames_moves k).of_ok named) ((partAll_moves _ _).of_ok parted)
  exact ⟨rfl, (familyNames_ok named).2, v, w, quiet, exchanged, logged⟩

/-- A registration that fails has failed at collecting or at the exchange. -/
lemma exchange_of_register_error {r : Roster} {c : Category} {k : CollectorId} {s t : Site}
    {fault : Fault} (h : register r c k s = .error fault t) :
    OnlyActivity s t ∨ (s.collector k).Nameable
      ∧ ∃ u, OnlyActivity s u ∧ exchange r.registry (r.rivals s c k) k u = .error fault t := by
  rcases error_of_bind_error h with failed | ⟨names, u, named, h⟩
  · exact Or.inl ((familyNames_moves k).of_error failed)
  have first := (familyNames_moves k).of_ok named
  rcases error_of_bind_error h with failed | ⟨parts, v, parted, h⟩
  · exact Or.inl (IsTrans.trans _ _ _ first ((partAll_moves _ _).of_error failed))
  have second := IsTrans.trans _ _ _ first ((partAll_moves _ _).of_ok parted)
  obtain rfl := parted_of_names named parted
  rcases error_of_bind_error h with failed | ⟨⟨⟩, w, -, h⟩
  · exact Or.inr ⟨(familyNames_ok named).2, v, second, failed⟩
  · obtain ⟨w', reported, -⟩ := reportReplaced_ok c names (r.rivals s c k) w
    rw [bind_of_ok reported] at h
    cases h

section Along

variable {R : Site → Site → Prop} [IsPreorder Site R] {i : RegistryId}
  {displaced : List CollectorId} {r : Roster} {c : Category} {k : CollectorId} {s : Site}

/-- An exchange moves along whatever releasing what is displaced moves along, and holding it or the
new collector. -/
lemma exchange_along (released : ∀ j ∈ displaced, Moves R (release i j))
    (held : ∀ j ∈ k :: displaced, Moves R (hold i j)) : Moves R (exchange i displaced k) := by
  obtain ⟨own, others⟩ := List.forall_mem_cons.mp held
  refine (Moves.forM_of_mem released).bind fun _ => own.tryCatch fun fault => ?_
  rw [restore]
  split
  · exact (Moves.forM_of_mem others).bind fun _ => Moves.throw fault
  · exact Moves.throw fault

/-- So does a registration, if notes and reports do not count. -/
lemma register_along
    (noted : ∀ {s t : Site}, t = { s with activity := t.activity, journal := t.journal } → R s t)
    (released : ∀ j ∈ r.rivals s c k, Moves R (release r.registry j))
    (held : ∀ j ∈ k :: r.rivals s c k, Moves R (hold r.registry j)) :
    R s (endOf (r.register c k s)) := by
  have exchanging := exchange_along released held
  have quiet : ∀ {u}, OnlyActivity s u → R s u := fun h => noted (by rw [h])
  cases run : r.register c k s with
  | ok r' t =>
    obtain ⟨-, -, u, v, only, exchanged, logged⟩ := exchanged_of_register_ok run
    exact IsTrans.trans _ _ _ (quiet only) <|
      IsTrans.trans _ _ _ (exchanging.of_ok exchanged) (noted (by rw [endOf, logged]))
  | error fault t =>
    rcases exchange_of_register_error run with only | ⟨-, u, only, exchanged⟩
    · exact quiet only
    · exact IsTrans.trans _ _ _ (quiet only) (exchanging.of_error exchanged)

end Along

/-- Registering works on the registry of the roster and on nothing else but the records. -/
lemma register_moves (r : Roster) (c : Category) (k : CollectorId) :
    Moves (Rearranged r.registry) (register r c k) := fun _ =>
  register_along (fun h => ⟨by rw [h], by rw [h], fun _ _ => by rw [h]; rfl⟩)
    (fun j _ => release_moves r.registry j) fun j _ => hold_moves r.registry j

lemma Tidy.grows {r : Roster} {s t : Site} (tidy : r.Tidy s) (h : s.Grows t) : r.Tidy t := by
  have declared : ∀ {k c}, k ∈ r.ofCategory c →
      (t.collector k).declared = (s.collector k).declared :=
    fun hk => h.declared _ (tidy.placed hk)
  refine ⟨tidy.nodup, tidy.apart, ?_, ?_, ?_⟩
  · intro k c hk
    have placed := tidy.placed hk
    have room := h.room
    omega
  · intro k c hk
    exact (Collector.nameable_congr (declared hk)).mpr (tidy.nameable hk)
  · intro j k c hj hk shared
    exact tidy.disjoint hj hk ((Collector.shares_congr (declared hj) (declared hk)).mp shared)

/-- Everything but the collectors is as it was; of those only the contents may have changed. -/
lemma Backed.grows {r : Roster} {s t : Site} (backed : r.Backed s) (tidy : r.Tidy s)
    (h : s.Grows t) (room : s.registries.length ≤ t.registries.length)
    (same : t.registry r.registry = s.registry r.registry) : r.Backed t := by
  constructor
  · have known := backed.room
    omega
  · intro k c hk
    rw [same, Collector.claims_congr (h.declared k (tidy.placed hk))]
    exact backed.holds hk

lemma Sole.grows {r : Roster} {s t : Site} (sole : r.Sole s) (tidy : r.Tidy s) (h : s.Grows t)
    (same : t.registry r.registry = s.registry r.registry) : r.Sole t := by
  constructor
  · intro k hk
    rw [same] at hk
    exact sole.held k hk
  · intro name k owned
    rw [same] at owned ⊢
    obtain ⟨⟨c, listed⟩, member⟩ := sole.owned name k owned
    rw [Collector.claims_congr (h.declared k (tidy.placed listed))]
    exact ⟨⟨c, listed⟩, member⟩

section Publishing

variable {r r' : Roster} {c : Category} {k : CollectorId} {s t : Site}

lemma mem_ofCategory_publish {c' : Category} {j : CollectorId} :
    j ∈ (r.publish c (r.bystanders s c k) k).ofCategory c'
      ↔ (j ∈ r.ofCategory c' ∧ ¬ (c' = c ∧ (s.collector k).Shares (s.collector j)))
        ∨ (c' = c ∧ j = k) := by
  rw [ofCategory_publish]
  by_cases hc : c' = c
  · subst hc
    simp [mem_bystanders]
  · simp [hc]

/-- A collector that is listed nowhere, or only as its own rival, takes the place of its rivals
without disturbing the order. -/
lemma Tidy.publish (tidy : r.Tidy s) (placed : k.index < s.collectors.length)
    (fresh : ∀ c', k ∈ r.ofCategory c' → c' = c ∧ (s.collector k).Shares (s.collector k))
    (nameable : (s.collector k).Nameable) :
    (r.publish c (r.bystanders s c k) k).Tidy s := by
  refine ⟨?_, ?_, ?_, ?_, ?_⟩
  · intro c'
    rw [ofCategory_publish]
    split
    · refine List.nodup_append.mpr ⟨(tidy.nodup c).filter _, List.nodup_singleton k, ?_⟩
      intro j hj k' hk' same
      rw [List.mem_singleton] at hk'
      subst hk'
      obtain ⟨old, unshared⟩ := mem_bystanders.mp (same ▸ hj)
      exact unshared (fresh c old).2
    · exact tidy.nodup c'
  · have only : ∀ {c'}, k ∈ (r.publish c (r.bystanders s c k) k).ofCategory c' → c' = c :=
      fun h => (mem_ofCategory_publish.mp h).elim (fun old => (fresh _ old.1).1) And.left
    intro j c₁ c₂ h₁ h₂
    by_cases new : j = k
    · subst new
      exact (only h₁).trans (only h₂).symm
    · rcases mem_ofCategory_publish.mp h₁ with ⟨old₁, -⟩ | ⟨-, new₁⟩
      · rcases mem_ofCategory_publish.mp h₂ with ⟨old₂, -⟩ | ⟨-, new₂⟩
        · exact tidy.apart old₁ old₂
        · exact absurd new₂ new
      · exact absurd new₁ new
  · intro j c' hj
    rcases mem_ofCategory_publish.mp hj with ⟨old, -⟩ | ⟨-, rfl⟩
    · exact tidy.placed old
    · exact placed
  · intro j c' hj
    rcases mem_ofCategory_publish.mp hj with ⟨old, -⟩ | ⟨-, rfl⟩
    · exact tidy.nameable old
    · exact nameable
  · intro i j c' hi hj shared
    rcases mem_ofCategory_publish.mp hi with ⟨oldi, apart⟩ | ⟨rfl, rfl⟩ <;>
      rcases mem_ofCategory_publish.mp hj with ⟨oldj, apart'⟩ | ⟨same, rfl⟩
    · exact tidy.disjoint oldi oldj shared
    · exact absurd ⟨same, Collector.shares_comm.mp shared⟩ apart
    · exact absurd ⟨rfl, shared⟩ apart'
    · rfl

/-- After a registration the registry has the new collector in place of its rivals. -/
lemma entered_of_register_ok (tidy : r.Tidy s) (backed : r.Backed s)
    (h : register r c k s = .ok r' t) :
    Rearranged r.registry s t ∧ ∃ reg,
      (s.registry r.registry).Without reg (r.rivals s c k) ((r.rivals s c k).flatMap fun j =>
        (s.collector j).claims (s.registry r.registry).describes)
      ∧ t.registry r.registry = reg.enter k
          ((s.collector k).claims (s.registry r.registry).describes)
      ∧ ∀ name ∈ (s.collector k).claims (s.registry r.registry).describes,
          reg.owners.get? name = none := by
  obtain ⟨-, -, u, v, quiet, exchanged, logged⟩ := exchanged_of_register_ok h
  have frame := quiet.rearranged (i := r.registry)
  have same : u.registry r.registry = s.registry r.registry := by rw [quiet]; rfl
  obtain ⟨moved, reg, without, entered, free⟩ := exchange_ok ((tidy.nodup c).filter _)
    (by rw [frame.room]; exact backed.room)
    (fun j hj => by
      rw [frame.collector, same]
      exact backed.holds (mem_rivals.mp hj).1) exchanged
  simp only [frame.collector, same] at without entered free
  have last : Rearranged r.registry v t := by
    rw [logged]
    exact ⟨rfl, rfl, fun _ _ => rfl⟩
  refine ⟨IsTrans.trans _ _ _ (IsTrans.trans _ _ _ frame moved) last, reg, without, ?_, free⟩
  rw [logged]
  exact entered

lemma backed_of_register_ok (tidy : r.Tidy s) (backed : r.Backed s)
    (nodup : ((s.collector k).claims (s.registry r.registry).describes).Nodup)
    (h : register r c k s = .ok r' t) : r'.Backed t := by
  obtain ⟨rfl, -, -⟩ := exchanged_of_register_ok h
  obtain ⟨frame, reg, without, entered, free⟩ := entered_of_register_ok tidy backed h
  refine ⟨by rw [frame.room]; exact backed.room, ?_⟩
  intro j c' hj
  change (t.registry r.registry).Holds j ((t.collector j).claims (t.registry r.registry).describes)
  rw [entered, Registry.enter_describes, without.describes, frame.collector]
  by_cases same : j = k
  · subst same
    exact Registry.holds_enter nodup
  · rcases mem_ofCategory_publish.mp hj with ⟨old, stays⟩ | ⟨-, new⟩
    · refine ((backed.holds old).without without ?_ ?_).enter_other same free
      · intro rival
        obtain ⟨listed, shared⟩ := mem_rivals.mp rival
        exact stays ⟨tidy.apart old listed, shared⟩
      · intro name hname gone
        obtain ⟨i, hi, claimed⟩ := List.mem_flatMap.mp gone
        obtain ⟨listed, shared⟩ := mem_rivals.mp hi
        obtain rfl := (backed.holds old).apart (backed.holds listed) hname claimed
        exact stays ⟨tidy.apart old listed, shared⟩
    · exact absurd new same

/-- A refused registration leaves the registry as it was, while no supplier raises. -/
lemma unchanged_of_register_error {fault : Fault} (calm : s.Calm) (tidy : r.Tidy s)
    (backed : r.Backed s) (h : register r c k s = .error fault t) :
    Rearranged r.registry s t ∧ (s.registry r.registry).Without (t.registry r.registry) [] [] := by
  rcases exchange_of_register_error h with quiet | ⟨nameable, u, quiet, exchanged⟩
  · refine ⟨quiet.rearranged, ?_⟩
    rw [quiet]
    exact Registry.Without.refl _
  · have frame := quiet.rearranged (i := r.registry)
    have same : u.registry r.registry = s.registry r.registry := by rw [quiet]; rfl
    obtain ⟨-, moved, unchanged⟩ := exchange_error (frame.calm calm)
      (by rw [frame.collector]; exact nameable)
      (fun j hj => by rw [frame.collector]; exact tidy.nameable (mem_rivals.mp hj).1)
      ((tidy.nodup c).filter _) (by rw [frame.room]; exact backed.room)
      (fun j hj => by
        rw [frame.collector, same]
        exact backed.holds (mem_rivals.mp hj).1) exchanged
    rw [same] at unchanged
    exact ⟨IsTrans.trans _ _ _ frame moved, unchanged⟩

lemma Backed.of_unchanged (backed : r.Backed s) (frame : Rearranged r.registry s t)
    (unchanged : (s.registry r.registry).Without (t.registry r.registry) [] []) : r.Backed t := by
  refine ⟨by rw [frame.room]; exact backed.room, ?_⟩
  intro j c' hj
  rw [unchanged.describes, frame.collector]
  exact (backed.holds hj).without unchanged List.not_mem_nil fun _ _ => List.not_mem_nil

lemma Sole.of_unchanged (sole : r.Sole s) (frame : Rearranged r.registry s t)
    (unchanged : (s.registry r.registry).Without (t.registry r.registry) [] []) : r.Sole t := by
  constructor
  · intro j hj
    exact sole.held j (unchanged.mem_held.mp hj).1
  · intro name j owned
    rw [unchanged.owners, if_neg List.not_mem_nil] at owned
    rw [unchanged.describes, frame.collector]
    exact sole.owned name j owned

/-- Whoever is no rival stays listed. -/
lemma listed_publish {c' : Category} {j : CollectorId} (old : j ∈ r.ofCategory c')
    (stays : j ∉ r.rivals s c k) : j ∈ (r.publish c (r.bystanders s c k) k).ofCategory c' := by
  refine mem_ofCategory_publish.mpr (Or.inl ⟨old, ?_⟩)
  rintro ⟨rfl, shared⟩
  exact stays (mem_rivals.mpr ⟨old, shared⟩)

lemma new_listed_publish : k ∈ (r.publish c (r.bystanders s c k) k).ofCategory c :=
  mem_ofCategory_publish.mpr (Or.inr ⟨rfl, rfl⟩)

/-- Registering adds to the registry nothing but the new collector. -/
lemma sole_of_register_ok (tidy : r.Tidy s) (backed : r.Backed s) (sole : r.Sole s)
    (h : register r c k s = .ok r' t) : r'.Sole t := by
  obtain ⟨rfl, -, -⟩ := exchanged_of_register_ok h
  obtain ⟨frame, reg, without, entered, -⟩ := entered_of_register_ok tidy backed h
  constructor
  · intro j held
    change j ∈ (t.registry r.registry).held at held
    rw [entered] at held
    rcases without.of_held_enter held with rfl | ⟨old, stays⟩
    · exact ⟨c, new_listed_publish⟩
    · obtain ⟨c', listed⟩ := sole.held j old
      exact ⟨c', listed_publish listed stays⟩
  · intro name j owned
    change (t.registry r.registry).owners.get? name = some j at owned
    change _ ∧ name ∈ (t.collector j).claims (t.registry r.registry).describes
    rw [entered] at owned
    rw [entered, Registry.enter_describes, without.describes, frame.collector]
    rcases without.of_owned_enter owned with ⟨rfl, member⟩ | ⟨old, spared⟩
    · exact ⟨⟨c, new_listed_publish⟩, member⟩
    · obtain ⟨⟨c', listed⟩, member⟩ := sole.owned name j old
      refine ⟨⟨c', listed_publish listed fun rival => spared ?_⟩, member⟩
      exact List.mem_flatMap.mpr ⟨j, rival, member⟩

end Publishing

end Roster

end Metering
