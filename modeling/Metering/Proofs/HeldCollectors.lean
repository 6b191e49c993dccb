import Metering.Proofs.CollectedFamilies
import Metering.Roster

/-!
# Holding and releasing

What the two maps of a registry say about a collector is `Registry.Holds`: it is held with its
names, and each name is its own. Such a collector can be released; releasing several of them and
holding them again, in any number, brings both maps back (`releaseAll_ok`, `holdAll_restores`).
-/

namespace Metering

namespace Registry

/-- The collector is held with these names, each of them once and each of them its own. -/
structure Holds (r : Registry) (k : CollectorId) (names : List String) : Prop where
  held : r.held.get? k = some names
  nodup : names.Nodup
  owned : ∀ name ∈ names, r.owners.get? name = some k

/-- The second registry is the first one without some collectors and some names. -/
structure Without (r r' : Registry) (ks : List CollectorId) (names : List String) : Prop where
  describes : r'.describes = r.describes
  held : ∀ k, r'.held.get? k = if k ∈ ks then none else r.held.get? k
  owners : ∀ name, r'.owners.get? name = if name ∈ names then none else r.owners.get? name

lemma Without.refl (r : Registry) : r.Without r [] [] := ⟨rfl, fun _ => rfl, fun _ => rfl⟩

lemma Without.mem_held {r r' : Registry} {ks : List CollectorId} {names : List String}
    (without : r.Without r' ks names) {k : CollectorId} :
    k ∈ r'.held ↔ k ∈ r.held ∧ k ∉ ks := by
  rw [← not_iff_not, ← Index.get?_eq_none_iff, without.held]
  split
  · next gone => simp [gone]
  · next stays => simp [stays, Index.get?_eq_none_iff]

lemma Without.mem_owners {r r' : Registry} {ks : List CollectorId} {names : List String}
    (without : r.Without r' ks names) {name : String} :
    name ∈ r'.owners ↔ name ∈ r.owners ∧ name ∉ names := by
  rw [← not_iff_not, ← Index.get?_eq_none_iff, without.owners]
  split
  · next gone => simp [gone]
  · next stays => simp [stays, Index.get?_eq_none_iff]

lemma taken_eq_nil_iff {r : Registry} {names : List String} :
    r.taken names = [] ↔ ∀ name ∈ names, r.owners.get? name = none := by
  constructor
  · intro free name hname
    rw [Index.get?_eq_none_iff]
    intro claimed
    have : name ∈ r.taken names := mem_taken.mpr ⟨claimed, hname⟩
    rw [free] at this
    cases this
  · intro free
    rw [List.eq_nil_iff_forall_not_mem]
    intro name hname
    obtain ⟨claimed, member⟩ := mem_taken.mp hname
    exact Index.get?_eq_none_iff.mp (free name member) claimed

/-- Names that are all claimed can be freed one after the other. -/
lemma free_of_claimed {names : List String} {owners : Index String CollectorId}
    (nodup : names.Nodup) (claimed : ∀ name ∈ names, name ∈ owners) :
    free names owners = (none, (free names owners).2) := by
  induction names generalizing owners with
  | nil => rfl
  | cons n names ih =>
    obtain ⟨fresh, rest⟩ := List.nodup_cons.mp nodup
    have hn : n ∈ owners := claimed n List.mem_cons_self
    have later : ∀ name ∈ names, name ∈ owners.erase n := by
      intro name hname
      refine Index.mem_erase.mpr ⟨claimed name (List.mem_cons_of_mem n hname), ?_⟩
      rintro rfl
      exact fresh hname
    simp only [free, if_pos hn]
    exact ih rest later

lemma enter_describes (r : Registry) (k : CollectorId) (names : List String) :
    (r.enter k names).describes = r.describes := rfl

lemma get?_held_enter (r : Registry) (k j : CollectorId) (names : List String) :
    (r.enter k names).held.get? j = if j = k then some names else r.held.get? j :=
  Index.get?_put r.held k j names

/-- Whoever enters with names that nobody claims is held with them. -/
lemma holds_enter {r : Registry} {k : CollectorId} {names : List String} (nodup : names.Nodup) :
    (r.enter k names).Holds k names := by
  refine ⟨by rw [get?_held_enter, if_pos rfl], nodup, ?_⟩
  intro name hname
  rw [get?_owners_enter, if_pos hname]

/-- The others stay held when a collector enters with names that nobody claims. -/
lemma Holds.enter_other {r : Registry} {j k : CollectorId} {names others : List String}
    (h : r.Holds j others) (different : j ≠ k)
    (free : ∀ name ∈ names, r.owners.get? name = none) : (r.enter k names).Holds j others := by
  refine ⟨by rw [get?_held_enter, if_neg different, h.held], h.nodup, ?_⟩
  intro name hname
  have owned := h.owned name hname
  have unclaimed : name ∉ names := by
    intro member
    rw [free name member] at owned
    cases owned
  rw [get?_owners_enter, if_neg unclaimed, owned]

/-- Two held collectors share no name. -/
lemma Holds.apart {r : Registry} {j k : CollectorId} {names others : List String}
    (hj : r.Holds j names) (hk : r.Holds k others) {name : String} (mj : name ∈ names)
    (mk : name ∈ others) : j = k :=
  Option.some.inj ((hj.owned name mj).symm.trans (hk.owned name mk))

/-- A held collector stays held when others are taken out. -/
lemma Holds.without {r r' : Registry} {j : CollectorId} {ks : List CollectorId}
    {names gone : List String} (h : r.Holds j names) (w : r.Without r' ks gone) (stays : j ∉ ks)
    (spared : ∀ name ∈ names, name ∉ gone) : r'.Holds j names := by
  refine ⟨by rw [w.held, if_neg stays, h.held], h.nodup, ?_⟩
  intro name hname
  rw [w.owners, if_neg (spared name hname), h.owned name hname]

/-- Whoever is held after an exchange has entered, or was held and not taken out. -/
lemma Without.of_held_enter {r mid : Registry} {ks : List CollectorId} {gone names : List String}
    (without : r.Without mid ks gone) {j k : CollectorId} (held : j ∈ (mid.enter k names).held) :
    j = k ∨ j ∈ r.held ∧ j ∉ ks := by
  rcases Index.mem_put.mp held with stayed | entered
  · exact Or.inr (without.mem_held.mp stayed)
  · exact Or.inl entered

/-- Whoever owns a name after an exchange has entered with it, or owned it and it was not freed. -/
lemma Without.of_owned_enter {r mid : Registry} {ks : List CollectorId} {gone names : List String}
    (without : r.Without mid ks gone) {j k : CollectorId} {name : String}
    (owned : (mid.enter k names).owners.get? name = some j) :
    j = k ∧ name ∈ names ∨ r.owners.get? name = some j ∧ name ∉ gone := by
  rw [get?_owners_enter] at owned
  split at owned
  · next member => exact Or.inl ⟨(Option.some.inj owned).symm, member⟩
  · rw [without.owners] at owned
    split at owned
    · cases owned
    · next spared => exact Or.inr ⟨owned, spared⟩

end Registry

namespace Site

lemma registry_withRegistry_self {s : Site} {i : RegistryId} {r : Registry}
    (room : i.index < s.registries.length) : (s.withRegistry i r).registry i = r := by
  rw [registry_withRegistry room, if_pos rfl]

/-- The second site differs from the first at most in its records and in one registry. -/
structure Rearranged (i : RegistryId) (s t : Site) : Prop where
  rest : t = { s with activity := t.activity, journal := t.journal, registries := t.registries }
  room : t.registries.length = s.registries.length
  others : ∀ j, j ≠ i → t.registry j = s.registry j

instance (i : RegistryId) : IsPreorder Site (Rearranged i) where
  refl _ := ⟨rfl, rfl, fun _ _ => rfl⟩
  trans s t u hst htu := by
    refine ⟨?_, htu.room.trans hst.room, fun j hj => (htu.others j hj).trans (hst.others j hj)⟩
    rw [htu.rest, hst.rest]

lemma Rearranged.collector {i : RegistryId} {s t : Site} (h : Rearranged i s t)
    (k : CollectorId) : t.collector k = s.collector k := by
  rw [h.rest]
  rfl

lemma Rearranged.suppliers {i : RegistryId} {s t : Site} (h : Rearranged i s t) :
    t.suppliers = s.suppliers := by
  rw [h.rest]

lemma Rearranged.calm {i : RegistryId} {s t : Site} (h : Rearranged i s t) (calm : s.Calm) :
    t.Calm := by
  rw [Calm, h.suppliers]
  exact calm

lemma OnlyActivity.rearranged {i : RegistryId} {s t : Site} (h : OnlyActivity s t) :
    Rearranged i s t := by
  rw [h]
  exact ⟨rfl, rfl, fun _ _ => rfl⟩

lemma withRegistry_rearranged (i : RegistryId) (s : Site) (r : Registry) :
    Rearranged i s (s.withRegistry i r) := by
  refine ⟨rfl, by simp [withRegistry], ?_⟩
  intro j hj
  have different : i.index ≠ j.index := fun e => hj (by cases i; cases j; cases e; rfl)
  simp [registry, withRegistry, different]

lemma claimsOf_moves (r : RegistryId) (k : CollectorId) : Moves OnlyActivity (claimsOf r k) := by
  refine Moves.get.bind fun s => ?_
  split
  · exact Moves.pure _
  · split
    · exact (collect_moves k).bind fun _ => Moves.pure _
    · exact Moves.pure _

lemma hold_moves (r : RegistryId) (k : CollectorId) : Moves (Rearranged r) (hold r k) := by
  refine ((claimsOf_moves r k).mono fun _ _ h => h.rearranged).bind fun names => ?_
  refine Moves.get.bind fun s => ?_
  dsimp only
  split
  · exact Moves.modify fun t => withRegistry_rearranged r t _
  · exact Moves.throw _

lemma release_moves (r : RegistryId) (k : CollectorId) : Moves (Rearranged r) (release r k) := by
  refine Moves.get.bind fun s => ?_
  dsimp only
  split
  · exact Moves.throw _
  · split
    · exact (Moves.modify fun t => withRegistry_rearranged r t _).bind fun _ => Moves.throw _
    · exact Moves.modify fun t => withRegistry_rearranged r t _

/-- A collector that holds its names is taken out with them. -/
lemma release_of_holds {r : RegistryId} {k : CollectorId} {s : Site} {names : List String}
    (h : (s.registry r).Holds k names) :
    release r k s = .ok () (s.withRegistry r { s.registry r with
      held := (s.registry r).held.erase k
      owners := (Registry.free names (s.registry r).owners).2 })
    ∧ Registry.free names (s.registry r).owners
      = (none, (Registry.free names (s.registry r).owners).2) := by
  have claimed : ∀ name ∈ names, name ∈ (s.registry r).owners :=
    fun name hname => Index.mem_of_get?_eq_some (h.owned name hname)
  have freed := Registry.free_of_claimed h.nodup claimed
  refine ⟨?_, freed⟩
  rw [release, bind_get]
  simp only [h.held]
  rw [freed]
  rfl

lemma release_ok {r : RegistryId} {k : CollectorId} {s : Site} {names : List String}
    (h : (s.registry r).Holds k names) :
    ∃ reg, release r k s = .ok () (s.withRegistry r reg)
      ∧ (s.registry r).Without reg [k] names := by
  obtain ⟨run, freed⟩ := release_of_holds h
  refine ⟨_, run, rfl, ?_, ?_⟩
  · intro j
    simp [Index.get?_erase]
  · intro name
    exact Registry.get?_free freed name

/-- Collectors that are held are released, and nothing else is. -/
lemma releaseAll_ok {r : RegistryId} {names : CollectorId → List String} {ks : List CollectorId}
    (nodup : ks.Nodup) {s : Site} (room : r.index < s.registries.length)
    (holds : ∀ k ∈ ks, (s.registry r).Holds k (names k)) :
    ∃ t, releaseAll r ks s = .ok () t ∧ Rearranged r s t
      ∧ (s.registry r).Without (t.registry r) ks (ks.flatMap names) := by
  induction ks generalizing s with
  | nil => exact ⟨s, rfl, Std.Refl.refl s, Registry.Without.refl _⟩
  | cons k ks ih =>
    obtain ⟨fresh, nodup⟩ := List.nodup_cons.mp nodup
    obtain ⟨reg, run, without⟩ := release_ok (holds k List.mem_cons_self)
    have frame := withRegistry_rearranged r s reg
    have now : (s.withRegistry r reg).registry r = reg := registry_withRegistry_self room
    have still : ∀ j ∈ ks, ((s.withRegistry r reg).registry r).Holds j (names j) := by
      intro j hj
      have old := holds j (List.mem_cons_of_mem k hj)
      have different : j ≠ k := fun e => fresh (e ▸ hj)
      rw [now]
      refine old.without without (by simpa using different) ?_
      intro name hname member
      exact different (old.apart (holds k List.mem_cons_self) hname member)
    obtain ⟨t, rest, moved, gone⟩ := ih nodup (by rw [frame.room]; exact room) still
    rw [now] at gone
    refine ⟨t, (bind_of_ok run _).trans rest, IsTrans.trans _ _ _ frame moved, ?_, ?_, ?_⟩
    · exact gone.describes.trans without.describes
    · intro j
      rw [gone.held, without.held]
      by_cases hj : j ∈ ks <;> simp [hj]
    · intro name
      rw [gone.owners, without.owners, List.flatMap_cons]
      by_cases hname : name ∈ ks.flatMap names <;> simp [hname]

/-- The names of an instrument are known from its declaration. -/
lemma claimsOf_instrument {r : RegistryId} {k : CollectorId} {s : Site} {i : Instrument}
    (h : s.collector k = .instrument i) : claimsOf r k s = .ok i.family.claims s := by
  rw [claimsOf, bind_get, h]
  rfl

/-- The names of any other collector are those that it gives when a registry collects it. -/
lemma claimsOf_collected {r : RegistryId} {k : CollectorId} {s : Site}
    (h : ∀ i, s.collector k ≠ .instrument i) :
    claimsOf r k s = (if (s.registry r).describes then do
        return (← collect k).flatMap Family.claims
      else pure [] : Action (List String)) s
    ∧ (s.collector k).claims (s.registry r).describes
      = if (s.registry r).describes then
          (s.collector k).outline.flatMap fun e => Family.claimsOf e.1 e.2
        else [] := by
  rw [claimsOf, bind_get]
  cases hc : s.collector k with
  | instrument i => exact absurd hc (h i)
  | _ => exact ⟨rfl, rfl⟩

lemma claimsOf_ok {r : RegistryId} {k : CollectorId} {s t : Site} {names : List String}
    (h : claimsOf r k s = .ok names t) :
    names = (s.collector k).claims (s.registry r).describes := by
  by_cases described : ∃ i, s.collector k = .instrument i
  · obtain ⟨i, hi⟩ := described
    rw [claimsOf_instrument hi] at h
    cases h
    rw [hi]
    rfl
  · obtain ⟨run, known⟩ := claimsOf_collected (r := r) (not_exists.mp described)
    rw [run] at h
    rw [known]
    by_cases describes : (s.registry r).describes
    · rw [if_pos describes] at h ⊢
      obtain ⟨families, u, hu, h⟩ := ok_of_bind_ok h
      cases h
      rw [← (collect_outline hu).1, List.flatMap_map]
      rfl
    · rw [if_neg describes] at h ⊢
      cases h
      rfl

lemma claimsOf_succeeds {r : RegistryId} {k : CollectorId} {s : Site} (calm : s.Calm)
    (nameable : (s.collector k).Nameable) : ∃ names t, claimsOf r k s = .ok names t := by
  by_cases described : ∃ i, s.collector k = .instrument i
  · obtain ⟨i, hi⟩ := described
    exact ⟨_, s, claimsOf_instrument hi⟩
  · rw [(claimsOf_collected (not_exists.mp described)).1]
    by_cases describes : (s.registry r).describes
    · obtain ⟨families, t, ht⟩ := collect_succeeds calm nameable
      rw [if_pos describes]
      exact ⟨_, t, bind_of_ok ht _⟩
    · rw [if_neg describes]
      exact ⟨[], s, rfl⟩

/-- What is left of an attempt to hold a collector once its names are known. -/
lemma hold_of_claims {r : RegistryId} {k : CollectorId} {s t : Site} {names : List String}
    (h : claimsOf r k s = .ok names t) :
    hold r k s = if (t.registry r).taken names = [] then
        .ok () (t.withRegistry r ((t.registry r).enter k names))
      else .error (.namesTaken ((t.registry r).taken names)) t := by
  have run : hold r k s = (if ((t.registry r).taken names).isEmpty then
        modify fun s => s.withRegistry r ((t.registry r).enter k names)
      else throw (.namesTaken ((t.registry r).taken names)) : Action Unit) t :=
    bind_of_ok h _
  rw [run]
  by_cases free : (t.registry r).taken names = []
  · simp only [free, List.isEmpty_nil, if_true]
    rfl
  · rw [if_neg free, if_neg (by simpa using free)]
    rfl

lemma hold_ok {r : RegistryId} {k : CollectorId} {s t : Site} (h : hold r k s = .ok () t) :
    ∃ u, OnlyActivity s u
      ∧ t = u.withRegistry r ((s.registry r).enter k
          ((s.collector k).claims (s.registry r).describes))
      ∧ ∀ name ∈ (s.collector k).claims (s.registry r).describes,
          (s.registry r).owners.get? name = none := by
  obtain ⟨names, u, hu, -⟩ := ok_of_bind_ok h
  have frame := (claimsOf_moves r k).of_ok hu
  have known := claimsOf_ok hu
  have kept : u.registry r = s.registry r := by rw [frame]; rfl
  rw [hold_of_claims hu, kept] at h
  split at h
  · next free =>
    cases h
    rw [← known]
    exact ⟨u, frame, rfl, Registry.taken_eq_nil_iff.mp free⟩
  · cases h

/-- While no supplier raises, holding a collector fails only because a name is taken. -/
lemma hold_error {r : RegistryId} {k : CollectorId} {s t : Site} {fault : Fault} (calm : s.Calm)
    (nameable : (s.collector k).Nameable) (h : hold r k s = .error fault t) :
    (∃ names, fault = .namesTaken names) ∧ OnlyActivity s t := by
  obtain ⟨names, u, hu⟩ := claimsOf_succeeds (r := r) calm nameable
  rw [hold_of_claims hu] at h
  split at h
  · cases h
  · cases h
    exact ⟨⟨_, rfl⟩, (claimsOf_moves r k).of_ok hu⟩

lemma hold_succeeds {r : RegistryId} {k : CollectorId} {s : Site} (calm : s.Calm)
    (nameable : (s.collector k).Nameable)
    (free : ∀ name ∈ (s.collector k).claims (s.registry r).describes,
      (s.registry r).owners.get? name = none) : ∃ t, hold r k s = .ok () t := by
  obtain ⟨names, u, hu⟩ := claimsOf_succeeds (r := r) calm nameable
  have frame := (claimsOf_moves r k).of_ok hu
  have kept : u.registry r = s.registry r := by rw [frame]; rfl
  have none_taken : (u.registry r).taken names = [] := by
    rw [Registry.taken_eq_nil_iff, kept, claimsOf_ok hu]
    exact free
  exact ⟨_, by rw [hold_of_claims hu, if_pos none_taken]⟩

/-- Collectors that were taken out of a registry come back with their names. -/
lemma holdAll_restores {r : RegistryId} (reg : Registry) {ks : List CollectorId}
    (nodup : ks.Nodup) {s : Site} (room : r.index < s.registries.length) (calm : s.Calm)
    (nameable : ∀ k ∈ ks, (s.collector k).Nameable)
    (held : ∀ k ∈ ks, reg.Holds k ((s.collector k).claims reg.describes))
    (without : reg.Without (s.registry r) ks
      (ks.flatMap fun k => (s.collector k).claims reg.describes)) :
    ∃ t, holdAll r ks s = .ok () t ∧ Rearranged r s t ∧ reg.Without (t.registry r) [] [] := by
  induction ks generalizing s with
  | nil => exact ⟨s, rfl, Std.Refl.refl s, without⟩
  | cons k ks ih =>
    obtain ⟨fresh, nodup⟩ := List.nodup_cons.mp nodup
    have own := held k List.mem_cons_self
    have free : ∀ name ∈ (s.collector k).claims (s.registry r).describes,
        (s.registry r).owners.get? name = none := by
      intro name hname
      rw [without.describes] at hname
      rw [without.owners, if_pos]
      rw [List.flatMap_cons]
      exact List.mem_append_left _ hname
    obtain ⟨t, run⟩ := hold_succeeds calm (nameable k List.mem_cons_self) free
    have frame := (hold_moves r k).of_ok run
    obtain ⟨u, quiet, rfl, -⟩ := hold_ok run
    have uroom : r.index < u.registries.length := by rw [quiet]; exact room
    have now := registry_withRegistry_self (s := u)
      (r := (s.registry r).enter k ((s.collector k).claims (s.registry r).describes)) uroom
    have later : reg.Without
        ((s.registry r).enter k ((s.collector k).claims (s.registry r).describes)) ks
        (ks.flatMap fun k => (s.collector k).claims reg.describes) := by
      rw [without.describes]
      refine ⟨without.describes, ?_, ?_⟩
      · intro j
        rw [Registry.get?_held_enter, without.held]
        by_cases hj : j = k
        · rw [hj, if_pos rfl, if_neg fresh, own.held]
        · simp [hj]
      · intro name
        rw [Registry.get?_owners_enter, without.owners]
        by_cases hname : name ∈ (s.collector k).claims reg.describes
        · have other : name ∉ ks.flatMap fun k => (s.collector k).claims reg.describes := by
            intro member
            obtain ⟨j, hj, shared⟩ := List.mem_flatMap.mp member
            have same := (held j (List.mem_cons_of_mem k hj)).apart own shared hname
            exact fresh (same ▸ hj)
          rw [if_pos hname, if_neg other, own.owned name hname]
        · simp [hname]
    have collectors : ∀ j, (u.withRegistry r ((s.registry r).enter k
        ((s.collector k).claims (s.registry r).describes))).collector j = s.collector j :=
      frame.collector
    obtain ⟨t, rest, moved, back⟩ := ih nodup (by rw [frame.room]; exact room) (frame.calm calm)
      (fun j hj => by rw [collectors]; exact nameable j (List.mem_cons_of_mem k hj))
      (fun j hj => by rw [collectors]; exact held j (List.mem_cons_of_mem k hj))
      (by simp only [collectors]; rw [now]; exact later)
    exact ⟨t, (bind_of_ok run _).trans rest, IsTrans.trans _ _ _ frame moved, back⟩

end Site

namespace Roster

open Site

variable {r : RegistryId} {displaced : List CollectorId} {k : CollectorId} {s t : Site}

/-- An exchange succeeds only if the displaced collectors are released and the new one is held. -/
lemma exchanged_of_ok (h : exchange r displaced k s = .ok () t) :
    ∃ u, releaseAll r displaced s = .ok () u ∧ hold r k u = .ok () t := by
  obtain ⟨⟨⟩, u, released, caught⟩ := ok_of_bind_ok h
  refine ⟨u, released, ?_⟩
  cases entered : hold r k u with
  | ok x v =>
    rw [tryCatch_of_ok entered] at caught
    exact caught
  | error fault v =>
    rw [tryCatch_of_error entered, restore] at caught
    split at caught
    · obtain ⟨x, w, -, thrown⟩ := ok_of_bind_ok caught
      cases thrown
    · cases caught

/-- When the exchange succeeds, the displaced collectors are out and the new one is in, with names
that nobody else claims. -/
lemma exchange_ok (nodup : displaced.Nodup) (room : r.index < s.registries.length)
    (held : ∀ j ∈ displaced,
      (s.registry r).Holds j ((s.collector j).claims (s.registry r).describes))
    (h : exchange r displaced k s = .ok () t) :
    Rearranged r s t ∧ ∃ reg, (s.registry r).Without reg displaced
        (displaced.flatMap fun j => (s.collector j).claims (s.registry r).describes)
      ∧ t.registry r = reg.enter k ((s.collector k).claims (s.registry r).describes)
      ∧ ∀ name ∈ (s.collector k).claims (s.registry r).describes,
          reg.owners.get? name = none := by
  obtain ⟨u, released, frame, without⟩ := releaseAll_ok nodup room held
  obtain ⟨u', released', entered⟩ := exchanged_of_ok h
  rw [released] at released'
  cases released'
  have moved := (hold_moves r k).of_ok entered
  obtain ⟨w, quiet, rfl, free⟩ := hold_ok entered
  rw [frame.collector, without.describes] at free
  refine ⟨IsTrans.trans _ _ _ frame moved, u.registry r, without, ?_, free⟩
  rw [frame.collector, without.describes]
  apply registry_withRegistry_self
  rw [quiet]
  exact frame.room ▸ room

/-- When the exchange fails while no supplier raises, the new collector was refused for its names,
the displaced ones have been held again, and the registry says the same as before. -/
lemma exchange_error {fault : Fault} (calm : s.Calm) (nameable : (s.collector k).Nameable)
    (others : ∀ j ∈ displaced, (s.collector j).Nameable)
    (nodup : displaced.Nodup) (room : r.index < s.registries.length)
    (held : ∀ j ∈ displaced,
      (s.registry r).Holds j ((s.collector j).claims (s.registry r).describes))
    (h : exchange r displaced k s = .error fault t) :
    (∃ names u v, fault = .namesTaken names ∧ releaseAll r displaced s = .ok () u
        ∧ hold r k u = .error fault v ∧ holdAll r displaced v = .ok () t)
      ∧ Rearranged r s t ∧ (s.registry r).Without (t.registry r) [] [] := by
  obtain ⟨u, released, frame, without⟩ := releaseAll_ok nodup room held
  have run : exchange r displaced k s = tryCatch (hold r k) (restore r displaced) u :=
    bind_of_ok released _
  rw [run] at h
  cases entered : hold r k u with
  | ok x v =>
    rw [tryCatch_of_ok entered] at h
    cases h
  | error fault' v =>
    obtain ⟨⟨names, rfl⟩, quiet⟩ := hold_error (frame.calm calm)
      (by rw [frame.collector]; exact nameable) entered
    have moved := IsTrans.trans _ _ _ frame (quiet.rearranged (i := r))
    have kept : v.registry r = u.registry r := by rw [quiet]; rfl
    obtain ⟨w, restored, back, same⟩ := holdAll_restores (s.registry r) nodup
      (by rw [moved.room]; exact room) (moved.calm calm)
      (fun j hj => by rw [moved.collector]; exact others j hj)
      (fun j hj => by rw [moved.collector]; exact held j hj)
      (by simp only [moved.collector]; rw [kept]; exact without)
    have refusal : (Fault.namesTaken names).isRefusal = true := rfl
    rw [tryCatch_of_error entered, restore, if_pos refusal, bind_of_ok restored] at h
    cases h
    exact ⟨⟨names, u, v, rfl, released, entered, restored⟩, IsTrans.trans _ _ _ moved back, same⟩

end Roster

end Metering
