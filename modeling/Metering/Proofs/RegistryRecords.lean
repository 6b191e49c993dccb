import Metering.Proofs.InterruptedRegistration

/-!
# What registries have on record

What outlasts the steps of a registration, `Site.Outlasts`, outlasts registrations and dismissals as
they are. So does this: a registry remembers the names with which it took a collector in, and these
are the names that the collector still claims (`Site.Recorded`), so that a collector that is put
back comes back with the names that it had. It holds in every state that a roster can reach,
whatever its suppliers raise and whoever else uses the registry (`Roster.Reached.recorded`).
-/

namespace Metering

namespace Site

/-- An action on collectors that have places below `n` keeps a property of the site. -/
structure Keeps (P : Site → Prop) (n : Nat) (s t : Site) : Prop where
  collectors : t.collectors = s.collectors
  kept : n ≤ s.collectors.length → P s → P t

instance (P : Site → Prop) (n : Nat) : IsPreorder Site (Keeps P n) where
  refl _ := ⟨rfl, fun _ h => h⟩
  trans s t u hst htu := by
    refine ⟨htu.collectors.trans hst.collectors, fun room h => ?_⟩
    exact htu.kept (by rw [hst.collectors]; exact room) (hst.kept room h)

/-- The property outlasts whatever is noted, and whatever a registry holds or releases. -/
structure Outlasts (i : RegistryId) (P : Site → Prop) : Prop where
  noted : ∀ {s t}, t = { s with activity := t.activity, journal := t.journal } → P s → P t
  held : ∀ {s k}, k.index < s.collectors.length → P s → P (endOf (hold i k s))
  released : ∀ {s} k, P s → P (endOf (release i k s))

section Outlasting

variable {P : Site → Prop} {i : RegistryId} {n : Nat} {s t : Site} {k : CollectorId}

lemma Outlasts.hold (outlasts : Outlasts i P) (placed : k.index < n) :
    Moves (Keeps P n) (hold i k) := by
  intro s
  refine ⟨by rw [(hold_moves i k s).rest], fun room => outlasts.held ?_⟩
  omega

lemma Outlasts.release (outlasts : Outlasts i P) (k : CollectorId) :
    Moves (Keeps P n) (release i k) :=
  fun s => ⟨by rw [(release_moves i k s).rest], fun _ => outlasts.released k⟩

end Outlasting

section Recording

variable {i : RegistryId} {s t : Site}

lemma recorded_of_vacant {describes : Bool} (unused : s.registry i = .vacant describes) :
    s.Recorded i := by
  intro j names held
  rw [unused] at held
  cases held

lemma Recorded.grows (recorded : s.Recorded i) (grows : s.Grows t)
    (same : t.registry i = s.registry i) : t.Recorded i := by
  intro j names held
  rw [same] at held ⊢
  obtain ⟨placed, known⟩ := recorded j names held
  have room := grows.room
  refine ⟨by omega, ?_⟩
  rw [known, Collector.claims_congr (grows.declared j placed)]

/-- A registry without a place on the site does not change. -/
lemma registry_withRegistry_or (s : Site) (i : RegistryId) (reg : Registry) :
    (s.withRegistry i reg).registry i = reg
      ∨ (s.withRegistry i reg).registry i = s.registry i := by
  by_cases room : i.index < s.registries.length
  · exact Or.inl (registry_withRegistry_self room)
  · right
    rw [withRegistry, List.set_eq_of_length_le (Nat.le_of_not_lt room)]

/-- A changed registry is on record if whatever it holds now is. -/
lemma Recorded.withRegistry (recorded : s.Recorded i) {reg : Registry}
    (held : ∀ j names, reg.held.get? j = some names →
      j.index < s.collectors.length ∧ names = (s.collector j).claims reg.describes) :
    (s.withRegistry i reg).Recorded i := by
  intro j names
  rcases registry_withRegistry_or s i reg with now | same
  · rw [now]
    exact held j names
  · rw [same]
    exact recorded j names

lemma Recorded.noted (recorded : s.Recorded i)
    (h : t = { s with activity := t.activity, journal := t.journal }) : t.Recorded i := by
  apply recorded.grows
  · rw [h]
    exact ⟨Nat.le_refl _, fun _ _ => rfl⟩
  · rw [h]
    rfl

lemma Recorded.hold (recorded : s.Recorded i) {k : CollectorId}
    (placed : k.index < s.collectors.length) : (endOf (hold i k s)).Recorded i := by
  cases run : Site.hold i k s with
  | error fault t =>
    apply recorded.noted
    rw [quiet_of_hold_error run, endOf]
  | ok x t =>
    obtain ⟨u, quiet, rfl, -⟩ := hold_ok run
    have frame := quiet.rearranged (i := i)
    have same : u.registry i = s.registry i := by rw [quiet]; rfl
    have before : u.Recorded i := recorded.grows frame.grows same
    apply before.withRegistry
    intro j names held
    rw [Registry.get?_held_enter] at held
    rw [Registry.enter_describes, frame.collector]
    split at held
    · next new =>
      cases held
      subst new
      exact ⟨Nat.lt_of_lt_of_le placed frame.grows.room, rfl⟩
    · have old := before j names (same ▸ held)
      rw [same, frame.collector] at old
      exact old

lemma Recorded.release (recorded : s.Recorded i) (k : CollectorId) :
    (endOf (release i k s)).Recorded i := by
  rw [Site.release, bind_get]
  cases held : (s.registry i).held.get? k with
  | none => exact recorded
  | some names =>
    dsimp only
    rcases Registry.free names (s.registry i).owners with ⟨_ | missing, owners⟩
    · apply recorded.withRegistry
      intro j own hown
      rw [Index.get?_erase] at hown
      split at hown
      · cases hown
      · exact recorded j own hown
    · exact recorded.withRegistry recorded

lemma recorded_outlasts (i : RegistryId) : Outlasts i (·.Recorded i) where
  noted h recorded := recorded.noted h
  held placed recorded := recorded.hold placed
  released k recorded := recorded.release k

end Recording

section Disturbing

variable {i : RegistryId} {s t : Site}

/-- What others may do to a site on which a roster works: anything that leaves its registry as it
is, and holding and releasing collectors of their own. -/
inductive Disturbs (i : RegistryId) (s : Site) : Site → Prop
  | beside {t : Site} (grows : s.Grows t) (same : t.registry i = s.registry i) : Disturbs i s t
  | held {k : CollectorId} (placed : k.index < s.collectors.length) :
      Disturbs i s (endOf (hold i k s))
  | released (k : CollectorId) : Disturbs i s (endOf (release i k s))

lemma Disturbs.grows (h : Disturbs i s t) : s.Grows t := by
  cases h with
  | beside grows same => exact grows
  | held placed => exact (hold_moves i _ s).grows
  | released k => exact (release_moves i k s).grows

lemma Disturbs.recorded (h : Disturbs i s t) (recorded : s.Recorded i) : t.Recorded i := by
  cases h with
  | beside grows same => exact recorded.grows grows same
  | held placed => exact recorded.hold placed
  | released k => exact recorded.release k

end Disturbing

end Site

open Site

namespace Roster

/-- The states that a roster can reach on a registry that was empty at first: by registrations,
refused ones included, by being dismissed, and by what others do. -/
inductive Reached : Roster → Site → Prop
  | vacant {i : RegistryId} {s : Site} {describes : Bool}
      (unused : s.registry i = .vacant describes) : Reached (.vacant i) s
  | registered {r r' : Roster} {s t : Site} {c : Category} {k : CollectorId} (h : Reached r s)
      (placed : k.index < s.collectors.length) (ok : r.register c k s = .ok r' t) : Reached r' t
  | refused {r : Roster} {s t : Site} {c : Category} {k : CollectorId} {fault : Fault}
      (h : Reached r s) (placed : k.index < s.collectors.length)
      (failed : r.register c k s = .error fault t) : Reached r t
  | dismissed {r : Roster} {s : Site} (h : Reached r s) :
      Reached r.emptied (endOf (r.dismiss s))
  | disturbed {r : Roster} {s t : Site} (h : Reached r s) (others : Disturbs r.registry s t) :
      Reached r t

/-- Every listed collector has its place on the site. -/
def Seated (r : Roster) (s : Site) : Prop :=
  ∀ c, ∀ j ∈ r.ofCategory c, j.index < s.collectors.length

section Seating

variable {r r' : Roster} {c : Category} {k : CollectorId} {s t : Site}

lemma seated_vacant (i : RegistryId) (s : Site) : (vacant i).Seated s :=
  fun _ _ h => absurd h List.not_mem_nil

lemma Seated.of_room (seated : r.Seated s) (room : s.collectors.length ≤ t.collectors.length) :
    r.Seated t := by
  intro c j listed
  have placed := seated c j listed
  omega

lemma Seated.register_ok (seated : r.Seated s) (placed : k.index < s.collectors.length)
    (ok : r.register c k s = .ok r' t) : r'.Seated t := by
  have room := ((register_moves r c k).of_ok ok).grows.room
  obtain ⟨rfl, -, -⟩ := exchanged_of_register_ok ok
  intro c' j listed
  rcases mem_ofCategory_publish.mp listed with ⟨old, -⟩ | ⟨-, rfl⟩
  · exact seated.of_room room c' j old
  · omega

lemma Seated.register_error {fault : Fault} (seated : r.Seated s)
    (failed : r.register c k s = .error fault t) : r.Seated t :=
  seated.of_room ((register_moves r c k).of_error failed).grows.room

end Seating

section Outlasting

variable {r r' : Roster} {P : Site → Prop} {c : Category} {k : CollectorId} {s t : Site} {n : Nat}

variable (outlasts : Outlasts r.registry P)

include outlasts

/-- What outlasts the steps of a registration outlasts the registration. -/
lemma kept_of_register (seated : r.Seated s) (placed : k.index < s.collectors.length) (h : P s) :
    P (endOf (r.register c k s)) := by
  have places : ∀ j ∈ k :: r.rivals s c k, j.index < s.collectors.length :=
    List.forall_mem_cons.mpr ⟨placed, fun j rival => seated c j (mem_rivals.mp rival).1⟩
  have moved : Keeps P s.collectors.length s (endOf (r.register c k s)) :=
    register_along (fun h => ⟨by rw [h], fun _ => outlasts.noted h⟩)
      (fun j _ => outlasts.release j) fun j hj => outlasts.hold (places j hj)
  exact moved.kept (Nat.le_refl _) h

lemma kept_of_dismiss (h : P s) : P (endOf (r.dismiss s)) := by
  have moved : Moves (Keeps P 0) r.dismiss :=
    (Moves.forM outlasts.release r.collectors).bind fun _ =>
      Moves.modify fun _ => ⟨rfl, fun _ => outlasts.noted rfl⟩
  exact (moved s).kept (Nat.zero_le _) h

end Outlasting

/-- In every reached state the listed collectors have their places, and what the registry holds is
on record. -/
lemma Reached.recorded {r : Roster} {s : Site} (h : r.Reached s) :
    r.Seated s ∧ s.Recorded r.registry := by
  induction h with
  | @vacant i s _ unused => exact ⟨seated_vacant i s, recorded_of_vacant unused⟩
  | @registered r r' s t c k _ placed ok ih =>
    have recorded := kept_of_register (c := c) (recorded_outlasts _) ih.1 placed ih.2
    rw [ok] at recorded
    refine ⟨ih.1.register_ok placed ok, ?_⟩
    obtain ⟨rfl, -, -⟩ := exchanged_of_register_ok ok
    exact recorded
  | @refused r s t c k fault _ placed failed ih =>
    have recorded := kept_of_register (c := c) (recorded_outlasts _) ih.1 placed ih.2
    rw [failed] at recorded
    exact ⟨ih.1.register_error failed, recorded⟩
  | dismissed _ ih => exact ⟨seated_vacant _ _, kept_of_dismiss (recorded_outlasts _) ih.2⟩
  | disturbed _ others ih => exact ⟨ih.1.of_room others.grows.room, others.recorded ih.2⟩

end Roster

end Metering
