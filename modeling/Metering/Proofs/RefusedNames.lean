import Metering.Proofs.RosterRuns

/-!
# Names that are taken

A registration is refused for the names that others still claim once its rivals have been taken out.
Who claims them is known from the registry, in which every claimed name leads to a collector that is
held with it (`Registry.Traced`), and from the lists, which have everything that is held unless a
dismissal broke off. So whoever stands in the way is listed under another category, or it is listed
under the same one and no rival, since only the further names of the two families meet.
-/

namespace Metering

open Site

namespace Registry

/-- Every claimed name leads to a collector that is held with it. -/
def Traced (r : Registry) : Prop :=
  ∀ name j, r.owners.get? name = some j → ∃ names, r.held.get? j = some names ∧ name ∈ names

variable {r : Registry} {k : CollectorId} {names : List String}

lemma traced_vacant (describes : Bool) : (vacant describes).Traced := by
  intro name j owned
  cases owned

lemma Traced.enter (traced : r.Traced) (known : ∀ old, r.held.get? k = some old → old = names) :
    (r.enter k names).Traced := by
  intro name j owned
  rw [get?_owners_enter] at owned
  rw [get?_held_enter]
  split at owned
  · next member =>
    cases owned
    exact ⟨names, if_pos rfl, member⟩
  · next other =>
    obtain ⟨old, held, member⟩ := traced name j owned
    have different : j ≠ k := by
      rintro rfl
      exact other (known old held ▸ member)
    exact ⟨old, by rw [if_neg different, held], member⟩

/-- Freeing names gives none of them to somebody else. -/
lemma owned_of_free {owners rest : Index String CollectorId} {missing : Option String}
    (h : free names owners = (missing, rest)) {name : String} {j : CollectorId}
    (owned : rest.get? name = some j) : owners.get? name = some j := by
  induction names generalizing owners with
  | nil =>
    cases h
    exact owned
  | cons n names ih =>
    rw [free] at h
    split at h
    · have before := ih h
      rw [Index.get?_erase] at before
      split at before
      · cases before
      · exact before
    · cases h
      exact owned

end Registry

namespace Site

variable {i : RegistryId} {s t : Site} {k : CollectorId}

lemma traced_hold (recorded : s.Recorded i) (traced : (s.registry i).Traced) :
    ((endOf (hold i k s)).registry i).Traced := by
  cases run : hold i k s with
  | error fault t =>
    have same : t.registry i = s.registry i := by rw [quiet_of_hold_error run]; rfl
    rw [endOf, same]
    exact traced
  | ok x t =>
    obtain ⟨u, quiet, rfl, -⟩ := hold_ok run
    have same : u.registry i = s.registry i := by rw [quiet]; rfl
    rw [endOf]
    rcases registry_withRegistry_or u i _ with now | still
    · rw [now]
      exact traced.enter fun old held => (recorded k old held).2
    · rw [still, same]
      exact traced

lemma traced_release (traced : (s.registry i).Traced) :
    ((endOf (release i k s)).registry i).Traced := by
  have changed : ∀ reg : Registry, reg.Traced → ((s.withRegistry i reg).registry i).Traced := by
    intro reg now
    rcases registry_withRegistry_or s i reg with same | same
    · rwa [same]
    · rwa [same]
  rw [release, bind_get]
  cases held : (s.registry i).held.get? k with
  | none => exact traced
  | some names =>
    dsimp only
    rcases freed : Registry.free names (s.registry i).owners with ⟨_ | missing, owners⟩
    · apply changed
      intro name j owned
      have before := owned
      rw [Registry.get?_free freed] at before
      split at before
      · cases before
      · next other =>
        obtain ⟨own, was, member⟩ := traced name j before
        have different : j ≠ k := by
          rintro rfl
          rw [held] at was
          cases was
          exact other member
        exact ⟨own, by rw [Index.get?_erase, if_neg different, was], member⟩
    · apply changed
      intro name j owned
      exact traced name j (Registry.owned_of_free freed owned)

lemma traced_outlasts (i : RegistryId) :
    Outlasts i fun s => s.Recorded i ∧ (s.registry i).Traced where
  noted h known := by
    refine ⟨known.1.noted h, ?_⟩
    rw [h]
    exact known.2
  held placed known := ⟨known.1.hold placed, traced_hold known.1 known.2⟩
  released k known := ⟨known.1.release k, traced_release known.2⟩

/-- The registry holds nothing but what it held before, with the same names, and some of the given
collectors. -/
def HoldsAtMost (i : RegistryId) (ks : List CollectorId) (s t : Site) : Prop :=
  ∀ j own, (t.registry i).held.get? j = some own →
    (s.registry i).held.get? j = some own ∨ j ∈ ks

instance (i : RegistryId) (ks : List CollectorId) : IsPreorder Site (HoldsAtMost i ks) where
  refl _ _ _ h := Or.inl h
  trans _ _ _ hst htu j own hj := (htu j own hj).elim (hst j own) Or.inr

variable {ks : List CollectorId}

lemma OnlyActivity.holdsAtMost (h : OnlyActivity s t) : HoldsAtMost i ks s t := by
  rw [h]
  exact fun _ _ held => Or.inl held

lemma withRegistry_holdsAtMost {reg : Registry}
    (held : ∀ j own, reg.held.get? j = some own →
      (s.registry i).held.get? j = some own ∨ j ∈ ks) :
    HoldsAtMost i ks s (s.withRegistry i reg) := by
  intro j own hj
  rcases registry_withRegistry_or s i reg with now | same
  · rw [now] at hj
    exact held j own hj
  · rw [same] at hj
    exact Or.inl hj

lemma hold_holdsAtMost (h : k ∈ ks) : Moves (HoldsAtMost i ks) (hold i k) := by
  intro s
  cases run : hold i k s with
  | error fault t => exact (quiet_of_hold_error run).holdsAtMost
  | ok x t =>
    obtain ⟨u, quiet, rfl, -⟩ := hold_ok run
    have same : u.registry i = s.registry i := by rw [quiet]; rfl
    apply IsTrans.trans _ _ _ quiet.holdsAtMost
    apply withRegistry_holdsAtMost
    intro j own hj
    rw [Registry.get?_held_enter] at hj
    split at hj
    · next new => exact Or.inr (new ▸ h)
    · rw [same]
      exact Or.inl hj

lemma holdAll_holdsAtMost {displaced : List CollectorId} (h : ∀ k ∈ displaced, k ∈ ks) :
    Moves (HoldsAtMost i ks) (holdAll i displaced) :=
  Moves.forM_of_mem fun k hk => hold_holdsAtMost (h k hk)

lemma release_holdsAtMost (k : CollectorId) : Moves (HoldsAtMost i ks) (release i k) := by
  intro s
  rw [release, bind_get]
  cases held : (s.registry i).held.get? k with
  | none => exact Std.Refl.refl s
  | some names =>
    dsimp only
    rcases Registry.free names (s.registry i).owners with ⟨_ | missing, owners⟩
    · apply withRegistry_holdsAtMost
      intro j own hj
      rw [Index.get?_erase] at hj
      split at hj
      · cases hj
      · exact Or.inl hj
    · apply withRegistry_holdsAtMost
      exact fun _ _ hj => Or.inl hj

end Site

namespace Roster

variable {r r' : Roster} {c : Category} {k : CollectorId} {s t : Site} {fault : Fault}

/-- Releasing collectors is never refused for names. -/
lemma releaseAll_error {i : RegistryId} {ks : List CollectorId}
    (h : releaseAll i ks s = .error fault t) : ∀ names, fault ≠ .namesTaken names := by
  have releasing := release_failsOnly (P := fun fault => ∀ names, fault ≠ .namesTaken names)
    (fun _ => Fault.noConfusion) (fun _ _ => Fault.noConfusion) i
  exact FailsOnly.forM releasing ks s fault t h

/-- What is collected before anything changes is never refused for its names. -/
lemma survey_error (h : r.survey c k s = .error fault t) : ∀ names, fault ≠ .namesTaken names := by
  have collecting := collect_failsOnly (P := fun fault => ∀ names, fault ≠ .namesTaken names)
    (fun _ => Fault.noConfusion) fun _ _ _ => Fault.noConfusion
  have surveying := (familyNames_failsOnly (collecting k)).bind fun names =>
    partAll_failsOnly collecting names (r.ofCategory c)
  exact surveying s fault t h

/-- A collector that is kept out for its names is kept out by what others still claim after the
rivals have been taken out. -/
lemma kept_out_of_register_error {names : List String} (recorded : s.Recorded r.registry)
    (refused : r.register c k s = .error (.namesTaken names) t) :
    ∃ displaced kept u v w, r.survey c k s = .ok (displaced, kept) u
      ∧ releaseAll r.registry displaced u = .ok () v
      ∧ hold r.registry k v = .error (.namesTaken names) w := by
  cases surveyed : r.survey c k s with
  | error fault u =>
    rw [register_of_survey_error surveyed] at refused
    cases refused
    exact absurd rfl (survey_error surveyed names)
  | ok parts u =>
    obtain ⟨displaced, kept⟩ := parts
    obtain ⟨through, stopped⟩ := register_of_survey_ok surveyed
    cases released : releaseAll r.registry displaced u with
    | error fault v =>
      rw [stopped fault v (bind_of_error released _)] at refused
      cases refused
      exact absurd rfl (releaseAll_error released names)
    | ok x v =>
      cases held : hold r.registry k v with
      | ok y w =>
        obtain ⟨w', registered, -⟩ := through w
          ((exchange_of_released released).trans (tryCatch_of_ok held _))
        rw [registered] at refused
        cases refused
      | error fault w =>
        refine ⟨displaced, kept, u, v, w, rfl, released, ?_⟩
        obtain ⟨passed, caught⟩ := register_of_kept_out surveyed released held
        cases refusal : fault.isRefusal with
        | false =>
          rw [passed refusal] at refused
          cases refused
          exact held
        | true =>
          obtain ⟨back, lost, -, -, ⟨u, restored, -⟩ | ⟨alarm, message, u, failed, -⟩⟩ :=
            restored_until surveyed released held recorded
          · rw [(caught refusal u).1 restored] at refused
            cases refused
            exact held
          · rw [(caught refusal u).2 _ failed] at refused
            cases refused

lemma taken_of_hold_error {i : RegistryId} {names : List String}
    (nameable : (s.collector k).Nameable) (held : hold i k s = .error (.namesTaken names) t) :
    names = (s.registry i).taken ((s.collector k).claims (s.registry i).describes)
      ∧ names ≠ [] := by
  rcases error_of_bind_error held with failed | ⟨claimed, u, known, -⟩
  · obtain ⟨alarm, message, raised⟩ := raised_of_claimsOf_error nameable failed
    cases raised
  · have same : u.registry i = s.registry i := by rw [(claimsOf_moves i k).of_ok known]; rfl
    rw [hold_of_claims known] at held
    split at held
    · cases held
    · next taken =>
      cases held
      rw [same, claimsOf_ok known] at taken ⊢
      exact ⟨rfl, taken⟩

/-- A registration is refused for those of its names that are still claimed once its rivals have
been taken out. -/
lemma taken_of_register_error {names : List String} (recorded : s.Recorded r.registry)
    (refused : r.register c k s = .error (.namesTaken names) t) :
    ∃ reg, (s.registry r.registry).Without reg (r.rivals s c k) ((r.rivals s c k).flatMap fun j =>
        (s.collector j).claims (s.registry r.registry).describes)
      ∧ names = reg.taken ((s.collector k).claims (s.registry r.registry).describes)
      ∧ names ≠ [] := by
  obtain ⟨displaced, kept, u, v, w, surveyed, released, held⟩ :=
    kept_out_of_register_error recorded refused
  obtain ⟨parted, nameable, -⟩ := surveyed_ok surveyed
  cases parted
  have without := (out_of_released recorded surveyed released).2.2.2
  have frame : Rearranged r.registry s v :=
    IsTrans.trans _ _ _ ((survey_moves r c k).of_ok surveyed).rearranged
      ((Moves.forM (release_moves r.registry) _).of_ok released)
  have taken := taken_of_hold_error (by rw [frame.collector]; exact nameable) held
  rw [frame.collector, without.describes] at taken
  exact ⟨v.registry r.registry, without, taken⟩

/-- What a release takes out was held with names that differ, and nothing else is missing
afterwards. -/
lemma held_of_released {i : RegistryId} {ks : List CollectorId} {u v : Site}
    (released : releaseAll i ks u = .ok () v) :
    ks.Nodup ∧ (∀ j ∈ ks, ∃ own, (u.registry i).held.get? j = some own ∧ own.Nodup)
      ∧ ∃ gone, (u.registry i).Without (v.registry i) ks gone := by
  -- The names on record serve here, whether or not they are those that the collectors claim.
  let names := fun j => ((u.registry i).held.get? j).getD []
  have known : ∀ j ∈ ks, ∀ own, (u.registry i).held.get? j = some own → own = names j := by
    intro j _ own held
    simp [names, held]
  obtain ⟨distinct, held, apart, -, without⟩ := released_of_ok known released
  exact ⟨distinct, fun j hj => ⟨_, held j hj, (List.nodup_flatMap.mp apart).1 j hj⟩, _, without⟩

/-- After a registration the registry has the new collector, with the names that it claims, in place
of its rivals, which were held. -/
lemma rivals_of_register_ok (ok : r.register c k s = .ok r' t)
    (room : r.registry.index < s.registries.length) :
    (r.rivals s c k).Nodup
      ∧ (∀ j ∈ r.rivals s c k,
        ∃ own, (s.registry r.registry).held.get? j = some own ∧ own.Nodup)
      ∧ ∃ reg gone, (s.registry r.registry).Without reg (r.rivals s c k) gone
        ∧ t.registry r.registry
          = reg.enter k ((s.collector k).claims (s.registry r.registry).describes) := by
  obtain ⟨-, -, u, v, quiet, exchanged, logged⟩ := exchanged_of_register_ok ok
  have same : u.registry r.registry = s.registry r.registry := by rw [quiet]; rfl
  obtain ⟨w, released, entered⟩ := exchanged_of_ok exchanged
  obtain ⟨distinct, held, gone, without⟩ := held_of_released released
  rw [same] at held without
  have frame : Rearranged r.registry s w := IsTrans.trans _ _ _ quiet.rearranged
    ((Moves.forM (release_moves r.registry) _).of_ok released)
  obtain ⟨w', quiet', rfl, -⟩ := hold_ok entered
  refine ⟨distinct, held, w.registry r.registry, gone, without, ?_⟩
  have still : r.registry.index < w'.registries.length := by
    rw [quiet']
    exact frame.room ▸ room
  rw [logged]
  refine (registry_withRegistry_self still).trans ?_
  rw [frame.collector, without.describes]

/-- Whoever is held after a registration is the new collector, or was held with the same names and
is no rival. -/
lemma held_of_register_ok (ok : r.register c k s = .ok r' t) {j : CollectorId} {own : List String}
    (held : (t.registry r.registry).held.get? j = some own) :
    j = k ∨ (s.registry r.registry).held.get? j = some own ∧ j ∉ r.rivals s c k := by
  have room := room_of_held held
  rw [((register_moves r c k).of_ok ok).room] at room
  obtain ⟨-, -, reg, gone, without, now⟩ := rivals_of_register_ok ok room
  rw [now, Registry.get?_held_enter] at held
  split at held
  · next new => exact Or.inl new
  · rw [without.held] at held
    split at held
    · cases held
    · next stays => exact Or.inr ⟨held, stays⟩

lemma restore_holdsAtMost {i : RegistryId} {displaced : List CollectorId} (fault : Fault) :
    Moves (HoldsAtMost i displaced) (restore i displaced fault) := by
  rw [restore]
  split
  · exact (holdAll_holdsAtMost fun _ h => h).bind fun _ => Moves.throw fault
  · exact Moves.throw fault

/-- A registration that fails leaves nothing held that was not held before, with the same names or
with names that differ from one another. -/
lemma held_of_register_error (failed : r.register c k s = .error fault t) {j : CollectorId}
    {own : List String} (held : (t.registry r.registry).held.get? j = some own) :
    ∃ old, (s.registry r.registry).held.get? j = some old ∧ (old = own ∨ old.Nodup) := by
  rcases exchange_of_register_error failed with quiet | ⟨-, u, quiet, exchanged⟩
  · rw [quiet] at held
    exact ⟨own, held, Or.inl rfl⟩
  have same : u.registry r.registry = s.registry r.registry := by rw [quiet]; rfl
  have releasing : ∀ ks, Moves (HoldsAtMost r.registry ks)
      (releaseAll r.registry (r.rivals s c k)) := fun _ => Moves.forM release_holdsAtMost _
  rw [← same]
  rcases error_of_bind_error exchanged with unreleased | ⟨⟨⟩, v, released, caught⟩
  · have was := ((releasing []).of_error unreleased j own held).resolve_right List.not_mem_nil
    exact ⟨own, was, Or.inl rfl⟩
  · have restoring : HoldsAtMost r.registry (r.rivals s c k) v t := by
      cases entered : hold r.registry k v with
      | ok x w =>
        rw [tryCatch_of_ok entered] at caught
        cases caught
      | error other w =>
        rw [tryCatch_of_error entered] at caught
        exact IsTrans.trans _ _ _ (quiet_of_hold_error entered).holdsAtMost
          ((restore_holdsAtMost other).of_error caught)
    rcases IsTrans.trans _ _ _ ((releasing _).of_ok released) restoring j own held with old | rival
    · exact ⟨own, old, Or.inl rfl⟩
    · obtain ⟨old, was, differ⟩ := (held_of_released released).2.1 j rival
      exact ⟨old, was, Or.inr differ⟩

/-- Nothing is held that is not listed, after a dismissal that completes. -/
lemma not_held_of_dismiss_ok {x : Unit} (ok : r.dismiss s = .ok x t) {j : CollectorId}
    {own : List String} (held : (t.registry r.registry).held.get? j = some own) :
    (s.registry r.registry).held.get? j = some own ∧ ∀ c, j ∉ r.ofCategory c := by
  obtain ⟨⟨⟩, u, released, reported⟩ := ok_of_bind_ok ok
  cases reported
  change (u.registry r.registry).held.get? j = some own at held
  obtain ⟨-, -, gone, without⟩ := held_of_released released
  rw [without.held] at held
  split at held
  · cases held
  · next unlisted => exact ⟨held, fun c listed => unlisted (mem_collectors.mpr ⟨c, listed⟩)⟩

end Roster

/-- What happens beside a registry: whatever was declared stays, and the registry is as it was. -/
structure Site.Beside (i : RegistryId) (s t : Site) : Prop where
  grows : s.Grows t
  registry : t.registry i = s.registry i

namespace Roster

variable {i : RegistryId} {describes : Bool} {s₀ s : Site} {turns : List Turn} {r : Roster}

/-- The listed collectors have their places, what the registry holds is on record, and every claimed
name leads to a collector that is held with it. -/
structure Known (r : Roster) (s : Site) : Prop where
  seated : r.Seated s
  recorded : s.Recorded r.registry
  traced : (s.registry r.registry).Traced

lemma Run.known (run : Run Beside (.vacant i) s₀ turns r s)
    (unused : s₀.registry i = .vacant describes) : r.Known s := by
  apply run.invariant (P := Known)
  · refine ⟨seated_vacant i s₀, recorded_of_vacant unused, ?_⟩
    change (s₀.registry i).Traced
    rw [unused]
    exact Registry.traced_vacant describes
  · intro r r' s t c k known placed ok
    have kept := kept_of_register (c := c) (traced_outlasts _) known.seated placed
      ⟨known.recorded, known.traced⟩
    rw [ok] at kept
    have seated := known.seated.register_ok placed ok
    obtain ⟨rfl, -, -⟩ := exchanged_of_register_ok ok
    exact ⟨seated, kept.1, kept.2⟩
  · intro r s t c k fault known placed failed
    have kept := kept_of_register (c := c) (traced_outlasts _) known.seated placed
      ⟨known.recorded, known.traced⟩
    rw [failed] at kept
    exact ⟨known.seated.register_error failed, kept.1, kept.2⟩
  · intro r s known
    have kept := kept_of_dismiss (traced_outlasts _) ⟨known.recorded, known.traced⟩
    exact ⟨seated_vacant _ _, kept.1, kept.2⟩
  · intro r s t known beside
    refine ⟨known.seated.of_room beside.grows.room,
      known.recorded.grows beside.grows beside.registry, ?_⟩
    rw [beside.registry]
    exact known.traced

/-- Whatever the registry holds is listed, unless a dismissal broke off and left it behind. -/
lemma Run.listed_of_held (run : Run Beside (.vacant i) s₀ turns r s)
    (unused : s₀.registry i = .vacant describes) :
    (∃ turn ∈ turns, turn.Breaks)
      ∨ ∀ j own, (s.registry r.registry).held.get? j = some own → ∃ c, j ∈ r.ofCategory c := by
  induction run with
  | start =>
    right
    intro j own held
    change (s₀.registry i).held.get? j = some own at held
    rw [unused] at held
    cases held
  | @call turns r s run call placed ih =>
    rcases ih with ⟨turn, member, broke⟩ | listed
    · exact Or.inl ⟨turn, List.mem_append_left _ member, broke⟩
    cases call with
    | register c k =>
      right
      intro j own held
      rcases after_register r s c k with ⟨r', t, ok, ends⟩ | ⟨fault, t, failed, ends⟩
      · rw [ends] at held ⊢
        obtain ⟨rfl, -, -⟩ := exchanged_of_register_ok ok
        rcases held_of_register_ok ok held with rfl | ⟨before, stays⟩
        · exact ⟨c, new_listed_publish⟩
        · obtain ⟨c', old⟩ := listed j own before
          exact ⟨c', listed_publish old stays⟩
      · rw [ends] at held ⊢
        obtain ⟨own, before, -⟩ := held_of_register_error failed held
        exact listed j own before
    | dismiss =>
      cases ends : r.dismiss s with
      | error fault t =>
        exact Or.inl ⟨_, List.mem_append_right _ List.mem_cons_self, rfl, fault, t, ends⟩
      | ok x t =>
        right
        intro j own held
        rw [after_dismiss, ends] at held
        obtain ⟨before, unlisted⟩ := not_held_of_dismiss_ok ends held
        obtain ⟨c, old⟩ := listed j own before
        exact absurd old (unlisted c)
  | others _ beside ih =>
    rw [beside.registry]
    exact ih

end Roster

/-- The collectors give families of different names, each of which claims the given name. -/
def Collector.MeetsAt (x y : Collector) (name : String) : Prop :=
  ∃ e ∈ x.outline, ∃ f ∈ y.outline, e.2 ≠ f.2
    ∧ name ∈ Family.claimsOf e.1 e.2 ∧ name ∈ Family.claimsOf f.1 f.2

namespace Collector

variable {x y : Collector} {describes : Bool} {name : String}

/-- Whatever a collector claims, one of its families claims. -/
lemma family_of_claim (h : name ∈ x.claims describes) :
    ∃ e ∈ x.outline, name ∈ Family.claimsOf e.1 e.2 := by
  cases x with
  | instrument i => exact ⟨_, List.mem_singleton_self _, h⟩
  | _ =>
    cases describes with
    | false => exact absurd h List.not_mem_nil
    | true => exact List.mem_flatMap.mp h

/-- Collectors that share a claimed name but no family name meet at a further name. -/
lemma meetsAt_of_claims (hx : name ∈ x.claims describes) (hy : name ∈ y.claims describes)
    (unshared : ¬ x.Shares y) : x.MeetsAt y name := by
  obtain ⟨e, he, claimed⟩ := family_of_claim hx
  obtain ⟨f, hf, claimed'⟩ := family_of_claim hy
  refine ⟨e, he, f, hf, ?_, claimed, claimed'⟩
  intro same
  apply unshared
  refine ⟨e.2, ?_, ?_⟩
  · rw [familyNames_eq]
    exact List.mem_map_of_mem he
  · rw [familyNames_eq, same]
    exact List.mem_map_of_mem hf

end Collector

namespace Roster

variable {i : RegistryId} {describes : Bool} {s₀ s t : Site} {turns : List Turn} {r : Roster}
  {c : Category} {k : CollectorId} {names : List String}

/-- What it means that a registration is refused for these names: they are those of the new
collector that somebody claims who is no rival of it. He is listed under another category, or under
the same one with families of other names, or he has been left behind. -/
structure Refusal (r : Roster) (s : Site) (c : Category) (k : CollectorId) (names : List String)
    (broken : Prop) : Prop where
  some_name : names ≠ []
  mem_iff : ∀ name, name ∈ names ↔
    name ∈ (s.collector k).claims (s.registry r.registry).describes
      ∧ name ∈ (s.registry r.registry).owners
      ∧ ∀ j ∈ r.rivals s c k, name ∉ (s.collector j).claims (s.registry r.registry).describes
  owner : ∀ name ∈ names, ∀ j, (s.registry r.registry).owners.get? name = some j →
    name ∈ (s.collector j).claims (s.registry r.registry).describes
      ∧ ((∃ c', c' ≠ c ∧ j ∈ r.ofCategory c')
        ∨ j ∈ r.bystanders s c k ∧ (s.collector k).MeetsAt (s.collector j) name
        ∨ broken ∧ ∀ c', j ∉ r.ofCategory c')

lemma Refusal.mono {broken broken' : Prop} (h : r.Refusal s c k names broken)
    (weaker : broken → broken') : r.Refusal s c k names broken' := by
  refine ⟨h.some_name, h.mem_iff, ?_⟩
  intro name member j owned
  exact (h.owner name member j owned).imp_right (Or.imp_right (Or.imp_right (And.imp_left weaker)))

/-- A claimed name is on record for whoever claims it, and he is held. -/
lemma Known.of_owner (known : r.Known s) {name : String} {j : CollectorId}
    (owned : (s.registry r.registry).owners.get? name = some j) :
    (∃ own, (s.registry r.registry).held.get? j = some own)
      ∧ name ∈ (s.collector j).claims (s.registry r.registry).describes := by
  obtain ⟨own, held, member⟩ := known.traced name j owned
  refine ⟨⟨own, held⟩, ?_⟩
  rw [← (known.recorded j own held).2]
  exact member

lemma Run.refusal (run : Run Beside (.vacant i) s₀ turns r s)
    (unused : s₀.registry i = .vacant describes)
    (refused : r.register c k s = .error (.namesTaken names) t) :
    r.Refusal s c k names (∃ turn ∈ turns, turn.Breaks) := by
  have known := run.known unused
  obtain ⟨reg, without, rfl, some_name⟩ := taken_of_register_error known.recorded refused
  have mem_iff : ∀ name,
      name ∈ reg.taken ((s.collector k).claims (s.registry r.registry).describes) ↔
        name ∈ (s.collector k).claims (s.registry r.registry).describes
          ∧ name ∈ (s.registry r.registry).owners
          ∧ ∀ j ∈ r.rivals s c k,
            name ∉ (s.collector j).claims (s.registry r.registry).describes := by
    intro name
    rw [Registry.mem_taken, without.mem_owners, List.mem_flatMap, and_comm]
    simp only [not_exists, not_and]
  refine ⟨some_name, mem_iff, ?_⟩
  intro name member j owned
  obtain ⟨⟨names, held⟩, own⟩ := known.of_owner owned
  obtain ⟨claimed, -, unclaimed⟩ := (mem_iff name).mp member
  refine ⟨own, ?_⟩
  by_cases here : j ∈ r.ofCategory c
  · right
    left
    have unshared : ¬ (s.collector k).Shares (s.collector j) :=
      fun shared => unclaimed j (mem_rivals.mpr ⟨here, shared⟩) own
    exact ⟨mem_bystanders.mpr ⟨here, unshared⟩, Collector.meetsAt_of_claims claimed own unshared⟩
  · by_cases listed : ∃ c', j ∈ r.ofCategory c'
    · left
      obtain ⟨c', there⟩ := listed
      refine ⟨c', ?_, there⟩
      rintro rfl
      exact here there
    · right
      right
      refine ⟨(run.listed_of_held unused).resolve_right fun all => ?_, not_exists.mp listed⟩
      exact listed (all j names held)

end Roster

/-- In every state that a roster reaches whose registry nobody else uses, and likewise in every
state of a system, and whatever their suppliers raised before: when a registration is refused for
names, these are claimed by collectors that are listed under another category, or under the same
category with other family names, so that only the further names of the types meet, or that a
dismissal has left behind when it broke off. -/
theorem refused_names_owned {i : RegistryId} {describes : Bool} {s₀ : Site}
    (unused : s₀.registry i = .vacant describes) :
    (∀ turns r s, Roster.Run Beside (.vacant i) s₀ turns r s → ∀ c k names t,
      r.register c k s = .error (.namesTaken names) t →
      r.Refusal s c k names (∃ turn ∈ turns, turn.Breaks))
    ∧ ∀ enabled timers ms d,
      Run (fun d t => d.site.Beside d.system.roster.registry t) ⟨.fresh enabled timers i, s₀⟩ ms d →
      ∀ c k names t, d.system.roster.register c k d.site = .error (.namesTaken names) t →
      d.system.roster.Refusal d.site c k names
        (∃ m ∈ ms, m.call = .shutdown ∧ m.returned = false) := by
  constructor
  · intro turns r s run c k names t refused
    exact run.refusal unused refused
  · intro enabled timers ms d run c k names t refused
    obtain ⟨turns, onRoster, broken⟩ := run.onRoster fun grows same => ⟨grows, same⟩
    have onRoster : Roster.Run Beside (.vacant i) s₀ turns d.system.roster d.site := onRoster
    exact (onRoster.refusal unused refused).mono broken

/-- The small site with a gauge that has the name of a counter's sample, and with that counter. -/
def sampledSite : Site :=
  (Site.small.withAdded (.gauge "shop_jobs_total" "h" ⟨0⟩)).withAdded
    (.instrument ⟨.counter, "shop_jobs", "h", [], ∅⟩)

/-- A roster on that site which has registered the gauge. -/
def sampled : Roster × Site :=
  Roster.Turn.after ⟨.vacant ⟨0⟩, sampledSite, .register ⟨"shop", none⟩ ⟨0⟩⟩

/-- A call that creates the gauge. -/
def sampleNamedGauge : Call := .gauge ⟨"shop", none⟩ "jobs_total" "h" ⟨0⟩

/-- A call that creates the counter. -/
def sampledCounter : Call := .labelled .counter ⟨"shop", none⟩ "jobs" "h" []

/-- A system that has the gauge. -/
def withSampleNamed : Deployment := reached (.small [⟨"shop", none⟩]) [sampleNamedGauge]

/-- The counter is refused by a roster and by a system that have the gauge. -/
theorem refused_names_owned_sampled :
    sampledSite.registry ⟨0⟩ = .vacant true ∧ Site.small.registry ⟨0⟩ = .vacant true
    ∧ (∃ turns t, Roster.Run Beside (.vacant ⟨0⟩) sampledSite turns sampled.1 sampled.2
      ∧ sampled.1.register ⟨"shop", none⟩ ⟨1⟩ sampled.2 = .error (.namesTaken ["shop_jobs_total"]) t
      ∧ sampled.1.Refusal sampled.2 ⟨"shop", none⟩ ⟨1⟩ ["shop_jobs_total"]
        (∃ turn ∈ turns, turn.Breaks))
    ∧ ∃ ms d t, Run (fun d t => d.site.Beside d.system.roster.registry t)
        (.small [⟨"shop", none⟩]) ms d
      ∧ d.system.roster.register ⟨"shop", none⟩ ⟨1⟩ d.site
        = .error (.namesTaken ["shop_jobs_total"]) t
      ∧ d.system.roster.Refusal d.site ⟨"shop", none⟩ ⟨1⟩ ["shop_jobs_total"]
        (∃ m ∈ ms, m.call = .shutdown ∧ m.returned = false) := by
  have unused : sampledSite.registry ⟨0⟩ = .vacant true := rfl
  have unused' : Site.small.registry ⟨0⟩ = .vacant true := rfl
  refine ⟨unused, unused', ?_, ?_⟩
  · have run : Roster.Run Beside (.vacant ⟨0⟩) sampledSite _ sampled.1 sampled.2 :=
      Roster.Run.start.call (.register ⟨"shop", none⟩ ⟨0⟩) (by decide)
    exact ⟨_, _, run, rfl, (refused_names_owned unused).1 _ _ _ run _ _ _ _ rfl⟩
  · have beside := (withAdded_aside withSampleNamed.site
      (.instrument ⟨.counter, "shop_jobs", "h", [], ∅⟩))
    have run := (Run.of_calls (fun d t => d.site.Beside d.system.roster.registry t)
      (.small [⟨"shop", none⟩]) [sampleNamedGauge]).others ⟨beside.grows, beside.registry _⟩
    exact ⟨_, _, _, run, rfl, (refused_names_owned unused').2 _ _ _ _ run _ _ _ _ rfl⟩

/-- The counter is refused although nothing is listed but the gauge, which is of its category. -/
theorem refused_within_category :
    Run (fun d t => d.site.Beside d.system.roster.registry t) (.small [⟨"shop", none⟩])
        (moments (.small [⟨"shop", none⟩]) [sampleNamedGauge]) withSampleNamed
      ∧ withSampleNamed.registry.describes = true ∧ withSampleNamed.site.Calm
      ∧ (∃ e, sampledCounter.perform withSampleNamed
          = .error (.namesTaken ["shop_jobs_total"]) e)
      ∧ ∀ c j, j ∈ withSampleNamed.listed c → c = ⟨"shop", none⟩ := by
  refine ⟨Run.of_calls _ _ _, rfl, Site.small_calm, ⟨_, rfl⟩, ?_⟩
  intro c j listed
  have known : c ∈ withSampleNamed.system.roster.categories := Roster.mem_categories listed
  exact List.mem_singleton.mp known

end Metering
