import Metering.Proofs.RaisedFaults

/-!
# Taking out and putting back

Releasing goes through only for collectors that are held once and whose names are all claimed, each
of them once (`released_of_ok`). Putting such collectors back is stopped by nothing but a supplier
that raises; those that were put back before it stay (`holdAll_restores_until`).
-/

namespace Metering

namespace Registry

/-- Some collectors have come back with their names, which they own. -/
structure PutBack (names : CollectorId → List String) (back : List CollectorId) (r r' : Registry) :
    Prop where
  describes : r'.describes = r.describes
  held : ∀ j, r'.held.get? j = if j ∈ back then some (names j) else r.held.get? j
  owned : ∀ j ∈ back, ∀ name ∈ names j, r'.owners.get? name = some j
  others : ∀ name, name ∉ back.flatMap names → r'.owners.get? name = r.owners.get? name

lemma PutBack.nothing (names : CollectorId → List String) (r : Registry) :
    PutBack names [] r r :=
  ⟨rfl, fun _ => rfl, fun _ h => absurd h List.not_mem_nil, fun _ _ => rfl⟩

/-- Of the collectors that were held exactly the lost ones are missing; if each of those that were
displaced had owned its names, the names of the lost ones are free and the others as they were. -/
structure Lacks (names : CollectorId → List String) (displaced lost : List CollectorId)
    (r r' : Registry) : Prop where
  held : ∀ j, r'.held.get? j = if j ∈ lost then none else r.held.get? j
  owners : (∀ j ∈ displaced, ∀ name ∈ names j, r.owners.get? name = some j) →
    ∀ name, r'.owners.get? name = if name ∈ lost.flatMap names then none else r.owners.get? name

section Lacks

variable {names : CollectorId → List String} {displaced back lost : List CollectorId}
  {r mid r' : Registry}

lemma Lacks.nothing : Lacks names displaced [] r r := ⟨fun _ => rfl, fun _ _ => rfl⟩

lemma Without.lacks (out : r.Without r' displaced (displaced.flatMap names)) :
    Lacks names displaced displaced r r' := ⟨out.held, fun _ => out.owners⟩

/-- What was taken out and not put back is what is missing. -/
lemma PutBack.lacks (parts : displaced = back ++ lost) (distinct : displaced.Nodup)
    (held : ∀ j ∈ displaced, r.held.get? j = some (names j))
    (apart : (displaced.flatMap names).Nodup)
    (out : r.Without mid displaced (displaced.flatMap names)) (put : PutBack names back mid r') :
    Lacks names displaced lost r r' := by
  subst parts
  rw [List.flatMap_append] at apart
  obtain ⟨-, -, separate⟩ := List.nodup_append.mp distinct
  obtain ⟨-, -, disjoint⟩ := List.nodup_append.mp apart
  constructor
  · intro j
    rw [put.held, out.held]
    by_cases hb : j ∈ back
    · have kept : j ∉ lost := fun hl => separate j hb j hl rfl
      rw [if_pos hb, if_neg kept, held j (List.mem_append_left _ hb)]
    · simp [hb]
  · intro owned name
    by_cases hb : name ∈ back.flatMap names
    · obtain ⟨j, hj, own⟩ := List.mem_flatMap.mp hb
      have kept : name ∉ lost.flatMap names := fun hl => disjoint name hb name hl rfl
      rw [put.owned j hj name own, if_neg kept, owned j (List.mem_append_left _ hj) name own]
    · rw [put.others name hb, out.owners, List.flatMap_append]
      simp [hb]

end Lacks

lemma claimed_of_free {names : List String} {owners rest : Index String CollectorId}
    (h : free names owners = (none, rest)) : names.Nodup ∧ ∀ name ∈ names, name ∈ owners := by
  induction names generalizing owners with
  | nil => exact ⟨List.nodup_nil, fun _ h => absurd h List.not_mem_nil⟩
  | cons n names ih =>
    by_cases claimed : n ∈ owners
    · rw [free, if_pos claimed] at h
      obtain ⟨nodup, later⟩ := ih h
      refine ⟨List.nodup_cons.mpr ⟨fun again => ?_, nodup⟩, ?_⟩
      · exact (Index.mem_erase.mp (later n again)).2 rfl
      · intro name hname
        rcases List.mem_cons.mp hname with rfl | hname
        · exact claimed
        · exact (Index.mem_erase.mp (later name hname)).1
    · rw [free, if_neg claimed] at h
      cases h

end Registry

namespace Site

open Registry

variable {r : RegistryId} {s t : Site} {k : CollectorId}

/-- A registry that holds something has its place on the site. -/
lemma room_of_held {names : List String} (held : (s.registry r).held.get? k = some names) :
    r.index < s.registries.length := by
  by_contra outside
  have missing : s.registries[r.index]? = none := List.getElem?_eq_none (Nat.le_of_not_lt outside)
  rw [registry, missing] at held
  cases held

/-- Nothing is released but what is held with names that are all claimed. -/
lemma taken_out_of_release (h : release r k s = .ok () t) :
    ∃ names, (s.registry r).held.get? k = some names ∧ names.Nodup
      ∧ (∀ name ∈ names, name ∈ (s.registry r).owners)
      ∧ (s.registry r).Without (t.registry r) [k] names := by
  rw [release, bind_get] at h
  cases held : (s.registry r).held.get? k with
  | none =>
    simp only [held] at h
    cases h
  | some names =>
    simp only [held] at h
    rcases freed : Registry.free names (s.registry r).owners with ⟨_ | missing, owners⟩
    · rw [freed] at h
      cases h
      obtain ⟨nodup, claimed⟩ := Registry.claimed_of_free freed
      refine ⟨names, rfl, nodup, claimed, ?_⟩
      rw [registry_withRegistry_self (room_of_held held)]
      refine ⟨rfl, fun j => ?_, fun name => ?_⟩
      · simp [Index.get?_erase]
      · rw [Registry.get?_free freed]
    · rw [freed] at h
      cases h

/-- Whatever was released in one go was held, and no name was freed twice. -/
lemma released_of_ok {names : CollectorId → List String} {ks : List CollectorId}
    (known : ∀ k ∈ ks, ∀ own, (s.registry r).held.get? k = some own → own = names k)
    (h : releaseAll r ks s = .ok () t) :
    ks.Nodup ∧ (∀ k ∈ ks, (s.registry r).held.get? k = some (names k))
      ∧ (ks.flatMap names).Nodup ∧ (∀ name ∈ ks.flatMap names, name ∈ (s.registry r).owners)
      ∧ (s.registry r).Without (t.registry r) ks (ks.flatMap names) := by
  induction ks generalizing s with
  | nil =>
    cases h
    exact ⟨List.nodup_nil, fun _ h => absurd h List.not_mem_nil, List.nodup_nil,
      fun _ h => absurd h List.not_mem_nil, Registry.Without.refl _⟩
  | cons k ks ih =>
    obtain ⟨⟨⟩, u, released, h⟩ := ok_of_bind_ok h
    obtain ⟨own, held, nodup, claimed, first⟩ := taken_out_of_release released
    obtain rfl := known k List.mem_cons_self own held
    obtain ⟨distinct, later, apart, owned, rest⟩ := ih (fun j hj own hown => by
      rw [first.held] at hown
      split at hown
      · cases hown
      · exact known j (List.mem_cons_of_mem k hj) own hown) h
    have others : ∀ j ∈ ks, j ≠ k ∧ (s.registry r).held.get? j = some (names j) := by
      intro j hj
      have before := later j hj
      rw [first.held] at before
      split at before
      · cases before
      · next other => exact ⟨by simpa using other, before⟩
    have still : ∀ name ∈ ks.flatMap names, name ∉ names k ∧ name ∈ (s.registry r).owners := by
      intro name hname
      have known := owned name hname
      by_contra missing
      refine Index.get?_eq_none_iff.mp ?_ known
      rw [first.owners]
      split
      · rfl
      · next fresh =>
        exact Index.get?_eq_none_iff.mpr fun there => missing ⟨fresh, there⟩
    refine ⟨List.nodup_cons.mpr ⟨fun again => (others k again).1 rfl, distinct⟩, ?_, ?_, ?_,
      ⟨rest.describes.trans first.describes, ?_, ?_⟩⟩
    · intro j hj
      rcases List.mem_cons.mp hj with rfl | hj
      · exact held
      · exact (others j hj).2
    · rw [List.flatMap_cons, List.nodup_append]
      refine ⟨nodup, apart, ?_⟩
      rintro name here _ there rfl
      exact (still name there).1 here
    · intro name hname
      rw [List.flatMap_cons, List.mem_append] at hname
      exact hname.elim (claimed name) fun later => (still name later).2
    · intro j
      rw [rest.held, first.held]
      by_cases hj : j ∈ ks <;> simp [hj]
    · intro name
      rw [rest.owners, first.owners, List.flatMap_cons]
      by_cases hname : name ∈ ks.flatMap names <;> simp [hname]

/-- Collectors whose names are free are put back up to the first that a supplier keeps out. -/
lemma holdAll_restores_until {names : CollectorId → List String} {ks : List CollectorId}
    (room : ks ≠ [] → r.index < s.registries.length) (nameable : ∀ k ∈ ks, (s.collector k).Nameable)
    (claims : ∀ k ∈ ks, (s.collector k).claims (s.registry r).describes = names k)
    (distinct : ks.Nodup) (apart : (ks.flatMap names).Nodup)
    (free : ∀ name ∈ ks.flatMap names, (s.registry r).owners.get? name = none) :
    ∃ back lost, ks = back ++ lost
      ∧ PutBack names back (s.registry r) ((endOf (holdAll r ks s)).registry r)
      ∧ ((∃ t, holdAll r ks s = .ok () t ∧ lost = [])
        ∨ ∃ alarm message t, holdAll r ks s = .error (.raised alarm message) t ∧ lost ≠ []) := by
  induction ks generalizing s with
  | nil => exact ⟨[], [], rfl, PutBack.nothing _ _, Or.inl ⟨s, rfl, rfl⟩⟩
  | cons k ks ih =>
    obtain ⟨fresh, distinct⟩ := List.nodup_cons.mp distinct
    rw [List.flatMap_cons] at apart free
    obtain ⟨-, later, disjoint⟩ := List.nodup_append.mp apart
    have own := claims k List.mem_cons_self
    cases run : hold r k s with
    | error fault t =>
      obtain ⟨alarm, message, rfl⟩ := raised_of_hold_error
        (nameable k List.mem_cons_self)
        (by rw [own]; exact fun name hname => free name (List.mem_append_left _ hname)) run
      have failed : holdAll r (k :: ks) s = .error (.raised alarm message) t :=
        bind_of_error run _
      refine ⟨[], k :: ks, rfl, ?_, Or.inr ⟨alarm, message, t, failed, List.cons_ne_nil _ _⟩⟩
      have same : t.registry r = s.registry r := by rw [quiet_of_hold_error run]; rfl
      rw [failed, endOf, same]
      exact PutBack.nothing _ _
    | ok x t =>
      have frame := (hold_moves r k).of_ok run
      obtain ⟨u, quiet, ends, -⟩ := hold_ok run
      have now : t.registry r = (s.registry r).enter k (names k) := by
        rw [ends, own, registry_withRegistry_self]
        rw [quiet]
        exact room (List.cons_ne_nil k ks)
      have passed : holdAll r (k :: ks) s = holdAll r ks t := bind_of_ok run _
      obtain ⟨back, lost, rfl, put, outcome⟩ := ih
        (fun _ => by rw [frame.room]; exact room (List.cons_ne_nil k ks))
        (fun j hj => by rw [frame.collector]; exact nameable j (List.mem_cons_of_mem k hj))
        (fun j hj => by
          rw [frame.collector, now, Registry.enter_describes]
          exact claims j (List.mem_cons_of_mem k hj))
        distinct later (fun name hname => by
          rw [now, Registry.get?_owners_enter, if_neg fun here => disjoint name here name hname rfl]
          exact free name (List.mem_append_right _ hname))
      rw [passed]
      refine ⟨k :: back, lost, rfl, ⟨?_, ?_, ?_, ?_⟩, outcome⟩
      · rw [put.describes, now, Registry.enter_describes]
      · intro j
        rw [put.held, now, Registry.get?_held_enter]
        by_cases hj : j = k
        · subst hj
          rw [if_pos rfl, if_pos List.mem_cons_self, ite_self]
        · simp [hj]
      · intro j hj name hname
        rcases List.mem_cons.mp hj with rfl | hj
        · rw [put.others, now, Registry.get?_owners_enter, if_pos hname]
          intro there
          refine disjoint name hname name ?_ rfl
          rw [List.flatMap_append]
          exact List.mem_append_left _ there
        · exact put.owned j hj name hname
      · intro name hname
        rw [List.flatMap_cons, List.mem_append, not_or] at hname
        rw [put.others name hname.2, now, Registry.get?_owners_enter, if_neg hname.1]

end Site

end Metering
