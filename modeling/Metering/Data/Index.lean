/-!
# Maps in order of insertion

An `Index κ ν` is a finite map that keeps its keys in the order in which they were first put.
`get?` is the view for single keys, `keys` the view for the order: putting a key that is there
changes its value and not its place, putting a new one appends, erasing closes the gap.
-/

namespace Metering

/-- Entries in order of insertion, each key once. -/
structure Index (κ ν : Type) where
  entries : List (κ × ν)
  nodup : (entries.map Prod.fst).Nodup

namespace Index

variable {κ ν : Type}

@[ext] theorem ext {m n : Index κ ν} (h : m.entries = n.entries) : m = n := by
  cases m; cases n; cases h; rfl

instance [DecidableEq κ] [DecidableEq ν] : DecidableEq (Index κ ν) := fun m n =>
  decidable_of_iff (m.entries = n.entries) ⟨ext, fun h => h ▸ rfl⟩

/-- The map without keys. -/
def empty : Index κ ν := ⟨[], List.nodup_nil⟩

instance : EmptyCollection (Index κ ν) := ⟨empty⟩

instance : Inhabited (Index κ ν) := ⟨empty⟩

/-- The keys in the order in which they were first put. -/
def keys (m : Index κ ν) : List κ := m.entries.map Prod.fst

/-- The values in the order of their keys. -/
def values (m : Index κ ν) : List ν := m.entries.map Prod.snd

/-- The number of keys. -/
def size (m : Index κ ν) : Nat := m.entries.length

instance : Membership κ (Index κ ν) := ⟨fun m k => k ∈ m.keys⟩

instance [DecidableEq κ] (m : Index κ ν) (k : κ) : Decidable (k ∈ m) :=
  inferInstanceAs (Decidable (k ∈ m.keys))

theorem mem_def {m : Index κ ν} {k : κ} : k ∈ m ↔ k ∈ m.keys := Iff.rfl

theorem keys_nodup (m : Index κ ν) : m.keys.Nodup := m.nodup

@[simp] theorem keys_empty : (∅ : Index κ ν).keys = [] := rfl

variable [DecidableEq κ]

/-- The value of the first entry with the key `k`. -/
def valueAt (k : κ) : List (κ × ν) → Option ν
  | [] => none
  | e :: es => if e.1 = k then some e.2 else valueAt k es

/-- The value at a key. -/
def get? (m : Index κ ν) (k : κ) : Option ν := valueAt k m.entries

/-- The value at a key, or `d` where there is none. -/
def getD (m : Index κ ν) (k : κ) (d : ν) : ν := (m.get? k).getD d

/-- A key that is there keeps its place and takes the new value; a new one goes last. -/
def put (m : Index κ ν) (k : κ) (v : ν) : Index κ ν :=
  if h : k ∈ m.keys then
    ⟨m.entries.map fun e => (e.1, if e.1 = k then v else e.2), by
      simpa [List.map_map, Function.comp_def] using m.nodup⟩
  else
    ⟨m.entries ++ [(k, v)], by
      rw [List.map_append, List.nodup_append]
      refine ⟨m.nodup, by simp, ?_⟩
      intro x hx y hy hxy
      simp only [List.map_cons, List.map_nil, List.mem_singleton] at hy
      exact h (hy ▸ hxy ▸ hx)⟩

/-- Takes a key and its value out. -/
def erase (m : Index κ ν) (k : κ) : Index κ ν :=
  ⟨m.entries.filter fun e => decide (e.1 ≠ k), m.nodup.sublist (List.filter_sublist.map _)⟩

/-- Changes the value at a key that is there. -/
def adjust (m : Index κ ν) (k : κ) (f : ν → ν) : Index κ ν :=
  ⟨m.entries.map fun e => (e.1, if e.1 = k then f e.2 else e.2), by
    simpa [List.map_map, Function.comp_def] using m.nodup⟩

/-- Puts the pairs from left to right; a repeated key keeps its first place and its last value. -/
def ofList (pairs : List (κ × ν)) : Index κ ν := pairs.foldl (fun m e => m.put e.1 e.2) ∅

/-- Whether two maps hold the same value at every key, in whatever order. -/
def sameEntries [DecidableEq ν] (m n : Index κ ν) : Bool :=
  m.entries.all (fun e => n.get? e.1 = some e.2) && n.entries.all fun e => m.get? e.1 = some e.2

@[simp] theorem get?_empty (k : κ) : (∅ : Index κ ν).get? k = none := rfl

theorem keys_put_of_mem {m : Index κ ν} {k : κ} (v : ν) (h : k ∈ m) :
    (m.put k v).keys = m.keys := by
  rw [put, dif_pos (mem_def.1 h)]
  simp [keys, List.map_map, Function.comp_def]

theorem keys_put_of_not_mem {m : Index κ ν} {k : κ} (v : ν) (h : k ∉ m) :
    (m.put k v).keys = m.keys ++ [k] := by
  rw [put, dif_neg (mt mem_def.2 h)]
  simp [keys]

@[simp] theorem mem_put {m : Index κ ν} {k l : κ} {v : ν} : l ∈ m.put k v ↔ l ∈ m ∨ l = k := by
  by_cases h : k ∈ m
  · rw [mem_def, keys_put_of_mem v h]
    exact ⟨Or.inl, fun hl => hl.elim id fun e => e ▸ h⟩
  · simp [mem_def, keys_put_of_not_mem v h]

@[simp] theorem keys_adjust (m : Index κ ν) (k : κ) (f : ν → ν) : (m.adjust k f).keys = m.keys := by
  simp [adjust, keys, List.map_map, Function.comp_def]

@[simp] theorem keys_erase (m : Index κ ν) (k : κ) :
    (m.erase k).keys = m.keys.filter fun l => decide (l ≠ k) := by
  simp [erase, keys, List.filter_map, Function.comp_def]

@[simp] theorem mem_erase {m : Index κ ν} {k l : κ} : l ∈ m.erase k ↔ l ∈ m ∧ l ≠ k := by
  simp [mem_def]

theorem get?_eq_none_iff {m : Index κ ν} {k : κ} : m.get? k = none ↔ k ∉ m := by
  rw [get?, mem_def, keys]
  induction m.entries with
  | nil => simp [valueAt]
  | cons e es ih =>
    by_cases h : e.1 = k
    · simp [valueAt, h]
    · rw [valueAt, if_neg h, ih, List.map_cons, List.mem_cons]
      simp [Ne.symm h]

theorem entries_put_of_not_mem {m : Index κ ν} {k : κ} (v : ν) (h : k ∉ m) :
    (m.put k v).entries = m.entries ++ [(k, v)] := by
  rw [put, dif_neg (mt mem_def.2 h)]

theorem values_put_of_not_mem {m : Index κ ν} {k : κ} (v : ν) (h : k ∉ m) :
    (m.put k v).values = m.values ++ [v] := by
  simp [values, entries_put_of_not_mem v h]

/-- Pairs with different keys become the entries as they are. -/
theorem entries_ofList {pairs : List (κ × ν)} (nodup : (pairs.map Prod.fst).Nodup) :
    (ofList pairs).entries = pairs := by
  suffices h : ∀ m : Index κ ν, (m.keys ++ pairs.map Prod.fst).Nodup →
      (pairs.foldl (fun m e => m.put e.1 e.2) m).entries = m.entries ++ pairs by
    exact h ∅ nodup
  clear nodup
  induction pairs with
  | nil => simp
  | cons e pairs ih =>
    intro m nodup
    have fresh : e.1 ∉ m := by
      intro old
      rw [List.map_cons, List.nodup_append] at nodup
      exact nodup.2.2 e.1 old e.1 List.mem_cons_self rfl
    rw [List.foldl_cons, ih, entries_put_of_not_mem _ fresh, List.append_assoc]
    · rfl
    · rw [keys_put_of_not_mem _ fresh, List.append_assoc]
      exact nodup

theorem mem_of_get?_eq_some {m : Index κ ν} {k : κ} {v : ν} (h : m.get? k = some v) : k ∈ m := by
  refine Decidable.byContradiction fun absent => ?_
  rw [get?_eq_none_iff.2 absent] at h
  cases h

theorem valueAt_append (k : κ) (es fs : List (κ × ν)) :
    valueAt k (es ++ fs) = (valueAt k es).or (valueAt k fs) := by
  induction es with
  | nil => rfl
  | cons e es ih => by_cases h : e.1 = k <;> simp [valueAt, h, ih]

theorem valueAt_map (k l : κ) (f : ν → ν) (es : List (κ × ν)) :
    valueAt l (es.map fun e => (e.1, if e.1 = k then f e.2 else e.2))
      = if l = k then (valueAt l es).map f else valueAt l es := by
  induction es with
  | nil => simp [valueAt]
  | cons e es ih =>
    by_cases h : e.1 = l
    · by_cases hk : l = k <;> simp [valueAt, h, hk]
    · simp [valueAt, h, ih]

theorem get?_put (m : Index κ ν) (k l : κ) (v : ν) :
    (m.put k v).get? l = if l = k then some v else m.get? l := by
  by_cases h : k ∈ m
  · rw [put, dif_pos (mem_def.1 h), get?, valueAt_map k l fun _ => v]
    split
    · next hl =>
      subst hl
      cases hv : valueAt l m.entries with
      | none => exact absurd h (get?_eq_none_iff.1 hv)
      | some _ => rfl
    · rfl
  · rw [put, dif_neg (mt mem_def.2 h), get?, valueAt_append]
    have hk : valueAt k m.entries = none := get?_eq_none_iff.2 h
    by_cases hl : l = k
    · simp [valueAt, hl, hk]
    · simp [valueAt, hl, Ne.symm hl, get?]

theorem get?_put_self (m : Index κ ν) (k : κ) (v : ν) : (m.put k v).get? k = some v := by
  simp [get?_put]

theorem get?_adjust (m : Index κ ν) (k l : κ) (f : ν → ν) :
    (m.adjust k f).get? l = if l = k then (m.get? l).map f else m.get? l :=
  valueAt_map k l f m.entries

theorem get?_erase (m : Index κ ν) (k l : κ) :
    (m.erase k).get? l = if l = k then none else m.get? l := by
  simp only [erase, get?]
  induction m.entries with
  | nil => simp [valueAt]
  | cons e es ih =>
    by_cases he : e.1 = k
    · rw [List.filter_cons_of_neg (by simp [he]), ih, valueAt]
      by_cases hl : l = k
      · simp [hl]
      · simp [hl, show e.1 ≠ l from fun h => hl (h.symm.trans he)]
    · rw [List.filter_cons_of_pos (by simp [he]), valueAt, valueAt, ih]
      by_cases hl : e.1 = l
      · simp [hl, show l ≠ k from fun h => he (hl.trans h)]
      · simp [hl]

theorem valueAt_eq_some_iff {es : List (κ × ν)} (nodup : (es.map Prod.fst).Nodup) {k : κ} {v : ν} :
    valueAt k es = some v ↔ (k, v) ∈ es := by
  induction es with
  | nil => simp [valueAt]
  | cons e es ih =>
    obtain ⟨fresh, nodup⟩ := List.nodup_cons.mp nodup
    by_cases h : e.1 = k
    · rw [valueAt, if_pos h, List.mem_cons]
      constructor
      · intro hv
        exact Or.inl (by rw [← h, ← Option.some.inj hv])
      · rintro (same | later)
        · rw [← same]
        · exact absurd (h ▸ List.mem_map_of_mem later) fresh
    · rw [valueAt, if_neg h, ih nodup, List.mem_cons]
      constructor
      · exact Or.inr
      · rintro (same | later)
        · exact absurd (by rw [← same]) h
        · exact later

/-- The entries are the pairs that looking up finds. -/
theorem mem_entries_iff {m : Index κ ν} {k : κ} {v : ν} :
    (k, v) ∈ m.entries ↔ m.get? k = some v :=
  (valueAt_eq_some_iff m.nodup).symm

theorem eq_empty_of_get? {m : Index κ ν} (h : ∀ k, m.get? k = none) : m = ∅ := by
  refine ext (List.eq_nil_iff_forall_not_mem.mpr ?_)
  rintro ⟨k, v⟩ entry
  have found := mem_entries_iff.mp entry
  rw [h] at found
  cases found

end Index

end Metering
