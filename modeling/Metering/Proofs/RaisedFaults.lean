import Metering.Proofs.RegistrationInvariants

/-!
# What suppliers raise

Whether a supplier raised between two states of a site can be told from the activity noted since
(`Site.Alarmed`). An action that passes on whatever a supplier raises `Heeds` it: where it succeeds,
no supplier has raised. Collecting, holding and releasing are such actions; only an exchange catches
a fault, and only to put displaced collectors back.
-/

namespace Metering

namespace Site

/-- The second site has the suppliers of the first, and more may have been noted since. -/
structure Follows (s t : Site) : Prop where
  suppliers : t.suppliers = s.suppliers
  activity : ∃ noted, t.activity = s.activity ++ noted

instance : IsPreorder Site Follows where
  refl s := ⟨rfl, [], (List.append_nil _).symm⟩
  trans s t u := by
    rintro ⟨st, a, hst⟩ ⟨tu, b, htu⟩
    exact ⟨tu.trans st, a ++ b, by rw [htu, hst, List.append_assoc]⟩

/-- Some supplier was asked between the two states of the site, and raised. -/
def Alarmed (s t : Site) : Prop :=
  ∃ before i after alarm message, t.activity = s.activity ++ (before ++ .asked i :: after)
    ∧ (s.noting before).nextAnswer i = .raises alarm message

lemma nextAnswer_congr {s t : Site} (suppliers : t.suppliers = s.suppliers)
    (activity : t.activity = s.activity) (i : SupplierId) : t.nextAnswer i = s.nextAnswer i := by
  rw [nextAnswer, nextAnswer, callsOf, callsOf, suppliers, activity]

/-- Nothing has been noted in between. -/
def Unasked (s t : Site) : Prop := t.activity = s.activity

instance : IsPreorder Site Unasked where
  refl _ := rfl
  trans _ _ _ hst htu := htu.trans hst

lemma Unasked.not_alarmed {s t : Site} (same : s.Unasked t) : ¬ s.Alarmed t := by
  rintro ⟨before, i, after, alarm, message, noted, -⟩
  rw [same] at noted
  simp at noted

/-- The activity is all that tells whether somebody raised. -/
lemma Alarmed.congr {s s' t t' : Site} (alarmed : s.Alarmed t)
    (suppliers : s'.suppliers = s.suppliers) (before : s.Unasked s') (after : t.Unasked t') :
    s'.Alarmed t' := by
  obtain ⟨noted, i, rest, alarm, message, activity, raised⟩ := alarmed
  refine ⟨noted, i, rest, alarm, message, after.trans (activity.trans ?_), ?_⟩
  · rw [before]
  · have same : (s'.noting noted).nextAnswer i = (s.noting noted).nextAnswer i := by
      refine nextAnswer_congr (s := s.noting noted) (t := s'.noting noted) suppliers ?_ i
      simp only [noting, before.symm]
    rw [same, raised]

lemma Alarmed.split {s t u : Site} (first : s.Follows t) (second : t.Follows u)
    (alarmed : s.Alarmed u) : s.Alarmed t ∨ t.Alarmed u := by
  obtain ⟨a, ha⟩ := first.activity
  obtain ⟨b, hb⟩ := second.activity
  obtain ⟨before, i, after, alarm, message, noted, raised⟩ := alarmed
  have word : before ++ .asked i :: after = a ++ b := by
    rw [hb, ha, List.append_assoc] at noted
    exact (List.append_cancel_left noted).symm
  have later : ∀ x, before = a ++ x → b = x ++ .asked i :: after → t.Alarmed u := by
    rintro x rfl rfl
    refine ⟨x, i, after, alarm, message, hb, ?_⟩
    have same : (t.noting x).nextAnswer i = (s.noting (a ++ x)).nextAnswer i := by
      refine nextAnswer_congr (s := s.noting (a ++ x)) (t := t.noting x) first.suppliers ?_ i
      simp only [noting, ha, List.append_assoc]
    rw [same, raised]
  rcases List.append_eq_append_iff.mp word with ⟨x, ha', hb'⟩ | ⟨x, hbefore, hb'⟩
  · cases x with
    | nil =>
      refine Or.inr (later [] ?_ hb'.symm)
      rw [ha', List.append_nil, List.append_nil]
    | cons y x =>
      obtain ⟨rfl, rfl⟩ := List.cons_eq_cons.mp hb'
      exact Or.inl ⟨before, i, x, alarm, message, by rw [ha, ha'], raised⟩
  · exact Or.inr (later x hbefore hb')

end Site

open Site

/-- Nothing makes the action fail but what a supplier raises. -/
def OnlyRaises {α : Type} (x : Action α) : Prop :=
  ∀ s fault t, x s = .error fault t → ∃ alarm message, fault = .raised alarm message

namespace OnlyRaises

variable {α β : Type} {x : Action α} {f : α → Action β}

lemma pure (a : α) : OnlyRaises (Pure.pure a : Action α) := FailsOnly.pure a

lemma get : OnlyRaises (MonadState.get : Action Site) := FailsOnly.get

lemma bind (hx : OnlyRaises x) (hf : ∀ a, OnlyRaises (f a)) : OnlyRaises (x >>= f) :=
  FailsOnly.bind hx hf

end OnlyRaises

/-- The action fails with what a supplier raised if any raised. -/
structure Heeds {α : Type} (x : Action α) : Prop where
  follows : Moves Follows x
  raised : ∀ s, s.Alarmed (endOf (x s)) → ∃ alarm message t, x s = .error (.raised alarm message) t

namespace Heeds

variable {α β : Type} {x : Action α} {f : α → Action β}

lemma not_alarmed_of_ok (h : Heeds x) {s t : Site} {a : α} (run : x s = .ok a t) :
    ¬ s.Alarmed t := by
  intro alarmed
  obtain ⟨alarm, message, u, failed⟩ := h.raised s (by rw [run]; exact alarmed)
  rw [run] at failed
  cases failed

lemma raised_of_error (h : Heeds x) {s t : Site} {fault : Fault} (run : x s = .error fault t)
    (alarmed : s.Alarmed t) : ∃ alarm message, fault = .raised alarm message := by
  obtain ⟨alarm, message, u, failed⟩ := h.raised s (by rw [run]; exact alarmed)
  rw [run] at failed
  cases failed
  exact ⟨alarm, message, rfl⟩

/-- An action that notes nothing has asked nobody. -/
lemma of_unasked (suppliers : Moves (fun s t => t.suppliers = s.suppliers) x)
    (unasked : Moves Unasked x) : Heeds x where
  follows s := ⟨suppliers s, [], (unasked s).trans (List.append_nil _).symm⟩
  raised s alarmed := absurd alarmed (unasked s).not_alarmed

lemma pure (a : α) : Heeds (Pure.pure a : Action α) := of_unasked (fun _ => rfl) fun _ => rfl

lemma throw (fault : Fault) : Heeds (MonadExcept.throw fault : Action α) :=
  of_unasked (fun _ => rfl) fun _ => rfl

lemma get : Heeds (MonadState.get : Action Site) := of_unasked (fun _ => rfl) fun _ => rfl

lemma ofExcept (y : Except Fault α) : Heeds (MonadExcept.ofExcept y : Action α) := by
  cases y with
  | ok a => exact pure a
  | error fault => exact throw fault

lemma bind (hx : Heeds x) (hf : ∀ a, Heeds (f a)) : Heeds (x >>= f) where
  follows := hx.follows.bind fun a => (hf a).follows
  raised s alarmed := by
    cases run : x s with
    | error fault t =>
      rw [bind_of_error run] at alarmed ⊢
      obtain ⟨alarm, message, rfl⟩ := hx.raised_of_error run alarmed
      exact ⟨alarm, message, t, rfl⟩
    | ok a t =>
      rw [bind_of_ok run] at alarmed ⊢
      rcases alarmed.split (hx.follows.of_ok run) ((hf a).follows t) with first | second
      · exact absurd first (hx.not_alarmed_of_ok run)
      · exact (hf a).raised t second

lemma forM {x : α → Action PUnit} (hx : ∀ a, Heeds (x a)) (as : List α) : Heeds (as.forM x) := by
  induction as with
  | nil => exact pure _
  | cons a as ih => exact (hx a).bind fun _ => ih

end Heeds

namespace Site

lemma note_heeds {a : Activity} (other : ∀ i, a ≠ .asked i) : Heeds (note a) where
  follows _ := ⟨rfl, _, rfl⟩
  raised s := by
    rintro ⟨before, i, after, alarm, message, noted, -⟩
    have word : [a] = before ++ .asked i :: after := List.append_cancel_left noted
    have asked : Activity.asked i ∈ [a] := word ▸ List.mem_append_right _ List.mem_cons_self
    exact absurd (List.mem_singleton.mp asked).symm (other i)

lemma ask_heeds (i : SupplierId) : Heeds (ask i) where
  follows s := by
    rw [ask, bind_get]
    cases s.nextAnswer i <;> exact ⟨rfl, _, rfl⟩
  raised s alarmed := by
    rw [ask, bind_get] at alarmed ⊢
    cases h : s.nextAnswer i with
    | raises alarm message => exact ⟨alarm, message, _, rfl⟩
    | _ =>
      rw [h] at alarmed
      obtain ⟨before, j, after, alarm, message, noted, raised⟩ := alarmed
      have word : [.asked i] = before ++ .asked j :: after := List.append_cancel_left noted
      obtain ⟨rfl, ends⟩ | ⟨rest, -, ends⟩ := List.append_eq_cons_iff.mp word.symm
      · obtain ⟨⟨⟩, rfl⟩ := List.cons_eq_cons.mp ends
        have now : (s.noting []).nextAnswer i = s.nextAnswer i :=
          nextAnswer_congr (s := s) (t := s.noting []) rfl (List.append_nil _) i
        rw [now, h] at raised
        cases raised
      · simp at ends

lemma askValue_heeds (i : SupplierId) : Heeds (askValue i) := by
  refine (ask_heeds i).bind fun a => ?_
  split <;> exact Heeds.pure _

lemma askDigest_heeds (i : SupplierId) (name : String) : Heeds (askDigest i name) := by
  refine (ask_heeds i).bind fun a => ?_
  split <;> exact Heeds.pure _

lemma askAll_heeds (m : Supplied) (entries : List (List String × SupplierId)) :
    Heeds (askAll m entries) := by
  induction entries with
  | nil => exact Heeds.pure _
  | cons e entries ih =>
    exact (askValue_heeds e.2).bind fun _ => ih.bind fun _ => Heeds.pure _

lemma inspectAll_heeds (entries : List (String × CacheId)) : Heeds (inspectAll entries) := by
  induction entries with
  | nil => exact Heeds.pure _
  | cons e entries ih =>
    refine Heeds.bind ?_ fun _ => ih.bind fun _ => Heeds.pure _
    exact (note_heeds (by simp)).bind fun _ => Heeds.get.bind fun _ => Heeds.pure _

lemma familiesOf_heeds (x : Collector) : Heeds (familiesOf x) := by
  cases x with
  | instrument i => exact Heeds.pure _
  | gauge name help k =>
    exact (askValue_heeds k).bind fun _ => (Heeds.ofExcept _).bind fun _ => Heeds.pure _
  | supplied m =>
    exact (Heeds.ofExcept _).bind fun _ => (askAll_heeds m _).bind fun _ => Heeds.pure _
  | summary name help k =>
    exact (askDigest_heeds k name).bind fun _ => (Heeds.ofExcept _).bind fun _ => Heeds.pure _
  | caches stem attached => exact (inspectAll_heeds _).bind fun _ => Heeds.pure _
  | fixed families => exact Heeds.pure _

lemma collect_heeds (k : CollectorId) : Heeds (collect k) :=
  (note_heeds (by simp)).bind fun _ => Heeds.get.bind fun _ => familiesOf_heeds _

lemma familyNames_heeds (k : CollectorId) : Heeds (familyNames k) :=
  (collect_heeds k).bind fun _ => Heeds.pure _

lemma claimsOf_heeds (r : RegistryId) (k : CollectorId) : Heeds (claimsOf r k) := by
  refine Heeds.get.bind fun s => ?_
  split
  · exact Heeds.pure _
  · split
    · exact (collect_heeds k).bind fun _ => Heeds.pure _
    · exact Heeds.pure _

section OnlyRaises

lemma note_onlyRaises (a : Activity) : OnlyRaises (note a) := by
  intro s fault t h
  cases h

lemma ask_onlyRaises (i : SupplierId) : OnlyRaises (ask i) := by
  refine OnlyRaises.get.bind fun s => (note_onlyRaises _).bind fun _ => ?_
  split
  · next alarm message _ =>
    intro s fault t h
    cases h
    exact ⟨alarm, message, rfl⟩
  · exact OnlyRaises.pure _

lemma askValue_onlyRaises (i : SupplierId) : OnlyRaises (askValue i) := by
  refine (ask_onlyRaises i).bind fun a => ?_
  split <;> exact OnlyRaises.pure _

lemma askDigest_onlyRaises (i : SupplierId) (name : String) : OnlyRaises (askDigest i name) := by
  refine (ask_onlyRaises i).bind fun a => ?_
  split <;> exact OnlyRaises.pure _

lemma askAll_onlyRaises (m : Supplied) (entries : List (List String × SupplierId)) :
    OnlyRaises (askAll m entries) := by
  induction entries with
  | nil => exact OnlyRaises.pure _
  | cons e entries ih =>
    exact (askValue_onlyRaises e.2).bind fun _ => ih.bind fun _ => OnlyRaises.pure _

lemma inspectAll_onlyRaises (entries : List (String × CacheId)) :
    OnlyRaises (inspectAll entries) := by
  induction entries with
  | nil => exact OnlyRaises.pure _
  | cons e entries ih =>
    refine OnlyRaises.bind ?_ fun _ => ih.bind fun _ => OnlyRaises.pure _
    exact (note_onlyRaises _).bind fun _ => OnlyRaises.get.bind fun _ => OnlyRaises.pure _

lemma declare_onlyRaises (type : FamilyType) {name : String} (help : String)
    (samples : List Sample) (hname : name ≠ "") :
    OnlyRaises (ofExcept (Family.declare type name help samples) : Action Family) := by
  rw [Family.declare, if_neg hname]
  exact OnlyRaises.pure _

/-- What has a name can be collected unless a supplier raises. -/
lemma familiesOf_onlyRaises {x : Collector} (nameable : x.Nameable) :
    OnlyRaises (familiesOf x) := by
  cases x with
  | instrument i => exact OnlyRaises.pure _
  | gauge name help k =>
    exact (askValue_onlyRaises k).bind fun _ =>
      (declare_onlyRaises _ _ _ nameable).bind fun _ => OnlyRaises.pure _
  | supplied m =>
    exact (declare_onlyRaises _ _ _ nameable).bind fun _ =>
      (askAll_onlyRaises m _).bind fun _ => OnlyRaises.pure _
  | summary name help k =>
    exact (askDigest_onlyRaises k name).bind fun _ =>
      (declare_onlyRaises _ _ _ nameable).bind fun _ => OnlyRaises.pure _
  | caches stem attached => exact (inspectAll_onlyRaises _).bind fun _ => OnlyRaises.pure _
  | fixed families => exact OnlyRaises.pure _

section Failing

variable {P : Fault → Prop} (unnamed : P .emptyName)
  (raised : ∀ alarm message, P (.raised alarm message))

include unnamed raised

lemma familiesOf_failsOnly (x : Collector) : FailsOnly P (familiesOf x) := by
  have asking : ∀ {α : Type} {y : Action α}, OnlyRaises y → FailsOnly P y := by
    intro α y only s fault t h
    obtain ⟨alarm, message, rfl⟩ := only s fault t h
    exact raised alarm message
  have declaring : ∀ type name help samples,
      FailsOnly P (ofExcept (Family.declare type name help samples) : Action Family) := by
    intro type name help samples s fault t h
    rw [declare_error (ofExcept_error h)]
    exact unnamed
  cases x with
  | gauge name help i =>
    exact (asking (askValue_onlyRaises i)).bind fun _ =>
      (declaring _ _ _ _).bind fun _ => FailsOnly.pure _
  | supplied m =>
    exact (declaring _ _ _ _).bind fun _ =>
      (asking (askAll_onlyRaises m _)).bind fun _ => FailsOnly.pure _
  | summary name help i =>
    exact (asking (askDigest_onlyRaises i name)).bind fun _ =>
      (declaring _ _ _ _).bind fun _ => FailsOnly.pure _
  | _ => exact asking (familiesOf_onlyRaises trivial)

/-- Collecting fails because a family has no name, or with what a supplier raises. -/
lemma collect_failsOnly (k : CollectorId) : FailsOnly P (collect k) := fun s =>
  familiesOf_failsOnly unnamed raised (s.collector k) (s.noting [.collected k])

omit unnamed raised in
lemma familyNames_failsOnly {k : CollectorId} (collecting : FailsOnly P (collect k)) :
    FailsOnly P (familyNames k) := collecting.bind fun _ => .pure _

end Failing

lemma raised_of_claimsOf_error {r : RegistryId} {k : CollectorId} {s t : Site} {fault : Fault}
    (nameable : (s.collector k).Nameable) (h : claimsOf r k s = .error fault t) :
    ∃ alarm message, fault = .raised alarm message := by
  by_cases described : ∃ i, s.collector k = .instrument i
  · obtain ⟨i, hi⟩ := described
    rw [claimsOf_instrument hi] at h
    cases h
  · rw [(claimsOf_collected (not_exists.mp described)).1] at h
    split at h
    · rcases error_of_bind_error h with failed | ⟨families, u, -, failed⟩
      · exact familiesOf_onlyRaises nameable _ _ _ failed
      · cases failed
    · cases h

/-- A collector that is kept out has at most been collected. -/
lemma quiet_of_hold_error {r : RegistryId} {k : CollectorId} {s t : Site} {fault : Fault}
    (h : hold r k s = .error fault t) : OnlyActivity s t := by
  rcases error_of_bind_error h with failed | ⟨names, u, known, -⟩
  · exact (claimsOf_moves r k).of_error failed
  · rw [hold_of_claims known] at h
    split at h
    · cases h
    · cases h
      exact (claimsOf_moves r k).of_ok known

/-- A collector whose names are free is kept out by nothing but a supplier that raises. -/
lemma raised_of_hold_error {r : RegistryId} {k : CollectorId} {s t : Site} {fault : Fault}
    (nameable : (s.collector k).Nameable)
    (free : ∀ name ∈ (s.collector k).claims (s.registry r).describes,
      (s.registry r).owners.get? name = none) (h : hold r k s = .error fault t) :
    ∃ alarm message, fault = .raised alarm message := by
  rcases error_of_bind_error h with failed | ⟨names, u, known, -⟩
  · exact raised_of_claimsOf_error nameable failed
  · have same : u.registry r = s.registry r := by rw [(claimsOf_moves r k).of_ok known]; rfl
    have none_taken : (u.registry r).taken names = [] := by
      rw [Registry.taken_eq_nil_iff, same, claimsOf_ok known]
      exact free
    rw [hold_of_claims known, if_pos none_taken] at h
    cases h

end OnlyRaises

lemma withRegistry_heeds (r : RegistryId) (reg : Registry) :
    Heeds (modify fun s => s.withRegistry r reg : Action Unit) :=
  .of_unasked (fun _ => rfl) fun _ => rfl

lemma hold_heeds (r : RegistryId) (k : CollectorId) : Heeds (hold r k) := by
  refine (claimsOf_heeds r k).bind fun names => Heeds.get.bind fun s => ?_
  dsimp only
  split
  · exact withRegistry_heeds r _
  · exact Heeds.throw _

lemma release_unasked (r : RegistryId) (k : CollectorId) : Moves Unasked (release r k) := by
  refine Moves.get.bind fun s => ?_
  dsimp only
  split
  · exact Moves.throw _
  · split
    · exact Moves.bind (Moves.modify fun _ => rfl) fun _ => Moves.throw _
    · exact Moves.modify fun _ => rfl

lemma release_failsOnly {P : Fault → Prop} (unheld : P .notHeld)
    (unowned : ∀ name, P (.nameNotHeld name)) (r : RegistryId) (k : CollectorId) :
    FailsOnly P (release r k) := by
  refine FailsOnly.get.bind fun s => ?_
  dsimp only
  split
  · exact .throw unheld
  · split
    · exact (FailsOnly.modify _).bind fun _ => .throw (unowned _)
    · exact .modify _

lemma release_heeds (r : RegistryId) (k : CollectorId) : Heeds (release r k) :=
  .of_unasked (fun s => (release_moves r k s).suppliers) (release_unasked r k)

end Site

namespace Roster

lemma partAll_heeds (names : Distinct String) (ks : List CollectorId) :
    Heeds (partAll names ks) := by
  induction ks with
  | nil => exact Heeds.pure _
  | cons k ks ih =>
    refine (familyNames_heeds k).bind fun own => ih.bind fun ⟨displaced, kept⟩ => ?_
    exact Heeds.pure _

lemma partAll_failsOnly {P : Fault → Prop} (collecting : ∀ k, FailsOnly P (collect k))
    (names : Distinct String) (ks : List CollectorId) : FailsOnly P (partAll names ks) := by
  induction ks with
  | nil => exact .pure _
  | cons k ks ih =>
    exact (familyNames_failsOnly (collecting k)).bind fun _ => ih.bind fun _ => .pure _

end Roster

end Metering
