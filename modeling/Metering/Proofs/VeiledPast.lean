import Metering.Proofs.WorkBesideLists
import Metering.System.Reading

/-!
# Sites that differ in collectors of the past

Two sites that differ at most in what stands at places of the past (`Site.Veiled`) cannot be told
apart by anyone who is not given such a place: every action on later places gives the same results
on both, fails alike, and leads to sites of this kind again (`Blind`).
-/

namespace Metering

variable {ε σ α β : Type}

/-- Two outcomes with the same result, or the same failure, and related states. -/
def Alike (R : σ → σ → Prop) (Q : α → Prop) (r r' : EStateM.Result ε σ α) : Prop :=
  (∃ a s t, r = .ok a s ∧ r' = .ok a t ∧ Q a ∧ R s t)
    ∨ ∃ e s t, r = .error e s ∧ r' = .error e t ∧ R s t

/-- From related states the outcomes are alike, and the result has the property `Q`. -/
def Blind (R : σ → σ → Prop) (Q : α → Prop) (x : EStateM ε σ α) : Prop :=
  ∀ s t, R s t → Alike R Q (x s) (x t)

/-- Any result will do. -/
abbrev Anything (_ : α) : Prop := True

namespace Blind

variable {R : σ → σ → Prop} {Q : α → Prop} {P : β → Prop} {x : EStateM ε σ α}
  {f : α → EStateM ε σ β}

lemma pure {a : α} (result : Q a) : Blind R Q (Pure.pure a : EStateM ε σ α) :=
  fun s t states => Or.inl ⟨a, s, t, rfl, rfl, result, states⟩

lemma throw (e : ε) : Blind R Q (MonadExcept.throw e : EStateM ε σ α) :=
  fun s t states => Or.inr ⟨e, s, t, rfl, rfl, states⟩

lemma bind (hx : Blind R Q x) (hf : ∀ a, Q a → Blind R P (f a)) : Blind R P (x >>= f) := by
  intro s t states
  rcases hx s t states with ⟨a, s', t', hs, ht, result, states⟩ | ⟨e, s', t', hs, ht, states⟩
  · rw [bind_of_ok hs, bind_of_ok ht]
    exact hf a result s' t' states
  · exact Or.inr ⟨e, s', t', bind_of_error hs f, bind_of_error ht f, states⟩

/-- A program that reads of the state only what related states share. -/
lemma get_bind {f : σ → EStateM ε σ β} (same : ∀ s t, R s t → f s = f t)
    (hf : ∀ s t, R s t → Blind R P (f s)) : Blind R P (MonadState.get >>= f) := by
  intro s t states
  rw [bind_get, bind_get, ← same s t states]
  exact hf s t states s t states

lemma modify {g : σ → σ} (h : ∀ s t, R s t → R (g s) (g t)) :
    Blind R Anything (modify g : EStateM ε σ PUnit) :=
  fun s t states => Or.inl ⟨⟨⟩, g s, g t, rfl, rfl, trivial, h s t states⟩

lemma ofExcept (y : Except ε α) : Blind R Anything (MonadExcept.ofExcept y : EStateM ε σ α) := by
  cases y with
  | ok a => exact pure trivial
  | error e => exact throw e

lemma tryCatch {handle : ε → EStateM ε σ α} (hx : Blind R Q x) (hh : ∀ e, Blind R Q (handle e)) :
    Blind R Q (MonadExcept.tryCatch x handle) := by
  intro s t states
  rcases hx s t states with ⟨a, s', t', hs, ht, result, states⟩ | ⟨e, s', t', hs, ht, states⟩
  · exact Or.inl ⟨a, s', t', tryCatch_of_ok hs _, tryCatch_of_ok ht _, result, states⟩
  · rw [tryCatch_of_error hs, tryCatch_of_error ht]
    exact hh e s' t' states

lemma forM {x : α → EStateM ε σ PUnit} {as : List α} (hx : ∀ a ∈ as, Blind R Anything (x a)) :
    Blind R Anything (as.forM x) := by
  induction as with
  | nil => exact pure trivial
  | cons a as ih =>
    exact (hx a List.mem_cons_self).bind fun _ _ => ih fun b hb => hx b (List.mem_cons_of_mem a hb)

lemma map {g : α → β} (hx : Blind R Q x) (result : ∀ a, Q a → P (g a)) : Blind R P (g <$> x) := by
  rw [← bind_pure_comp]
  exact hx.bind fun a ha => pure (result a ha)

end Blind

/-- What a system that started anew cannot see, the places below `past`, and what stays the same
about it: its registry, whether that describes, and its switches. -/
structure Veil where
  past : Nat
  registry : RegistryId
  describes : Bool
  enabled : Distinct Category
  timers : Bool

namespace Site

/-- The second site differs from the first at most in collectors of the past, and the registry holds
none of those. -/
structure Veiled (v : Veil) (s t : Site) : Prop where
  rest : t = { s with collectors := t.collectors }
  room : t.collectors.length = s.collectors.length
  past : v.past ≤ s.collectors.length
  same : ∀ k, v.past ≤ k.index → t.collector k = s.collector k
  held : ∀ k ∈ (s.registry v.registry).held, v.past ≤ k.index
  describes : (s.registry v.registry).describes = v.describes

variable {v : Veil} {s t : Site}

namespace Veiled

lemma nextAnswer (h : Veiled v s t) (j : SupplierId) : t.nextAnswer j = s.nextAnswer j := by
  rw [h.rest]
  rfl

lemma cache (h : Veiled v s t) (c : CacheId) : t.cache c = s.cache c := by
  rw [h.rest]
  rfl

lemma registry (h : Veiled v s t) (j : RegistryId) : t.registry j = s.registry j := by
  rw [h.rest]
  rfl

lemma clock (h : Veiled v s t) : t.clock = s.clock := by
  rw [h.rest]

/-- A change that touches neither collectors nor registries is veiled as before. -/
lemma update (h : Veiled v s t) {g : Site → Site}
    (collectors : ∀ s, (g s).collectors = s.collectors)
    (registries : ∀ s, (g s).registries = s.registries)
    (rest : ∀ s xs, g { s with collectors := xs } = { g s with collectors := xs }) :
    Veiled v (g s) (g t) := by
  have placed : ∀ k, (g s).collector k = s.collector k ∧ (g t).collector k = t.collector k := by
    intro k
    simp only [collector, collectors, and_self]
  refine ⟨?_, ?_, ?_, ?_, ?_, ?_⟩
  · rw [collectors]
    exact (congrArg g h.rest).trans (rest s t.collectors)
  · rw [collectors, collectors, h.room]
  · rw [collectors]
    exact h.past
  · intro k hk
    rw [(placed k).1, (placed k).2, h.same k hk]
  · simp only [Site.registry, registries]
    exact h.held
  · simp only [Site.registry, registries]
    exact h.describes

lemma withRegistry (h : Veiled v s t) {reg : Registry} (held : ∀ k ∈ reg.held, v.past ≤ k.index)
    (describes : reg.describes = v.describes) :
    Veiled v (s.withRegistry v.registry reg) (t.withRegistry v.registry reg) := by
  have rest : t.withRegistry v.registry reg = { s.withRegistry v.registry reg with
      collectors := t.collectors } := by
    conv_lhs => rw [h.rest]
    rfl
  by_cases room : v.registry.index < s.registries.length
  · refine ⟨rest, h.room, h.past, h.same, ?_, ?_⟩
    · rw [registry_withRegistry room, if_pos rfl]
      exact held
    · rw [registry_withRegistry room, if_pos rfl]
      exact describes
  · have outside : s.withRegistry v.registry reg = s := by
      rw [Site.withRegistry, List.set_eq_of_length_le (Nat.le_of_not_lt room)]
    rw [outside] at rest ⊢
    exact ⟨rest, h.room, h.past, h.same, h.held, h.describes⟩

lemma withCollector (h : Veiled v s t) {k : CollectorId} (x : Collector) :
    Veiled v (s.withCollector k x) (t.withCollector k x) := by
  refine ⟨?_, ?_, ?_, ?_, h.held, h.describes⟩
  · conv_lhs => rw [h.rest]
    rfl
  · simp [Site.withCollector, h.room]
  · simpa [Site.withCollector] using h.past
  · intro l hl
    by_cases room : k.index < s.collectors.length
    · rw [collector_withCollector room, collector_withCollector (h.room ▸ room), h.same l hl]
    · have outside : ∀ u : Site, u.collectors.length = s.collectors.length →
          u.withCollector k x = u := by
        intro u hu
        rw [Site.withCollector, List.set_eq_of_length_le (by omega)]
      rw [outside s rfl, outside t h.room, h.same l hl]

lemma withAdded (h : Veiled v s t) (x : Collector) :
    Veiled v (s.withAdded x) (t.withAdded x) := by
  refine ⟨?_, ?_, ?_, ?_, h.held, h.describes⟩
  · conv_lhs => rw [h.rest]
    rfl
  · simp [Site.withAdded, h.room]
  · have past := h.past
    simp only [Site.withAdded, List.length_append]
    omega
  · intro l hl
    have known := h.same l hl
    simp only [collector, Site.withAdded, List.getElem?_append, h.room] at known ⊢
    split
    · exact known
    · rfl

/-- Whatever happens to a collector of the past on the first site, the veil stays. -/
lemma past_withCollector (h : Veiled v s t) {k : CollectorId} (old : k.index < v.past)
    (x : Collector) : Veiled v (s.withCollector k x) t := by
  have past := h.past
  refine ⟨?_, ?_, ?_, ?_, h.held, h.describes⟩
  · conv_lhs => rw [h.rest]
    rfl
  · simpa [Site.withCollector] using h.room
  · simpa [Site.withCollector] using past
  · intro l hl
    rw [collector_withCollector (by omega), if_neg (by rintro rfl; omega), h.same l hl]

end Veiled

section Reading

lemma note_blind (a : Activity) : Blind (Veiled v) Anything (note a) :=
  .modify fun _ _ h => h.update (g := fun s => { s with activity := s.activity ++ [a] })
    (fun _ => rfl) (fun _ => rfl) fun _ _ => rfl

lemma report_blind (e : Event) : Blind (Veiled v) Anything (report e) :=
  .modify fun _ _ h => h.update (g := fun s => { s with journal := s.journal ++ [e] })
    (fun _ => rfl) (fun _ => rfl) fun _ _ => rfl

lemma ask_blind (j : SupplierId) : Blind (Veiled v) Anything (ask j) := by
  refine .get_bind (fun s t h => by simp only [h.nextAnswer]) fun s t _ => ?_
  refine (note_blind _).bind fun _ _ => ?_
  split
  · exact .throw _
  · exact .pure trivial

lemma askValue_blind (j : SupplierId) : Blind (Veiled v) Anything (askValue j) := by
  refine (ask_blind j).bind fun a _ => ?_
  split <;> exact .pure trivial

lemma askDigest_blind (j : SupplierId) (name : String) :
    Blind (Veiled v) Anything (askDigest j name) := by
  refine (ask_blind j).bind fun a _ => ?_
  split <;> exact .pure trivial

lemma askAll_blind (m : Supplied) (entries : List (List String × SupplierId)) :
    Blind (Veiled v) Anything (askAll m entries) := by
  induction entries with
  | nil => exact .pure trivial
  | cons e entries ih =>
    exact (askValue_blind e.2).bind fun _ _ => ih.bind fun _ _ => .pure trivial

lemma inspect_blind (c : CacheId) : Blind (Veiled v) Anything (inspect c) :=
  (note_blind _).bind fun _ _ =>
    .get_bind (fun s t h => by simp only [h.cache]) fun _ _ _ => .pure trivial

lemma inspectAll_blind (entries : List (String × CacheId)) :
    Blind (Veiled v) Anything (inspectAll entries) := by
  induction entries with
  | nil => exact .pure trivial
  | cons e entries ih =>
    exact (inspect_blind e.2).bind fun _ _ => ih.bind fun _ _ => .pure trivial

lemma familiesOf_blind (x : Collector) : Blind (Veiled v) Anything (familiesOf x) := by
  cases x with
  | instrument i => exact .pure trivial
  | gauge name help k =>
    exact (askValue_blind k).bind fun _ _ => (Blind.ofExcept _).bind fun _ _ => .pure trivial
  | supplied m =>
    exact (Blind.ofExcept _).bind fun _ _ => (askAll_blind m _).bind fun _ _ => .pure trivial
  | summary name help k =>
    exact (askDigest_blind k name).bind fun _ _ => (Blind.ofExcept _).bind fun _ _ => .pure trivial
  | caches stem attached => exact (inspectAll_blind _).bind fun _ _ => .pure trivial
  | fixed families => exact .pure trivial

variable {k : CollectorId} {ks : List CollectorId}

lemma collect_blind (later : v.past ≤ k.index) : Blind (Veiled v) Anything (collect k) :=
  (note_blind _).bind fun _ _ =>
    .get_bind (fun s t h => by rw [h.same k later]) fun _ _ _ => familiesOf_blind _

lemma collectAll_blind (later : ∀ k ∈ ks, v.past ≤ k.index) :
    Blind (Veiled v) Anything (collectAll ks) := by
  induction ks with
  | nil => exact .pure trivial
  | cons k ks ih =>
    exact (collect_blind (later k List.mem_cons_self)).bind fun _ _ =>
      (ih fun j hj => later j (List.mem_cons_of_mem k hj)).bind fun _ _ => .pure trivial

lemma gather_blind : Blind (Veiled v) Anything (gather v.registry) :=
  .get_bind (fun s t h => by rw [h.registry]) fun _ _ h => collectAll_blind h.held

lemma firstValue_blind (name : String) (labels : Labels) (later : ∀ k ∈ ks, v.past ≤ k.index) :
    Blind (Veiled v) Anything (firstValue name labels ks) := by
  induction ks with
  | nil => exact .pure trivial
  | cons k ks ih =>
    refine (collect_blind (later k List.mem_cons_self)).bind fun _ _ => ?_
    dsimp only
    split
    · exact .pure trivial
    · exact ih fun j hj => later j (List.mem_cons_of_mem k hj)

lemma sampleValue_blind (name : String) (labels : Labels) :
    Blind (Veiled v) Anything (sampleValue v.registry name labels) :=
  .get_bind (fun s t h => by rw [h.registry]) fun _ _ h => firstValue_blind name labels h.held

lemma familyNames_blind (later : v.past ≤ k.index) : Blind (Veiled v) Anything (familyNames k) :=
  (collect_blind later).bind fun _ _ => .pure trivial

end Reading

section Holding

variable {k : CollectorId}

lemma claimsOf_blind (later : v.past ≤ k.index) :
    Blind (Veiled v) Anything (claimsOf v.registry k) := by
  refine .get_bind (fun s t h => by simp only [h.same k later, h.registry]) fun s t _ => ?_
  split
  · exact .pure trivial
  · split
    · exact (collect_blind later).bind fun _ _ => .pure trivial
    · exact .pure trivial

lemma hold_blind (later : v.past ≤ k.index) : Blind (Veiled v) Anything (hold v.registry k) := by
  refine (claimsOf_blind later).bind fun names _ => ?_
  refine .get_bind (fun s t h => by simp only [h.registry]) fun s t h => ?_
  dsimp only
  split
  · refine .modify fun _ _ h' => h'.withRegistry (fun j hj => ?_) h.describes
    rcases Index.mem_put.mp hj with old | rfl
    · exact h.held j old
    · exact later
  · exact .throw _

lemma release_blind (k : CollectorId) : Blind (Veiled v) Anything (release v.registry k) := by
  refine .get_bind (fun s t h => by simp only [h.registry]) fun s t h => ?_
  dsimp only
  split
  · exact .throw _
  · split
    · exact (Blind.modify fun _ _ h' => h'.withRegistry h.held h.describes).bind fun _ _ =>
        .throw _
    · exact .modify fun _ _ h' => h'.withRegistry
        (fun j hj => h.held j (Index.mem_erase.mp hj).1) h.describes

end Holding

end Site

open Site

variable {v : Veil}

namespace Roster

/-- The roster works on the registry of the veil and lists no place of the past. -/
structure Beyond (r : Roster) (v : Veil) : Prop where
  registry : r.registry = v.registry
  listed : ∀ c, ∀ k ∈ r.ofCategory c, v.past ≤ k.index

lemma beyond_vacant : (vacant v.registry).Beyond v := ⟨rfl, fun _ _ h => absurd h List.not_mem_nil⟩

variable {k : CollectorId} {ks : List CollectorId} {r : Roster}

lemma partAll_blind (names : Distinct String) (later : ∀ k ∈ ks, v.past ≤ k.index) :
    Blind (Veiled v)
      (fun parts => (∀ k ∈ parts.1, v.past ≤ k.index) ∧ ∀ k ∈ parts.2, v.past ≤ k.index)
      (partAll names ks) := by
  induction ks with
  | nil => exact .pure ⟨fun _ h => absurd h List.not_mem_nil, fun _ h => absurd h List.not_mem_nil⟩
  | cons k ks ih =>
    have first := later k List.mem_cons_self
    refine (familyNames_blind first).bind fun own _ => ?_
    refine (ih fun j hj => later j (List.mem_cons_of_mem k hj)).bind ?_
    rintro ⟨displaced, kept⟩ ⟨hd, hk⟩
    refine .pure ?_
    split
    · exact ⟨List.forall_mem_cons.mpr ⟨first, hd⟩, hk⟩
    · exact ⟨hd, List.forall_mem_cons.mpr ⟨first, hk⟩⟩

lemma exchange_blind (later : v.past ≤ k.index) (others : ∀ k ∈ ks, v.past ≤ k.index) :
    Blind (Veiled v) Anything (exchange v.registry ks k) := by
  refine (Blind.forM fun j _ => release_blind j).bind fun _ _ => ?_
  refine (hold_blind later).tryCatch fun fault => ?_
  rw [restore]
  split
  · exact (Blind.forM fun j hj => hold_blind (others j hj)).bind fun _ _ => .throw fault
  · exact .throw fault

lemma register_blind (beyond : r.Beyond v) (c : Category) (later : v.past ≤ k.index) :
    Blind (Veiled v) (fun r' => r'.Beyond v) (register r c k) := by
  refine (familyNames_blind later).bind fun names _ => ?_
  refine (partAll_blind names (beyond.listed c)).bind ?_
  rintro ⟨displaced, kept⟩ ⟨hd, hk⟩
  dsimp only
  rw [beyond.registry]
  refine (exchange_blind later hd).bind fun _ _ => ?_
  refine Blind.bind (Q := Anything) ?_ fun _ _ => .pure ⟨beyond.registry, fun c' j hj => ?_⟩
  · cases displaced with
    | nil => exact .pure trivial
    | cons => exact report_blind _
  · rw [ofCategory_publish] at hj
    split at hj
    · rcases List.mem_append.mp hj with old | new
      · exact hk j old
      · rw [List.mem_singleton.mp new]
        exact later
    · exact beyond.listed c' j hj

lemma dismiss_blind (beyond : r.Beyond v) : Blind (Veiled v) Anything r.dismiss := by
  rw [dismiss, releaseAll, beyond.registry]
  exact (Blind.forM fun j _ => release_blind j).bind fun _ _ => report_blind _

end Roster

/-- The child leads to no place of the past. -/
def Child.Beyond (c : Child) (v : Veil) : Prop := ∀ place ∈ c.target, v.past ≤ place.1.index

namespace Handle

/-- The handle leads to no place of the past. -/
def Beyond (h : Handle) (v : Veil) : Prop := ∀ k ∈ h.target, v.past ≤ k.index

variable {h : Handle} {k : CollectorId}

lemma checkArity_blind (h : Handle) (values : List String) :
    Blind (Veiled v) Anything (h.checkArity values) := by
  rw [checkArity]
  split
  · exact .pure trivial
  · exact .throw _

lemma onInstrument_blind (later : v.past ≤ k.index) (f : Instrument → Instrument) :
    Blind (Veiled v) Anything (onInstrument k f) := by
  refine .modify fun s t veiled => ?_
  rw [veiled.same k later]
  split
  · exact veiled.withCollector _
  · exact veiled

lemma labels_blind (beyond : h.Beyond v) (kind : ChildKind) (values : List String) :
    Blind (Veiled v) (fun c => c.Beyond v) (h.labels kind values) := by
  refine (checkArity_blind h values).bind fun _ _ => ?_
  split
  · exact .pure fun _ hplace => absurd hplace (Option.not_mem_none _)
  · next k target =>
    refine .get_bind (fun s t veiled => by simp only [veiled.clock]) fun s t _ => ?_
    refine (onInstrument_blind (beyond k target) _).bind fun _ _ => .pure ?_
    rintro _ ⟨⟩
    exact beyond k target

lemma supply_blind (beyond : h.Beyond v) (supplier : SupplierId) (values : List String) :
    Blind (Veiled v) Anything (h.supply supplier values) := by
  refine (checkArity_blind h values).bind fun _ _ => ?_
  split
  · exact .pure trivial
  · next k target =>
    intro s t veiled
    rw [addSupplied, bind_get, bind_get, veiled.same k (beyond k target)]
    cases s.collector k with
    | supplied m =>
      by_cases taken : values ∈ m.suppliers
      · simp only [Supplied.add, if_pos taken]
        exact Blind.throw _ s t veiled
      · simp only [Supplied.add, if_neg taken]
        exact Or.inl ⟨(), _, _, rfl, rfl, trivial, veiled.withCollector _⟩
    | _ => exact Blind.pure trivial s t veiled

end Handle

namespace Child

variable {c : Child}

lemma record_blind (beyond : c.Beyond v) (x : Float) :
    Blind (Veiled v) Anything (c.record x) := by
  rw [record]
  split
  · exact .pure trivial
  · next k values target => exact Handle.onInstrument_blind (beyond (k, values) target) _

lemma increment_blind (beyond : c.Beyond v) (amount : Float) :
    Blind (Veiled v) Anything (c.increment amount) := by
  rw [increment]
  split
  · exact .pure trivial
  · split
    · exact .throw _
    · exact record_blind beyond amount

end Child

lemma Timing.start_blind (c : Child) :
    Blind (Veiled v) (fun t => t.child = c) (Timing.start c) :=
  .get_bind (fun s t h => by rw [h.clock]) fun _ _ _ => .pure rfl

lemma Timing.stop_blind {t : Timing} (beyond : t.child.Beyond v) :
    Blind (Veiled v) (fun e => e.2.child = t.child) t.stop := by
  rw [Timing.stop]
  split
  · exact .pure rfl
  · refine .get_bind (fun s u h => by simp only [h.clock]) fun _ _ _ => ?_
    exact (Child.record_blind beyond _).bind fun _ _ => .pure rfl

namespace Stream

/-- No place of the past is still to come in the stream. -/
def Beyond (v : Veil) : Stream → Prop
  | .reading p => ∀ k ∈ p.collectors, v.past ≤ k.index
  | _ => True

variable {ks : List CollectorId} {r : Roster} {stream : Stream}

lemma withinCategory_blind (later : ∀ k ∈ ks, v.past ≤ k.index) :
    Blind (Veiled v) (fun found => ∀ e ∈ found, ∀ k ∈ e.2.2, v.past ≤ k.index)
      (withinCategory ks) := by
  induction ks with
  | nil => exact .pure fun _ h => absurd h (Option.not_mem_none _)
  | cons k ks ih =>
    have rest : ∀ j ∈ ks, v.past ≤ j.index := fun j hj => later j (List.mem_cons_of_mem k hj)
    refine (collect_blind (later k List.mem_cons_self)).bind fun _ _ => ?_
    split
    · exact ih rest
    · refine .pure ?_
      rintro _ ⟨⟩
      exact rest

lemma acrossCategories_blind (beyond : r.Beyond v) (cs : List Category) :
    Blind (Veiled v) (fun found => ∀ e ∈ found, ∀ k ∈ e.2.collectors, v.past ≤ k.index)
      (acrossCategories r cs) := by
  induction cs with
  | nil => exact .pure fun _ h => absurd h (Option.not_mem_none _)
  | cons c cs ih =>
    refine (withinCategory_blind (beyond.listed c)).bind fun found rest => ?_
    split
    · refine .pure ?_
      rintro _ ⟨⟩
      exact rest _ rfl
    · exact ih

lemma locate_blind (beyond : r.Beyond v) (later : stream.Beyond v) :
    Blind (Veiled v) (fun found => ∀ e ∈ found, ∀ k ∈ e.2.collectors, v.past ≤ k.index)
      (stream.locate r) := by
  cases stream with
  | unopened scope => cases scope <;> exact acrossCategories_blind beyond _
  | finished => exact .pure fun _ h => absurd h (Option.not_mem_none _)
  | reading p =>
    rw [locate]
    split
    · refine .pure ?_
      rintro _ ⟨⟩
      exact later
    · refine (withinCategory_blind later).bind fun found rest => ?_
      split
      · refine .pure ?_
        rintro _ ⟨⟩
        exact rest _ rfl
      · exact acrossCategories_blind beyond _

lemma next_blind {s : System} (beyond : s.roster.Beyond v) (later : stream.Beyond v) :
    Blind (Veiled v) (fun pulled => pulled.2.Beyond v) (stream.next s) := by
  refine (locate_blind beyond later).bind fun found rest => ?_
  split
  · exact .pure trivial
  · exact .pure (rest _ rfl)

lemma pull_blind {s : System} (beyond : s.roster.Beyond v) (count : Nat)
    (later : stream.Beyond v) : Blind (Veiled v) Anything (pull s count stream) := by
  induction count generalizing stream with
  | zero => exact .pure trivial
  | succ count ih =>
    refine (next_blind beyond later).bind fun pulled rest => ?_
    split
    · exact .pure trivial
    · exact (ih rest).bind fun _ _ => .pure trivial

end Stream

end Metering
