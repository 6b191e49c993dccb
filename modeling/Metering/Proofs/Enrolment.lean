import Metering.Proofs.WorkBesideLists

/-!
# Enrolling collectors

An operation that creates something adds collectors to the site and registers them, up to the first
failure and with work of a harmless kind in between: it leaves the lists alone (`Aside`), mostly
also what the system remembers of names and handles (`Discreet`). Which collectors these can be is
told by the arguments of the operation (`Offer`), and that nothing else happens is `Enrols`. All
that is known of the lists after a run is derived from this relation, not from the operations.
-/

namespace Metering

open Site

namespace Deployment

/-- The roster is as it was, and the site is aside of the one before. -/
structure Aside (d e : Deployment) : Prop where
  roster : e.system.roster = d.system.roster
  site : d.site.Aside e.site

instance : IsPreorder Deployment Aside where
  refl _ := ⟨rfl, Std.Refl.refl _⟩
  trans _ _ _ hde hef := ⟨hef.roster.trans hde.roster, IsTrans.trans _ _ _ hde.site hef.site⟩

/-- The system has the same switches, the same names in its book and the same handles. -/
def SameNotes (d e : Deployment) : Prop :=
  e.system = { d.system with
    roster := e.system.roster, shared := e.system.shared, cacheNames := e.system.cacheNames }

instance : IsPreorder Deployment SameNotes where
  refl _ := rfl
  trans d e f hde hef := by
    rw [SameNotes] at hde hef ⊢
    rw [hef, hde]

/-- Neither the lists nor the notes of the system have changed. -/
structure Discreet (d e : Deployment) : Prop where
  aside : d.Aside e
  notes : d.SameNotes e

instance : IsPreorder Deployment Discreet where
  refl _ := ⟨Std.Refl.refl _, Std.Refl.refl _⟩
  trans _ _ _ hde hef :=
    ⟨IsTrans.trans _ _ _ hde.aside hef.aside, IsTrans.trans _ _ _ hde.notes hef.notes⟩

end Deployment

namespace Operation

lemma ofAction_ok {α : Type} {a : Action α} {d : Deployment} {x : α} {t : Site}
    (h : a d.site = .ok x t) : ofAction a d = .ok x { d with site := t } := by
  rw [ofAction, h]

lemma ofAction_error {α : Type} {a : Action α} {d : Deployment} {fault : Fault} {t : Site}
    (h : a d.site = .error fault t) : ofAction a d = .error fault { d with site := t } := by
  rw [ofAction, h]

lemma bind_system {α : Type} (f : System → Operation α) (d : Deployment) :
    (system >>= f) d = f d.system d := rfl

lemma action_of_ok {α : Type} {a : Action α} {d e : Deployment} {x : α}
    (h : ofAction a d = .ok x e) : ∃ t, a d.site = .ok x t ∧ e = { d with site := t } := by
  rw [ofAction] at h
  split at h
  · next run =>
    cases h
    exact ⟨_, run, rfl⟩
  · cases h

lemma endOf_ofAction {α : Type} (a : Action α) (d : Deployment) :
    endOf (ofAction a d) = { d with site := endOf (a d.site) } := by
  rw [ofAction]
  split
  · next h => rw [h]; rfl
  · next h => rw [h]; rfl

lemma ofAction_discreet {α : Type} {a : Action α} (h : Moves Site.Aside a) :
    Moves Deployment.Discreet (ofAction a) := by
  intro d
  rw [endOf_ofAction]
  exact ⟨⟨rfl, h d.site⟩, rfl⟩

lemma system_moves {R : Deployment → Deployment → Prop} [IsPreorder Deployment R] :
    Moves R system := Moves.get.bind fun _ => Moves.pure _

lemma change_aside {f : System → System} (h : ∀ s, (f s).roster = s.roster) :
    Moves Deployment.Aside (change f) := Moves.modify fun d => ⟨h d.system, Std.Refl.refl _⟩

lemma change_discreet {f : System → System} (h : ∀ s, (f s).roster = s.roster)
    (notes : ∀ s, f s = { s with shared := (f s).shared, cacheNames := (f s).cacheNames }) :
    Moves Deployment.Discreet (change f) := by
  refine Moves.modify fun d => ⟨⟨h d.system, Std.Refl.refl _⟩, ?_⟩
  change f d.system = _
  rw [h]
  exact notes d.system

end Operation

open Operation

namespace System

/-- A collector on offer: its category, and the collector as it is declared. -/
abbrev Offer := Category × Collector

/-- Enrolling adds the collector to the site and registers it; a failure leaves the roster. -/
lemma enroll_eq (c : Category) (x : Collector) (d : Deployment) :
    enroll c x d
      = match Roster.register d.system.roster c d.site.nextPlace (d.site.withAdded x) with
      | .ok roster t => .ok d.site.nextPlace ⟨{ d.system with roster := roster }, t⟩
      | .error fault t => .error fault ⟨d.system, t⟩ := by
  have added : (liftM (Site.addCollector x) : Operation CollectorId) d
      = .ok d.site.nextPlace { d with site := d.site.withAdded x } := rfl
  rw [enroll, bind_of_ok added]
  cases h : Roster.register d.system.roster c d.site.nextPlace (d.site.withAdded x) with
  | ok roster t =>
    have lifted : (liftM (Roster.register d.system.roster c d.site.nextPlace) : Operation Roster)
        { d with site := d.site.withAdded x } = .ok roster ⟨d.system, t⟩ :=
      ofAction_ok (d := { d with site := d.site.withAdded x }) h
    have registered : register c d.site.nextPlace { d with site := d.site.withAdded x }
        = .ok () ⟨{ d.system with roster := roster }, t⟩ := by
      rw [register, bind_system, bind_of_ok lifted]
      rfl
    exact bind_of_ok registered _
  | error fault t =>
    have lifted : (liftM (Roster.register d.system.roster c d.site.nextPlace) : Operation Roster)
        { d with site := d.site.withAdded x } = .error fault ⟨d.system, t⟩ :=
      ofAction_error (d := { d with site := d.site.withAdded x }) h
    have registered : register c d.site.nextPlace { d with site := d.site.withAdded x }
        = .error fault ⟨d.system, t⟩ := by
      rw [register, bind_system, bind_of_error lifted]
    exact bind_of_error registered _

/-- Some of the offered collectors are enrolled, in this order and with work of a harmless kind in
between. -/
inductive Enrols (W : Deployment → Deployment → Prop) : List Offer → Deployment → Deployment → Prop
  | rest {offers : List Offer} {d e : Deployment} (h : W d e) : Enrols W offers d e
  | leave {offer : Offer} {offers : List Offer} {d e : Deployment} (h : Enrols W offers d e) :
      Enrols W (offer :: offers) d e
  | take {c : Category} {x y : Collector} {offers : List Offer} {d m e : Deployment}
      (before : W d m) (declared : y.declared = x)
      (after : Enrols W offers (endOf (enroll c y m)) e) : Enrols W ((c, x) :: offers) d e

section Rules

variable {W V : Deployment → Deployment → Prop} {offers others : List Offer} {d e f : Deployment}

namespace Enrols

lemma mono (h : Enrols W offers d e) (weaker : ∀ {d e}, W d e → V d e) :
    Enrols V offers d e := by
  induction h with
  | rest h => exact .rest (weaker h)
  | leave _ ih => exact .leave ih
  | take before declared _ ih => exact .take (weaker before) declared ih

lemma later (rest : Enrols W others d e) : Enrols W (offers ++ others) d e := by
  induction offers with
  | nil => exact rest
  | cons offer offers ih => exact .leave ih

variable [IsPreorder Deployment W]

lemma after_work (h : W d e) (rest : Enrols W offers e f) : Enrols W offers d f := by
  induction rest with
  | rest h' => exact .rest (IsTrans.trans _ _ _ h h')
  | leave _ ih => exact .leave (ih h)
  | take before declared after _ => exact .take (IsTrans.trans _ _ _ h before) declared after

lemma append (first : Enrols W offers d e) (rest : Enrols W others e f) :
    Enrols W (offers ++ others) d f := by
  induction first with
  | rest h => exact (rest.after_work h).later
  | leave _ ih => exact .leave (ih rest)
  | take before declared _ ih => exact .take before declared (ih rest)

lemma more (first : Enrols W offers d e) : Enrols W (offers ++ others) d e :=
  first.append (.rest (Std.Refl.refl e))

end Enrols

variable {α β : Type} {x : Operation α} {f : α → Operation β}

lemma enrols_of_work (h : Moves W x) : Moves (Enrols W offers) x := h.mono fun _ _ => .rest

variable [IsPreorder Deployment W]

lemma enrols_bind (hx : Moves (Enrols W offers) x) (hf : ∀ a, Moves (Enrols W others) (f a)) :
    Moves (Enrols W (offers ++ others)) (x >>= f) :=
  Moves.bind_of_comp (fun _ _ => Enrols.more) (fun _ _ _ => .append) hx hf

lemma enrols_after_work (hx : Moves W x) (hf : ∀ a, Moves (Enrols W offers) (f a)) :
    Moves (Enrols W offers) (x >>= f) :=
  Moves.bind_of_comp (fun _ _ => .rest) (fun _ _ _ => .after_work) hx hf

lemma enrols_before_work (hx : Moves (Enrols W offers) x) (hf : ∀ a, Moves W (f a)) :
    Moves (Enrols W offers) (x >>= f) := by
  have both : Moves (Enrols W (offers ++ [])) (x >>= f) :=
    enrols_bind hx fun a => enrols_of_work (hf a)
  rwa [List.append_nil] at both

lemma enrols_after_ofExcept {y : Except Fault α}
    (hf : ∀ a, y = .ok a → Moves (Enrols W offers) (f a)) :
    Moves (Enrols W offers) ((ofExcept y : Operation α) >>= f) := by
  cases y with
  | ok a => exact hf a rfl
  | error fault => exact enrols_of_work (Moves.throw fault)

variable (c : Category)

lemma enroll_enrols {x y : Collector} (declared : y.declared = x) :
    Moves (Enrols W [(c, x)]) (enroll c y) :=
  fun _ => .take (Std.Refl.refl _) declared (.rest (Std.Refl.refl _))

lemma discard_enrols {x y : Collector} (declared : y.declared = x) :
    Moves (Enrols W [(c, x)]) (discard (enroll c y)) := by
  have both := enrols_before_work (W := W) (enroll_enrols c declared)
    fun k => Moves.pure (Function.const _ () k)
  rwa [bind_pure_comp] at both

/-- What is done only under an enabled category. -/
lemma enrols_ifEnabled {x : Operation Unit} (h : Moves (Enrols W offers) x) :
    Moves (Enrols W offers) (do if (← Operation.system).isEnabled c then x) := by
  refine enrols_after_work system_moves fun s => ?_
  split
  · exact h
  · exact enrols_of_work (Moves.pure _)

end Rules

section Creating

variable (c : Category) (name external help : String) (labels : List String)

lemma declareName_aside (isCounter : Bool) :
    Moves Deployment.Aside (declareName isCounter name) := by
  rw [declareName]
  split
  · exact change_aside fun _ => rfl
  · exact Moves.pure _

lemma issue_discreet (use : HandleUse) (arity : Nat) (target : Option CollectorId) :
    Moves Deployment.Discreet (issue use arity target) :=
  (ofAction_discreet issueSerial_aside).bind fun _ => Moves.pure _

/-- The offer of an instrument. -/
def instrumentOffer (kind : InstrumentKind) : Offer :=
  (c, .instrument ⟨kind, external, help, labels, ∅⟩)

lemma declared_of_declare {kind : InstrumentKind} {now : Float} {i : Instrument}
    (h : Instrument.declare kind external help labels now = .ok i) :
    (Collector.instrument i).declared = (instrumentOffer c external help labels kind).2 := by
  rw [Instrument.declare] at h
  split at h
  · cases h
  · split at h
    · cases h
    · cases h
      rfl

lemma build_enrols (kind : InstrumentKind) :
    Moves (Enrols Deployment.Discreet [instrumentOffer c external help labels kind])
      (build kind c external help labels) := by
  refine enrols_after_work system_moves fun s => ?_
  split
  · refine enrols_after_work Moves.get fun d => ?_
    refine enrols_after_ofExcept fun i declared => ?_
    exact enrols_before_work (enroll_enrols c (declared_of_declare c external help labels declared))
      fun _ => issue_discreet _ _ _
  · exact enrols_of_work ((ofAction_discreet (report_aside _)).bind fun _ => issue_discreet _ _ _)

lemma buildKept_enrols (kind : InstrumentKind) :
    Moves (Enrols Deployment.Aside [instrumentOffer c external help labels kind])
      (buildKept kind c external help labels) := by
  refine enrols_before_work ((build_enrols c external help labels kind).mono fun _ _ h =>
    h.mono (·.aside)) fun h => ?_
  refine (change_aside fun s => ?_).bind fun _ => Moves.pure h
  cases kind <;> rfl

lemma labelled_enrols (kind : InstrumentKind) :
    Moves (Enrols Deployment.Aside [instrumentOffer c (c.external name) help labels kind])
      (labelled kind c name help labels) := by
  refine enrols_after_work (declareName_aside name _) fun _ => ?_
  refine enrols_after_work system_moves fun s => ?_
  split
  · exact enrols_of_work (Moves.pure _)
  · exact buildKept_enrols c (c.external name) help labels kind

lemma single_enrols (kind : InstrumentKind) :
    Moves (Enrols Deployment.Aside [instrumentOffer c (c.external name) help [] kind])
      (single kind c name help) :=
  enrols_before_work (labelled_enrols c name help [] kind) fun h =>
    (ofAction_discreet (Handle.labels_aside h _ _)).mono fun _ _ => (·.aside)

lemma gauge_enrols (supplier : SupplierId) :
    Moves (Enrols Deployment.Discreet [(c, .gauge (c.external name) help supplier)])
      (gauge c name help supplier) :=
  enrols_ifEnabled c (discard_enrols c rfl)

lemma summary_enrols (supplier : SupplierId) :
    Moves (Enrols Deployment.Discreet [(c, .summary (c.external name) help supplier)])
      (summary c name help supplier) :=
  enrols_ifEnabled c (discard_enrols c rfl)

lemma provide_enrols (kind : SuppliedKind) :
    Moves (Enrols Deployment.Discreet [(c, .supplied ⟨kind, c.external name, help, labels, ∅⟩)])
      (provide kind c name help labels) := by
  refine enrols_after_work system_moves fun s => ?_
  split
  · exact enrols_before_work (enroll_enrols c rfl) fun _ => issue_discreet _ _ _
  · exact enrols_of_work (issue_discreet _ _ _)

lemma supplied_enrols (kind : SuppliedKind) :
    Moves (Enrols Deployment.Aside [(c, .supplied ⟨kind, c.external name, help, labels, ∅⟩)])
      (supplied kind c name help labels) :=
  enrols_after_work (declareName_aside name _) fun _ =>
    (provide_enrols c name help labels kind).mono fun _ _ h => h.mono (·.aside)

lemma attachTo_aside (k : CollectorId) (cache : CacheId) :
    Moves Site.Aside (attachTo k name cache) := by
  refine Moves.modify fun s => ?_
  split
  · next stem attached h => exact withCollector_aside (by rw [h]; rfl)
  · exact Std.Refl.refl s

lemma sharedCollector_enrols :
    Moves (Enrols Deployment.Discreet [(c, .caches c.stem ∅)]) (sharedCollector c) := by
  refine enrols_after_work system_moves fun s => ?_
  split
  · exact enrols_of_work (Moves.pure _)
  · refine enrols_before_work (enroll_enrols c rfl) fun k => ?_
    refine Moves.bind ?_ fun _ => Moves.pure k
    exact change_discreet (fun _ => rfl) fun _ => rfl

lemma attachCache_enrols (cache : CacheId) :
    Moves (Enrols Deployment.Discreet [(c, .caches c.stem ∅)]) (attachCache c name cache) := by
  refine enrols_after_work system_moves fun s => ?_
  split
  · split
    · exact enrols_of_work (Moves.throw _)
    · refine enrols_before_work (sharedCollector_enrols c) fun k => ?_
      refine Moves.bind ?_ fun _ => ofAction_discreet (attachTo_aside name k cache)
      exact change_discreet (fun _ => rfl) fun _ => rfl
  · exact enrols_of_work (Moves.pure _)

lemma registerBuiltins_enrols (bs : List Collector) :
    Moves (Enrols Deployment.Discreet (bs.map fun b => (c, b.declared)))
      (registerBuiltins c bs) := by
  apply enrols_ifEnabled
  induction bs with
  | nil => exact enrols_of_work (Moves.pure _)
  | cons b bs ih => exact enrols_bind (discard_enrols c rfl) fun _ => ih

/-- The offers of the built-in collectors. -/
def builtinOffers : List Offer :=
  [(.process, Builtin.process), (.runtime, Builtin.platform), (.runtime, Builtin.garbage)]

lemma init_enrols : Moves (Enrols Deployment.Discreet builtinOffers) init :=
  enrols_bind (registerBuiltins_enrols .process [Builtin.process])
    fun _ => registerBuiltins_enrols .runtime [Builtin.platform, Builtin.garbage]

end Creating

end System

end Metering
