import Metering.Proofs.ObservationAddresses

/-!
# Well labelled metrics

What a collector with different label names gives is told apart by its label values, as long as each
of its combinations has a value for every label (`Site.collect_addressed`). Combinations come in
through handles only, and a handle that `Fits` its metric lets no other in.
-/

namespace Metering

open Operation Metering.System

namespace Collector

/-- No label is named twice, or as the one that the metric needs for itself. -/
def WellLabelled : Collector → Prop
  | .instrument i => i.labels.Nodup ∧ ∀ label ∈ i.kind.ownLabel?, label ∉ i.labels
  | .supplied m => m.labels.Nodup
  | .fixed families => ∀ f ∈ families, f.Addressed
  | _ => True

/-- Every combination has a value for each label. -/
def Complete : Collector → Prop
  | .instrument i => ∀ values ∈ i.series, values.length = i.labels.length
  | .supplied m => ∀ values ∈ m.suppliers, values.length = m.labels.length
  | _ => True

/-- How many labels the metric has. -/
def width : Collector → Nat
  | .instrument i => i.labels.length
  | .supplied m => m.labels.length
  | _ => 0

/-- The families stand under the stem of the category, and their samples can be told apart. -/
structure Presentable (c : Category) (x : Collector) : Prop where
  under : ∀ family ∈ x.familyNames, ∃ name, family = c.external name
  labelled : x.WellLabelled
  complete : x.Complete

lemma width_declared (x : Collector) : x.declared.width = x.width := by cases x <;> rfl

lemma wellLabelled_declared (x : Collector) : x.declared.WellLabelled ↔ x.WellLabelled := by
  cases x <;> rfl

/-- A collector that has gone on gathering complete combinations is as presentable as before. -/
lemma Presentable.goes_on {c : Category} {x y : Collector} (h : x.Presentable c)
    (declared : y.declared = x.declared) (complete : x.Complete → y.Complete) :
    y.Presentable c where
  under := by
    rw [← familyNames_declared, declared, familyNames_declared]
    exact h.under
  labelled := by
    rw [← wellLabelled_declared, declared, wellLabelled_declared]
    exact h.labelled
  complete := complete h.complete

end Collector

namespace Site

variable {s t : Site}

/-- Whenever the supplier tells a summary, the texts of its quantiles are different. -/
def TellsApart (s : Site) (j : SupplierId) : Prop :=
  ∀ t, s.suppliers[j.index]? = some t → ∀ n d, t.answer n = .digest d → d.Distinct

lemma askDigest_ok {j : SupplierId} {name : String} {samples : List Sample}
    (asked : askDigest j name s = .ok samples t) :
    samples = [] ∨ ∃ d, s.nextAnswer j = .digest d ∧ samples = Collector.digestSamples name d := by
  obtain ⟨answer, u, ask, ends⟩ := ok_of_bind_ok asked
  have told : answer = s.nextAnswer j := by
    rw [Site.ask, bind_get] at ask
    obtain ⟨_, v, -, gave⟩ := ok_of_bind_ok ask
    cases next : s.nextAnswer j with
    | raises alarm message =>
      rw [next] at gave
      cases gave
    | value x =>
      rw [next] at gave
      cases gave
      rfl
    | digest d =>
      rw [next] at gave
      cases gave
      rfl
  subst told
  cases next : s.nextAnswer j with
  | digest d =>
    rw [next] at ends
    cases ends
    exact Or.inr ⟨d, rfl, rfl⟩
  | _ =>
    rw [next] at ends
    cases ends
    exact Or.inl rfl

lemma TellsApart.distinct {j : SupplierId} {d : Digest} (apart : s.TellsApart j)
    (next : s.nextAnswer j = .digest d) : d.Distinct := by
  rw [nextAnswer] at next
  cases found : s.suppliers[j.index]? with
  | none =>
    rw [found] at next
    cases next
  | some t =>
    rw [found] at next
    exact apart t found _ d next

/-- What a presentable collector gives is told apart by its label values. -/
lemma familiesOf_addressed {x : Collector} {c : Category} {families : List Family}
    (h : x.Presentable c) (apart : ∀ name help j, x = .summary name help j → s.TellsApart j)
    (gave : familiesOf x s = .ok families t) : ∀ f ∈ families, f.Addressed := by
  cases x with
  | instrument i =>
    cases gave
    exact List.forall_mem_singleton.mpr
      (instrument_addressed h.labelled.1 h.labelled.2 h.complete)
  | gauge name help j =>
    obtain ⟨x, u, -, gave⟩ := ok_of_bind_ok gave
    obtain ⟨f, v, hf, gave⟩ := ok_of_bind_ok gave
    obtain ⟨rfl, -⟩ := declare_ok (ofExcept_ok hf).1
    cases gave
    exact List.forall_mem_singleton.mpr (gauge_addressed name help x)
  | supplied m =>
    obtain ⟨f, u, hf, gave⟩ := ok_of_bind_ok gave
    obtain ⟨samples, v, asked, gave⟩ := ok_of_bind_ok gave
    obtain ⟨rfl, -⟩ := declare_ok (ofExcept_ok hf).1
    cases gave
    exact List.forall_mem_singleton.mpr
      (supplied_addressed (askAll_ok asked) h.labelled h.complete)
  | summary name help j =>
    obtain ⟨samples, u, asked, gave⟩ := ok_of_bind_ok gave
    obtain ⟨f, v, hf, gave⟩ := ok_of_bind_ok gave
    obtain ⟨rfl, -⟩ := declare_ok (ofExcept_ok hf).1
    cases gave
    rcases askDigest_ok asked with rfl | ⟨d, next, rfl⟩
    · exact List.forall_mem_singleton.mpr ⟨List.nodup_nil, Or.inl rfl⟩
    · exact List.forall_mem_singleton.mpr
        (summary_addressed ((apart name help j rfl).distinct next))
  | caches stem attached =>
    obtain ⟨u, inspected, -⟩ := inspectAll_steady (s := s) attached.entries
    rw [familiesOf, bind_of_ok inspected] at gave
    cases gave
    refine caches_addressed ?_
    rw [List.map_map]
    exact attached.keys_nodup
  | fixed families =>
    cases gave
    exact h.labelled

lemma collect_addressed {k : CollectorId} {c : Category} {families : List Family}
    (h : (s.collector k).Presentable c)
    (apart : ∀ name help j, s.collector k = .summary name help j → s.TellsApart j)
    (gave : collect k s = .ok families t) : ∀ f ∈ families, f.Addressed := by
  refine familiesOf_addressed (s := { s with activity := s.activity ++ [.collected k] }) h ?_ gave
  exact apart

/-- What was declared still is, and combinations that were complete still are. -/
structure Fills (s t : Site) : Prop where
  grows : s.Grows t
  complete : ∀ k, k.index < s.collectors.length → (s.collector k).Complete →
    (t.collector k).Complete

instance : IsPreorder Site Fills where
  refl _ := ⟨Std.Refl.refl _, fun _ _ h => h⟩
  trans s t u hst htu := by
    refine ⟨IsTrans.trans _ _ _ hst.grows htu.grows, fun k placed h => ?_⟩
    exact htu.complete k (Nat.lt_of_lt_of_le placed hst.grows.room) (hst.complete k placed h)

/-- A site with the same collectors. -/
lemma fills_of_same (same : t.collectors = s.collectors) : s.Fills t := by
  have collector : ∀ k, t.collector k = s.collector k := by
    intro k
    rw [Site.collector, Site.collector, same]
  refine ⟨⟨Nat.le_of_eq (by rw [same]), fun k _ => by rw [collector]⟩, fun k _ h => ?_⟩
  rwa [collector]

lemma OnlyActivity.fills (h : OnlyActivity s t) : s.Fills t := by
  refine fills_of_same ?_
  rw [h]

lemma withCollector_fills {k : CollectorId} {x : Collector}
    (declared : x.declared = (s.collector k).declared)
    (complete : (s.collector k).Complete → x.Complete) : s.Fills (s.withCollector k x) := by
  refine ⟨(withCollector_aside declared).grows, fun l placed h => ?_⟩
  by_cases same : l = k
  · subst same
    rw [collector_withCollector placed, if_pos rfl]
    exact complete h
  · by_cases room : k.index < s.collectors.length
    · rwa [collector_withCollector room, if_neg same]
    · rwa [withCollector, List.set_eq_of_length_le (Nat.le_of_not_lt room)]

end Site

namespace Handle

open Site

/-- The handle insists on as many label values as its metric has labels. -/
def Fits (h : Handle) (s : Site) : Prop :=
  ∀ k ∈ h.target, k.index < s.collectors.length ∧ (s.collector k).width = h.arity

variable {h : Handle} {s t : Site}

lemma Fits.grows (fits : h.Fits s) (grows : s.Grows t) : h.Fits t := by
  intro k target
  obtain ⟨placed, width⟩ := fits k target
  refine ⟨Nat.lt_of_lt_of_le placed grows.room, ?_⟩
  rw [← Collector.width_declared, grows.declared k placed, Collector.width_declared, width]

/-- With one more complete combination, all are complete. -/
lemma complete_put {ν : Type} {m : Index (List String) ν} {n : Nat} {values : List String} (v : ν)
    (complete : ∀ others ∈ m, others.length = n) (right : values.length = n) :
    ∀ others ∈ m.put values v, others.length = n := by
  intro others member
  rcases Index.mem_put.mp member with old | rfl
  · exact complete others old
  · exact right

lemma checkArity_cases (h : Handle) (values : List String) (s : Site) :
    (values.length = h.arity ∧ h.checkArity values s = .ok () s)
      ∨ values.length ≠ h.arity
        ∧ h.checkArity values s = .error (.arity h.arity values.length) s := by
  by_cases right : values.length = h.arity
  · exact Or.inl ⟨right, by rw [checkArity, if_pos right]; rfl⟩
  · exact Or.inr ⟨right, by rw [checkArity, if_neg right]; rfl⟩

/-- Handing a supplier to a handle is refused without a trace, adds it to a supplied metric, or does
nothing because there is none. -/
lemma supply_cases (h : Handle) (i : SupplierId) (values : List String) (s : Site) :
    (values.length ≠ h.arity
        ∧ h.supply i values s = .error (.arity h.arity values.length) s)
      ∨ values.length = h.arity
        ∧ ((∃ k m, h.target = some k ∧ s.collector k = .supplied m
            ∧ (values ∈ m.suppliers
                ∧ h.supply i values s = .error (.combinationTaken m.name values) s
              ∨ values ∉ m.suppliers ∧ h.supply i values s = .ok () (s.withCollector k
                (.supplied { m with suppliers := m.suppliers.put values i }))))
          ∨ (∀ k m, h.target = some k → s.collector k ≠ .supplied m)
            ∧ h.supply i values s = .ok () s) := by
  rcases h.checkArity_cases values s with ⟨right, checked⟩ | ⟨wrong, refused⟩
  · refine Or.inr ⟨right, ?_⟩
    rw [supply, bind_of_ok checked]
    cases h.target with
    | none => exact Or.inr ⟨nofun, rfl⟩
    | some k =>
      simp only [addSupplied, bind_get]
      cases found : s.collector k with
      | supplied m =>
        refine Or.inl ⟨k, m, rfl, found, ?_⟩
        by_cases taken : values ∈ m.suppliers
        · simp only [Supplied.add, if_pos taken]
          exact Or.inl ⟨taken, rfl⟩
        · simp only [Supplied.add, if_neg taken]
          exact Or.inr ⟨taken, rfl⟩
      | _ =>
        refine Or.inr ⟨fun j m target => ?_, rfl⟩
        cases target
        simp [found]
  · exact Or.inl ⟨wrong, bind_of_error refused _⟩

lemma onInstrument_fills (k : CollectorId) (f : Instrument → Instrument)
    (declared : ∀ i, (Collector.instrument (f i)).declared = (Collector.instrument i).declared)
    (complete : ∀ i, s.collector k = .instrument i → (Collector.instrument i).Complete →
      (Collector.instrument (f i)).Complete) :
    s.Fills (endOf (onInstrument k f s)) := by
  rw [onInstrument, modify_ok, endOf]
  split
  · next i hi => exact withCollector_fills (by rw [hi, declared]) (by rw [hi]; exact complete i hi)
  · exact Std.Refl.refl s

lemma labels_fills (fits : h.Fits s) (kind : ChildKind) (values : List String) :
    s.Fills (endOf (h.labels kind values s)) := by
  rcases h.checkArity_cases values s with ⟨right, checked⟩ | ⟨-, checked⟩
  · rw [labels, bind_of_ok checked]
    cases target : h.target with
    | none => exact Std.Refl.refl s
    | some k =>
      have width := (fits k target).2
      change s.Fills (endOf (onInstrument k (fun i => i.touch values s.clock) s))
      refine onInstrument_fills k _ (fun i => ?_) fun i hi complete => ?_
      · rw [Instrument.touch]
        split <;> rfl
      · rw [hi, Collector.width] at width
        rw [Instrument.touch]
        split
        · exact complete
        · exact complete_put _ complete (right.trans width.symm)
  · rw [labels, bind_of_error checked]
    exact Std.Refl.refl s

lemma supply_fills (fits : h.Fits s) (supplier : SupplierId) (values : List String) :
    s.Fills (endOf (h.supply supplier values s)) := by
  rcases h.supply_cases supplier values s with
    ⟨-, run⟩ | ⟨right, ⟨k, m, target, found, ⟨-, run⟩ | ⟨-, run⟩⟩ | ⟨-, run⟩⟩
  · rw [run]
    exact Std.Refl.refl s
  · rw [run]
    exact Std.Refl.refl s
  · rw [run]
    have width := (fits k target).2
    rw [found, Collector.width] at width
    refine withCollector_fills (by rw [found]; rfl) fun complete => ?_
    rw [found] at complete
    exact complete_put _ complete (right.trans width.symm)
  · rw [run]
    exact Std.Refl.refl s

end Handle

namespace Child

open Site

lemma record_fills (c : Child) (x : Float) : Moves Fills (c.record x) := by
  rw [record]
  split
  · exact Moves.pure _
  · refine fun s => Handle.onInstrument_fills _ _ (fun _ => rfl) ?_
    intro i _ complete values member
    rw [Index.mem_def, Instrument.record, Index.keys_adjust] at member
    exact complete values member

lemma increment_fills (c : Child) (amount : Float) : Moves Fills (c.increment amount) := by
  rw [increment]
  split
  · exact Moves.pure _
  · split
    · exact Moves.throw _
    · exact record_fills c amount

end Child

lemma Timing.stop_fills (t : Timing) : Moves Site.Fills t.stop := by
  rw [Timing.stop]
  split
  · exact Moves.pure _
  · exact Moves.get.bind fun _ => (Child.record_fills t.child _).bind fun _ => Moves.pure _

end Metering
