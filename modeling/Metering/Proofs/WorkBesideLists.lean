import Metering.Proofs.RegistrationInvariants
import Metering.System.Stream
import Metering.Timing

/-!
# Work beside the lists

Recording, timing and handing out handles change nothing but what instruments and supplied metrics
have gathered (`Collector.Gathers`), so they move along every relation that this does. Together with
reading they have no part in what is listed or held: they lead to a site that is `Aside` of the one
before, on which the collectors are what was declared.
-/

namespace Metering

namespace Site

/-- No roster or registry had a part in what happened, and what was declared still is. -/
structure Aside (s t : Site) : Prop where
  registries : t.registries = s.registries
  suppliers : t.suppliers = s.suppliers
  grows : s.Grows t

instance : IsPreorder Site Aside where
  refl _ := ⟨rfl, rfl, Std.Refl.refl _⟩
  trans _ _ _ hst htu :=
    ⟨htu.registries.trans hst.registries, htu.suppliers.trans hst.suppliers,
      IsTrans.trans _ _ _ hst.grows htu.grows⟩

lemma Aside.calm {s t : Site} (h : s.Aside t) (calm : s.Calm) : t.Calm := by
  rw [Calm, h.suppliers]
  exact calm

lemma Aside.registry {s t : Site} (h : s.Aside t) (r : RegistryId) :
    t.registry r = s.registry r := by
  rw [Site.registry, Site.registry, h.registries]

lemma OnlyActivity.aside {s t : Site} (h : OnlyActivity s t) : s.Aside t := by
  rw [h]
  exact ⟨rfl, rfl, Nat.le_refl _, fun _ _ => rfl⟩

/-- A collector may go on gathering as long as it stays what was declared. -/
lemma withCollector_aside {s : Site} {k : CollectorId} {x : Collector}
    (h : x.declared = (s.collector k).declared) : s.Aside (s.withCollector k x) := by
  refine ⟨rfl, rfl, by simp [withCollector], ?_⟩
  intro l hl
  by_cases same : l = k
  · subst same
    rw [collector_withCollector hl, if_pos rfl, h]
  · by_cases room : k.index < s.collectors.length
    · rw [collector_withCollector room, if_neg same]
    · have outside : s.withCollector k x = s := by
        rw [withCollector, List.set_eq_of_length_le (Nat.le_of_not_lt room)]
      rw [outside]

lemma report_aside (e : Event) : Moves Aside (report e) :=
  Moves.modify fun _ => ⟨rfl, rfl, Nat.le_refl _, fun _ _ => rfl⟩

lemma issueSerial_aside : Moves Aside issueSerial :=
  fun _ => ⟨rfl, rfl, Nat.le_refl _, fun _ _ => rfl⟩

/-- The site with one more collector. -/
def withAdded (s : Site) (x : Collector) : Site := { s with collectors := s.collectors ++ [x] }

/-- The place that the next collector will have. -/
def nextPlace (s : Site) : CollectorId := ⟨s.collectors.length⟩

lemma collector_withAdded (s : Site) (x : Collector) :
    (s.withAdded x).collector s.nextPlace = x := by
  simp [collector, withAdded, nextPlace]

lemma collector_withAdded_of_lt {s : Site} {x : Collector} {k : CollectorId}
    (placed : k.index < s.collectors.length) : (s.withAdded x).collector k = s.collector k := by
  simp only [collector, withAdded, List.getElem?_append_left placed]

lemma withAdded_aside (s : Site) (x : Collector) : s.Aside (s.withAdded x) := by
  refine ⟨rfl, rfl, by simp [withAdded], ?_⟩
  intro k hk
  rw [collector_withAdded_of_lt hk]

lemma collectAll_moves (ks : List CollectorId) : Moves OnlyActivity (collectAll ks) := by
  induction ks with
  | nil => exact Moves.pure _
  | cons k ks ih => exact (collect_moves k).bind fun _ => ih.bind fun _ => Moves.pure _

lemma gather_moves (r : RegistryId) : Moves OnlyActivity (gather r) :=
  Moves.get.bind fun _ => collectAll_moves _

lemma firstValue_moves (name : String) (labels : Labels) (ks : List CollectorId) :
    Moves OnlyActivity (firstValue name labels ks) := by
  induction ks with
  | nil => exact Moves.pure _
  | cons k ks ih =>
    refine (collect_moves k).bind fun _ => ?_
    dsimp only
    split
    · exact Moves.pure _
    · exact ih

lemma sampleValue_moves (r : RegistryId) (name : String) (labels : Labels) :
    Moves OnlyActivity (sampleValue r name labels) :=
  Moves.get.bind fun _ => firstValue_moves name labels _

end Site

open Site

/-- The second collector is the first one, an instrument or a supplied metric, after it has gone on
gathering. -/
structure Collector.Gathers (x y : Collector) : Prop where
  declared : y.declared = x.declared
  gathering : ∀ stem attached, x ≠ .caches stem attached

lemma Site.aside_of_gathers {s : Site} {k : CollectorId} {x : Collector}
    (h : (s.collector k).Gathers x) : s.Aside (s.withCollector k x) :=
  withCollector_aside h.declared

section Gathering

variable {R : Site → Site → Prop} [IsPreorder Site R]

lemma Handle.checkArity_moves (h : Handle) (values : List String) :
    Moves R (h.checkArity values) := by
  rw [checkArity]
  split
  · exact Moves.pure _
  · exact Moves.throw _

lemma Timing.start_moves (c : Child) : Moves R (Timing.start c) :=
  Moves.get.bind fun _ => Moves.pure _

variable (gathered : ∀ s k x, (s.collector k).Gathers x → R s (s.withCollector k x))

include gathered

namespace Handle

lemma onInstrument_moves (k : CollectorId) (f : Instrument → Instrument)
    (keeps : ∀ i, (Collector.instrument (f i)).declared = (Collector.instrument i).declared) :
    Moves R (onInstrument k f) := by
  refine Moves.modify fun s => ?_
  split
  · next i hi =>
    refine gathered s k _ ?_
    rw [hi]
    exact ⟨keeps i, fun _ _ h => by cases h⟩
  · exact Std.Refl.refl s

lemma touch_moves (k : CollectorId) (values : List String) (now : Float) :
    Moves R (onInstrument k fun i => i.touch values now) := by
  refine onInstrument_moves gathered k _ fun i => ?_
  rw [Instrument.touch]
  split <;> rfl

lemma labels_moves (h : Handle) (kind : ChildKind) (values : List String) :
    Moves R (h.labels kind values) := by
  refine (checkArity_moves h values).bind fun _ => ?_
  split
  · exact Moves.pure _
  · exact Moves.get.bind fun _ => (touch_moves gathered _ values _).bind fun _ => Moves.pure _

lemma addSupplied_moves (k : CollectorId) (values : List String) (supplier : SupplierId) :
    Moves R (addSupplied k values supplier) := by
  intro s
  rw [addSupplied, bind_get]
  cases hm : s.collector k with
  | supplied m =>
    by_cases taken : values ∈ m.suppliers
    · simp only [Supplied.add, if_pos taken]
      exact Std.Refl.refl s
    · simp only [Supplied.add, if_neg taken]
      refine gathered s k _ ?_
      rw [hm]
      exact ⟨rfl, fun _ _ h => by cases h⟩
  | _ => exact Std.Refl.refl s

lemma supply_moves (h : Handle) (supplier : SupplierId) (values : List String) :
    Moves R (h.supply supplier values) := by
  refine (checkArity_moves h values).bind fun _ => ?_
  split
  · exact Moves.pure _
  · exact addSupplied_moves gathered _ values supplier

end Handle

namespace Child

lemma record_moves (c : Child) (x : Float) : Moves R (c.record x) := by
  rw [record]
  split
  · exact Moves.pure _
  · exact Handle.onInstrument_moves gathered _ _ fun _ => rfl

lemma increment_moves (c : Child) (amount : Float) : Moves R (c.increment amount) := by
  rw [increment]
  split
  · exact Moves.pure _
  · split
    · exact Moves.throw _
    · exact record_moves gathered c amount

end Child

lemma Timing.stop_moves (t : Timing) : Moves R t.stop := by
  rw [Timing.stop]
  split
  · exact Moves.pure _
  · exact Moves.get.bind fun _ => (Child.record_moves gathered t.child _).bind fun _ => Moves.pure _

end Gathering

section Aside

lemma Handle.labels_aside (h : Handle) (kind : ChildKind) (values : List String) :
    Moves Aside (h.labels kind values) := h.labels_moves (fun _ _ _ => aside_of_gathers) kind values

lemma Handle.supply_aside (h : Handle) (supplier : SupplierId) (values : List String) :
    Moves Aside (h.supply supplier values) :=
  h.supply_moves (fun _ _ _ => aside_of_gathers) supplier values

lemma Child.record_aside (c : Child) (x : Float) : Moves Aside (c.record x) :=
  c.record_moves (fun _ _ _ => aside_of_gathers) x

lemma Child.increment_aside (c : Child) (amount : Float) : Moves Aside (c.increment amount) :=
  c.increment_moves (fun _ _ _ => aside_of_gathers) amount

lemma Timing.start_aside (c : Child) : Moves Aside (Timing.start c) := start_moves c

lemma Timing.stop_aside (t : Timing) : Moves Aside t.stop :=
  t.stop_moves fun _ _ _ => aside_of_gathers

end Aside

namespace Stream

lemma withinCategory_moves (ks : List CollectorId) : Moves OnlyActivity (withinCategory ks) := by
  induction ks with
  | nil => exact Moves.pure _
  | cons k ks ih =>
    refine (collect_moves k).bind fun _ => ?_
    split
    · exact ih
    · exact Moves.pure _

lemma acrossCategories_moves (r : Roster) (cs : List Category) :
    Moves OnlyActivity (acrossCategories r cs) := by
  induction cs with
  | nil => exact Moves.pure _
  | cons c cs ih =>
    refine (withinCategory_moves _).bind fun _ => ?_
    split
    · exact Moves.pure _
    · exact ih

lemma locate_moves (r : Roster) (stream : Stream) : Moves OnlyActivity (stream.locate r) := by
  cases stream with
  | unopened scope => cases scope <;> exact acrossCategories_moves r _
  | finished => exact Moves.pure _
  | reading p =>
    rw [locate]
    split
    · exact Moves.pure _
    · refine (withinCategory_moves _).bind fun _ => ?_
      split
      · exact Moves.pure _
      · exact acrossCategories_moves r _

lemma next_moves (s : System) (stream : Stream) : Moves OnlyActivity (stream.next s) := by
  refine (locate_moves _ stream).bind fun _ => ?_
  split <;> exact Moves.pure _

lemma pull_moves (s : System) (n : Nat) (stream : Stream) :
    Moves OnlyActivity (pull s n stream) := by
  induction n generalizing stream with
  | zero => exact Moves.pure _
  | succ n ih =>
    refine (next_moves s stream).bind fun _ => ?_
    split
    · exact Moves.pure _
    · exact (ih _).bind fun _ => Moves.pure _

end Stream

end Metering
