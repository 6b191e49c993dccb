import Metering.Proofs.Moves
import Metering.Site.Holding

/-!
# What collecting shows

The types and names of the families of a collector are fixed by its declaration (`outline`), and
collecting changes nothing but the activity of the site. While no supplier raises, only an empty
name can make it fail.
-/

namespace Metering

namespace Collector

/-- The collector as it was declared, without what it has gathered since. -/
def declared : Collector → Collector
  | .instrument i => .instrument { i with series := ∅ }
  | .supplied m => .supplied { m with suppliers := ∅ }
  | .caches stem _ => .caches stem ∅
  | x => x

/-- The types and names of the families that a collector gives whenever it gives any. -/
def outline : Collector → List (FamilyType × String)
  | .instrument i => [(i.kind.familyType, i.familyName)]
  | .gauge name _ _ => [(.gauge, name)]
  | .supplied m => [(m.kind.familyType, m.familyName)]
  | .summary name _ _ => [(.summary, name)]
  | .caches stem _ =>
    [(.counter, stem ++ "cache_hit"), (.counter, stem ++ "cache_miss"),
     (.counter, stem ++ "cache_requests"), (.gauge, stem ++ "cache_size"),
     (.gauge, stem ++ "cache_max_size")]
  | .fixed families => families.map fun f => (f.type, f.name)

/-- The names that a collector claims in a registry. -/
def claims (describes : Bool) : Collector → List String
  | .instrument i => i.family.claims
  | x => if describes then x.outline.flatMap fun e => Family.claimsOf e.1 e.2 else []

/-- Collecting meets no empty name. -/
def Nameable : Collector → Prop
  | .gauge name _ _ | .summary name _ _ => name ≠ ""
  | .supplied m => m.familyName ≠ ""
  | _ => True

lemma familyNames_eq (x : Collector) : x.familyNames = x.outline.map Prod.snd := by
  cases x with
  | fixed families => simp [familyNames, outline, Function.comp_def]
  | _ => rfl

lemma outline_declared (x : Collector) : x.declared.outline = x.outline := by cases x <;> rfl

lemma familyNames_declared (x : Collector) : x.declared.familyNames = x.familyNames := by
  cases x <;> rfl

lemma claims_declared (x : Collector) (describes : Bool) :
    x.declared.claims describes = x.claims describes := by cases x <;> rfl

lemma nameable_declared (x : Collector) : x.declared.Nameable ↔ x.Nameable := by cases x <;> rfl

lemma instrument_of_declared {x : Collector} {i : Instrument} (h : x.declared = .instrument i) :
    ∃ j, x = .instrument j := by
  cases x with
  | instrument j => exact ⟨j, rfl⟩
  | _ => cases h

lemma outline_congr {x y : Collector} (h : x.declared = y.declared) : x.outline = y.outline := by
  rw [← outline_declared x, h, outline_declared y]

lemma claims_congr {x y : Collector} (h : x.declared = y.declared) (describes : Bool) :
    x.claims describes = y.claims describes := by
  rw [← claims_declared x, h, claims_declared y]

lemma nameable_congr {x y : Collector} (h : x.declared = y.declared) :
    x.Nameable ↔ y.Nameable := by
  rw [← nameable_declared x, h, nameable_declared y]

end Collector

/-- The collector that is collected. -/
def Activity.collected? : Activity → Option CollectorId
  | .collected k => some k
  | _ => none

namespace Site

/-- The second site differs from the first at most in its activity. -/
def OnlyActivity (s t : Site) : Prop := t = { s with activity := t.activity }

instance : IsPreorder Site OnlyActivity where
  refl _ := rfl
  trans s t u hst htu := by
    rw [OnlyActivity] at hst htu ⊢
    rw [htu, hst]

/-- The site once the given activity has been noted. -/
def noting (s : Site) (noted : List Activity) : Site :=
  { s with activity := s.activity ++ noted }

/-- The second site is the first with more noted. -/
def Notes (s t : Site) : Prop := ∃ noted, t = s.noting noted

instance : IsPreorder Site Notes where
  refl s := ⟨[], by rw [noting, List.append_nil]⟩
  trans s t u := by
    rintro ⟨first, rfl⟩ ⟨second, rfl⟩
    exact ⟨first ++ second, by simp only [noting, List.append_assoc]⟩

lemma OnlyActivity.collector {s t : Site} (h : OnlyActivity s t) (k : CollectorId) :
    t.collector k = s.collector k := by
  rw [h]
  rfl

lemma OnlyActivity.suppliers {s t : Site} (h : OnlyActivity s t) : t.suppliers = s.suppliers := by
  rw [h]

lemma Notes.onlyActivity {s t : Site} (h : s.Notes t) : s.OnlyActivity t := by
  obtain ⟨noted, rfl⟩ := h
  rfl

lemma Notes.collector {s t : Site} (h : s.Notes t) (k : CollectorId) :
    t.collector k = s.collector k := h.onlyActivity.collector k

lemma Notes.activity {s t : Site} (h : s.Notes t) : s.activity <+: t.activity := by
  obtain ⟨noted, rfl⟩ := h
  exact List.prefix_append _ _

lemma note_moves (a : Activity) : Moves OnlyActivity (note a) := Moves.modify fun _ => rfl

section Noting

variable {R : Site → Site → Prop} [IsPreorder Site R]
  (noted : ∀ a : Activity, a.collected? = none → Moves R (note a))

include noted

lemma ask_moves (i : SupplierId) : Moves R (ask i) := by
  refine Moves.get.bind fun s => (noted (.asked i) rfl).bind fun _ => ?_
  split
  · exact Moves.throw _
  · exact Moves.pure _

lemma askValue_moves (i : SupplierId) : Moves R (askValue i) := by
  refine (ask_moves noted i).bind fun a => ?_
  split <;> exact Moves.pure _

lemma askDigest_moves (i : SupplierId) (name : String) : Moves R (askDigest i name) := by
  refine (ask_moves noted i).bind fun a => ?_
  split <;> exact Moves.pure _

lemma inspect_moves (i : CacheId) : Moves R (inspect i) :=
  (noted (.inspected i) rfl).bind fun _ => Moves.get.bind fun _ => Moves.pure _

lemma askAll_moves (m : Supplied) (entries : List (List String × SupplierId)) :
    Moves R (askAll m entries) := by
  induction entries with
  | nil => exact Moves.pure _
  | cons e entries ih =>
    exact (askValue_moves noted e.2).bind fun _ => ih.bind fun _ => Moves.pure _

lemma inspectAll_moves (entries : List (String × CacheId)) : Moves R (inspectAll entries) := by
  induction entries with
  | nil => exact Moves.pure _
  | cons e entries ih =>
    exact (inspect_moves noted e.2).bind fun _ => ih.bind fun _ => Moves.pure _

/-- A collector that makes its families asks suppliers and looks into caches, and that is all. -/
lemma familiesOf_moves (x : Collector) : Moves R (familiesOf x) := by
  cases x with
  | instrument i => exact Moves.pure _
  | gauge name help k =>
    exact (askValue_moves noted k).bind fun _ => (Moves.ofExcept _).bind fun _ => Moves.pure _
  | supplied m =>
    exact (Moves.ofExcept _).bind fun _ => (askAll_moves noted m _).bind fun _ => Moves.pure _
  | summary name help k =>
    exact (askDigest_moves noted k name).bind fun _ =>
      (Moves.ofExcept _).bind fun _ => Moves.pure _
  | caches stem attached => exact (inspectAll_moves noted _).bind fun _ => Moves.pure _
  | fixed families => exact Moves.pure _

end Noting

lemma collect_moves (k : CollectorId) : Moves OnlyActivity (collect k) :=
  (note_moves _).bind fun _ => Moves.get.bind fun _ => familiesOf_moves (fun a _ => note_moves a) _

lemma collect_notes (k : CollectorId) : Moves Notes (collect k) := by
  have noted : ∀ a, Moves Notes (note a) := fun a => Moves.modify fun _ => ⟨[a], rfl⟩
  exact (noted _).bind fun _ => Moves.get.bind fun _ => familiesOf_moves (fun a _ => noted a) _

lemma familyNames_moves (k : CollectorId) : Moves OnlyActivity (familyNames k) :=
  (collect_moves k).bind fun _ => Moves.pure _

lemma declare_ok {type : FamilyType} {name help : String} {samples : List Sample} {f : Family}
    (h : Family.declare type name help samples = .ok f) :
    f = ⟨name, type, help, samples⟩ ∧ name ≠ "" := by
  rw [Family.declare] at h
  split at h
  · cases h
  · next hname =>
    cases h
    exact ⟨rfl, hname⟩

lemma declare_error {type : FamilyType} {name help : String} {samples : List Sample}
    {fault : Fault} (h : Family.declare type name help samples = .error fault) :
    fault = .emptyName := by
  rw [Family.declare] at h
  split at h
  · cases h
    rfl
  · cases h

/-- Families that could be collected are those of the outline, whatever the suppliers answered. -/
lemma familiesOf_outline {x : Collector} {s t : Site} {families : List Family}
    (h : familiesOf x s = .ok families t) :
    families.map (fun f => (f.type, f.name)) = x.outline ∧ x.Nameable := by
  cases x with
  | instrument i =>
    cases h
    exact ⟨rfl, trivial⟩
  | gauge name help k =>
    obtain ⟨v, u, -, h⟩ := ok_of_bind_ok h
    obtain ⟨f, w, hf, h⟩ := ok_of_bind_ok h
    obtain ⟨rfl, hname⟩ := declare_ok (ofExcept_ok hf).1
    cases h
    exact ⟨rfl, hname⟩
  | supplied m =>
    obtain ⟨f, u, hf, h⟩ := ok_of_bind_ok h
    obtain ⟨samples, w, -, h⟩ := ok_of_bind_ok h
    obtain ⟨rfl, hname⟩ := declare_ok (ofExcept_ok hf).1
    cases h
    exact ⟨rfl, hname⟩
  | summary name help k =>
    obtain ⟨v, u, -, h⟩ := ok_of_bind_ok h
    obtain ⟨f, w, hf, h⟩ := ok_of_bind_ok h
    obtain ⟨rfl, hname⟩ := declare_ok (ofExcept_ok hf).1
    cases h
    exact ⟨rfl, hname⟩
  | caches stem attached =>
    obtain ⟨infos, u, -, h⟩ := ok_of_bind_ok h
    cases h
    exact ⟨rfl, trivial⟩
  | fixed families =>
    cases h
    exact ⟨rfl, trivial⟩

lemma collect_outline {k : CollectorId} {s t : Site} {families : List Family}
    (h : collect k s = .ok families t) :
    families.map (fun f => (f.type, f.name)) = (s.collector k).outline
      ∧ (s.collector k).Nameable :=
  familiesOf_outline h

lemma familyNames_ok {k : CollectorId} {s t : Site} {names : Distinct String}
    (h : familyNames k s = .ok names t) :
    names = .ofList (s.collector k).familyNames ∧ (s.collector k).Nameable := by
  obtain ⟨families, u, hu, h⟩ := ok_of_bind_ok h
  obtain ⟨houtline, hname⟩ := collect_outline hu
  cases h
  refine ⟨?_, hname⟩
  rw [Collector.familyNames_eq, ← houtline, List.map_map]
  rfl

end Site

/-- No call of the supplier raises. -/
def Supplier.NeverRaises (t : Supplier) : Prop :=
  ∀ n alarm message, t.answer n ≠ .raises alarm message

namespace Site

/-- No supplier of the site raises. -/
def Calm (s : Site) : Prop := ∀ t ∈ s.suppliers, t.NeverRaises

lemma OnlyActivity.calm {s t : Site} (h : OnlyActivity s t) (calm : s.Calm) : t.Calm := by
  rw [Calm, h.suppliers]
  exact calm

lemma Calm.nextAnswer {s : Site} (calm : s.Calm) (i : SupplierId) (alarm : Alarm)
    (message : String) : s.nextAnswer i ≠ .raises alarm message := by
  rw [Site.nextAnswer]
  cases h : s.suppliers[i.index]? with
  | none => simp
  | some t => exact calm t (List.mem_of_getElem? h) _ alarm message

lemma ask_succeeds (i : SupplierId) : Succeeds Calm (ask i) := by
  intro s calm
  let asked : Site := { s with activity := s.activity ++ [.asked i] }
  rw [ask, bind_get]
  cases h : s.nextAnswer i with
  | raises alarm message => exact absurd h (calm.nextAnswer i alarm message)
  | value x => exact ⟨.value x, asked, rfl, calm⟩
  | digest d => exact ⟨.digest d, asked, rfl, calm⟩

lemma askValue_succeeds (i : SupplierId) : Succeeds Calm (askValue i) := by
  refine (ask_succeeds i).bind fun a => ?_
  split <;> exact Succeeds.pure _

lemma askDigest_succeeds (i : SupplierId) (name : String) :
    Succeeds Calm (askDigest i name) := by
  refine (ask_succeeds i).bind fun a => ?_
  split <;> exact Succeeds.pure _

lemma askAll_succeeds (m : Supplied) (entries : List (List String × SupplierId)) :
    Succeeds Calm (askAll m entries) := by
  induction entries with
  | nil => exact Succeeds.pure _
  | cons e entries ih =>
    exact (askValue_succeeds e.2).bind fun _ => ih.bind fun _ => Succeeds.pure _

lemma note_succeeds (a : Activity) : Succeeds Calm (note a) := Succeeds.modify fun _ calm => calm

lemma inspect_succeeds (i : CacheId) : Succeeds Calm (inspect i) :=
  (note_succeeds _).bind fun _ => Succeeds.get.bind fun _ => Succeeds.pure _

lemma inspectAll_succeeds (entries : List (String × CacheId)) :
    Succeeds Calm (inspectAll entries) := by
  induction entries with
  | nil => exact Succeeds.pure _
  | cons e entries ih =>
    exact (inspect_succeeds e.2).bind fun _ => ih.bind fun _ => Succeeds.pure _

lemma declare_succeeds (type : FamilyType) {name : String} (help : String)
    (samples : List Sample) (hname : name ≠ "") :
    Succeeds Calm (ofExcept (Family.declare type name help samples) : Action Family) := by
  rw [Family.declare, if_neg hname]
  exact Succeeds.pure _

lemma familiesOf_succeeds {x : Collector} (nameable : x.Nameable) :
    Succeeds Calm (familiesOf x) := by
  cases x with
  | instrument i => exact Succeeds.pure _
  | gauge name help k =>
    exact (askValue_succeeds k).bind fun _ =>
      (declare_succeeds _ _ _ nameable).bind fun _ => Succeeds.pure _
  | supplied m =>
    exact (declare_succeeds _ _ _ nameable).bind fun _ =>
      (askAll_succeeds m _).bind fun _ => Succeeds.pure _
  | summary name help k =>
    exact (askDigest_succeeds k name).bind fun _ =>
      (declare_succeeds _ _ _ nameable).bind fun _ => Succeeds.pure _
  | caches stem attached => exact (inspectAll_succeeds _).bind fun _ => Succeeds.pure _
  | fixed families => exact Succeeds.pure _

lemma collect_succeeds {k : CollectorId} {s : Site} (calm : s.Calm)
    (nameable : (s.collector k).Nameable) : ∃ families t, collect k s = .ok families t := by
  obtain ⟨families, t, h, -⟩ := familiesOf_succeeds nameable
    { s with activity := s.activity ++ [.collected k] } calm
  exact ⟨families, t, h⟩

end Site

end Metering
