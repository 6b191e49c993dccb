import Mathlib.Data.List.Perm.Basic
import Metering.Proofs.SystemRuns

/-!
# Exposition and reading back

While every supplier always gives the same answer, what a collector shows does not depend on when
it is collected (`Site.shown`). So the observations of a system and the families of its registry
come from the same samples as soon as the roster lists what the registry holds.
-/

namespace Metering

/-- Every call of the supplier gives the same answer, and that is not a failure. -/
structure Supplier.Steady (t : Supplier) : Prop where
  constant : ∀ n, t.answer n = t.first
  calm : t.NeverRaises

namespace Site

/-- All suppliers of the site are steady. -/
def Steady (s : Site) : Prop := ∀ t ∈ s.suppliers, t.Steady

lemma Steady.calm {s : Site} (steady : s.Steady) : s.Calm := fun t ht => (steady t ht).calm

/-- What a steady supplier answers. -/
def settled (s : Site) (i : SupplierId) : Answer :=
  ((s.suppliers[i.index]?).map (·.first)).getD (.value none)

/-- The number that a steady supplier answers. -/
def settledValue (s : Site) (i : SupplierId) : Option Number :=
  match s.settled i with
  | .value x => x
  | _ => none

/-- The families that a collector shows while the suppliers are steady. -/
def shown (s : Site) : Collector → List Family
  | .instrument i => [i.family]
  | .gauge name help i => [⟨name, .gauge, help, Collector.gaugeSamples name (s.settledValue i)⟩]
  | .supplied m =>
    [⟨m.familyName, m.kind.familyType, m.help,
      m.suppliers.entries.map fun e => m.sample e.1 (s.settledValue e.2)⟩]
  | .summary name help i =>
    [⟨name, .summary, help, match s.settled i with
      | .digest d => Collector.digestSamples name d
      | _ => []⟩]
  | .caches stem attached =>
    Collector.cacheFamilies stem (attached.entries.map fun e => (e.1, s.cache e.2))
  | .fixed families => families

/-- The families that the collector at a place shows while the suppliers are steady. -/
def shownAt (s : Site) (k : CollectorId) : List Family := s.shown (s.collector k)

section Steady

variable {s t : Site}

lemma OnlyActivity.steady (h : OnlyActivity s t) (steady : s.Steady) : t.Steady := by
  rw [h]
  exact steady

lemma OnlyActivity.shownAt (h : OnlyActivity s t) (k : CollectorId) :
    t.shownAt k = s.shownAt k := by
  rw [h]
  rfl

lemma ask_steady (steady : s.Steady) (i : SupplierId) :
    ∃ t, ask i s = .ok (s.settled i) t ∧ OnlyActivity s t := by
  have next : s.nextAnswer i = s.settled i := by
    rw [nextAnswer, settled]
    cases h : s.suppliers[i.index]? with
    | none => rfl
    | some u => exact (steady u (List.mem_of_getElem? h)).constant _
  let asked : Site := { s with activity := s.activity ++ [.asked i] }
  have quiet : OnlyActivity s asked := rfl
  rw [ask, bind_get, ← next]
  cases h : s.nextAnswer i with
  | raises alarm message => exact absurd h (steady.calm.nextAnswer i alarm message)
  | value x => exact ⟨asked, rfl, quiet⟩
  | digest d => exact ⟨asked, rfl, quiet⟩

lemma askValue_steady (steady : s.Steady) (i : SupplierId) :
    ∃ t, askValue i s = .ok (s.settledValue i) t ∧ OnlyActivity s t := by
  obtain ⟨t, asked, quiet⟩ := ask_steady steady i
  refine ⟨t, ?_, quiet⟩
  rw [askValue, bind_of_ok asked, settledValue]
  cases s.settled i <;> rfl

lemma askDigest_steady (steady : s.Steady) (i : SupplierId) (name : String) :
    ∃ t, askDigest i name s = .ok (match s.settled i with
      | .digest d => Collector.digestSamples name d
      | _ => []) t ∧ OnlyActivity s t := by
  obtain ⟨t, asked, quiet⟩ := ask_steady steady i
  refine ⟨t, ?_, quiet⟩
  rw [askDigest, bind_of_ok asked]
  cases s.settled i <;> rfl

lemma askAll_steady (steady : s.Steady) (m : Supplied) (entries : List (List String × SupplierId)) :
    ∃ t, askAll m entries s = .ok (entries.map fun e => m.sample e.1 (s.settledValue e.2)) t
      ∧ OnlyActivity s t := by
  induction entries generalizing s with
  | nil => exact ⟨s, rfl, Std.Refl.refl s⟩
  | cons e entries ih =>
    obtain ⟨u, asked, first⟩ := askValue_steady steady e.2
    obtain ⟨t, rest, second⟩ := ih (first.steady steady)
    have same : ∀ i, u.settledValue i = s.settledValue i := by
      intro i
      rw [first]
      rfl
    simp only [same] at rest
    exact ⟨t, (bind_of_ok asked _).trans (bind_of_ok rest _), IsTrans.trans _ _ _ first second⟩

lemma inspectAll_steady (entries : List (String × CacheId)) :
    ∃ t, inspectAll entries s = .ok (entries.map fun e => (e.1, s.cache e.2)) t
      ∧ OnlyActivity s t := by
  induction entries generalizing s with
  | nil => exact ⟨s, rfl, Std.Refl.refl s⟩
  | cons e entries ih =>
    let u : Site := { s with activity := s.activity ++ [.inspected e.2] }
    have inspected : inspect e.2 s = .ok (s.cache e.2) u := rfl
    obtain ⟨t, rest, second⟩ := ih (s := u)
    have first : OnlyActivity s u := rfl
    exact ⟨t, (bind_of_ok inspected _).trans (bind_of_ok rest _), IsTrans.trans _ _ _ first second⟩

lemma familiesOf_steady (steady : s.Steady) {x : Collector} (nameable : x.Nameable) :
    ∃ t, familiesOf x s = .ok (s.shown x) t ∧ OnlyActivity s t := by
  cases x with
  | instrument i => exact ⟨s, rfl, Std.Refl.refl s⟩
  | gauge name help i =>
    obtain ⟨t, asked, quiet⟩ := askValue_steady steady i
    refine ⟨t, (bind_of_ok asked _).trans ?_, quiet⟩
    rw [Family.declare, if_neg nameable]
    rfl
  | supplied m =>
    obtain ⟨t, asked, quiet⟩ := askAll_steady steady m m.suppliers.entries
    refine ⟨t, ?_, quiet⟩
    rw [familiesOf, Supplied.family, Family.declare, if_neg nameable]
    exact (bind_of_ok asked _).trans rfl
  | summary name help i =>
    obtain ⟨t, asked, quiet⟩ := askDigest_steady steady i name
    refine ⟨t, (bind_of_ok asked _).trans ?_, quiet⟩
    rw [Family.declare, if_neg nameable]
    rfl
  | caches stem attached =>
    obtain ⟨t, inspected, quiet⟩ := inspectAll_steady (s := s) attached.entries
    exact ⟨t, (bind_of_ok inspected _).trans rfl, quiet⟩
  | fixed families => exact ⟨s, rfl, Std.Refl.refl s⟩

/-- Collecting shows what the suppliers have settled on. -/
lemma collect_steady (steady : s.Steady) {k : CollectorId} (nameable : (s.collector k).Nameable) :
    ∃ t, collect k s = .ok (s.shownAt k) t ∧ OnlyActivity s t := by
  let u : Site := { s with activity := s.activity ++ [.collected k] }
  obtain ⟨t, h, -⟩ := familiesOf_steady (s := u) steady nameable
  exact ⟨t, h, (collect_moves k).of_ok h⟩

lemma collectAll_steady (steady : s.Steady) (ks : List CollectorId)
    (nameable : ∀ k ∈ ks, (s.collector k).Nameable) :
    ∃ t, collectAll ks s = .ok (ks.flatMap s.shownAt) t := by
  induction ks generalizing s with
  | nil => exact ⟨s, rfl⟩
  | cons k ks ih =>
    obtain ⟨u, collected, quiet⟩ := collect_steady steady (nameable k List.mem_cons_self)
    obtain ⟨t, rest⟩ := ih (quiet.steady steady) fun j hj => by
      rw [quiet.collector]
      exact nameable j (List.mem_cons_of_mem k hj)
    have same : u.shownAt = s.shownAt := funext quiet.shownAt
    rw [same] at rest
    exact ⟨t, (bind_of_ok collected _).trans (bind_of_ok rest _)⟩

end Steady

end Site

/-- A sample with its family and the category under which it is read. -/
abbrev CategorySample := Category × FamilySample

namespace Deployment

variable {d e : Deployment}

/-- The samples that are read under a category while the suppliers are steady. -/
def shownUnder (d : Deployment) (c : Category) (ks : List CollectorId) : List CategorySample :=
  (ks.flatMap fun k => familySamples (d.site.shownAt k)).map fun x => (c, x)

/-- The samples that are read in all while the suppliers are steady. -/
def shownInAll (d : Deployment) (cs : List Category) : List CategorySample :=
  cs.flatMap fun c => d.shownUnder c (d.listed c)

/-- A sample as an observation, with the names that the book holds. -/
def observe (d : Deployment) (x : CategorySample) : Observation :=
  .ofSample d.system.book x.1 x.2.1 x.2.2

lemma shownUnder_cons (d : Deployment) (c : Category) (k : CollectorId) (ks : List CollectorId) :
    d.shownUnder c (k :: ks)
      = (familySamples (d.site.shownAt k)).map (fun x => (c, x)) ++ d.shownUnder c ks := by
  rw [shownUnder, List.flatMap_cons, List.map_append]
  rfl

lemma shownInAll_cons (d : Deployment) (c : Category) (cs : List Category) :
    d.shownInAll (c :: cs) = d.shownUnder c (d.listed c) ++ d.shownInAll cs := List.flatMap_cons

lemma ofFamilies_eq (d : Deployment) (c : Category) (families : List Family) :
    Observation.ofFamilies d.system.book c families
      = ((familySamples families).map fun x => (c, x)).map d.observe := by
  simp [Observation.ofFamilies, familySamples, List.map_flatMap, Function.comp_def, observe]

end Deployment

namespace System

open Operation Site

variable {d : Deployment}

lemma observationsOf_steady (steady : d.site.Steady) (c : Category) {ks : List CollectorId}
    (nameable : ∀ k ∈ ks, (d.site.collector k).Nameable) :
    ∃ e, observationsOf c ks d = .ok ((d.shownUnder c ks).map d.observe) e := by
  induction ks generalizing d with
  | nil => exact ⟨d, rfl⟩
  | cons k ks ih =>
    obtain ⟨t, collected, quiet⟩ := collect_steady steady (nameable k List.mem_cons_self)
    let m : Deployment := { d with site := t }
    have lifted : (liftM (Site.collect k) : Operation (List Family)) d = .ok (d.site.shownAt k) m :=
      Operation.ofAction_ok collected
    obtain ⟨e, rest⟩ := ih (d := m) (quiet.steady steady) fun j hj => by
      rw [quiet.collector]
      exact nameable j (List.mem_cons_of_mem k hj)
    have same : m.shownUnder c ks = d.shownUnder c ks := by
      rw [Deployment.shownUnder, funext quiet.shownAt]
      rfl
    rw [same] at rest
    refine ⟨e, (bind_of_ok lifted _).trans ?_⟩
    refine (bind_system _ m).trans ((bind_of_ok rest _).trans ?_)
    rw [Deployment.shownUnder_cons, List.map_append, ← Deployment.ofFamilies_eq]
    rfl

lemma observationsIn_steady (steady : d.site.Steady) (cs : List Category)
    (nameable : ∀ c ∈ cs, ∀ k ∈ d.listed c, (d.site.collector k).Nameable) :
    ∃ e, observationsIn cs d = .ok ((d.shownInAll cs).map d.observe) e := by
  induction cs generalizing d with
  | nil => exact ⟨d, rfl⟩
  | cons c cs ih =>
    obtain ⟨m, own⟩ := observationsOf_steady steady c (nameable c List.mem_cons_self)
    have reads := (observationsOf_reads c (d.listed c)).of_ok own
    obtain ⟨e, rest⟩ := ih (d := m) (reads.site.steady steady) fun c' hc' k hk => by
      rw [Deployment.listed, reads.system] at hk
      rw [reads.site.collector]
      exact nameable c' (List.mem_cons_of_mem c hc') k hk
    have same : m.shownInAll cs = d.shownInAll cs := by
      simp only [Deployment.shownInAll, Deployment.shownUnder, Deployment.listed, reads.system,
        reads.site.shownAt]
    have read : m.observe = d.observe := by
      funext x
      rw [Deployment.observe, reads.system]
      rfl
    rw [same, read] at rest
    refine ⟨e, (bind_system _ d).trans ?_⟩
    refine (bind_of_ok own _).trans ((bind_of_ok rest _).trans ?_)
    rw [Deployment.shownInAll_cons, List.map_append]
    rfl

end System

lemma Site.small_steady : Site.small.Steady := by
  intro t ht
  rw [List.mem_singleton.mp ht]
  exact ⟨fun _ => rfl, fun _ _ _ h => by cases h⟩

namespace Roster

lemma flatMap_categories (r : Roster) : r.categories.flatMap r.ofCategory = r.collectors := by
  have each : ∀ e ∈ r.listed.entries, r.ofCategory e.1 = e.2 := fun _ he => ofCategory_of_entry he
  rw [categories, Index.keys, collectors, Index.values, List.flatMap_map, ← List.flatMap_def]
  exact List.flatMap_congr each

/-- The roster and a registry that holds what it lists, and nothing else, have the same
collectors. -/
lemma collectors_perm {r : Roster} {s : Site} (tidy : r.Tidy s) (backed : r.Backed s)
    (sole : r.Sole s) : r.collectors.Perm (s.registry r.registry).collectors := by
  refine (List.perm_ext_iff_of_nodup (nodup_collectors tidy) (Index.keys_nodup _)).mpr fun k => ?_
  rw [mem_collectors]
  constructor
  · rintro ⟨c, listed⟩
    exact backed.mem_held listed
  · exact sole.held k

end Roster

namespace Deployment

variable {d : Deployment}

lemma shownInAll_categories (d : Deployment) :
    (d.shownInAll d.system.roster.categories).map Prod.snd
      = d.system.roster.collectors.flatMap fun k => familySamples (d.site.shownAt k) := by
  rw [← Roster.flatMap_categories, List.flatMap_assoc]
  simp [shownInAll, shownUnder, List.map_flatMap, Function.comp_def]

/-- Others have left the registry of the system alone, and whatever was declared. -/
structure LeftAlone (d : Deployment) (t : Site) : Prop where
  grows : d.site.Grows t
  room : d.site.registries.length ≤ t.registries.length
  registry : t.registry d.system.roster.registry = d.registry

lemma LeftAlone.sound {t : Site} (alone : d.LeftAlone t) (calm : t.Calm) (sound : d.Sound) :
    Sound { d with site := t } where
  tidy := sound.tidy.grows alone.grows
  backed := sound.backed.grows sound.tidy alone.grows alone.room alone.registry
  calm := calm

lemma LeftAlone.sole {t : Site} (alone : d.LeftAlone t)
    (tidy : d.system.roster.Tidy d.site) (sole : d.system.roster.Sole d.site) :
    d.system.roster.Sole t :=
  sole.grows tidy alone.grows alone.registry

/-- The roster and the registry say the same, and collecting is repeatable. -/
structure InStep (d : Deployment) : Prop where
  sound : d.Sound
  sole : d.system.roster.Sole d.site
  steady : d.site.Steady

lemma InStep.called {m : Moment} (h : m.before.InStep) : m.after.InStep := by
  refine ⟨m.sound h.sound, m.sole h.sound h.sole, ?_⟩
  rw [Site.Steady, m.suppliers]
  exact h.steady

lemma InStep.leftAlone {t : Site} (h : d.InStep) (alone : d.LeftAlone t) (steady : t.Steady) :
    InStep { d with site := t } where
  sound := alone.sound steady.calm h.sound
  sole := alone.sole h.sound.tidy h.sole
  steady := steady

lemma sole_vacant {describes : Bool} {r : RegistryId} {s : Site}
    (vacant : s.registry r = .vacant describes) : (Roster.vacant r).Sole s := by
  constructor
  · intro k hk
    change k ∈ (s.registry r).held at hk
    rw [vacant] at hk
    exact absurd hk List.not_mem_nil
  · intro name k owned
    change (s.registry r).owners.get? name = some k at owned
    rw [vacant] at owned
    cases owned

lemma inStep_fresh {enabled : Distinct Category} {timers describes : Bool} {r : RegistryId}
    {s : Site} (room : r.index < s.registries.length) (vacant : s.registry r = .vacant describes)
    (steady : s.Steady) : InStep ⟨System.fresh enabled timers r, s⟩ where
  sound := System.sound_fresh room steady.calm
  sole := sole_vacant vacant
  steady := steady

end Deployment

/-- A system that has its registry to itself, on a site with steady suppliers: after every run, no
collector is listed twice, the listed collectors are those that the registry holds, and both the
system and the registry can be read, with the same samples in some order. -/
theorem observations_perm_gather {enabled : Distinct Category} {timers describes : Bool}
    {r : RegistryId} {s : Site} (room : r.index < s.registries.length)
    (vacant : s.registry r = .vacant describes) (steady : s.Steady) {ms : List Moment}
    {d : Deployment}
    (run : Run (fun d t => d.LeftAlone t ∧ t.Steady) ⟨System.fresh enabled timers r, s⟩ ms d) :
    d.system.roster.collectors.Nodup
      ∧ (∀ k, k ∈ d.system.roster.collectors ↔ k ∈ d.registry.collectors)
      ∧ ∃ (samples : List CategorySample) (families : List Family) (e : Deployment) (t : Site),
          System.observations none d = .ok (samples.map d.observe) e
          ∧ Site.gather d.system.roster.registry d.site = .ok families t
          ∧ (samples.map Prod.snd).Perm (familySamples families) := by
  have inStep : d.InStep := run.invariant (Deployment.inStep_fresh room vacant steady)
    (fun _ h => h.called) fun _ _ h disturbed => h.leftAlone disturbed.1 disturbed.2
  obtain ⟨⟨tidy, backed, -⟩, sole, steady⟩ := inStep
  have perm := Roster.collectors_perm tidy backed sole
  have nameable : ∀ k ∈ d.system.roster.collectors, (d.site.collector k).Nameable := by
    intro k hk
    obtain ⟨c, listed⟩ := Roster.mem_collectors.mp hk
    exact tidy.nameable listed
  refine ⟨Roster.nodup_collectors tidy, fun k => perm.mem_iff, ?_⟩
  obtain ⟨e, observed⟩ := System.observationsIn_steady steady
    d.system.roster.categories fun c _ k hk => tidy.nameable hk
  obtain ⟨t, gathered⟩ := Site.collectAll_steady steady d.registry.collectors
    fun k hk => nameable k (perm.mem_iff.mpr hk)
  refine ⟨d.shownInAll d.system.roster.categories, _, e, t, observed, gathered, ?_⟩
  have exposed : familySamples (d.registry.collectors.flatMap d.site.shownAt)
      = d.registry.collectors.flatMap fun k => familySamples (d.site.shownAt k) := by
    simp [familySamples, List.flatMap_assoc]
  rw [Deployment.shownInAll_categories, exposed]
  exact perm.flatMap_right _

theorem observations_perm_gather_replaced :
    (⟨0⟩ : RegistryId).index < Site.small.registries.length
      ∧ Site.small.registry ⟨0⟩ = .vacant true ∧ Site.small.Steady
      ∧ replaced.system.roster.collectors = [⟨1⟩] ∧ replaced.system.roster.collectors.Nodup
      ∧ (∀ k, k ∈ replaced.system.roster.collectors ↔ k ∈ replaced.registry.collectors)
      ∧ ∃ (samples : List CategorySample) (families : List Family) (e : Deployment) (t : Site),
          System.observations none replaced = .ok (samples.map replaced.observe) e
          ∧ Site.gather replaced.system.roster.registry replaced.site = .ok families t
          ∧ (samples.map Prod.snd).Perm (familySamples families)
          ∧ samples.map replaced.observe = [⟨⟨"shop", none⟩, "jobs", some 3, []⟩] := by
  obtain ⟨nodup, held, samples, families, e, t, observed, gathered, perm⟩ :=
    observations_perm_gather (by decide) rfl Site.small_steady
      (Run.of_calls _ (.small [⟨"shop", none⟩]) replacement)
  have gauge : ∃ u, System.observations none replaced
      = .ok [⟨⟨"shop", none⟩, "jobs", some 3, []⟩] u := ⟨_, rfl⟩
  obtain ⟨u, gauge⟩ := gauge
  refine ⟨by decide, rfl, Site.small_steady, rfl, nodup, held, samples, families, e, t, observed,
    gathered, perm, ?_⟩
  injection observed.symm.trans gauge

end Metering
