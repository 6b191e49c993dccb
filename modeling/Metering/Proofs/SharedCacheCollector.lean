import Metering.Proofs.CallComposition
import Metering.Proofs.DisplacedHandles
import Metering.Proofs.ExpositionAgreement
import Metering.Proofs.SystemReadings

/-!
# Caches and the collector they are attached to

All caches of a category are attached to one collector, which is registered with the first of them
and remembered by the system until the next completed shutdown. Nothing tells the system when that
collector is displaced. So a cache that is attached later shows exactly as long as no collector that
shares a family name with the cache collector has been registered under the category in between.
-/

namespace Metering

open Operation Metering.System

namespace Deployment

/-- The system has the same cache collectors and the same names of attached caches. -/
structure SameCaches (d e : Deployment) : Prop where
  shared : e.system.shared = d.system.shared
  names : e.system.cacheNames = d.system.cacheNames

instance : IsPreorder Deployment SameCaches where
  refl _ := ⟨rfl, rfl⟩
  trans _ _ _ hde hef := ⟨hef.shared.trans hde.shared, hef.names.trans hde.names⟩

end Deployment

lemma Collector.caches_of_declared {x : Collector} {stem : String}
    (h : x.declared = .caches stem ∅) : ∃ attached, x = .caches stem attached := by
  cases x with
  | caches stem' attached =>
    cases h
    exact ⟨attached, rfl⟩
  | _ => cases h

lemma System.enroll_sameCaches (c : Category) (y : Collector) :
    Moves Deployment.SameCaches (enroll c y) := by
  intro d
  rcases endOf_enroll c y d with ⟨roster, t, -, ends⟩ | ⟨fault, t, -, ends⟩
  · rw [ends]
    exact ⟨rfl, rfl⟩
  · rw [ends]
    exact ⟨rfl, rfl⟩

lemma Deployment.sameCaches_steps : Steps SameCaches where
  noted _ _ _ _ := ⟨rfl, rfl⟩
  gathered _ _ _ _ _ := ⟨rfl, rfl⟩
  reported _ _ _ := ⟨rfl, rfl⟩
  issued _ _ _ := ⟨rfl, rfl⟩
  remembered _ _ := ⟨rfl, rfl⟩
  kept _ kind _ _ := by cases kind <;> exact ⟨rfl, rfl⟩
  enrolled c y _ := enroll_sameCaches c y

namespace Call

def Attaches (call : Call) (c : Category) : Prop := ∃ name cache, call = attachCache c name cache

/-- Only attaching a cache or a shutdown can change what the system remembers of caches. -/
lemma sameCaches {call : Call} (others : ∀ c, ¬ call.Attaches c) (running : call ≠ shutdown) :
    Moves Deployment.SameCaches call.perform :=
  call.moves Deployment.sameCaches_steps (fun c name cache h => others c ⟨name, cache, h⟩) running

end Call

namespace System

variable {c : Category} {name : String} {cache : CacheId} {d e : Deployment} {k : CollectorId}

/-- The cache collector of a category is the one that is remembered, or the next one of the site,
which is registered first. -/
lemma sharedCollector_cases (c : Category) (d : Deployment) :
    (∃ k, d.system.shared.get? c = some k ∧ sharedCollector c d = .ok k d)
      ∨ d.system.shared.get? c = none
        ∧ ((∃ fault m, enroll c (.caches c.stem ∅) d = .error fault m
            ∧ sharedCollector c d = .error fault m)
          ∨ ∃ m, enroll c (.caches c.stem ∅) d = .ok d.site.nextPlace m
            ∧ sharedCollector c d = .ok d.site.nextPlace { m with system :=
                { m.system with shared := m.system.shared.put c d.site.nextPlace } }) := by
  rw [sharedCollector, bind_system]
  cases kept : d.system.shared.get? c with
  | some k => exact Or.inl ⟨k, rfl, rfl⟩
  | none =>
    refine Or.inr ⟨rfl, ?_⟩
    cases enrolled : enroll c (.caches c.stem ∅) d with
    | ok k m =>
      obtain ⟨rfl, -⟩ := enroll_ok enrolled
      exact Or.inr ⟨m, rfl, (bind_of_ok enrolled _).trans rfl⟩
    | error fault m => exact Or.inl ⟨fault, m, rfl, bind_of_error enrolled _⟩

/-- Attaching a cache, when it is not refused, is attaching it to the cache collector. -/
lemma attachCache_eq (enabled : d.system.isEnabled c = true) (new : name ∉ d.system.cacheNames) :
    attachCache c name cache d = attachShared c name cache d := by
  rw [attachCache, bind_system, if_pos enabled, if_neg new]

lemma attachShared_eq (c : Category) (name : String) (cache : CacheId) (d : Deployment) :
    attachShared c name cache d = match sharedCollector c d with
      | .ok k m => .ok () ⟨{ m.system with cacheNames := m.system.cacheNames.insert name },
          endOf (attachTo k name cache m.site)⟩
      | .error fault m => .error fault m := by
  rw [attachShared]
  cases shared : sharedCollector c d with
  | ok k m => exact (bind_of_ok shared _).trans rfl
  | error fault m => exact bind_of_error shared _

/-- What attaching does to the cache collector that is remembered for a category: nothing, or it
remembers one that it has registered there. -/
lemma shared_attachCache (c c' : Category) (name : String) (cache : CacheId) (d : Deployment) :
    (endOf (attachCache c' name cache d)).system.shared.get? c = d.system.shared.get? c
      ∨ c' = c
        ∧ (endOf (attachCache c' name cache d)).system.shared.get? c = some d.site.nextPlace
        ∧ d.site.nextPlace ∈ (endOf (attachCache c' name cache d)).listed c := by
  by_cases enabled : d.system.isEnabled c' = true
  · by_cases taken : name ∈ d.system.cacheNames
    · rw [attachCache, bind_system, if_pos enabled, if_pos taken]
      exact Or.inl rfl
    · rw [attachCache_eq enabled taken, attachShared_eq]
      rcases sharedCollector_cases c' d with
        ⟨k, kept, run⟩ | ⟨-, ⟨fault, m, failed, run⟩ | ⟨m, enrolled, run⟩⟩
      · rw [run]
        exact Or.inl rfl
      · rw [run]
        have same := (enroll_sameCaches c' _).of_error failed
        exact Or.inl (by rw [endOf, same.shared])
      · rw [run]
        have same := (enroll_sameCaches c' _).of_ok enrolled
        by_cases here : c' = c
        · subst here
          exact Or.inr ⟨rfl, Index.get?_put_self _ _ _, (enroll_ok enrolled).2⟩
        · refine Or.inl ((Index.get?_put _ _ _ _).trans ?_)
          rw [if_neg fun same => here same.symm, same.shared]
  · rw [attachCache, bind_system, if_neg enabled]
    exact Or.inl rfl

end System

namespace Moment

variable {m : Moment} {c : Category} {k : CollectorId}

/-- What a call does to the cache collector that is remembered for a category: a completed shutdown
forgets it, and attaching a cache may register one. -/
lemma shared_after (m : Moment) (c : Category) :
    (m.resets = true ∧ m.after.system.shared.get? c = none)
      ∨ (m.resets = false ∧ m.after.system.shared.get? c = m.before.system.shared.get? c)
      ∨ ∃ k, m.after.system.shared.get? c = some k ∧ m.call.Attaches c ∧ m.Registers c k := by
  cases resets : m.resets with
  | true =>
    obtain ⟨t, ends⟩ := reset_of_resets resets
    exact Or.inl ⟨rfl, by rw [ends]; rfl⟩
  | false =>
    apply Or.inr
    by_cases attaching : ∃ c', m.call.Attaches c'
    · obtain ⟨c', name, cache, call⟩ := attaching
      rw [after, call]
      rcases shared_attachCache c c' name cache m.before with same | ⟨rfl, made, listed⟩
      · exact Or.inl ⟨rfl, same⟩
      · refine Or.inr ⟨_, made, ⟨name, cache, rfl⟩, Nat.le_refl _, ?_⟩
        rw [after, call]
        exact listed
    · by_cases stopping : m.call = .shutdown
      · obtain ⟨d, call⟩ := m
        obtain rfl : call = .shutdown := stopping
        have failed : returned ⟨d, .shutdown⟩ = false := by
          simpa [Moment.resets, Call.isShutdown] using resets
        refine Or.inl ⟨rfl, ?_⟩
        rw [returned, Call.perform, shutdown_eq] at failed
        rw [after_shutdown, shutdown_eq]
        cases h : d.system.roster.dismiss d.site with
        | ok x t =>
          rw [h] at failed
          cases failed
        | error fault t => rfl
      · have same := Call.sameCaches (not_exists.mp attaching) stopping m.before
        exact Or.inl ⟨rfl, by rw [after, same.shared]⟩

end Moment

section Runs

variable {start d : Deployment} {ms : List Moment} {c : Category} {k : CollectorId}

/-- A cache collector that is remembered was registered by one call that attached a cache, and there
has been no reset since. -/
lemma Run.shared_since {others : Deployment → Site → Prop} (run : Run others start ms d)
    (none_shared : start.system.shared.get? c = none)
    (shared : d.system.shared.get? c = some k) :
    ∃ earlier m later, ms = earlier ++ m :: later ∧ (m.call.Attaches c ∧ m.Registers c k)
      ∧ ∀ m' ∈ later, m'.resets = false :=
  run.remembered_since (fun s => s.shared.get? c) (fun m k => m.call.Attaches c ∧ m.Registers c k)
    (fun m => m.shared_after c) none_shared shared

/-- It is a cache collector of the category for good. -/
lemma Run.caches_of_registers {others : Deployment → Site → Prop} (run : Run others start ms d)
    (growing : ∀ d t, others d t → d.site.Grows t) (first : start.system.roster.Tidy start.site)
    {m : Moment} (hm : m ∈ ms) (attaches : m.call.Attaches c) (registered : m.Registers c k) :
    k.index < d.site.collectors.length
      ∧ ∃ attached, d.site.collector k = .caches c.stem attached := by
  have offered := run.offered_of_registers growing first hm registered
  obtain ⟨name, cache, call⟩ := attaches
  rw [call] at offered
  exact ⟨run.placed growing first hm registered,
    Collector.caches_of_declared (congrArg Prod.snd (List.mem_singleton.mp offered))⟩

end Runs

/-- The observations of one cache: its hits, misses and requests, its size and, if it is bounded,
its capacity, each under the name of its family and labelled with the name of the cache. -/
def cacheObservations (b : NameBook) (c : Category) (name : String) (info : CacheInfo) :
    List Observation :=
  let counter (ending : String) (n : Int) : Observation :=
    ⟨c, b.counterName c (c.external ending), some (.whole n), [name]⟩
  [counter "cache_hit" info.hits, counter "cache_miss" info.misses,
    counter "cache_requests" (info.hits + info.misses),
    ⟨c, "cache_size", some (.whole info.size), [name]⟩]
  ++ info.capacity.toList.map fun n => ⟨c, "cache_max_size", some (.whole n), [name]⟩

section Observing

variable {b : NameBook} {c : Category} {name : String} {info : CacheInfo}

lemma ofSample_cacheCounter (ending help : String) (samples : List Sample) (n : Int) :
    Observation.ofSample b c ⟨c.stem ++ ending, .counter, help, samples⟩
        (Collector.cacheSample (c.stem ++ ending ++ Family.totalSuffix) name n)
      = ⟨c, b.counterName c (c.external ending), some (.whole n), [name]⟩ := by
  have plain := Text.endsWith_append_of_apart (c.stem ++ ending)
    (show Text.endsWith "_created" Family.totalSuffix = false by decide +kernel)
    (by decide +kernel)
  simp only [Observation.ofSample, Observation.metricName, Observation.labelValues,
    Collector.cacheSample, plain]
  rfl

lemma ofSample_cacheGauge (f : Family) (gauge : f.type = .gauge) (ending : String) (n : Int) :
    Observation.ofSample b c f (Collector.cacheSample (c.stem ++ ending) name n)
      = ⟨c, ending, some (.whole n), [name]⟩ := by
  simp only [Observation.ofSample, Observation.metricName, Observation.labelValues, gauge,
    Collector.cacheSample]
  exact congrArg (Observation.mk c · _ _) (c.logical_external ending)

/-- What a cache collector gives is read family by family, and in each of them cache by cache. -/
lemma ofFamilies_cacheFamilies (b : NameBook) (c : Category) (caches : List (String × CacheInfo)) :
    Observation.ofFamilies b c (Collector.cacheFamilies c.stem caches)
      = caches.map (fun x =>
          ⟨c, b.counterName c (c.external "cache_hit"), some (.whole x.2.hits), [x.1]⟩)
        ++ caches.map (fun x =>
          ⟨c, b.counterName c (c.external "cache_miss"), some (.whole x.2.misses), [x.1]⟩)
        ++ caches.map (fun x =>
          ⟨c, b.counterName c (c.external "cache_requests"),
            some (.whole (x.2.hits + x.2.misses)), [x.1]⟩)
        ++ caches.map (fun x => ⟨c, "cache_size", some (.whole x.2.size), [x.1]⟩)
        ++ caches.filterMap fun x =>
          x.2.capacity.map fun n => ⟨c, "cache_max_size", some (.whole n), [x.1]⟩ := by
  simp [Observation.ofFamilies, Collector.cacheFamilies, Function.comp_def, List.map_filterMap,
    ofSample_cacheCounter, ofSample_cacheGauge]

lemma cacheObservations_subset {caches : List (String × CacheInfo)} (member : (name, info) ∈ caches)
    {o : Observation} (ho : o ∈ cacheObservations b c name info) :
    o ∈ Observation.ofFamilies b c (Collector.cacheFamilies c.stem caches) := by
  rw [ofFamilies_cacheFamilies]
  simp only [cacheObservations, List.mem_append, List.mem_cons, List.not_mem_nil, or_false,
    List.mem_map, List.mem_filterMap, Option.mem_toList, Option.map_eq_some_iff] at ho ⊢
  rcases ho with (rfl | rfl | rfl | rfl) | ⟨n, bounded, rfl⟩
  · exact Or.inl (Or.inl (Or.inl (Or.inl ⟨_, member, rfl⟩)))
  · exact Or.inl (Or.inl (Or.inl (Or.inr ⟨_, member, rfl⟩)))
  · exact Or.inl (Or.inl (Or.inr ⟨_, member, rfl⟩))
  · exact Or.inl (Or.inr ⟨_, member, rfl⟩)
  · exact Or.inr ⟨_, member, n, bounded, rfl⟩

end Observing

section Attached

variable {c : Category} {name : String} {cache : CacheId} {k : CollectorId}

lemma collect_caches {s t : Site} {stem : String} {attached : Index String CacheId}
    {families : List Family} (caches : s.collector k = .caches stem attached)
    (collected : Site.collect k s = .ok families t) :
    families = Collector.cacheFamilies stem (attached.entries.map fun e => (e.1, s.cache e.2)) := by
  let u : Site := { s with activity := s.activity ++ [.collected k] }
  obtain ⟨v, inspected, -⟩ := Site.inspectAll_steady (s := u) attached.entries
  have run : Site.collect k s = Site.familiesOf (s.collector k) u := rfl
  rw [run, caches, Site.familiesOf, bind_of_ok inspected] at collected
  cases collected
  rfl

/-- A cache is attached to a cache collector under its name. -/
lemma collector_attachTo {s : Site} (placed : k.index < s.collectors.length) {stem : String}
    {attached : Index String CacheId} (caches : s.collector k = .caches stem attached) :
    (endOf (attachTo k name cache s)).collector k = .caches stem (attached.put name cache) := by
  rw [attachTo, modify_ok, endOf]
  simp only [caches]
  rw [Site.collector_withCollector placed, if_pos rfl]

/-- A cache that was attached is attached to the collector that the system remembers. -/
lemma attached_of_ok {d e : Deployment} (enabled : d.system.isEnabled c = true)
    (attached : attachCache c name cache d = .ok () e) :
    ∃ k s, e.system.shared.get? c = some k ∧ e.site = endOf (attachTo k name cache s) := by
  by_cases taken : name ∈ d.system.cacheNames
  · rw [attachCache, bind_system, if_pos enabled, if_pos taken] at attached
    cases attached
  · rw [attachCache_eq enabled taken, attachShared_eq] at attached
    rcases sharedCollector_cases c d with
      ⟨k, kept, run⟩ | ⟨-, ⟨fault, m, -, run⟩ | ⟨m, -, run⟩⟩
    · rw [run] at attached
      cases attached
      exact ⟨k, _, kept, rfl⟩
    · rw [run] at attached
      cases attached
    · rw [run] at attached
      cases attached
      exact ⟨_, _, Index.get?_put_self _ _ _, rfl⟩

/-- The cache that was attached last is among those of its collector. -/
lemma attached_entry {s : Site} {stem : String} {attached : Index String CacheId}
    (placed : k.index < (endOf (attachTo k name cache s)).collectors.length)
    (caches : (endOf (attachTo k name cache s)).collector k = .caches stem attached) :
    (name, cache) ∈ attached.entries := by
  have aside := attachTo_aside name k cache s
  have room : (endOf (attachTo k name cache s)).collectors.length = s.collectors.length := by
    rw [attachTo, modify_ok, endOf]
    split
    · simp [Site.withCollector]
    · rfl
  rw [room] at placed
  have declared := aside.grows.declared k placed
  rw [caches] at declared
  obtain ⟨before, was⟩ := Collector.caches_of_declared declared.symm
  rw [collector_attachTo placed was] at caches
  cases caches
  exact Index.mem_entries_iff.mpr (Index.get?_put_self _ _ _)

/-- In a sound deployment a category can be read, and every listed cache collector of it is read
with the observations of its caches. -/
lemma Deployment.Sound.reads_caches {e : Deployment} (sound : e.Sound) (c : Category) :
    ∃ readings u, System.readings c (e.listed c) e = .ok readings u
      ∧ ∀ k ∈ e.listed c, ∀ attached, e.site.collector k = .caches c.stem attached →
        ∀ name cache, (name, cache) ∈ attached.entries →
          ∀ o ∈ cacheObservations e.system.book c name (e.site.cache cache), (k, o) ∈ readings := by
  obtain ⟨given, u, ⟨each, gave, -⟩, read⟩ :=
    readings_calm c sound.calm (e.listed c) fun j hj => sound.tidy.nameable hj
  refine ⟨_, u, read, ?_⟩
  intro k listed attached caches name cache entry o ho
  rw [← each] at listed
  obtain ⟨⟨j, families⟩, hg, rfl⟩ := List.mem_map.mp listed
  obtain ⟨t, v, notes, collected, -⟩ := gave _ hg
  have still : t.collector j = .caches c.stem attached := (notes.collector j).trans caches
  have numbers : t.cache = e.site.cache := by
    rw [notes.onlyActivity]
    rfl
  have shown : families = _ := collect_caches still collected
  rw [numbers] at shown
  subst shown
  refine List.mem_flatMap.mpr ⟨_, hg, List.mem_map_of_mem (cacheObservations_subset ?_ ho)⟩
  exact List.mem_map_of_mem (f := fun x => (x.1, e.site.cache x.2)) entry

/-- A cache that was attached under an enabled category is observed, hits, misses, requests, size
and capacity, exactly if the collector it was attached to has not been displaced since it was
registered, by the first cache of the category since the last reset. -/
theorem attached_observed_iff {enabled : Distinct Category} {timers : Bool} {r : RegistryId}
    {s : Site} {ms : List Moment} {d e : Deployment} (room : r.index < s.registries.length)
    (calm : s.Calm)
    (run : Run (fun d t => d.Spared t ∧ t.Calm) ⟨fresh enabled timers r, s⟩ ms d)
    (recorded : d.system.isEnabled c = true) (attached : attachCache c name cache d = .ok () e) :
    ∃ k earlier m later,
      ms ++ [⟨d, .attachCache c name cache⟩] = earlier ++ m :: later
      ∧ m.call.Attaches c ∧ m.Registers c k ∧ (∀ m' ∈ later, m'.resets = false)
      ∧ ∃ readings u, System.readings c (e.listed c) e = .ok readings u
        ∧ System.observations (some c) e = .ok (readings.map Prod.snd) u
        ∧ ((∀ o ∈ cacheObservations e.system.book c name (e.site.cache cache), (k, o) ∈ readings)
          ↔ ∀ m' ∈ later, ¬ m'.Displaces c k) := by
  have first : Deployment.Sound ⟨fresh enabled timers r, s⟩ := sound_fresh room calm
  have ends : Moment.after ⟨d, .attachCache c name cache⟩ = e := by
    rw [Moment.after, Call.perform, attached]
    rfl
  have whole := run.call (.attachCache c name cache)
  rw [ends] at whole
  obtain ⟨k, s', shared, site⟩ := attached_of_ok recorded attached
  obtain ⟨earlier, m, later, split, ⟨attaches, registered⟩, going⟩ := whole.shared_since rfl shared
  obtain ⟨-, listed⟩ := whole.listed_iff_of_registers first split registered going
  obtain ⟨placed, caches, held⟩ := whole.caches_of_registers (fun _ _ h => h.1.grows) first.tidy
    (by simp [split]) attaches registered
  obtain ⟨readings, u, read, shown⟩ := (whole.sound first).reads_caches c
  refine ⟨k, earlier, m, later, split, attaches, registered, going, readings, u, read,
    observations_of_readings read, ?_⟩
  rw [← listed]
  constructor
  · intro observed
    exact (mem_readings read (observed _ List.mem_cons_self)).1
  · intro now
    refine shown k now caches held name cache ?_
    rw [site] at placed held
    exact attached_entry placed held

/-- A site with a cache and a supplier, and a new system on it. -/
def Deployment.caching : Deployment :=
  ⟨.fresh (.ofList [⟨"shop", none⟩]) true ⟨0⟩,
    { suppliers := [.constant (.value (some 3))], caches := [⟨5, 2, some 8, 3⟩],
      registries := [.vacant true] }⟩

/-- A cache, and after it a gauge with the family of the hits. -/
def hitsReplaced : List Call :=
  [.attachCache ⟨"shop", none⟩ "first" ⟨0⟩, .gauge ⟨"shop", none⟩ "cache_hit" "h" ⟨0⟩]

lemma Deployment.caching_calm : Deployment.caching.site.Calm := by
  intro t ht
  rw [List.mem_singleton.mp ht]
  rintro _ _ _ ⟨⟩

theorem attached_observed_iff_hits_replaced :
    (⟨0⟩ : RegistryId).index < Deployment.caching.site.registries.length
      ∧ Deployment.caching.site.Calm
      ∧ (reached .caching hitsReplaced).system.isEnabled ⟨"shop", none⟩ = true
      ∧ ∃ e, attachCache ⟨"shop", none⟩ "second" ⟨0⟩ (reached .caching hitsReplaced) = .ok () e
        ∧ ∃ k earlier m later,
          moments .caching hitsReplaced
              ++ [⟨reached .caching hitsReplaced, .attachCache ⟨"shop", none⟩ "second" ⟨0⟩⟩]
            = earlier ++ m :: later
          ∧ m.call.Attaches ⟨"shop", none⟩ ∧ m.Registers ⟨"shop", none⟩ k
          ∧ (∀ m' ∈ later, m'.resets = false)
          ∧ ∃ readings u,
            System.readings ⟨"shop", none⟩ (e.listed ⟨"shop", none⟩) e = .ok readings u
            ∧ System.observations (some ⟨"shop", none⟩) e = .ok (readings.map Prod.snd) u
            ∧ ((∀ o ∈ cacheObservations e.system.book ⟨"shop", none⟩ "second" (e.site.cache ⟨0⟩),
                (k, o) ∈ readings)
              ↔ ∀ m' ∈ later, ¬ m'.Displaces ⟨"shop", none⟩ k) :=
  ⟨by decide, Deployment.caching_calm, rfl, _, rfl,
    attached_observed_iff (by decide) Deployment.caching_calm (Run.of_calls _ .caching hitsReplaced)
      rfl rfl⟩

/-- The second cache is attached, and the gauge is all that is observed. -/
theorem attached_but_unobserved : ∃ e observations u,
    attachCache ⟨"shop", none⟩ "second" ⟨0⟩ (reached .caching hitsReplaced) = .ok () e
      ∧ System.observations (some ⟨"shop", none⟩) e = .ok observations u
      ∧ observations.map (fun o => (o.metric, o.labels)) = [("cache_hit", [])] :=
  ⟨_, _, _, rfl, rfl, by decide +kernel⟩

end Attached

end Metering
