import Mathlib.Data.List.Find
import Mathlib.Data.List.Nodup
import Metering.Proofs.CounterNames
import Metering.Proofs.SharedCacheCollector

/-!
# Addresses of observations

An observation is found again by its metric and its label values, its address. The samples of one
family are told apart by their label values (`Family.Addressed`). Those of two families are told
apart by their metrics, although a counter may come back under a name that is not that of its
family: the name always leads back into what the family claims, and that it claims alone
(`NameBook.external_metric_mem_claims`).
-/

namespace Metering

/-- What an observation is found by. -/
def Observation.address (o : Observation) : String × List String := (o.metric, o.labels)

/-- The metric of all samples of a family. -/
def NameBook.metric (b : NameBook) (c : Category) (type : FamilyType) (family : String) : String :=
  match type with
  | .counter => b.counterName c family
  | _ => c.logical family

/-- The metric of a family, as an external name, is one of the names that the family claims. -/
lemma NameBook.external_metric_mem_claims (b : NameBook) (c : Category) (type : FamilyType)
    (name : String) :
    c.external (b.metric c type (c.external name)) ∈ Family.claimsOf type (c.external name) := by
  cases type with
  | counter =>
    rw [metric, counterName, c.logical_external]
    by_cases suffixed : name ++ Family.totalSuffix ∈ b.suffixed
    · have suffixes : c.external (name ++ Family.totalSuffix)
          = c.external name ++ Family.totalSuffix := (String.append_assoc ..).symm
      rw [if_pos suffixed, suffixes]
      exact List.mem_cons_of_mem _ List.mem_cons_self
    · rw [if_neg suffixed]
      exact List.mem_cons_self
  | _ =>
    change c.external (c.logical (c.external name)) ∈ _
    rw [c.logical_external]
    exact List.mem_cons_self

/-- Whether the samples of a family of this type are read under the name of the family. -/
def FamilyType.isCompound : FamilyType → Bool
  | .counter | .summary | .histogram => true
  | _ => false

section Metrics

variable {b : NameBook} {c : Category} {f : Family}

lemma Observation.metricName_of_compound (compound : f.type.isCompound = true) (s : Sample) :
    metricName b c f s = b.metric c f.type f.name := by
  obtain ⟨name, type, help, samples⟩ := f
  cases type with
  | counter | summary | histogram => rfl
  | _ => cases compound

lemma Observation.metricName_of_single (single : f.type.isCompound = false) (s : Sample) :
    metricName b c f s = c.logical s.name := by
  obtain ⟨name, type, help, samples⟩ := f
  cases type with
  | counter | summary | histogram => cases single
  | _ => rfl

end Metrics

/-- The samples of the family have different label values, and the name of the family where they
are read under their own. -/
structure Family.Addressed (f : Family) : Prop where
  labels : (f.samples.map (Observation.labelValues f.type)).Nodup
  named : f.type.isCompound = true ∨ ∀ s ∈ f.samples, s.name = f.name

instance (f : Family) : Decidable f.Addressed :=
  decidable_of_iff ((f.samples.map (Observation.labelValues f.type)).Nodup
      ∧ (f.type.isCompound = true ∨ ∀ s ∈ f.samples, s.name = f.name))
    ⟨fun h => ⟨h.1, h.2⟩, fun h => ⟨h.labels, h.named⟩⟩

lemma Family.Addressed.metric {f : Family} (h : f.Addressed) (b : NameBook) (c : Category)
    {s : Sample} (hs : s ∈ f.samples) :
    Observation.metricName b c f s = b.metric c f.type f.name := by
  obtain ⟨name, type, help, samples⟩ := f
  cases type with
  | counter | summary | histogram => rfl
  | _ => exact congrArg c.logical (h.named.resolve_left Bool.false_ne_true s hs)

/-- Families that claim different names under the stem of a category give observations with
different addresses. -/
lemma addresses_nodup_of_claims {b : NameBook} {c : Category} {fs : List Family}
    (claims : (fs.flatMap Family.claims).Nodup) (under : ∀ f ∈ fs, ∃ name, f.name = c.external name)
    (addressed : ∀ f ∈ fs, f.Addressed) :
    ((Observation.ofFamilies b c fs).map Observation.address).Nodup := by
  obtain ⟨-, apart⟩ := List.nodup_flatMap.mp claims
  rw [Observation.ofFamilies, List.map_flatMap, List.nodup_flatMap]
  constructor
  · intro f hf
    have known : (f.samples.map (Observation.ofSample b c f)).map Observation.address
        = (f.samples.map (Observation.labelValues f.type)).map (b.metric c f.type f.name, ·) := by
      rw [List.map_map, List.map_map]
      refine List.map_congr_left fun s hs => ?_
      exact Prod.ext ((addressed f hf).metric b c hs) rfl
    rw [known]
    exact (addressed f hf).labels.map fun _ _ same => (Prod.mk.inj same).2
  · refine apart.imp_of_mem fun {f g} hf hg apart address ha ha' => ?_
    -- a shared address would be a shared metric, and so a name that both families claim
    have metric : ∀ f ∈ fs, address ∈ (f.samples.map (Observation.ofSample b c f)).map
        Observation.address → c.external address.1 ∈ f.claims := by
      intro f hf member
      simp only [List.map_map, List.mem_map] at member
      obtain ⟨s, hs, rfl⟩ := member
      obtain ⟨name, named⟩ := under f hf
      have read := (addressed f hf).metric b c hs
      change c.external (Observation.metricName b c f s) ∈ Family.claimsOf f.type f.name
      rw [read, named]
      exact b.external_metric_mem_claims c f.type name
    exact apart (metric f hf ha) (metric g hg ha')

section Labels

lemma Labels.entries_zip {names values : List String} (nodup : names.Nodup)
    (same : values.length = names.length) :
    (Labels.zip names values).entries = names.zip values := by
  refine Index.entries_ofList ?_
  rw [List.map_fst_zip (Nat.le_of_eq same.symm)]
  exact nodup

lemma Labels.values_zip {names values : List String} (nodup : names.Nodup)
    (same : values.length = names.length) : (Labels.zip names values).values = values := by
  rw [Index.values, Labels.entries_zip nodup same, List.map_snd_zip (Nat.le_of_eq same)]

lemma Labels.not_mem_zip {names values : List String} {own : String} (nodup : names.Nodup)
    (same : values.length = names.length) (absent : own ∉ names) :
    own ∉ Labels.zip names values := by
  rw [Index.mem_def, Index.keys, Labels.entries_zip nodup same,
    List.map_fst_zip (Nat.le_of_eq same.symm)]
  exact absent

/-- Combinations of one length stay different from each other with different endings. -/
lemma nodup_append_endings {combinations endings : List (List String)} {n : Nat}
    (nodup : combinations.Nodup) (even : ∀ values ∈ combinations, values.length = n)
    (distinct : endings.Nodup) :
    (combinations.flatMap fun values => endings.map (values ++ ·)).Nodup := by
  rw [List.nodup_flatMap]
  constructor
  · intro values _
    exact distinct.map fun _ _ same => List.append_cancel_left same
  · refine nodup.imp_of_mem fun {values others} hv ho different full hfull hfull' => ?_
    obtain ⟨ending, -, rfl⟩ := List.mem_map.mp hfull
    obtain ⟨ending', -, same⟩ := List.mem_map.mp hfull'
    have lengths := (even others ho).trans (even values hv).symm
    exact different (List.append_inj_left same lengths).symm

lemma beforeLast_append (word : String) (values : List String) (last : String) :
    Observation.beforeLast word (values ++ [last]) = values ++ [word, last] := by
  induction values with
  | nil => rfl
  | cons x values ih =>
    cases values with
    | nil => rfl
    | cons y values => exact congrArg (x :: ·) ih

end Labels

section Kinds

/-- The words that end the names of a summary's sum, count and creation time. -/
def summaryWords : List String := ["sum", "count", "created"]

/-- The one among them that the name of a sample ends with, behind an underscore. -/
def summaryEnding? (name : String) : Option String :=
  summaryWords.find? fun word => Text.endsWith ("_" ++ word) name

lemma labelValues_summary (x : Sample) :
    Observation.labelValues .summary x = match summaryEnding? x.name with
      | some word => x.labels.values ++ [word]
      | none => Observation.beforeLast "quantile" x.labels.values := by
  simp only [Observation.labelValues, summaryEnding?, summaryWords, List.find?_cons,
    String.reduceAppend]
  cases Text.endsWith "_sum" x.name <;> cases Text.endsWith "_count" x.name <;>
    cases Text.endsWith "_created" x.name <;> rfl

/-- Behind an underscore it is the last word that counts. -/
lemma summaryEnding?_behind (front rest : String) :
    summaryEnding? (front ++ ("_" ++ rest))
      = if Text.lastWord rest ∈ summaryWords then some (Text.lastWord rest) else none := by
  have plain : ∀ word ∈ summaryWords, '_' ∉ word.toList := by decide
  have known : summaryEnding? (front ++ ("_" ++ rest))
      = summaryWords.find? (Text.lastWord rest == ·) := by
    refine List.find?_congr fun word member => ?_
    rw [Bool.eq_iff_iff, Text.endsWith_word_iff (plain word member), beq_iff_eq]
  rw [known]
  split
  · next member =>
    obtain ⟨word, found⟩ := Option.isSome_iff_exists.mp
      (List.find?_isSome.mpr ⟨_, member, beq_self_eq_true _⟩)
    rw [found, beq_iff_eq.mp (List.find?_some found)]
  · next other =>
    refine List.find?_eq_none.mpr fun word member same => other ?_
    rw [beq_iff_eq.mp same]
    exact member

lemma summaryEnding?_word (front word : String) (member : word ∈ summaryWords) :
    summaryEnding? (front ++ ("_" ++ word)) = some word := by
  have plain : ∀ word ∈ summaryWords, '_' ∉ word.toList := by decide
  rw [summaryEnding?_behind, Text.lastWord_plain (plain word member), if_pos member]

/-- What the label values of an instrument's samples have after those of the combination. -/
def InstrumentKind.endings : InstrumentKind → List (List String)
  | .counter => [[], ["created"]]
  | .timer => [["count"], ["sum"], ["created"]]
  | .simpleTimer => [["bucket", "1.0"], ["bucket", "+Inf"], ["count"], ["sum"], ["created"]]

lemma labelValues_readings {i : Instrument} {values : List String} (t : Tally)
    (nodup : i.labels.Nodup) (own : ∀ label ∈ i.kind.ownLabel?, label ∉ i.labels)
    (same : values.length = i.labels.length) :
    (Instrument.readings i.kind t).map
        (fun r => Observation.labelValues i.kind.familyType (i.sample values r))
      = i.kind.endings.map (values ++ ·) := by
  have plain := Labels.values_zip nodup same
  have apart : ∀ tail back, Text.endsWith tail back = false → Text.endsWith back tail = false →
      Text.endsWith tail (i.familyName ++ back) = false := fun _ _ =>
    Text.endsWith_append_of_apart i.familyName
  have last : ∀ word : String, '_' ∉ word.toList →
      Text.lastWord (i.familyName ++ ("_" ++ word)) = word := fun _ =>
    Text.lastWord_append i.familyName
  cases kind : i.kind with
  | counter =>
    have total := apart "_created" "_total" (by decide +kernel) (by decide +kernel)
    have created := Text.endsWith_append_self i.familyName "_created"
    simp [Instrument.readings, Instrument.sample, InstrumentKind.familyType,
      Observation.labelValues, InstrumentKind.endings, Family.totalSuffix, plain, total, created]
  | timer =>
    have sum : summaryEnding? (i.familyName ++ "_sum") = some "sum" :=
      summaryEnding?_word i.familyName "sum" (by decide)
    have count : summaryEnding? (i.familyName ++ "_count") = some "count" :=
      summaryEnding?_word i.familyName "count" (by decide)
    have created : summaryEnding? (i.familyName ++ "_created") = some "created" :=
      summaryEnding?_word i.familyName "created" (by decide)
    simp [Instrument.readings, Instrument.sample, InstrumentKind.familyType, labelValues_summary,
      InstrumentKind.endings, plain, sum, count, created]
  | simpleTimer =>
    have bucket := Text.endsWith_append_self i.familyName "_bucket"
    have count := apart "_bucket" "_count" (by decide +kernel) (by decide +kernel)
    have sum := apart "_bucket" "_sum" (by decide +kernel) (by decide +kernel)
    have created := apart "_bucket" "_created" (by decide +kernel) (by decide +kernel)
    have le : ∀ bound,
        ((Labels.zip i.labels values).put "le" bound).values = values ++ [bound] := by
      intro bound
      rw [Index.values_put_of_not_mem, plain]
      exact Labels.not_mem_zip nodup same (own "le" (by rw [kind]; rfl))
    have counted : Text.lastWord (i.familyName ++ "_count") = "count" := last "count" (by decide)
    have summed : Text.lastWord (i.familyName ++ "_sum") = "sum" := last "sum" (by decide)
    have made : Text.lastWord (i.familyName ++ "_created") = "created" :=
      last "created" (by decide)
    simp [Instrument.readings, Instrument.sample, InstrumentKind.familyType,
      Observation.labelValues, InstrumentKind.endings, plain, bucket, count, sum, created, le,
      beforeLast_append, counted, summed, made]

lemma InstrumentKind.isCompound_familyType (kind : InstrumentKind) :
    kind.familyType.isCompound = true := by
  cases kind <;> rfl

lemma instrument_addressed {i : Instrument} (nodup : i.labels.Nodup)
    (own : ∀ label ∈ i.kind.ownLabel?, label ∉ i.labels)
    (even : ∀ values ∈ i.series, values.length = i.labels.length) : i.family.Addressed := by
  have distinct : i.kind.endings.Nodup := by cases i.kind <;> decide
  constructor
  · have known : i.samples.map (Observation.labelValues i.kind.familyType)
        = i.series.keys.flatMap fun values => i.kind.endings.map (values ++ ·) := by
      rw [Instrument.samples, List.map_flatMap, Index.keys, List.flatMap_map]
      refine List.flatMap_congr fun e he => ?_
      rw [List.map_map]
      exact labelValues_readings e.2 nodup own (even e.1 (List.mem_map_of_mem he))
    change (i.samples.map (Observation.labelValues i.kind.familyType)).Nodup
    rw [known]
    exact nodup_append_endings i.series.keys_nodup even distinct
  · exact Or.inl i.kind.isCompound_familyType

lemma gauge_addressed (name help : String) (x : Option Number) :
    Family.Addressed ⟨name, .gauge, help, Collector.gaugeSamples name x⟩ := by
  cases x with
  | none => exact ⟨List.nodup_nil, Or.inr fun _ h => absurd h List.not_mem_nil⟩
  | some x =>
    refine ⟨List.nodup_singleton _, Or.inr fun s hs => ?_⟩
    rw [List.mem_singleton.mp hs]

lemma askAll_ok {m : Supplied} {entries : List (List String × SupplierId)} {s t : Site}
    {samples : List Sample} (asked : Site.askAll m entries s = .ok samples t) :
    samples.map (fun x => (x.name, x.labels))
      = entries.map fun e => (m.familyName ++ m.kind.ending, Labels.zip m.labels e.1) := by
  induction entries generalizing samples s with
  | nil =>
    cases asked
    rfl
  | cons e entries ih =>
    obtain ⟨x, u, -, rest⟩ := ok_of_bind_ok asked
    obtain ⟨others, v, later, ends⟩ := ok_of_bind_ok rest
    cases ends
    exact congrArg (_ :: ·) (ih later)

section Supplied

variable {m : Supplied} {samples : List Sample}
  (given : samples.map (fun x => (x.name, x.labels))
    = m.suppliers.entries.map fun e => (m.familyName ++ m.kind.ending, Labels.zip m.labels e.1))

include given

lemma name_of_supplied {x : Sample} (hx : x ∈ samples) :
    x.name = m.familyName ++ m.kind.ending := by
  have member := List.mem_map_of_mem (f := fun x : Sample => (x.name, x.labels)) hx
  rw [given] at member
  obtain ⟨e, -, same⟩ := List.mem_map.mp member
  exact (Prod.mk.inj same).1.symm

variable (nodup : m.labels.Nodup)
  (even : ∀ values ∈ m.suppliers, values.length = m.labels.length)

include nodup even

/-- The samples of a supplied metric are read with the label values of its suppliers. -/
lemma labelValues_supplied :
    samples.map (Observation.labelValues m.kind.familyType) = m.suppliers.keys := by
  have plain : ∀ x ∈ samples,
      Observation.labelValues m.kind.familyType x = x.labels.values := by
    intro x hx
    have named := name_of_supplied given hx
    cases kind : m.kind with
    | counter =>
      rw [kind] at named
      have total : Text.endsWith "_created" (m.familyName ++ "_total") = false :=
        Text.endsWith_append_of_apart m.familyName (by decide +kernel) (by decide +kernel)
      rw [SuppliedKind.familyType, Observation.labelValues, named]
      change (if Text.endsWith "_created" (m.familyName ++ "_total") = true then _ else _) = _
      rw [total]
      rfl
    | gauge => rfl
  calc samples.map (Observation.labelValues m.kind.familyType)
    _ = (samples.map fun x => (x.name, x.labels)).map fun e => e.2.values := by
      rw [List.map_map]
      exact List.map_congr_left plain
    _ = m.suppliers.keys := by
      rw [given, List.map_map, Index.keys]
      refine List.map_congr_left fun e he => ?_
      exact Labels.values_zip nodup (even e.1 (List.mem_map_of_mem he))

lemma supplied_addressed :
    Family.Addressed ⟨m.familyName, m.kind.familyType, m.help, samples⟩ := by
  constructor
  · change (samples.map (Observation.labelValues m.kind.familyType)).Nodup
    rw [labelValues_supplied given nodup even]
    exact m.suppliers.keys_nodup
  · cases kind : m.kind with
    | counter => exact Or.inl rfl
    | gauge =>
      refine Or.inr fun x hx => ?_
      rw [name_of_supplied given hx, kind]
      exact String.append_empty

end Supplied

/-- The values and labels of a digest's samples. The quantiles share the ending of the family, the
count and the sum have their own. -/
lemma shown_digest (name : String) (d : Digest) :
    (Collector.digestSamples name d).map (fun x => (x.value, Observation.labelValues .summary x))
      = d.quantiles.map (fun q => (some q.value,
          (summaryEnding? name).elim ["quantile", Decimal.quantileText q.level]
            fun word => [Decimal.quantileText q.level, word]))
        ++ [(some (.whole d.count), ["count"]), (some d.sum, ["sum"])] := by
  have count : summaryEnding? (name ++ "_count") = some "count" :=
    summaryEnding?_word name "count" (by decide)
  have sum : summaryEnding? (name ++ "_sum") = some "sum" :=
    summaryEnding?_word name "sum" (by decide)
  simp only [Collector.digestSamples, List.map_append, List.map_map, List.map_cons, List.map_nil,
    Function.comp_def, labelValues_summary, count, sum]
  congr 1
  cases summaryEnding? name <;> rfl

/-- The quantiles of a digest have different texts. -/
def Digest.Distinct (d : Digest) : Prop :=
  (d.quantiles.map fun q => Decimal.quantileText q.level).Nodup

lemma summary_addressed {name help : String} {d : Digest} (distinct : d.Distinct) :
    Family.Addressed ⟨name, .summary, help, Collector.digestSamples name d⟩ := by
  refine ⟨?_, Or.inl rfl⟩
  let read (text : String) : List String :=
    (summaryEnding? name).elim ["quantile", text] fun word => [text, word]
  have labels : (Collector.digestSamples name d).map (Observation.labelValues .summary)
      = d.quantiles.map (fun q => read (Decimal.quantileText q.level)) ++ [["count"], ["sum"]] := by
    have shown := congrArg (List.map Prod.snd) (shown_digest name d)
    rw [List.map_append, List.map_map, List.map_map] at shown
    exact shown
  change ((Collector.digestSamples name d).map (Observation.labelValues .summary)).Nodup
  rw [labels, List.nodup_append]
  have injective : Function.Injective read := by
    intro text text' same
    cases ending : summaryEnding? name <;> simpa [read, ending] using same
  refine ⟨?_, by decide, ?_⟩
  · have all := distinct.map injective
    rwa [List.map_map] at all
  · intro values hv others ho same
    obtain ⟨q, -, rfl⟩ := List.mem_map.mp hv
    have shorter : others.length = 1 := by
      rcases List.mem_pair.mp ho with rfl | rfl <;> rfl
    rw [← same] at shorter
    cases ending : summaryEnding? name <;> simp [read, ending] at shorter

lemma caches_addressed {stem : String} {caches : List (String × CacheInfo)}
    (nodup : (caches.map Prod.fst).Nodup) :
    ∀ f ∈ Collector.cacheFamilies stem caches, f.Addressed := by
  have names : (caches.map fun c => [c.1]).Nodup := by
    have singles := nodup.map (f := fun name => [name]) fun _ _ => List.singleton_inj.mp
    rwa [List.map_map] at singles
  have counter : ∀ ending help (number : CacheInfo → Int), Family.Addressed
      ⟨stem ++ ending, .counter, help, caches.map fun c =>
        Collector.cacheSample (stem ++ ending ++ Family.totalSuffix) c.1 (number c.2)⟩ := by
    intro ending help number
    have plain : Text.endsWith "_created" (stem ++ ending ++ Family.totalSuffix) = false :=
      Text.endsWith_append_of_apart (stem ++ ending) (by decide +kernel) (by decide +kernel)
    refine ⟨?_, Or.inl rfl⟩
    simp only [List.map_map, Function.comp_def, Observation.labelValues, Collector.cacheSample,
      plain]
    exact names
  have size : Family.Addressed ⟨stem ++ "cache_size", .gauge, "Current number of cached entries",
      caches.map fun c => Collector.cacheSample (stem ++ "cache_size") c.1 c.2.size⟩ := by
    refine ⟨?_, Or.inr fun s hs => ?_⟩
    · rw [List.map_map]
      exact names
    · obtain ⟨c, -, rfl⟩ := List.mem_map.mp hs
      rfl
  have capacity : Family.Addressed ⟨stem ++ "cache_max_size", .gauge, "Configured cache capacity",
      caches.filterMap fun c =>
        c.2.capacity.map fun n => Collector.cacheSample (stem ++ "cache_max_size") c.1 n⟩ := by
    refine ⟨names.sublist ?_, Or.inr fun s hs => ?_⟩
    · clear nodup names counter size
      induction caches with
      | nil => exact .slnil
      | cons c caches ih =>
        cases bound : c.2.capacity with
        | none =>
          rw [List.filterMap_cons_none (by rw [bound]; rfl)]
          exact ih.cons _
        | some n =>
          rw [List.filterMap_cons_some (by rw [bound]; rfl)]
          exact ih.cons_cons _
    · obtain ⟨c, -, shown⟩ := List.mem_filterMap.mp hs
      obtain ⟨n, -, rfl⟩ := Option.map_eq_some_iff.mp shown
      rfl
  intro f hf
  simp only [Collector.cacheFamilies, List.mem_cons, List.not_mem_nil, or_false] at hf
  rcases hf with rfl | rfl | rfl | rfl | rfl
  · exact counter _ _ _
  · exact counter _ _ _
  · exact counter _ _ fun c => c.hits + c.misses
  · exact size
  · exact capacity

end Kinds

end Metering
