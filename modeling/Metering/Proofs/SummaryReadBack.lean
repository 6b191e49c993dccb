import Metering.Proofs.ObservationAddresses
import Metering.Proofs.StreamPages

/-!
# External summaries read back

The samples of an external summary are told apart by the endings of their names, and a quantile has
the name of the metric itself. So the numbers of a digest always come back, in order and under that
name, but the quantiles of a metric whose last word is `sum`, `count` or `created` are labelled with
this word, as if they were a sum, a count or a creation time (`summary_read_back`).
-/

namespace Metering

open Metering.System

/-- How the quantiles of a summary are meant to be labelled. -/
def quantileLabels (text : String) : List String := ["quantile", text]

/-- How the quantiles of a summary with this name are labelled. -/
def readLabels (name text : String) : List String :=
  if Text.lastWord name ∈ summaryWords then [text, Text.lastWord name] else quantileLabels text

/-- The observations of a digest: its quantiles, its count and its sum. -/
def Digest.observations (D : Digest) (c : Category) (name : String)
    (labels : String → List String) : List Observation :=
  D.quantiles.map (fun q => ⟨c, name, some q.value, labels (Decimal.quantileText q.level)⟩)
    ++ [⟨c, name, some (.whole D.count), ["count"]⟩, ⟨c, name, some D.sum, ["sum"]⟩]

section Digests

variable {c : Category} {name help : String} {D : Digest}

/-- The labels are as they are meant to be unless there are quantiles and the last word of the name
stands for something else. -/
lemma Digest.observations_eq_iff :
    D.observations c name (readLabels name) = D.observations c name quantileLabels
      ↔ D.quantiles = [] ∨ Text.lastWord name ∉ summaryWords := by
  constructor
  · intro same
    by_contra taken
    push Not at taken
    obtain ⟨some_quantile, word⟩ := taken
    obtain ⟨q, qs, split⟩ := List.exists_cons_of_ne_nil some_quantile
    rw [observations, observations, split] at same
    have labels := congrArg Observation.labels (List.cons.inj same).1
    simp only [readLabels, if_pos word, quantileLabels, List.cons.injEq, and_true] at labels
    have mistaken : "quantile" ∈ summaryWords := by
      rw [← labels.1, ← labels.2]
      exact word
    exact absurd mistaken (by decide)
  · rintro (no_quantile | other)
    · rw [observations, observations, no_quantile]
      rfl
    · have plain : readLabels name = quantileLabels := funext fun _ => if_neg other
      rw [plain]

/-- The last word of an external name is that of the logical one. -/
lemma summaryEnding?_external (c : Category) (name : String) :
    summaryEnding? (c.external name)
      = if Text.lastWord name ∈ summaryWords then some (Text.lastWord name) else none := by
  have split : c.external name = c.application.getD "" ++ c.name ++ ("_" ++ name) := by
    simp only [Category.external, Category.stem, String.append_assoc]
  rw [split, summaryEnding?_behind]

lemma ofFamilies_digest (b : NameBook) :
    Observation.ofFamilies b c
        [⟨c.external name, .summary, help, Collector.digestSamples (c.external name) D⟩]
      = D.observations c name (readLabels name) := by
  have labels : ∀ text, (summaryEnding? (c.external name)).elim ["quantile", text]
      (fun word => [text, word]) = readLabels name text := by
    intro text
    rw [summaryEnding?_external, readLabels]
    split <;> rfl
  have shown := shown_digest (c.external name) D
  simp only [labels] at shown
  have read := congrArg (List.map fun p => (⟨c, name, p.1, p.2⟩ : Observation)) shown
  rw [List.map_map, List.map_append, List.map_map] at read
  rw [Observation.ofFamilies, List.flatMap_singleton, Digest.observations]
  refine Eq.trans (List.map_congr_left fun x _ => ?_) read
  simp only [Observation.ofSample, Observation.metricName, c.logical_external, Function.comp_apply]

end Digests

namespace Site

/-- The supplier answers with digests. -/
def Digests (s : Site) (i : SupplierId) : Prop :=
  ∃ script, s.suppliers[i.index]? = some script ∧ ∀ n, ∃ D, script.answer n = .digest D

variable {s t : Site} {i : SupplierId} {k : CollectorId}

lemma Digests.notes (digests : s.Digests i) (notes : s.Notes t) : t.Digests i := by
  obtain ⟨noted, rfl⟩ := notes
  exact digests

lemma Digests.nextAnswer (digests : s.Digests i) : ∃ D, s.nextAnswer i = .digest D := by
  obtain ⟨script, known, answers⟩ := digests
  obtain ⟨D, answer⟩ := answers (s.callsOf i)
  refine ⟨D, ?_⟩
  rw [Site.nextAnswer, known, ← answer]
  rfl

/-- Collecting an external summary asks its supplier once, and shows the digest that it answers. -/
lemma collect_summary {name help : String} {families : List Family} {D : Digest}
    (summary : s.collector k = .summary name help i) (answer : s.nextAnswer i = .digest D)
    (collected : Site.collect k s = .ok families t) :
    families = [⟨name, .summary, help, Collector.digestSamples name D⟩]
      ∧ t = s.noting [.collected k, .asked i] := by
  let u : Site := s.noting [.collected k]
  have run : Site.collect k s = familiesOf (s.collector k) u := rfl
  have next : u.nextAnswer i = .digest D := by
    rw [← answer, Site.nextAnswer, Site.nextAnswer, callsOf, callsOf]
    simp [u, noting]
  have asked : ask i u = .ok (.digest D) (u.noting [.asked i]) := by
    rw [ask, bind_get, next]
    rfl
  have given : askDigest i name u
      = .ok (Collector.digestSamples name D) (u.noting [.asked i]) := by
    rw [askDigest, bind_of_ok asked]
    rfl
  rw [run, summary, familiesOf, bind_of_ok given] at collected
  obtain ⟨f, v, declared, ends⟩ := ok_of_bind_ok collected
  obtain ⟨made, rfl⟩ := ofExcept_ok declared
  obtain ⟨rfl, -⟩ := declare_ok made
  cases ends
  exact ⟨rfl, by simp [u, noting]⟩

end Site

section Reading

variable {d e : Deployment} {c : Category} {name help : String} {i : SupplierId} {k : CollectorId}

/-- Whenever an external summary is collected, its supplier is asked once. Whatever the system is by
the time that a stream turns the samples into observations, these are those of the answer. -/
lemma observed_of_summary {s t : Site} {families : List Family}
    (summary : s.collector k = .summary (c.external name) help i) (digests : s.Digests i)
    (collected : Site.collect k s = .ok families t) :
    ∃ D, s.nextAnswer i = .digest D ∧ t = s.noting [.collected k, .asked i]
      ∧ ∀ later : System, (familySamples families).map (Stream.observed later c)
          = D.observations c name (readLabels name) := by
  obtain ⟨D, answer⟩ := digests.nextAnswer
  obtain ⟨rfl, ends⟩ := Site.collect_summary summary answer collected
  refine ⟨D, answer, ends, fun later => ?_⟩
  rw [← ofFamilies_eq_observed, ofFamilies_digest]

/-- Reading a category reads an external summary that it lists once. -/
lemma readFrom_summary {rs : List (CollectorId × Observation)} {ks : List CollectorId}
    (nodup : ks.Nodup) (listed : k ∈ ks)
    (summary : d.site.collector k = .summary (c.external name) help i)
    (digests : d.site.Digests i) (read : readings c ks d = .ok rs e) :
    ∃ t D, d.site.Notes t ∧ t.nextAnswer i = .digest D
      ∧ (t.noting [.collected k, .asked i]).Notes e.site
      ∧ readFrom k rs = D.observations c name (readLabels name) := by
  obtain ⟨given, gave, rfl⟩ := readings_ok read
  rw [← gave.each] at nodup listed
  obtain ⟨⟨j, families⟩, hg, rfl⟩ := List.mem_map.mp listed
  obtain ⟨t, u, before, collected, after⟩ := gave.collected _ hg
  have still : t.collector j = .summary (c.external name) help i := by
    rw [before.collector, summary]
  obtain ⟨D, answer, rfl, shown⟩ :=
    observed_of_summary still (digests.notes before) collected
  refine ⟨t, D, before, answer, after, ?_⟩
  rw [readFrom_readingsOf _ _ nodup hg, ofFamilies_eq_observed, shown]

end Reading

lemma Collector.eq_of_declared_summary {x : Collector} {name help : String} {i : SupplierId}
    (h : x.declared = .summary name help i) : x = .summary name help i := by
  cases x with
  | summary => exact h
  | _ => cases h

/-- A summary that is tracked under an enabled category is registered at the next place. -/
lemma Moment.registers_summary {m : Moment} {c : Category} {name help : String} {i : SupplierId}
    (called : m.call = .summary c name help i) (enabled : m.before.system.isEnabled c = true)
    (returned : m.returned = true) : m.Registers c m.before.site.nextPlace := by
  obtain ⟨d, call⟩ := m
  obtain rfl : call = .summary c name help i := called
  have run : Call.perform (.summary c name help i) d
      = discard (enroll c (.summary (c.external name) help i)) d := by
    rw [Call.perform, System.summary, Operation.bind_system, if_pos enabled]
  rw [Moment.returned, run, discard_eq] at returned
  refine ⟨Nat.le_refl _, ?_⟩
  rw [Moment.after, run, endOf_discard]
  cases enrolled : enroll c (.summary (c.external name) help i) d with
  | ok k e =>
    obtain ⟨rfl, listed⟩ := enroll_ok enrolled
    exact listed
  | error fault e =>
    rw [enrolled] at returned
    cases returned

section Runs

variable {others : Deployment → Site → Prop} {start d : Deployment} {ms : List Moment} {m : Moment}
  {c : Category} {name help : String} {i : SupplierId} {k : CollectorId}

lemma Run.collector_summary (run : Run others start ms d)
    (growing : ∀ d t, others d t → d.site.Grows t) (first : start.system.roster.Tidy start.site)
    (member : m ∈ ms) (called : m.call = .summary c name help i) (registered : m.Registers c k) :
    d.site.collector k = .summary (c.external name) help i := by
  have offered := run.offered_of_registers growing first member registered
  rw [called] at offered
  exact Collector.eq_of_declared_summary (congrArg Prod.snd (List.mem_singleton.mp offered))

/-- A summary that was tracked under an enabled category, from a supplier that answers with digests.
Whenever its collector is collected, the supplier is asked once and the observations are those of
its answer, also for a stream whose system has changed by the time that it gives the samples. While
the category lists the collector, a reading of the category reads it once. What is read are the
quantiles, the count and the sum, in this order and under the name of the metric; the quantiles are
labelled as they are meant to be unless the last word of the name stands for something else. -/
theorem summary_read_back (run : Run others start ms d)
    (growing : ∀ d t, others d t → d.site.Grows t) (first : start.system.roster.Tidy start.site)
    (member : m ∈ ms) (called : m.call = .summary c name help i)
    (enabled : m.before.system.isEnabled c = true) (returned : m.returned = true)
    (place : k = m.before.site.nextPlace) (digests : d.site.Digests i) :
    (∀ t u families, d.site.Notes t → Site.collect k t = .ok families u →
      ∃ D, t.nextAnswer i = .digest D ∧ u = t.noting [.collected k, .asked i]
        ∧ ∀ later : System, (familySamples families).map (Stream.observed later c)
            = D.observations c name (readLabels name))
    ∧ (d.site.Calm → ∃ rs e, readings c (d.listed c) d = .ok rs e)
    ∧ (k ∈ d.listed c → ∀ rs e, readings c (d.listed c) d = .ok rs e →
      observations (some c) d = .ok (rs.map Prod.snd) e
      ∧ ∃ t D, d.site.Notes t ∧ t.nextAnswer i = .digest D
        ∧ (t.noting [.collected k, .asked i]).Notes e.site
        ∧ readFrom k rs = D.observations c name (readLabels name)
        ∧ (readFrom k rs = D.observations c name quantileLabels
          ↔ D.quantiles = [] ∨ Text.lastWord name ∉ summaryWords)) := by
  have registered : m.Registers c k := by
    rw [place]
    exact Moment.registers_summary called enabled returned
  have summary := run.collector_summary growing first member called registered
  have tidy := run.tidy growing first
  refine ⟨fun t u families notes collected => ?_, fun calm => ?_, fun listed rs e read => ?_⟩
  · have still : t.collector k = .summary (c.external name) help i := by
      rw [(notes.onlyActivity.rearranged (i := ⟨0⟩)).collector, summary]
    exact observed_of_summary still (digests.notes notes) collected
  · obtain ⟨given, e, -, read⟩ := readings_calm c calm (d.listed c) fun j now => tidy.nameable now
    exact ⟨_, e, read⟩
  · obtain ⟨t, D, before, answer, after, shown⟩ :=
      readFrom_summary (tidy.nodup c) listed summary digests read
    refine ⟨observations_of_readings read, t, D, before, answer, after, shown, ?_⟩
    rw [shown]
    exact Digest.observations_eq_iff

end Runs

/-- A digest with one quantile. -/
def halfDigest : Digest := ⟨3, 1.5, [⟨0.5, 0.25⟩]⟩

/-- A site with a supplier that answers with this digest, and a new system on it. -/
def Deployment.digesting : Deployment :=
  ⟨.fresh (.ofList [⟨"shop", none⟩]) true ⟨0⟩,
    { suppliers := [.constant (.digest halfDigest)], registries := [.vacant true] }⟩

lemma Deployment.digesting_calm : Deployment.digesting.site.Calm := by
  intro t ht
  rw [List.mem_singleton.mp ht]
  rintro _ _ _ ⟨⟩

lemma Deployment.digesting_tidy :
    Deployment.digesting.system.roster.Tidy Deployment.digesting.site := tidy_vacant _ _

/-- A summary whose name has `sum` as its last word. -/
def tracked : List Call := [.summary ⟨"shop", none⟩ "bytes_sum" "h" ⟨0⟩]

theorem summary_read_back_tracked :
    let m : Moment := ⟨.digesting, .summary ⟨"shop", none⟩ "bytes_sum" "h" ⟨0⟩⟩
    let d := reached .digesting tracked
    m ∈ moments .digesting tracked ∧ m.before.system.isEnabled ⟨"shop", none⟩ = true
      ∧ m.returned = true ∧ (⟨0⟩ : CollectorId) = m.before.site.nextPlace ∧ d.site.Digests ⟨0⟩
      ∧ ⟨0⟩ ∈ d.listed ⟨"shop", none⟩
      ∧ ∃ rs e, ∃ D : Digest, readings ⟨"shop", none⟩ (d.listed ⟨"shop", none⟩) d = .ok rs e
        ∧ readFrom ⟨0⟩ rs = D.observations ⟨"shop", none⟩ "bytes_sum" (readLabels "bytes_sum") := by
  intro m d
  have member : m ∈ moments .digesting tracked := List.mem_cons_self
  have enabled : m.before.system.isEnabled ⟨"shop", none⟩ = true := by decide +kernel
  have returned : m.returned = true := by decide +kernel
  have digests : d.site.Digests ⟨0⟩ := ⟨_, rfl, fun _ => ⟨halfDigest, rfl⟩⟩
  have listed : ⟨0⟩ ∈ d.listed ⟨"shop", none⟩ := by decide +kernel
  have run := Run.of_calls (fun d t => d.site.Grows t) .digesting tracked
  obtain ⟨-, reads, read⟩ := summary_read_back run (fun _ _ grows => grows)
    Deployment.digesting_tidy member rfl enabled returned rfl digests
  obtain ⟨rs, e, ok⟩ := reads Deployment.digesting_calm
  obtain ⟨-, t, D, -, -, -, shown, -⟩ := read listed rs e ok
  exact ⟨member, enabled, returned, rfl, digests, listed, rs, e, D, ok, shown⟩

/-- Its quantile comes back with the label of a sum. -/
theorem quantile_read_as_sum : ∃ rs e,
    readings ⟨"shop", none⟩ [⟨0⟩] (reached .digesting tracked) = .ok rs e
      ∧ readFrom ⟨0⟩ rs
        ≠ halfDigest.observations ⟨"shop", none⟩ "bytes_sum" quantileLabels := by
  refine ⟨_, _, rfl, fun same => ?_⟩
  have read : halfDigest.observations ⟨"shop", none⟩ "bytes_sum" (readLabels "bytes_sum")
      = halfDigest.observations ⟨"shop", none⟩ "bytes_sum" quantileLabels := same
  rcases Digest.observations_eq_iff.mp read with no_quantile | other
  · exact absurd no_quantile (List.cons_ne_nil _ _)
  · exact absurd (by decide +kernel) other

end Metering
