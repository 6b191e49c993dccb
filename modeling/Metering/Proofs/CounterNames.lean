import Metering.Proofs.SystemMemory
import Metering.Proofs.SystemReadings

/-!
# Which counter names come back

The family of a counter does not tell whether its name had the ending `_total`, and the book that
knows is shared by all categories. So a name without the ending comes back as it was exactly if the
name with the ending has not been declared for any counter. A counter named `total` even loses its
last letters into the stem of its category.
-/

namespace Metering

/-- The ending can only come from the name, or be made up of its word and the underscore before. -/
lemma ending_of_append {lead word tail rest : List Char} (plain : '_' ∉ tail)
    (h : lead ++ '_' :: word = rest ++ '_' :: tail) :
    word = tail ∨ ∃ front, word = front ++ '_' :: tail := by
  rcases List.append_eq_append_iff.mp h with ⟨between, -, split⟩ | ⟨between, -, split⟩
  · cases between with
    | nil =>
      rw [List.nil_append] at split
      exact Or.inl (List.cons.inj split).2
    | cons x between =>
      rw [List.cons_append] at split
      exact Or.inr ⟨between, (List.cons.inj split).2⟩
  · cases between with
    | nil =>
      rw [List.nil_append] at split
      exact Or.inl (List.cons.inj split).2.symm
    | cons x between =>
      rw [List.cons_append] at split
      refine absurd ?_ plain
      rw [(List.cons.inj split).2]
      exact List.mem_append_right _ List.mem_cons_self

namespace Category

/-- The stem without its last underscore. -/
def trunk (c : Category) : String := c.application.getD "" ++ c.name

lemma stem_eq (c : Category) : c.stem = c.trunk ++ "_" := rfl

/-- An external name can end in `_total` in two ways. -/
lemma name_of_external {c : Category} {name rest : String}
    (h : c.external name = rest ++ Family.totalSuffix) :
    name = "total" ∨ ∃ front, name = front ++ Family.totalSuffix := by
  have letters : c.trunk.toList ++ '_' :: name.toList = rest.toList ++ '_' :: "total".toList := by
    have := congrArg String.toList h
    simpa [external, stem_eq, Family.totalSuffix] using this
  rcases ending_of_append (by decide) letters with word | ⟨front, word⟩
  · exact Or.inl (String.toList_inj.mp word)
  · refine Or.inr ⟨String.ofList front, String.toList_inj.mp ?_⟩
    simpa [Family.totalSuffix] using word

lemma logical_trunk (c : Category) : c.logical c.trunk = c.trunk := by
  rw [logical]
  cases h : Text.behind? c.stem c.trunk with
  | none => rfl
  | some rest =>
    have longer := congrArg String.length (Text.behind?_eq_some_iff.mp h)
    rw [stem_eq, String.length_append, String.length_append] at longer
    have : "_".length = 1 := rfl
    omega

end Category

namespace Family

lemma counterStem_of_suffixed (c : Category) (front : String) :
    counterStem (c.external (front ++ totalSuffix)) = c.external front := by
  rw [counterStem, Category.external, ← String.append_assoc, Text.before?_append]
  rfl

lemma counterStem_of_plain {c : Category} {name : String} (word : name ≠ "total")
    (plain : Text.endsWith totalSuffix name = false) :
    counterStem (c.external name) = c.external name := by
  rw [counterStem]
  cases h : Text.before? totalSuffix (c.external name) with
  | none => rfl
  | some rest =>
    rcases Category.name_of_external (Text.before?_eq_some_iff.mp h) with total | suffixed
    · exact absurd total word
    · rw [Text.endsWith_iff.mpr suffixed] at plain
      cases plain

lemma counterStem_total (c : Category) : counterStem (c.external "total") = c.trunk := by
  have external : c.external "total" = c.trunk ++ totalSuffix := by
    rw [Category.external, Category.stem_eq, String.append_assoc]
    rfl
  rw [counterStem, external, Text.before?_append]
  rfl

end Family

namespace NameBook

variable {b : NameBook} {c : Category} {name : String}

/-- The name of a counter can be told from its family and the book. -/
def Tells (b : NameBook) (c : Category) (name : String) : Prop :=
  if name = "total" then c.stem = "total_" ∧ "total_total" ∉ b.suffixed
  else Text.endsWith Family.totalSuffix name = true ∨ name ++ Family.totalSuffix ∉ b.suffixed

/-- A counter whose own name is in the book, if it has the ending, gets it back exactly if the book
tells it. -/
lemma counterName_eq_iff
    (known : Text.endsWith Family.totalSuffix name = true → name ∈ b.suffixed) :
    b.counterName c (Family.counterStem (c.external name)) = name ↔ b.Tells c name := by
  rw [Tells]
  by_cases word : name = "total"
  · subst word
    rw [if_pos rfl, Family.counterStem_total, counterName, c.logical_trunk, Category.stem_eq]
    have cut : "total_" = "total" ++ "_" := rfl
    rw [cut, String.append_left_inj]
    by_cases taken : c.trunk ++ Family.totalSuffix ∈ b.suffixed
    · rw [if_pos taken]
      constructor
      · intro short
        have length := congrArg String.length short
        rw [String.length_append] at length
        have : Family.totalSuffix.length = 6 := rfl
        have : "total".length = 5 := rfl
        omega
      · rintro ⟨trunk, free⟩
        rw [trunk] at taken
        exact absurd taken free
    · rw [if_neg taken]
      constructor
      · intro trunk
        rw [trunk] at taken
        exact ⟨trunk, taken⟩
      · exact And.left
  · rw [if_neg word]
    cases suffixed : Text.endsWith Family.totalSuffix name with
    | true =>
      obtain ⟨front, rfl⟩ := Text.endsWith_iff.mp suffixed
      rw [Family.counterStem_of_suffixed, counterName, c.logical_external]
      simp [known suffixed]
    | false =>
      rw [Family.counterStem_of_plain word suffixed, counterName, c.logical_external]
      by_cases taken : name ++ Family.totalSuffix ∈ b.suffixed
      · have longer : name ++ Family.totalSuffix ≠ name := by simp [Family.totalSuffix]
        simp [taken, longer]
      · simp [taken]

end NameBook

section Counters

open Metering.System

variable {d : Deployment} {ms : List Moment} {c : Category} {name : String} {k : CollectorId}

/-- A call that declares a counter offers a collector with its family. -/
lemma Call.outline_of_counter {call : Call} (counter : call.counter? = some (c, name)) {o : Offer}
    (offered : o ∈ call.offers) :
    o.2.outline = [(.counter, Family.counterStem (c.external name))] := by
  cases call with
  | labelled kind | single kind | supplied kind =>
    cases kind with
    | counter =>
      cases counter
      rw [List.mem_singleton.mp offered]
      rfl
    | _ => cases counter
  | _ => cases counter

/-- As long as the collector of a counter is listed, its name is remembered and its family is the
one that was declared. -/
lemma Run.counter_listed {others : Deployment → Site → Prop} {start : Deployment}
    (run : Run others start ms d) (growing : ∀ d t, others d t → d.site.Grows t)
    (first : start.system.roster.Tidy start.site) {m : Moment} (hm : m ∈ ms)
    (counter : m.call.counter? = some (c, name)) (registered : m.Registers c k) {c' : Category}
    (listed : k ∈ d.listed c') :
    Declared ms name
      ∧ (d.site.collector k).outline = [(.counter, Family.counterStem (c.external name))] := by
  induction run with
  | start => exact absurd hm List.not_mem_nil
  | @call ms d run call ih =>
    obtain ⟨going, origin⟩ := Moment.listed_after listed
    rw [declared_snoc]
    rcases List.mem_append.mp hm with earlier | now
    · have placed := run.placed growing first earlier registered
      rcases origin with old | ⟨⟨late, -⟩, -⟩
      · obtain ⟨declared, outline⟩ := ih earlier old
        refine ⟨⟨Moment.resets_eq_false going, Or.inl declared⟩, ?_⟩
        rw [Collector.outline_congr (Moment.grows ⟨d, call⟩ |>.declared k placed), outline]
      · have late : d.site.collectors.length ≤ k.index := late
        omega
    · obtain rfl := List.mem_singleton.mp now
      rcases origin with old | ⟨-, offered⟩
      · have placed := (run.tidy growing first).placed old
        have late : d.site.collectors.length ≤ k.index := registered.1
        omega
      · refine ⟨⟨Moment.resets_eq_false going, Or.inr ⟨c, counter⟩⟩, ?_⟩
        rw [← Collector.outline_declared]
        exact Call.outline_of_counter counter offered
  | others run h ih =>
    obtain ⟨declared, outline⟩ := ih hm listed
    have placed := run.placed growing first hm registered
    exact ⟨declared, by rw [Collector.outline_congr ((growing _ _ h).declared k placed), outline]⟩

/-- The observations of a collector with one family, a counter, get their name from the book. -/
lemma metric_of_counter {b : NameBook} {x : Collector} {family : String} {families : List Family}
    {o : Observation} (outline : x.outline = [(.counter, family)])
    (shown : families.map (fun f => (f.type, f.name)) = x.outline)
    (ho : o ∈ Observation.ofFamilies b c families) : o.metric = b.counterName c family := by
  rw [outline] at shown
  obtain ⟨f, rfl, same⟩ := List.map_eq_singleton_iff.mp shown
  obtain ⟨type, named⟩ := Prod.mk.inj same
  rw [Observation.ofFamilies, List.flatMap_singleton] at ho
  obtain ⟨sample, -, rfl⟩ := List.mem_map.mp ho
  rw [Observation.ofSample, Observation.metricName, type, named]

/-- The name under which a counter comes back is the one that it was declared with exactly if no
counter has been declared with the same name and the ending `_total`, in any category, since the
last completed shutdown. A name that has the ending comes back in any case, and the name `total`
only under a category with this very name. -/
theorem metric_eq_iff {enabled : Distinct Category} {timers : Bool} {r : RegistryId} {s : Site}
    {e : Deployment} {readings : List (CollectorId × Observation)}
    (run : Run (fun d t => d.site.Grows t) ⟨fresh enabled timers r, s⟩ ms d)
    (read : System.readings c (d.listed c) d = .ok readings e) :
    System.observations (some c) d = .ok (readings.map Prod.snd) e
      ∧ ∀ m ∈ ms, ∀ name k, m.call.counter? = some (c, name) → m.Registers c k →
        ∀ o, (k, o) ∈ readings →
          (o.metric = name ↔
            if name = "total" then c.stem = "total_" ∧ ¬ Declared ms "total_total"
            else Text.endsWith Family.totalSuffix name = true
              ∨ ¬ Declared ms (name ++ Family.totalSuffix)) := by
  refine ⟨observations_of_readings read, ?_⟩
  intro m hm name k counter registered o own
  obtain ⟨listed, families, shown, ho⟩ := mem_readings read own
  obtain ⟨declared, outline⟩ := run.counter_listed (fun _ _ h => h) (tidy_vacant r s) hm counter
    registered listed
  have book := run.mem_book_iff rfl
  have ending : ∀ front, Text.endsWith Family.totalSuffix (front ++ Family.totalSuffix) = true :=
    fun front => Text.endsWith_iff.mpr ⟨front, rfl⟩
  have total : Text.endsWith Family.totalSuffix "total_total" = true := ending "total"
  rw [metric_of_counter outline shown ho,
    NameBook.counterName_eq_iff fun suffixed => (book name).mpr ⟨suffixed, declared⟩,
    NameBook.Tells, book, book]
  simp only [ending, total, true_and]

/-- A counter, and after it one whose name has the ending, under a category that is not enabled. -/
def endingDeclared : List Call :=
  [.labelled .counter ⟨"shop", none⟩ "jobs" "h" [],
   .labelled .counter ⟨"bank", none⟩ "jobs_total" "h" []]

/-- A system after those calls. -/
def renamed : Deployment := reached (.small [⟨"shop", none⟩]) endingDeclared

/-- The counter comes back under a name that its category has never declared. -/
theorem metric_ne_after_ending : ∃ readings e o,
    System.readings ⟨"shop", none⟩ (renamed.listed ⟨"shop", none⟩) renamed = .ok readings e
      ∧ (⟨0⟩, o) ∈ readings ∧ o.metric = "jobs_total" :=
  ⟨_, _, _, rfl, List.mem_cons_self, rfl⟩

theorem metric_eq_iff_renamed : ∃ readings e o,
    System.readings ⟨"shop", none⟩ (renamed.listed ⟨"shop", none⟩) renamed = .ok readings e
      ∧ (⟨0⟩, o) ∈ readings
      ∧ System.observations (some ⟨"shop", none⟩) renamed = .ok (readings.map Prod.snd) e
      ∧ (o.metric = "jobs" ↔
        if "jobs" = "total" then Category.stem ⟨"shop", none⟩ = "total_"
          ∧ ¬ Declared (moments (.small [⟨"shop", none⟩]) endingDeclared) "total_total"
        else Text.endsWith Family.totalSuffix "jobs" = true
          ∨ ¬ Declared (moments (.small [⟨"shop", none⟩]) endingDeclared)
            ("jobs" ++ Family.totalSuffix)) := by
  obtain ⟨whole, each⟩ := metric_eq_iff (d := renamed) (c := ⟨"shop", none⟩)
    (Run.of_calls _ _ endingDeclared) rfl
  refine ⟨_, _, _, rfl, List.mem_cons_self, whole, ?_⟩
  exact each ⟨.small [⟨"shop", none⟩], .labelled .counter ⟨"shop", none⟩ "jobs" "h" []⟩
    List.mem_cons_self _ _ rfl ⟨Nat.le_refl _, List.mem_cons_self⟩ _ List.mem_cons_self

end Counters

end Metering
