import Mathlib.Data.List.Forall2
import Metering.Proofs.ObservationAddresses

/-!
# Samples read one by one

Reading makes one observation of each sample, whatever the samples of a family look like: families
come from collectors of all kinds, which may leave out the bound of a bucket, give no labels, or use
names with endings of their own. The label values come back in their order, and at most one word
joins them, the mark of the sample. Which word it is and where it stands is told by the type of the
family and the ending of the sample's name (`FamilyType.Marks`, `Mark.Joins`), and nothing but the
metric of a counter depends on the names that were remembered.
-/

namespace Metering

/-- What joins the label values of a sample: nothing, a word behind the last value, or one in front
of it. -/
inductive Mark where
  | absent
  | last (word : String)
  | beforeLast (word : String)

namespace Mark

/-- How a mark joins label values. In front of the last value of none it stands alone. -/
inductive Joins : Mark → List String → List String → Prop where
  | absent (values : List String) : Joins .absent values values
  | last (word : String) (values : List String) : Joins (.last word) values (values ++ [word])
  | between (word : String) (front : List String) (value : String) :
      Joins (.beforeLast word) (front ++ [value]) (front ++ [word, value])
  | alone (word : String) : Joins (.beforeLast word) [] [word]

def join : Mark → List String → List String
  | .absent, values => values
  | .last word, values => values ++ [word]
  | .beforeLast word, values => Observation.beforeLast word values

lemma joins_iff {mark : Mark} {values labels : List String} :
    mark.Joins values labels ↔ labels = mark.join values := by
  constructor
  · intro joins
    cases joins with
    | absent => rfl
    | last => rfl
    | between word front value => exact (beforeLast_append word front value).symm
    | alone => rfl
  · rintro rfl
    cases mark with
    | absent => exact .absent values
    | last word => exact .last word values
    | beforeLast word =>
      rcases List.eq_nil_or_concat values with rfl | ⟨front, value, rfl⟩
      · exact .alone word
      · rw [List.concat_eq_append, join, beforeLast_append]
        exact .between word front value

end Mark

namespace FamilyType

/-- The mark of a sample with this name in a family of this type. Counters and summaries know some
endings; a histogram takes whatever follows the last underscore. -/
inductive Marks : FamilyType → String → Mark → Prop where
  | amount {name : String} (other : ∀ front, name ≠ front ++ "_created") :
      Marks .counter name .absent
  | created (front : String) : Marks .counter (front ++ "_created") (.last "created")
  | figure (front : String) {word : String} (known : word ∈ summaryWords) :
      Marks .summary (front ++ ("_" ++ word)) (.last word)
  | quantile {name : String}
      (other : ∀ front, ∀ word ∈ summaryWords, name ≠ front ++ ("_" ++ word)) :
      Marks .summary name (.beforeLast "quantile")
  | bucket (front : String) : Marks .histogram (front ++ "_bucket") (.beforeLast "bucket")
  | ending (front : String) {word : String} (plain : '_' ∉ word.toList) (other : word ≠ "bucket") :
      Marks .histogram (front ++ ("_" ++ word)) (.last word)
  | whole {name : String} (plain : '_' ∉ name.toList) : Marks .histogram name (.last name)
  | simple {type : FamilyType} {name : String} (single : type.isCompound = false) :
      Marks type name .absent

lemma exists_marks (type : FamilyType) (name : String) : ∃ mark, type.Marks name mark := by
  cases type with
  | counter =>
    by_cases ends : ∃ front, name = front ++ "_created"
    · obtain ⟨front, rfl⟩ := ends
      exact ⟨_, .created front⟩
    · exact ⟨_, .amount (not_exists.mp ends)⟩
  | summary =>
    by_cases ends : ∃ front, ∃ word ∈ summaryWords, name = front ++ ("_" ++ word)
    · obtain ⟨front, word, known, rfl⟩ := ends
      exact ⟨_, .figure front known⟩
    · push Not at ends
      exact ⟨_, .quantile ends⟩
  | histogram =>
    rcases Text.plain_or_behind name with plain | ⟨front, word, plain, rfl⟩
    · exact ⟨_, .whole plain⟩
    · by_cases bucket : word = "bucket"
      · subst bucket
        exact ⟨_, .bucket front⟩
      · exact ⟨_, .ending front plain bucket⟩
  | _ => exact ⟨_, .simple rfl⟩

lemma Marks.labelValues {type : FamilyType} {s : Sample} {mark : Mark}
    (marks : type.Marks s.name mark) :
    Observation.labelValues type s = mark.join s.labels.values := by
  -- as a variable the name can become what each mark says of it
  generalize named : s.name = name at marks
  cases marks with
  | amount other =>
    have ends := Text.endsWith_eq_false_iff.mpr other
    simp [Observation.labelValues, named, ends, Mark.join]
  | created front =>
    have ends := Text.endsWith_append_self front "_created"
    simp [Observation.labelValues, named, ends, Mark.join]
  | figure front known =>
    have ends := summaryEnding?_word front _ known
    rw [labelValues_summary, named, ends]
    rfl
  | quantile other =>
    have absent : summaryEnding? name = none := by
      refine List.find?_eq_none.mpr fun word known ends => ?_
      obtain ⟨front, same⟩ := Text.endsWith_iff.mp ends
      exact other front word known same
    rw [labelValues_summary, named, absent]
    rfl
  | bucket front =>
    have ends := Text.endsWith_append_self front "_bucket"
    simp [Observation.labelValues, named, ends, Mark.join]
  | @ending front word plain other =>
    have ends : Text.endsWith "_bucket" (front ++ ("_" ++ word)) = false := by
      refine Bool.eq_false_iff.mpr fun bucket => other ?_
      have last : Text.lastWord word = "bucket" :=
        (Text.endsWith_word_iff (by decide)).mp bucket
      rwa [Text.lastWord_plain plain] at last
    simp [Observation.labelValues, named, ends, Text.lastWord_append front plain, Mark.join]
  | whole plain =>
    have ends : Text.endsWith "_bucket" name = false := by
      refine Text.endsWith_eq_false_iff.mpr fun front same => plain ?_
      rw [same]
      simp
    simp [Observation.labelValues, named, ends, Text.lastWord_plain plain, Mark.join]
  | simple single =>
    cases type with
    | counter | summary | histogram => cases single
    | _ => rfl

end FamilyType

/-- The observation is made of this sample of the family. -/
structure Observation.Reads (c : Category) (f : Family) (s : Sample) (o : Observation) : Prop where
  category : o.category = c
  value : o.value = s.value
  labels : ∃ mark, f.type.Marks s.name mark ∧ mark.Joins s.labels.values o.labels
  own : f.type.isCompound = false → o.metric = c.logical s.name

/-- The observations are made of the samples of the family, one of each and in their order. If the
family is compound, they all have its metric. -/
structure Family.ReadAs (b : NameBook) (c : Category) (f : Family) (part : List Observation) :
    Prop where
  each : List.Forall₂ (Observation.Reads c f) f.samples part
  metric : f.type.isCompound = true → ∀ o ∈ part, o.metric = b.metric c f.type f.name

section Reading

variable {b : NameBook} {c : Category} {f : Family}

lemma Observation.reads_ofSample (b : NameBook) (c : Category) (f : Family) (s : Sample) :
    (ofSample b c f s).Reads c f s := by
  obtain ⟨mark, marks⟩ := f.type.exists_marks s.name
  exact ⟨rfl, rfl, ⟨mark, marks, Mark.joins_iff.mpr marks.labelValues⟩,
    fun single => metricName_of_single single s⟩

/-- There is no other way to read a sample. -/
lemma Observation.Reads.eq_ofSample {s : Sample} {o : Observation} (reads : o.Reads c f s)
    (metric : f.type.isCompound = true → o.metric = b.metric c f.type f.name) :
    o = ofSample b c f s := by
  obtain ⟨category, name, value, labels⟩ := o
  obtain ⟨rfl, rfl, ⟨mark, marks, joins⟩, own⟩ := reads
  have labelled : labels = labelValues f.type s :=
    (Mark.joins_iff.mp joins).trans marks.labelValues.symm
  have named : name = metricName b category f s := by
    cases kind : f.type.isCompound with
    | true => exact (metric kind).trans (metricName_of_compound kind s).symm
    | false => exact (own kind).trans (metricName_of_single kind s).symm
  rw [labelled, named]
  rfl

/-- The samples of one family are read in one way only. The induction is along the samples. -/
lemma Observation.map_ofSample_of_reads {samples : List Sample} {part : List Observation}
    (each : List.Forall₂ (Reads c f) samples part)
    (metric : f.type.isCompound = true → ∀ o ∈ part, o.metric = b.metric c f.type f.name) :
    samples.map (ofSample b c f) = part := by
  induction each with
  | nil => rfl
  | cons first _ ih =>
    have here := first.eq_ofSample fun compound => metric compound _ List.mem_cons_self
    have later := ih fun compound o member => metric compound o (List.mem_cons_of_mem _ member)
    rw [List.map_cons, later, ← here]

lemma Family.readAs_iff {part : List Observation} :
    f.ReadAs b c part ↔ f.samples.map (Observation.ofSample b c f) = part := by
  constructor
  · intro read
    exact Observation.map_ofSample_of_reads read.each read.metric
  · rintro rfl
    constructor
    · rw [List.forall₂_map_right_iff, List.forall₂_same]
      exact fun s _ => Observation.reads_ofSample b c f s
    · intro compound o member
      obtain ⟨s, -, rfl⟩ := List.mem_map.mp member
      exact Observation.metricName_of_compound compound s

lemma forall_readAs_iff {fs : List Family} {parts : List (List Observation)} :
    List.Forall₂ (Family.ReadAs b c) fs parts
      ↔ fs.map (fun f => f.samples.map (Observation.ofSample b c f)) = parts := by
  have one_way : Family.ReadAs b c
      = fun f part => f.samples.map (Observation.ofSample b c f) = part := by
    funext f part
    exact propext Family.readAs_iff
  rw [one_way, ← List.forall₂_map_left_iff, List.forall₂_eq_eq_eq]

end Reading

/-- The observations of families, whatever their types and samples are and whatever names have been
remembered, consist of one part for each family and of one observation for each of its samples, in
order. There is one way only to read the families so. -/
theorem samples_read_one_by_one (b : NameBook) (c : Category) (fs : List Family)
    (os : List Observation) :
    os = Observation.ofFamilies b c fs
      ↔ ∃ parts : List (List Observation),
        os = parts.flatten ∧ List.Forall₂ (Family.ReadAs b c) fs parts := by
  rw [Observation.ofFamilies, List.flatMap_def]
  constructor
  · intro read
    exact ⟨_, read, forall_readAs_iff.mpr rfl⟩
  · rintro ⟨parts, rfl, read⟩
    rw [forall_readAs_iff.mp read]

/-- A bucket without a bound and without labels, and a sample whose name has no ending at all. -/
example :
    (Observation.ofFamilies ⟨∅⟩ ⟨"shop", none⟩
        [⟨"shop_waits", .histogram, "h",
          [⟨"shop_waits_bucket", ∅, none⟩, ⟨"waits", .ofList [("queue", "mail")], none⟩]⟩]).map
      Observation.address = [("waits", ["bucket"]), ("waits", ["mail", "waits"])] := by
  decide +kernel

end Metering
