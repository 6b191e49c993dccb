import Metering.Gating
import Metering.Proofs.CommaListSegments

/-!
# Which categories an environment selects

The categories that the settings of an environment enable are told by the variables themselves: the
master switch is not off, the allow list names the category or is unset, the deny list does not
name it, and of several known categories with its name it is the first (`mem_selected_iff`). The
names that are reported are those that a list mentions and no known category has
(`mem_unknownNames_iff`).
-/

namespace Metering

namespace Environment

variable (env : Environment)

/-- The master switch is one of the words for no, white space and case aside. -/
def Off : Prop :=
  ∃ given, env.enabled = some given ∧ Settings.lowered (Text.trim given) ∈ Settings.noWords

/-- There is no allow list, or it lists the name. -/
def Allows (name : String) : Prop := ∀ text, env.categories = some text → Text.Lists text name

/-- There is a deny list, and it lists the name. -/
def Denies (name : String) : Prop := ∃ text, env.disabled = some text ∧ Text.Lists text name

/-- One of the two lists lists the name. -/
def Mentions (name : String) : Prop :=
  (∃ text, env.categories = some text ∧ Text.Lists text name) ∨ env.Denies name

end Environment

/-- The first of the known categories that has its name. -/
def Category.FirstAmong (c : Category) (known : List Category) : Prop :=
  ∃ before after, known = before ++ c :: after ∧ ∀ b ∈ before, b.name ≠ c.name

section Reading

variable {env : Environment} {settings : Settings}

lemma readFlag_off {variableName : String} {given : Option String} {on : Bool}
    (read : Settings.readFlag variableName given = .ok on) :
    on = false ↔ ∃ text, given = some text
      ∧ Settings.lowered (Text.trim text) ∈ Settings.noWords := by
  cases given with
  | none =>
    cases read
    simp
  | some text =>
    have apart : ∀ word ∈ "" :: Settings.yesWords, word ∉ Settings.noWords := by decide +kernel
    simp only [Settings.readFlag] at read
    simp only [Option.some.injEq, exists_eq_left']
    split at read
    · next blank =>
      cases read
      simp only [Bool.true_eq_false, false_iff]
      exact apart _ (by rw [blank]; exact List.mem_cons_self)
    · split at read
      · next yes =>
        cases read
        simp only [Bool.true_eq_false, false_iff]
        exact apart _ (List.mem_cons_of_mem _ yes)
      · split at read
        · next no =>
          cases read
          simpa using no
        · cases read

/-- What the settings say of an environment that is accepted. -/
lemma settings_of_accepted (accepted : Settings.ofEnvironment env = .ok settings) :
    (settings.enabled = true ↔ ¬ env.Off)
      ∧ settings.allowed = env.categories.map Text.readNames
      ∧ settings.denied = (env.disabled.map Text.readNames).getD ∅ := by
  rw [Settings.ofEnvironment] at accepted
  split at accepted
  · cases accepted
  · next on read =>
    split at accepted
    · cases accepted
    · cases accepted
      refine ⟨?_, rfl, rfl⟩
      rw [Environment.Off, ← readFlag_off read, Bool.not_eq_false]

lemma mem_allowed_iff (accepted : Settings.ofEnvironment env = .ok settings) (name : String) :
    (∀ names, settings.allowed = some names → name ∈ names) ↔ env.Allows name := by
  rw [(settings_of_accepted accepted).2.1, Environment.Allows]
  cases env.categories with
  | none => simp
  | some text => simp [Text.mem_readNames_iff]

lemma mem_denied_iff (accepted : Settings.ofEnvironment env = .ok settings) (name : String) :
    name ∈ settings.denied ↔ env.Denies name := by
  rw [(settings_of_accepted accepted).2.2, Environment.Denies]
  cases env.disabled with
  | none => simp
  | some text => simp [Text.mem_readNames_iff]

end Reading

namespace Gating

variable {known : List Category} {c : Category} {name : String} {settings : Settings}
  {env : Environment}

lemma get?_byName_iff :
    (Category.byName known).get? name = some c ↔ c.name = name ∧ c.FirstAmong known := by
  rw [Category.get?_byName, List.find?_eq_some_iff_append]
  simp only [decide_eq_true_eq, Category.FirstAmong, Bool.not_eq_true', decide_eq_false_iff_not]
  constructor
  · rintro ⟨rfl, before, after, split, others⟩
    exact ⟨rfl, before, after, split, others⟩
  · rintro ⟨rfl, before, after, split, others⟩
    exact ⟨rfl, before, after, split, others⟩

lemma not_mem_byName_iff : name ∉ Category.byName known ↔ ∀ c ∈ known, c.name ≠ name := by
  rw [← Index.get?_eq_none_iff, Category.get?_byName, List.find?_eq_none]
  simp

lemma mem_passed_iff : c ∈ passed (Category.byName known) settings
    ↔ c.FirstAmong known ∧ (∀ names, settings.allowed = some names → c.name ∈ names)
      ∧ c.name ∉ settings.denied := by
  rw [passed, Distinct.mem_ofList]
  simp only [List.mem_filterMap, List.mem_filter, get?_byName_iff, decide_eq_true_eq]
  have asked : c.FirstAmong known → (c.name ∈ requested (Category.byName known) settings
      ↔ ∀ names, settings.allowed = some names → c.name ∈ names) := by
    intro first
    have entered := Index.mem_of_get?_eq_some (get?_byName_iff.mpr ⟨rfl, first⟩)
    rw [requested]
    cases settings.allowed with
    | none => simpa [Index.mem_def] using entered
    | some names => simp [Distinct.mem_def]
  constructor
  · rintro ⟨name, ⟨named, spared⟩, rfl, first⟩
    exact ⟨first, (asked first).mp named, spared⟩
  · rintro ⟨first, named, spared⟩
    exact ⟨c.name, ⟨(asked first).mpr named, spared⟩, rfl, first⟩

/-- The enabled categories of an environment. -/
lemma mem_selected_iff (accepted : Settings.ofEnvironment env = .ok settings) :
    c ∈ (resolve known settings).1
      ↔ ¬ env.Off ∧ c.FirstAmong known ∧ env.Allows c.name ∧ ¬ env.Denies c.name := by
  rw [resolve, ← (settings_of_accepted accepted).1, ← mem_allowed_iff accepted,
    ← mem_denied_iff accepted]
  cases settings.enabled with
  | true => simp [mem_passed_iff]
  | false => simp

lemma mem_unknownNames_iff (accepted : Settings.ofEnvironment env = .ok settings) :
    name ∈ unknownNames (Category.byName known) settings
      ↔ env.Mentions name ∧ ∀ c ∈ known, c.name ≠ name := by
  rw [unknownNames, (Text.ascending_perm _).mem_iff]
  simp only [List.mem_filter, ← Distinct.mem_def, Distinct.mem_ofList, List.mem_append,
    decide_eq_true_eq, not_mem_byName_iff, mem_denied_iff accepted, Environment.Mentions]
  refine and_congr_left fun unknown => or_congr_left ?_
  rw [requested, (settings_of_accepted accepted).2.1]
  cases env.categories with
  | none => simpa [Index.mem_def] using not_mem_byName_iff.mpr unknown
  | some text => simp [← Distinct.mem_def, Text.mem_readNames_iff]

lemma nodup_unknownNames (index : Index String Category) (settings : Settings) :
    (unknownNames index settings).Nodup :=
  (Text.ascending_perm _).nodup_iff.mpr ((Distinct.nodup _).filter _)

/-- Resolving ends with the event that the lists have been applied, or that they were not asked.
Before it nothing is reported but unknown names. -/
lemma events_resolve (known : List Category)
    (accepted : Settings.ofEnvironment env = .ok settings) :
    ∃ names last, names.Pairwise (· ≤ ·) ∧ names.Nodup
      ∧ (∀ name, name ∈ names ↔ ¬ env.Off ∧ env.Mentions name ∧ ∀ c ∈ known, c.name ≠ name)
      ∧ (resolve known settings).2 = (if names = [] then [] else [.unknownNames names]) ++ [last]
      ∧ ∀ names, last ≠ .unknownNames names := by
  have switch := (settings_of_accepted accepted).1
  cases on : settings.enabled with
  | true =>
    let names := unknownNames (Category.byName known) settings
    refine ⟨names, .filtersLoaded settings.allowed.isSome
      (passed (Category.byName known) settings).size settings.denied.size,
      Text.pairwise_ascending _, nodup_unknownNames _ _, ?_, ?_, fun _ h => by cases h⟩
    · intro name
      rw [mem_unknownNames_iff accepted]
      exact (and_iff_right (switch.mp on)).symm
    · rw [resolve, if_pos on]
      simp only [List.isEmpty_iff]
      rfl
  | false =>
    have off : env.Off := by
      rw [on] at switch
      simpa using switch
    refine ⟨[], .filtersOff, List.Pairwise.nil, List.nodup_nil, ?_, ?_, fun _ h => by cases h⟩
    · intro name
      simp [off]
    · rw [resolve, if_neg (by simp [on])]
      rfl

end Gating

end Metering
