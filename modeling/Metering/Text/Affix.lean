/-!
# Beginnings and endings of a text

`behind? lead s` is what follows `lead` in `s`, and `before? tail s` what comes before `tail`.
Both are exact: `behind?_eq_some_iff` and `before?_eq_some_iff` say that the parts make up the
whole, so that a text which was put together from two parts comes apart at the same place.
-/

namespace Metering.Text

/-- What follows `lead` in a list that begins with it. -/
def following? : List Char → List Char → Option (List Char)
  | [], s => some s
  | _ :: _, [] => none
  | a :: lead, b :: s => if a = b then following? lead s else none

theorem following?_eq_some_iff {lead s rest : List Char} :
    following? lead s = some rest ↔ s = lead ++ rest := by
  induction lead generalizing s with
  | nil => simp [following?]
  | cons a lead ih =>
    cases s with
    | nil => simp [following?]
    | cons b s =>
      by_cases h : a = b
      · simp [following?, h, ih]
      · simp [following?, h, Ne.symm h]

/-- What follows `lead` in `s`, if `s` begins with it. -/
def behind? (lead s : String) : Option String :=
  (following? lead.toList s.toList).map String.ofList

/-- What comes before `tail` in `s`, if `s` ends with it. -/
def before? (tail s : String) : Option String :=
  (following? tail.toList.reverse s.toList.reverse).map fun r => String.ofList r.reverse

/-- Whether `s` ends with `tail`. -/
def endsWith (tail s : String) : Bool := (before? tail s).isSome

theorem behind?_eq_some_iff {lead s rest : String} :
    behind? lead s = some rest ↔ s = lead ++ rest := by
  simp only [behind?, Option.map_eq_some_iff, following?_eq_some_iff]
  constructor
  · rintro ⟨r, hr, rfl⟩
    apply String.toList_inj.1
    simpa using hr
  · rintro rfl
    exact ⟨rest.toList, by simp, by simp⟩

theorem before?_eq_some_iff {tail s rest : String} :
    before? tail s = some rest ↔ s = rest ++ tail := by
  simp only [before?, Option.map_eq_some_iff, following?_eq_some_iff]
  constructor
  · rintro ⟨r, hr, rfl⟩
    apply String.toList_inj.1
    have := congrArg List.reverse hr
    simpa using this
  · rintro rfl
    exact ⟨rest.toList.reverse, by simp, by simp⟩

theorem behind?_append (lead rest : String) : behind? lead (lead ++ rest) = some rest :=
  behind?_eq_some_iff.2 rfl

theorem before?_append (rest tail : String) : before? tail (rest ++ tail) = some rest :=
  before?_eq_some_iff.2 rfl

theorem endsWith_iff {tail s : String} : endsWith tail s = true ↔ ∃ rest, s = rest ++ tail := by
  simp [endsWith, Option.isSome_iff_exists, before?_eq_some_iff]

theorem endsWith_append_self (front tail : String) : endsWith tail (front ++ tail) = true :=
  endsWith_iff.2 ⟨front, rfl⟩

theorem endsWith_eq_false_iff {tail s : String} :
    endsWith tail s = false ↔ ∀ front, s ≠ front ++ tail := by
  rw [← Bool.not_eq_true, endsWith_iff, not_exists]

theorem endsWith_iff_suffix {tail s : String} :
    endsWith tail s = true ↔ tail.toList <:+ s.toList := by
  rw [endsWith_iff]
  constructor
  · rintro ⟨rest, rfl⟩
    exact ⟨rest.toList, by simp⟩
  · rintro ⟨rest, h⟩
    exact ⟨String.ofList rest, String.toList_inj.1 (by simp [h])⟩

/-- Two endings of one text are endings of each other one way or the other, so a text with one of
two that are not cannot have the other. -/
theorem endsWith_append_of_apart {back tail : String} (front : String)
    (h : endsWith tail back = false) (h' : endsWith back tail = false) :
    endsWith tail (front ++ back) = false := by
  refine Bool.eq_false_iff.2 fun both => ?_
  have own := endsWith_iff_suffix.1 (endsWith_append_self front back)
  rcases Nat.le_total tail.toList.length back.toList.length with shorter | longer
  · have inner := List.suffix_of_suffix_length_le (endsWith_iff_suffix.1 both) own shorter
    rw [endsWith_iff_suffix.2 inner] at h
    cases h
  · have inner := List.suffix_of_suffix_length_le own (endsWith_iff_suffix.1 both) longer
    rw [endsWith_iff_suffix.2 inner] at h'
    cases h'

/-- The part of `s` after its last underscore; all of `s` if it holds none. -/
def lastWord (s : String) : String :=
  String.ofList (s.toList.reverse.takeWhile fun c => c ≠ '_').reverse

/-- What stands before an underscore has no part in the last word. -/
theorem lastWord_behind (front rest : String) :
    lastWord (front ++ ("_" ++ rest)) = lastWord rest := by
  have turned : (front ++ ("_" ++ rest)).toList.reverse
      = rest.toList.reverse ++ '_' :: front.toList.reverse := by
    simp
  rw [lastWord, lastWord, turned, List.takeWhile_append]
  split
  · next whole =>
    rw [(List.takeWhile_prefix _).eq_of_length whole]
    simp
  · rfl

theorem lastWord_plain {word : String} (plain : '_' ∉ word.toList) : lastWord word = word := by
  have letters : ∀ a ∈ word.toList.reverse, decide (a ≠ '_') = true := by
    intro a member
    refine decide_eq_true fun same => plain ?_
    exact same ▸ List.mem_reverse.1 member
  have whole : (word.toList.reverse ++ []).takeWhile (fun a => a ≠ '_')
      = word.toList.reverse ++ [].takeWhile fun a => a ≠ '_' :=
    List.takeWhile_append_of_pos letters
  rw [List.append_nil] at whole
  rw [lastWord, whole]
  simp

theorem lastWord_append (front : String) {word : String} (plain : '_' ∉ word.toList) :
    lastWord (front ++ ("_" ++ word)) = word :=
  (lastWord_behind front word).trans (lastWord_plain plain)

/-- A text holds no underscore, or a word without one follows its last underscore. -/
theorem plain_or_behind (s : String) :
    '_' ∉ s.toList ∨ ∃ front word, '_' ∉ word.toList ∧ s = front ++ ("_" ++ word) := by
  by_cases holds : '_' ∈ s.toList.reverse
  · obtain ⟨word, front, turned, plain⟩ := List.eq_append_cons_of_mem holds
    refine Or.inr ⟨String.ofList front.reverse, String.ofList word.reverse, by simpa using plain,
      String.toList_inj.1 ?_⟩
    simpa using congrArg List.reverse turned
  · exact Or.inl (by simpa using holds)

/-- A text ends with an underscore and a word exactly if that is its last word. -/
theorem endsWith_word_iff {front rest word : String} (plain : '_' ∉ word.toList) :
    endsWith ("_" ++ word) (front ++ ("_" ++ rest)) = true ↔ lastWord rest = word := by
  rw [endsWith_iff, ← lastWord_behind front rest]
  generalize held : front ++ ("_" ++ rest) = s
  constructor
  · rintro ⟨before, rfl⟩
    exact lastWord_append before plain
  · rintro rfl
    rcases plain_or_behind s with none_held | ⟨before, word, plain_word, rfl⟩
    · exact absurd (by simp [← held]) none_held
    · exact ⟨before, by rw [lastWord_append before plain_word]⟩

end Metering.Text
