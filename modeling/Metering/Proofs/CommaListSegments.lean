import Mathlib.Data.List.TakeWhile
import Mathlib.Tactic.Lemma
import Metering.Text.CommaList

/-!
# What a comma-separated list lists

Reading a comma-separated list walks over its characters. What it finds is told here without the
walk: a name is listed (`Lists`) if it is not empty and stands in the text between two commas, or a
comma and an end, with nothing but white space around it.
-/

namespace Metering.Text

/-- The characters stand in the text between two separators, or between one and an end of it, and
there is no separator among them. -/
def IsSegment (sep : Char) (segment text : List Char) : Prop :=
  sep ∉ segment ∧ ∃ front back, text = front ++ segment ++ back
    ∧ (front = [] ∨ ∃ before, front = before ++ [sep])
    ∧ (back = [] ∨ ∃ after, back = sep :: after)

/-- The second text is the first one without the white space at its ends. -/
def Trims (text inner : List Char) : Prop :=
  ∃ left right, text = left ++ inner ++ right ∧ (∀ c ∈ left, isBlank c = true)
    ∧ (∀ c ∈ right, isBlank c = true) ∧ (∀ c ∈ inner.head?, isBlank c = false)
    ∧ ∀ c ∈ inner.getLast?, isBlank c = false

/-- The name is not empty, and one of the segments between the commas of the text is the name with
white space around it. -/
def Lists (text name : String) : Prop :=
  name ≠ "" ∧ ∃ segment, IsSegment ',' segment text.toList ∧ Trims segment name.toList

section Segments

variable {sep : Char} {text segment : List Char}

/-- The walk gives first what stands before the first separator, then what stands behind some
separator. The two are told apart here because the next character goes in front of the first one
only. -/
lemma segments_spec (sep : Char) (text : List Char) : ∃ first rest,
    segments sep text = first :: rest
      ∧ (∀ segment, segment = first ↔ sep ∉ segment
        ∧ ∃ back, text = segment ++ back ∧ (back = [] ∨ ∃ after, back = sep :: after))
      ∧ ∀ segment, segment ∈ rest ↔ sep ∉ segment
        ∧ ∃ before back, text = before ++ sep :: segment ++ back
          ∧ (back = [] ∨ ∃ after, back = sep :: after) := by
  induction text with
  | nil =>
    refine ⟨[], [], rfl, fun segment => ?_, by simp⟩
    constructor
    · rintro rfl
      exact ⟨List.not_mem_nil, [], rfl, Or.inl rfl⟩
    · rintro ⟨-, back, split, -⟩
      exact (List.append_eq_nil_iff.mp split.symm).1
  | cons c text ih =>
    obtain ⟨first, rest, walk, leading, behind⟩ := ih
    by_cases h : c = sep
    · subst h
      refine ⟨[], first :: rest, by simp [segments, walk], ?_, ?_⟩
      · intro segment
        constructor
        · rintro rfl
          exact ⟨by simp, c :: text, rfl, Or.inr ⟨text, rfl⟩⟩
        · rintro ⟨free, back, split, -⟩
          cases segment with
          | nil => rfl
          | cons d segment =>
            obtain ⟨rfl, -⟩ := List.cons.inj split
            exact absurd List.mem_cons_self free
      · intro segment
        rw [List.mem_cons, leading, behind]
        constructor
        · rintro (⟨free, back, rfl, ended⟩ | ⟨free, before, back, rfl, ended⟩)
          · exact ⟨free, [], back, rfl, ended⟩
          · exact ⟨free, c :: before, back, rfl, ended⟩
        · rintro ⟨free, before, back, split, ended⟩
          cases before with
          | nil => exact Or.inl ⟨free, back, (List.cons.inj split).2, ended⟩
          | cons d before => exact Or.inr ⟨free, before, back, (List.cons.inj split).2, ended⟩
    · refine ⟨c :: first, rest, by simp [segments, walk, h, consSegment], ?_, ?_⟩
      · intro segment
        constructor
        · rintro rfl
          obtain ⟨free, back, split, ended⟩ := (leading first).mp rfl
          exact ⟨by simp [Ne.symm h, free], back, by rw [split]; rfl, ended⟩
        · rintro ⟨free, back, split, ended⟩
          cases segment with
          | nil =>
            rcases ended with rfl | ⟨after, rfl⟩
            · cases split
            · exact absurd (List.cons.inj split).1 h
          | cons d segment =>
            obtain ⟨rfl, tail⟩ := List.cons.inj split
            rw [(leading segment).mpr
              ⟨fun member => free (List.mem_cons_of_mem _ member), back, tail, ended⟩]
      · intro segment
        rw [behind]
        constructor
        · rintro ⟨free, before, back, rfl, ended⟩
          exact ⟨free, c :: before, back, rfl, ended⟩
        · rintro ⟨free, before, back, split, ended⟩
          cases before with
          | nil => exact absurd (List.cons.inj split).1 h
          | cons d before => exact ⟨free, before, back, (List.cons.inj split).2, ended⟩

lemma mem_segments_iff : segment ∈ segments sep text ↔ IsSegment sep segment text := by
  obtain ⟨first, rest, walk, leading, behind⟩ := segments_spec sep text
  rw [walk, List.mem_cons, leading, behind]
  constructor
  · rintro (⟨free, back, split, ended⟩ | ⟨free, before, back, split, ended⟩)
    · exact ⟨free, [], back, split, Or.inl rfl, ended⟩
    · exact ⟨free, before ++ [sep], back, by simp [split], Or.inr ⟨before, rfl⟩, ended⟩
  · rintro ⟨free, front, back, split, rfl | ⟨before, rfl⟩, ended⟩
    · exact Or.inl ⟨free, back, split, ended⟩
    · exact Or.inr ⟨free, before, back, by simp [split], ended⟩

end Segments

section Trimming

variable {text inner : List Char}

lemma head?_dropWhile_blank {c : Char} (h : c ∈ (text.dropWhile isBlank).head?) :
    isBlank c = false := by
  have stopped := List.head?_dropWhile_not isBlank text
  rw [Option.mem_def.mp h] at stopped
  exact stopped

lemma dropWhile_blank_append {left rest : List Char} (blank : ∀ c ∈ left, isBlank c = true)
    (stop : ∀ c ∈ rest.head?, isBlank c = false) : (left ++ rest).dropWhile isBlank = rest := by
  rw [List.dropWhile_append_of_pos blank]
  cases rest with
  | nil => rfl
  | cons c rest => rw [List.dropWhile_cons_of_neg (by simp [stop c rfl])]

lemma trimList_blank (blank : ∀ c ∈ text, isBlank c = true) : trimList text = [] := by
  have gone : text.dropWhile isBlank = [] := List.dropWhile_eq_nil_iff.mpr blank
  rw [trimList, gone]
  rfl

lemma trimList_eq_iff : trimList text = inner ↔ Trims text inner := by
  constructor
  · rintro rfl
    -- white space is taken off on the left, and then on the right of what has been left
    let rest := text.dropWhile isBlank
    have right_end : rest = trimList text ++ (rest.reverse.takeWhile isBlank).reverse := by
      rw [trimList, ← List.reverse_append, List.takeWhile_append_dropWhile, List.reverse_reverse]
    refine ⟨text.takeWhile isBlank, (rest.reverse.takeWhile isBlank).reverse, ?_, ?_, ?_, ?_, ?_⟩
    · rw [List.append_assoc, ← right_end, List.takeWhile_append_dropWhile]
    · exact fun c hc => List.mem_takeWhile_imp hc
    · exact fun c hc => List.mem_takeWhile_imp (List.mem_reverse.mp hc)
    · intro c hc
      have first : c ∈ rest.head? := by
        rw [right_end, List.head?_append, Option.mem_def.mp hc]
        rfl
      exact head?_dropWhile_blank first
    · intro c hc
      rw [trimList, List.getLast?_reverse] at hc
      exact head?_dropWhile_blank hc
  · rintro ⟨left, right, rfl, left_blank, right_blank, begins, ends⟩
    cases inner with
    | nil =>
      refine trimList_blank fun c hc => ?_
      rw [List.append_nil, List.mem_append] at hc
      exact hc.elim (left_blank c) (right_blank c)
    | cons c inner =>
      have opened : (left ++ c :: inner ++ right).dropWhile isBlank = c :: inner ++ right := by
        rw [List.append_assoc]
        exact dropWhile_blank_append left_blank begins
      have closed : (right.reverse ++ (c :: inner).reverse).dropWhile isBlank
          = (c :: inner).reverse := by
        refine dropWhile_blank_append (fun d hd => right_blank d (List.mem_reverse.mp hd)) ?_
        rw [List.head?_reverse]
        exact ends
      rw [trimList, opened, List.reverse_append, closed, List.reverse_reverse]

end Trimming

/-- Reading finds the listed names. -/
lemma mem_readNames_iff {text name : String} : name ∈ readNames text ↔ Lists text name := by
  rw [readNames, Distinct.mem_ofList, listedNames, Lists]
  simp only [List.mem_map, List.mem_filter]
  constructor
  · rintro ⟨inner, ⟨⟨segment, walked, trimmed⟩, some_left⟩, rfl⟩
    refine ⟨?_, segment, mem_segments_iff.mp walked, ?_⟩
    · intro empty
      rw [← String.toList_inj, String.toList_ofList] at empty
      simp [empty] at some_left
    · rw [String.toList_ofList]
      exact trimList_eq_iff.mp trimmed
  · rintro ⟨some_left, segment, between, trims⟩
    refine ⟨name.toList, ⟨⟨segment, mem_segments_iff.mpr between, trimList_eq_iff.mpr trims⟩, ?_⟩,
      String.ofList_toList⟩
    cases written : name.toList with
    | nil => exact absurd (String.toList_inj.mp written) some_left
    | cons c cs => rfl

end Metering.Text
