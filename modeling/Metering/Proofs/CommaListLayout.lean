import Metering.Proofs.CommaListSegments

/-!
# Writing a comma-separated list

A set of names can be written in many ways: the names in any order, white space around each of them,
segments that hold nothing else in between. All of these ways (`LaysOut`) are read back as the set
that has been written. Writing one list behind another one, with a comma between the two, unites
what they list.
-/

namespace Metering.Text

/-- A text that can be read as a member of a list: something is left of it without the white space
at its ends, and that is all of it. -/
structure IsName (name : String) : Prop where
  not_empty : name ≠ ""
  no_comma : ',' ∉ name.toList
  begins : ∀ c ∈ name.toList.head?, isBlank c = false
  ends : ∀ c ∈ name.toList.getLast?, isBlank c = false

/-- The text holds nothing but white space. -/
def Blank (text : String) : Prop := ∀ c ∈ text.toList, isBlank c = true

instance (text : String) : Decidable (Blank text) :=
  List.decidableBAll (fun c => isBlank c = true) text.toList

/-- The pieces hold the names in order, one in a piece, with white space around them. Pieces
without a name may stand anywhere. -/
inductive LaysOut : List String → List String → Prop where
  | done : LaysOut [] []
  | gap {names pieces : List String} {piece : String} (blank : Blank piece)
      (rest : LaysOut names pieces) : LaysOut names (piece :: pieces)
  | name {name left right : String} {names pieces : List String} (before : Blank left)
      (after : Blank right) (rest : LaysOut names pieces) :
      LaysOut (name :: names) ((left ++ name ++ right) :: pieces)

section Segments

variable {sep : Char} {text : List Char}

lemma segments_ne_nil (sep : Char) (text : List Char) : segments sep text ≠ [] := by
  obtain ⟨first, rest, walk, -⟩ := segments_spec sep text
  rw [walk]
  exact List.cons_ne_nil _ _

lemma consSegment_append {c : Char} {front : List (List Char)} (back : List (List Char))
    (some_front : front ≠ []) : consSegment c (front ++ back) = consSegment c front ++ back := by
  cases front with
  | nil => exact absurd rfl some_front
  | cons segment front => rfl

lemma segments_append_sep (sep : Char) (front back : List Char) :
    segments sep (front ++ sep :: back) = segments sep front ++ segments sep back := by
  induction front with
  | nil => simp [segments]
  | cons c front ih =>
    by_cases h : c = sep
    · simp [segments, h, ih]
    · simp [segments, h, ih, consSegment_append _ (segments_ne_nil sep front)]

lemma segments_of_free (free : sep ∉ text) : segments sep text = [text] := by
  induction text with
  | nil => rfl
  | cons c text ih =>
    rw [List.mem_cons, not_or] at free
    simp [segments, Ne.symm free.1, ih free.2, consSegment]

end Segments

lemma Blank.no_comma {text : String} (blank : Blank text) : ',' ∉ text.toList := by
  intro member
  exact absurd (blank _ member) (by decide)

lemma listedNames_append_comma (first second : String) :
    listedNames (first ++ "," ++ second) = listedNames first ++ listedNames second := by
  have written : (first ++ "," ++ second).toList = first.toList ++ ',' :: second.toList := by
    simp
  simp [listedNames, written, segments_append_sep]

/-- What is joined with commas is listed piece by piece. A last piece is followed by the empty text
here, which lists nothing. -/
lemma listedNames_intercalate_cons (piece : String) (pieces : List String) :
    listedNames (",".intercalate (piece :: pieces))
      = listedNames piece ++ listedNames (",".intercalate pieces) := by
  cases pieces with
  | nil =>
    have nothing : listedNames "" = [] := by simp [listedNames, segments, trimList]
    rw [String.intercalate_singleton, String.intercalate_nil, nothing, List.append_nil]
  | cons next pieces => rw [String.intercalate_cons_cons, listedNames_append_comma]

lemma listedNames_of_blank {text : String} (blank : Blank text) : listedNames text = [] := by
  simp [listedNames, segments_of_free blank.no_comma, trimList_blank blank]

lemma IsName.listedNames {name left right : String} (h : IsName name) (before : Blank left)
    (after : Blank right) : listedNames (left ++ name ++ right) = [name] := by
  have free : ',' ∉ (left ++ name ++ right).toList := by
    simp [before.no_comma, h.no_comma, after.no_comma]
  have inner : trimList (left ++ name ++ right).toList = name.toList :=
    trimList_eq_iff.mpr ⟨left.toList, right.toList, by simp, before, after, h.begins, h.ends⟩
  have kept : name.toList ≠ [] := fun empty => h.not_empty (String.toList_inj.mp empty)
  rw [Text.listedNames, segments_of_free free]
  simp only [List.map_cons, List.map_nil, inner]
  simp [kept]

/-- What is read is a name. -/
lemma IsName.of_mem {text name : String} (h : name ∈ readNames text) : IsName name := by
  obtain ⟨not_empty, segment, ⟨free, -⟩, left, right, rfl, -, -, begins, ends⟩ :=
    mem_readNames_iff.mp h
  refine ⟨not_empty, fun comma => free ?_, begins, ends⟩
  exact List.mem_append_left _ (List.mem_append_right _ comma)

/-- Names that are laid out are listed in the order in which they were written. The induction is on
the layout: each piece is read on its own. -/
lemma LaysOut.listedNames {names pieces : List String} (h : LaysOut names pieces)
    (are_names : ∀ name ∈ names, IsName name) : listedNames (",".intercalate pieces) = names := by
  induction h with
  | done => rw [String.intercalate_nil, listedNames_of_blank (fun _ member => by cases member)]
  | gap blank rest ih =>
    rw [listedNames_intercalate_cons, listedNames_of_blank blank, ih are_names, List.nil_append]
  | name before after rest ih =>
    obtain ⟨first, others⟩ := List.forall_mem_cons.mp are_names
    rw [listedNames_intercalate_cons, first.listedNames before after, ih others,
      List.singleton_append]

/-- Reading a comma-separated list gives names that need no further trimming. However these names
are written down again, in any order, with white space around them and with blank segments between
them, reading gives the same names once more, in the order in which they were written. And the
names of two lists that are joined by a comma are those of the one and those of the other. -/
theorem readNames_canonical (text : String) :
    (∀ name ∈ readNames text, IsName name)
      ∧ (∀ names pieces, names.Perm (readNames text).toList → LaysOut names pieces →
        (readNames (",".intercalate pieces)).toList = names
          ∧ ∀ name, name ∈ readNames (",".intercalate pieces) ↔ name ∈ readNames text)
      ∧ ∀ other name, name ∈ readNames (text ++ "," ++ other)
        ↔ name ∈ readNames text ∨ name ∈ readNames other := by
  refine ⟨fun name => IsName.of_mem, ?_, ?_⟩
  · intro names pieces reordered layout
    have listed : listedNames (",".intercalate pieces) = names :=
      layout.listedNames fun name member => IsName.of_mem (reordered.mem_iff.mp member)
    have once : names.Nodup := reordered.nodup_iff.mpr (readNames text).nodup
    have read : (readNames (",".intercalate pieces)).toList = names := by
      rw [readNames, listed, Distinct.toList_ofList_of_nodup once]
    refine ⟨read, fun name => ?_⟩
    rw [Distinct.mem_def, read, reordered.mem_iff, Distinct.mem_def]
  · intro other name
    rw [readNames, listedNames_append_comma, Distinct.mem_ofList, List.mem_append, readNames,
      Distinct.mem_ofList, readNames, Distinct.mem_ofList]

theorem readNames_canonical_reordered :
    IsName "p2p" ∧ (readNames ", p2p\t,rpc, ").toList = ["p2p", "rpc"]
      ∧ ("sync" ∈ readNames ("rpc, p2p ,," ++ "," ++ "sync,rpc")
        ↔ "sync" ∈ readNames "rpc, p2p ,," ∨ "sync" ∈ readNames "sync,rpc") := by
  obtain ⟨members, layouts, union⟩ := readNames_canonical "rpc, p2p ,,"
  have reordered : ["p2p", "rpc"].Perm (readNames "rpc, p2p ,,").toList := by decide
  have layout : LaysOut ["p2p", "rpc"]
      ["", " " ++ "p2p" ++ "\t", "" ++ "rpc" ++ "", " "] :=
    .gap (by decide) (.name (by decide) (by decide)
      (.name (by decide) (by decide) (.gap (by decide) .done)))
  exact ⟨members "p2p" (by decide), (layouts _ _ reordered layout).1, union "sync,rpc" "sync"⟩

end Metering.Text
