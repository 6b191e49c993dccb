import Mathlib.Data.List.Induction
import Metering.Proofs.CounterNames
import Metering.Scenario.Perform

/-!
# Names there and back

A book takes part in a scenario by naming steps. After any of them the book holds exactly the names
with the ending `_total` whose declaration no clearing has followed, and that decides which counter
names come back from their families; all other names come back always.
-/

namespace Metering

namespace NameBook

/-- A counter name without the ending and other than `total` comes back with the ending added if the
book holds it so. -/
lemma counterName_of_not_tells {b : NameBook} {c : Category} {name : String}
    (word : name ≠ "total") (untold : ¬ b.Tells c name) :
    b.counterName c (Family.counterStem (c.external name)) = name ++ Family.totalSuffix := by
  rw [Tells, if_neg word, not_or, not_not] at untold
  rw [Family.counterStem_of_plain word (Bool.eq_false_iff.mpr untold.1), counterName,
    c.logical_external]
  exact if_pos untold.2

end NameBook

namespace Scenario

/-- A counter with this name has been declared, and the book has not been cleared since. -/
def IsDeclared (steps : List NamingStep) (name : String) : Prop :=
  ∃ earlier c later, steps = earlier ++ .externalCounter c name :: later ∧ .clear ∉ later

lemma not_isDeclared_nil (name : String) : ¬ IsDeclared [] name := by
  rintro ⟨earlier, c, later, split, -⟩
  cases earlier <;> cases split

/-- A further step ends what stands if it clears the book; otherwise it can add its own name. -/
lemma isDeclared_snoc {steps : List NamingStep} {step : NamingStep} {name : String} :
    IsDeclared (steps ++ [step]) name
      ↔ step ≠ .clear ∧ (IsDeclared steps name ∨ ∃ c, step = .externalCounter c name) := by
  constructor
  · rintro ⟨earlier, c, later, split, kept⟩
    rcases List.eq_nil_or_concat later with rfl | ⟨between, last, rfl⟩
    · obtain ⟨-, rfl⟩ := List.append_singleton_inj.mp split
      exact ⟨nofun, Or.inr ⟨c, rfl⟩⟩
    · rw [List.concat_eq_append, ← List.cons_append, ← List.append_assoc] at split
      obtain ⟨rfl, rfl⟩ := List.append_singleton_inj.mp split
      rw [List.concat_eq_append, List.mem_append, List.mem_singleton, not_or] at kept
      exact ⟨Ne.symm kept.2, Or.inl ⟨earlier, c, between, rfl, kept.1⟩⟩
  · rintro ⟨keeping, ⟨earlier, c, later, rfl, kept⟩ | ⟨c, rfl⟩⟩
    · refine ⟨earlier, c, later ++ [step], by simp, ?_⟩
      rw [List.mem_append, List.mem_singleton, not_or]
      exact ⟨kept, Ne.symm keeping⟩
    · exact ⟨steps, c, [], rfl, List.not_mem_nil⟩

namespace NamingStep

/-- The book after a step. -/
def turn (b : NameBook) : NamingStep → NameBook
  | .externalCounter _ name => b.remember name
  | .clear => .blank
  | .external _ _ | .logical _ _ | .logicalCounter _ _ => b

/-- What a step tells. -/
def answer (b : NameBook) : NamingStep → Reply
  | .external c name | .externalCounter c name => .text (c.external name)
  | .logical c name => .text (c.logical name)
  | .logicalCounter c name => .text (b.counterName c name)
  | .clear => .nothing

end NamingStep

/-- After naming steps the book holds the names that stand and have the ending. -/
lemma mem_turned {steps : List NamingStep} {name : String} :
    name ∈ (steps.foldl NamingStep.turn .blank).suffixed
      ↔ IsDeclared steps name ∧ Text.endsWith Family.totalSuffix name = true := by
  induction steps using List.reverseRecOn with
  | nil =>
    have blank : name ∉ NameBook.blank.suffixed := List.not_mem_nil
    exact iff_of_false blank fun h => not_isDeclared_nil name h.1
  | append_singleton steps step ih =>
    rw [List.foldl_append, List.foldl_cons, List.foldl_nil, isDeclared_snoc]
    cases step with
    | externalCounter c declared =>
      rw [NamingStep.turn, NameBook.mem_remember, ih]
      constructor
      · rintro (⟨standing, suffixed⟩ | ⟨rfl, suffixed⟩)
        · exact ⟨⟨nofun, Or.inl standing⟩, suffixed⟩
        · exact ⟨⟨nofun, Or.inr ⟨c, rfl⟩⟩, suffixed⟩
      · rintro ⟨⟨-, standing | ⟨c', same⟩⟩, suffixed⟩
        · exact Or.inl ⟨standing, suffixed⟩
        · cases same
          exact Or.inr ⟨rfl, suffixed⟩
    | clear =>
      have blank : name ∉ NameBook.blank.suffixed := List.not_mem_nil
      exact iff_of_false blank fun h => h.1.1 rfl
    | external | logical | logicalCounter => simpa [NamingStep.turn] using ih

section Performing

variable (w : Workspace) (step : NamingStep) (steps : List NamingStep)

/-- A naming step never fails, reports nothing and changes nothing but the book. -/
lemma advanceBy_naming :
    advanceBy w (.naming step)
      = (⟨.ok (step.answer w.book), []⟩, { w with book := step.turn w.book }) := by
  have performed : perform (.naming step) w
      = .ok (step.answer w.book) { w with book := step.turn w.book } := by
    cases step <;> rfl
  rw [advanceBy, performed]
  simp

lemma runFrom_naming :
    (runFrom w (steps.map .naming)).2
      = { w with book := steps.foldl NamingStep.turn w.book } := by
  induction steps generalizing w with
  | nil => rfl
  | cons step steps ih =>
    rw [List.map_cons, runFrom, advanceBy_naming]
    exact ih _

/-- Two steps after naming steps. -/
lemma run_naming_pair (first second : NamingStep) :
    let b := steps.foldl NamingStep.turn .blank
    run (steps.map .naming ++ [.naming first, .naming second])
      = run (steps.map .naming)
        ++ [⟨.ok (first.answer b), []⟩, ⟨.ok (second.answer (first.turn b)), []⟩] := by
  intro b
  rw [run, runFrom_append, runFrom_naming, run]
  simp only [runFrom, advanceBy_naming]
  rfl

end Performing

/-- A counter name other than `total` comes back from its family, after any declarations and
clearings and its own declaration, exactly if it has the ending or no declaration of the name with
the ending stands; otherwise it comes back with the ending. Any other name comes back in any
case. -/
theorem counterName_comes_back_iff (steps : List NamingStep) (c : Category) {name : String}
    (word : name ≠ "total") :
    (∃ family counter,
      run (steps.map .naming ++ [.naming (.externalCounter c name),
          .naming (.logicalCounter c (Family.counterStem family))])
        = run (steps.map .naming) ++ [⟨.ok (.text family), []⟩, ⟨.ok (.text counter), []⟩]
      ∧ (counter = name ↔ Text.endsWith Family.totalSuffix name = true
          ∨ ¬ IsDeclared steps (name ++ Family.totalSuffix))
      ∧ (counter ≠ name → counter = name ++ Family.totalSuffix))
    ∧ ∀ (c' : Category) (other : String), ∃ external,
      run (steps.map .naming ++ [.naming (.external c' other), .naming (.logical c' external)])
        = run (steps.map .naming) ++ [⟨.ok (.text external), []⟩, ⟨.ok (.text other), []⟩] := by
  let b := steps.foldl NamingStep.turn .blank
  let after := b.remember name
  have known : Text.endsWith Family.totalSuffix name = true → name ∈ after.suffixed :=
    fun suffixed => NameBook.mem_remember.mpr (Or.inr ⟨rfl, suffixed⟩)
  -- The declaration of the name itself cannot have entered the longer one.
  have longer : name ++ Family.totalSuffix ≠ name := by simp [Family.totalSuffix]
  have taken : name ++ Family.totalSuffix ∈ after.suffixed
      ↔ IsDeclared steps (name ++ Family.totalSuffix) := by
    rw [NameBook.mem_remember, mem_turned]
    simp [longer, Text.endsWith_append_self]
  have tells : after.Tells c name ↔ Text.endsWith Family.totalSuffix name = true
      ∨ ¬ IsDeclared steps (name ++ Family.totalSuffix) := by
    rw [NameBook.Tells, if_neg word, taken]
  have back := NameBook.counterName_eq_iff (c := c) known
  refine ⟨⟨c.external name, after.counterName c (Family.counterStem (c.external name)),
    run_naming_pair steps _ _, back.trans tells, fun changed => ?_⟩, fun c' other => ?_⟩
  · exact NameBook.counterName_of_not_tells word fun told => changed (back.mpr told)
  · refine ⟨c'.external other, ?_⟩
    have pair := run_naming_pair steps (.external c' other) (.logical c' (c'.external other))
    simpa only [NamingStep.answer, Category.logical_external] using pair

/-- A name with the ending is declared, forgotten and declared again for another category. -/
def redeclared : List NamingStep :=
  [.externalCounter ⟨"bank", none⟩ "jobs_total", .clear,
   .externalCounter ⟨"mill", some "acme_"⟩ "jobs_total"]

theorem counterName_comes_back_redeclared :
    "jobs" ≠ "total" ∧ IsDeclared redeclared ("jobs" ++ Family.totalSuffix)
      ∧ ∃ family,
        run (redeclared.map .naming ++ [.naming (.externalCounter ⟨"shop", none⟩ "jobs"),
            .naming (.logicalCounter ⟨"shop", none⟩ (Family.counterStem family))])
          = run (redeclared.map .naming)
            ++ [⟨.ok (.text family), []⟩, ⟨.ok (.text "jobs_total"), []⟩] := by
  have word : "jobs" ≠ "total" := by decide
  have standing : IsDeclared redeclared ("jobs" ++ Family.totalSuffix) :=
    ⟨[.externalCounter ⟨"bank", none⟩ "jobs_total", .clear], ⟨"mill", some "acme_"⟩, [], rfl,
      List.not_mem_nil⟩
  obtain ⟨⟨family, counter, told, back, otherwise⟩, -⟩ :=
    counterName_comes_back_iff redeclared ⟨"shop", none⟩ word
  have changed : counter ≠ "jobs" := by
    intro same
    rcases back.mp same with suffixed | free
    · exact absurd suffixed (by decide +kernel)
    · exact free standing
  rw [otherwise changed] at told
  exact ⟨word, standing, family, told⟩

end Scenario

end Metering
