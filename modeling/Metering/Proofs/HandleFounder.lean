import Metering.Proofs.SystemMemory

/-!
# Who decides whether a handle is inert

Handles are kept by external name, and categories with different names and application parts can
give the same external names. The gate is asked only when a handle is made; so the category of the
first call that gave one since the last completed shutdown (`founder`) decides for all later ones.
-/

namespace Metering

lemma founder_snoc (ms : List Moment) (m : Moment) (kind : InstrumentKind) (external : String) :
    founder (ms ++ [m]) kind external
      = if m.resets then none else (founder ms kind external).or (m.provider? kind external) := by
  rw [founder, sinceReset_snoc]
  cases m.resets with
  | true => rfl
  | false => simp [founder, List.findSome?_append]

/-- A handle is kept exactly if there is a founder, and the founder's category tells whether it is
inert. -/
lemma Run.kept_of_founder {others : Deployment → Site → Prop} {start d : Deployment}
    {ms : List Moment} (run : Run others start ms d) (kind : InstrumentKind) (external : String)
    (none_kept : (start.system.handles kind).get? external = none) :
    ((d.system.handles kind).get? external = none ∧ founder ms kind external = none)
      ∨ ∃ c made, founder ms kind external = some c
        ∧ (d.system.handles kind).get? external = some made
        ∧ made.inert = !start.system.records kind c := by
  induction run with
  | start => exact Or.inl ⟨none_kept, rfl⟩
  | @call ms d run call ih =>
    rw [founder_snoc]
    rcases Moment.kept_after ⟨d, call⟩ kind external with
      ⟨resets, forgotten⟩ | ⟨going, same, silent⟩ | ⟨going, new, c, made, given, kept, inert, -⟩
    · exact Or.inl ⟨forgotten, by rw [if_pos resets]⟩
    · rw [same, if_neg (by simp [going])]
      rcases ih with ⟨absent, founded⟩ | ⟨c, made, founded, kept, inert⟩
      · exact Or.inl ⟨absent, by rw [founded, silent absent]; rfl⟩
      · exact Or.inr ⟨c, made, by rw [founded]; rfl, kept, inert⟩
    · rw [if_neg (by simp [going])]
      rcases ih with ⟨-, founded⟩ | ⟨c', made', -, old, -⟩
      · refine Or.inr ⟨c, made, by rw [founded, given]; rfl, kept, ?_⟩
        rw [inert, run.records]
      · rw [new] at old
        cases old
  | others _ _ ih => exact ih

/-- A handle that is given is inert exactly if its founder's category takes no part. It is gated
by the category that it was asked for exactly if that one and the founder's are gated alike. -/
theorem inert_iff_founder_gated {others : Deployment → Site → Prop} {enabled : Distinct Category}
    {timers : Bool} {r : RegistryId} {s : Site} {ms : List Moment} {d e : Deployment}
    {kind : InstrumentKind} {c : Category} {name help : String} {labels : List String} {h : Handle}
    (run : Run others ⟨System.fresh enabled timers r, s⟩ ms d)
    (given : System.labelled kind c name help labels d = .ok h e) :
    ∃ c₀, founder (ms ++ [⟨d, .labelled kind c name help labels⟩]) kind (c.external name) = some c₀
      ∧ (h.inert = true ↔ d.system.records kind c₀ = false)
      ∧ ((h.inert = true ↔ d.system.records kind c = false)
        ↔ d.system.records kind c₀ = d.system.records kind c) := by
  have ends : Moment.after ⟨d, .labelled kind c name help labels⟩ = e := by
    rw [Moment.after, Call.perform, endOf_discard, given]
    rfl
  have kept := System.kept_of_labelled given
  rw [← ends] at kept
  have whole := run.call (.labelled kind c name help labels)
  have nothing : ((System.fresh enabled timers r).handles kind).get? (c.external name) = none := by
    cases kind <;> rfl
  rcases whole.kept_of_founder kind (c.external name) nothing with
    ⟨absent, -⟩ | ⟨c₀, made, founded, found, inert⟩
  · rw [kept] at absent
    cases absent
  · obtain rfl := Option.some.inj (kept.symm.trans found)
    rw [← run.records] at inert
    refine ⟨c₀, founded, by rw [inert]; simp, ?_⟩
    rw [inert]
    cases d.system.records kind c₀ <;> cases d.system.records kind c <;> simp

/-- Two categories that give the same external names: the first one is enabled, the second not. -/
def twinCategories : Category × Category := (⟨"ab", none⟩, ⟨"b", some "a"⟩)

/-- A system that has made a counter under the twin that is not enabled. -/
def twinned : Deployment :=
  reached (.small [twinCategories.1]) [.labelled .counter twinCategories.2 "x" "h" []]

theorem inert_iff_founder_gated_twins : ∃ h e,
    System.labelled .counter twinCategories.1 "x" "h" [] twinned = .ok h e
      ∧ ∃ c₀, founder (moments (.small [twinCategories.1])
            [.labelled .counter twinCategories.2 "x" "h" []]
          ++ [⟨twinned, .labelled .counter twinCategories.1 "x" "h" []⟩]) .counter "ab_x" = some c₀
        ∧ (h.inert = true ↔ twinned.system.records .counter c₀ = false)
        ∧ ((h.inert = true ↔ twinned.system.records .counter twinCategories.1 = false)
          ↔ twinned.system.records .counter c₀
            = twinned.system.records .counter twinCategories.1) :=
  ⟨_, _, rfl, inert_iff_founder_gated
    (Run.of_calls (fun _ _ => False) (.small [twinCategories.1])
      [.labelled .counter twinCategories.2 "x" "h" []]) rfl⟩

/-- The handle for the enabled twin is the inert one of the other. -/
theorem inert_under_enabled_twin : ∃ h e,
    System.labelled .counter twinCategories.1 "x" "h" [] twinned = .ok h e
      ∧ h.inert = true ∧ twinned.system.isEnabled twinCategories.1 = true :=
  ⟨_, _, rfl, rfl, rfl⟩

end Metering
