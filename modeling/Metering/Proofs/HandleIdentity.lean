import Metering.Proofs.SystemMemory

/-!
# Handles that are given again

A handle is kept from the call that made it to the next shutdown that completes: no other call
replaces or drops it, and a call that fails leaves all handles as they were
(`Moment.handles_of_failed`). So whoever asks again for the same external name, counters among
themselves and timers of either kind among themselves, is given the very same handle, and asking
again under the same category and name changes nothing at all (`given_again`).
-/

namespace Metering

open Operation Metering.System

namespace Moment

variable {m : Moment} {kind : InstrumentKind} {external : String} {h : Handle}

/-- A call that fails leaves the handles as they were, a shutdown included. -/
lemma handles_of_failed (failed : m.returned = false) (kind : InstrumentKind) :
    m.after.system.handles kind = m.before.system.handles kind := by
  have going : m.resets = false := by rw [resets, failed, Bool.and_false]
  cases request : m.call.instrument? with
  | none => rw [(notes_of_unasked request going).handles, Deployment.noting_handles]
  | some asked =>
    obtain ⟨asked, c, name⟩ := asked
    rcases asked_cases request with ⟨-, same⟩ | ⟨-, same⟩ | ⟨-, returned, -⟩
    · exact same kind
    · exact same kind
    · rw [failed] at returned
      cases returned

lemma kept_stays (going : m.resets = false)
    (kept : (m.before.system.handles kind).get? external = some h) :
    (m.after.system.handles kind).get? external = some h := by
  rcases m.kept_after kind external with ⟨resets, -⟩ | ⟨-, same, -⟩ | ⟨-, new, -⟩
  · rw [going] at resets
    cases resets
  · rw [same, kept]
  · rw [kept] at new
    cases new

end Moment

/-- What holds of the system after one call of a run, and is kept by every later call, holds of the
system that the run has reached. Others do not touch the system. -/
lemma Run.lasts {others : Deployment → Site → Prop} {start d : Deployment} {ms : List Moment}
    {P : System → Prop} (run : Run others start ms d) {earlier later : List Moment} {m : Moment}
    (split : ms = earlier ++ m :: later) (first : P m.after.system)
    (called : ∀ m' ∈ later, P m'.before.system → P m'.after.system) : P d.system := by
  induction run generalizing later with
  | start => simp at split
  | @call ms d _ call ih =>
    rcases split_snoc split with ⟨-, rfl, -⟩ | ⟨later, rfl, old⟩
    · exact first
    · simp only [List.mem_append, List.mem_singleton, or_imp, forall_and, forall_eq] at called
      exact called.2 (ih old called.1)
  | others _ _ ih => exact ih split called

/-- Declaring a name whose counter is in the book, or that has not the ending, changes nothing. -/
lemma Deployment.declaring_self {d : Deployment} {isCounter : Bool} {name : String}
    (noted : isCounter = true → Text.endsWith Family.totalSuffix name = true →
      name ∈ d.system.book.suffixed) : d.declaring isCounter name = d := by
  cases isCounter with
  | false => rfl
  | true =>
    have book : d.system.book.remember name = d.system.book := by
      by_cases suffixed : Text.endsWith Family.totalSuffix name = true
      · rw [NameBook.remember, if_pos suffixed, Distinct.insert_of_mem (noted rfl suffixed)]
      · rw [NameBook.remember, if_neg suffixed]
    rw [declaring, if_pos rfl, System.remember, book]

namespace System

variable {kind : InstrumentKind} {c : Category} {name help : String} {labels : List String}
  {d e : Deployment} {h : Handle}

lemma labelled_of_kept (kept : (d.system.handles kind).get? (c.external name) = some h) :
    labelled kind c name help labels d = .ok h (d.declaring (kind == .counter) name) := by
  rw [labelled_eq, kept]

/-- A handle that is made takes as many label values as it was asked to, and is inert where the
category takes no part. -/
lemma made_of_labelled (given : labelled kind c name help labels d = .ok h e)
    (new : (d.system.handles kind).get? (c.external name) = none) :
    h.arity = labels.length ∧ h.inert = !d.system.records kind c := by
  rcases labelled_cases kind c name help labels d with
    ⟨made, kept, -⟩ | ⟨-, ⟨fault, u, run, -⟩ | ⟨made, u, built, -, run⟩⟩
  · rw [new] at kept
    cases kept
  · rw [run] at given
    cases given
  · rw [run] at given
    cases given
    obtain ⟨inert, arity, -⟩ := build_ok built
    exact ⟨arity, by rw [inert, Deployment.declaring_records]⟩

end System

section Runs

variable {others : Deployment → Site → Prop} {start d₁ d₂ e : Deployment}
  {earlier later : List Moment} {asked again : InstrumentKind} {c₁ c₂ : Category}
  {name₁ name₂ help₁ help₂ : String} {labels₁ labels₂ : List String} {h : Handle}

/-- Asking a second time, with no completed shutdown in between, for the external name of a handle
that was given: the very same handle is given, with the label count and the mode of the first time,
whatever else is asked for, and nothing is done to the site or to the handles. If the category and
the name are the same too, nothing changes at all. Calls that fail leave the handles as they
were. -/
theorem given_again
    (run : Run others start (earlier ++ ⟨d₁, .labelled asked c₁ name₁ help₁ labels₁⟩ :: later) d₂)
    (given : labelled asked c₁ name₁ help₁ labels₁ d₁ = .ok h e)
    (going : ∀ m ∈ later, m.resets = false) (alike : asked.childKind = again.childKind)
    (same : c₁.external name₁ = c₂.external name₂) :
    (∃ f, labelled again c₂ name₂ help₂ labels₂ d₂ = .ok h f ∧ f.site = d₂.site
        ∧ (∀ kind, f.system.handles kind = d₂.system.handles kind)
        ∧ (c₁ = c₂ → name₁ = name₂ → f = d₂))
      ∧ ((d₁.system.handles asked).get? (c₁.external name₁) = none →
        h.arity = labels₁.length ∧ h.inert = !start.system.records asked c₁)
      ∧ ∀ m ∈ earlier ++ ⟨d₁, .labelled asked c₁ name₁ help₁ labels₁⟩ :: later,
        m.returned = false →
          ∀ kind, m.after.system.handles kind = m.before.system.handles kind := by
  let first : Moment := ⟨d₁, .labelled asked c₁ name₁ help₁ labels₁⟩
  have ends : first.after = e := by
    rw [Moment.after, Call.perform, endOf_discard, given]
    rfl
  have kept : (d₂.system.handles again).get? (c₂.external name₂) = some h := by
    refine run.lasts (P := fun s => (s.handles again).get? (c₂.external name₂) = some h) rfl ?_
      fun m hm => Moment.kept_stays (going m hm)
    change (first.after.system.handles again).get? (c₂.external name₂) = some h
    rw [ends, ← same, ← handles_congr alike]
    exact kept_of_labelled given
  -- the book is asked about only where both calls are for a counter of one name
  have noted : name₁ = name₂ → (again == .counter) = true →
      Text.endsWith Family.totalSuffix name₂ = true → name₂ ∈ d₂.system.book.suffixed := by
    rintro rfl counter suffixed
    refine run.lasts (P := fun s => name₁ ∈ s.book.suffixed) rfl ?_ fun m hm old =>
      (m.mem_book_after name₁).mpr ⟨going m hm, Or.inl old⟩
    refine (Moment.mem_book_after first name₁).mpr
      ⟨rfl, Or.inr ⟨suffixed, c₁, ?_⟩⟩
    cases again with
    | counter =>
      cases asked with
      | counter => rfl
      | _ => cases alike
    | _ => cases counter
  refine ⟨⟨_, labelled_of_kept kept, Deployment.declaring_site _ _ _,
    Deployment.declaring_handles _ _ _, ?_⟩, ?_, ?_⟩
  · rintro - rfl
    exact Deployment.declaring_self (noted rfl)
  · intro new
    obtain ⟨arity, inert⟩ := made_of_labelled given new
    obtain ⟨before, reaching⟩ := run.before (m := first) (by simp [first])
    exact ⟨arity, by rw [inert, reaching.records]⟩
  · exact fun m _ failed => Moment.handles_of_failed failed

/-- A timer with one label, a counter of its name with the ending, and a gauge of its own name. -/
def timed : List Call :=
  [.labelled .timer ⟨"shop", none⟩ "jobs" "h" ["queue"],
    .labelled .counter ⟨"shop", none⟩ "jobs_total" "h" [],
    .gauge ⟨"shop", none⟩ "jobs" "h" ⟨0⟩]

theorem given_again_timed : ∃ h e,
    labelled .timer ⟨"shop", none⟩ "jobs" "h" ["queue"] (.small [⟨"shop", none⟩]) = .ok h e
      ∧ (∀ m ∈ (moments (.small [⟨"shop", none⟩]) timed).tail, m.resets = false)
      ∧ (∃ f, labelled .simpleTimer ⟨"shop", none⟩ "jobs" "other" []
            (reached (.small [⟨"shop", none⟩]) timed) = .ok h f
          ∧ f = reached (.small [⟨"shop", none⟩]) timed)
      ∧ h.arity = 1 ∧ h.inert = false := by
  have going : ∀ m ∈ (moments (.small [⟨"shop", none⟩]) timed).tail, m.resets = false := by
    intro m hm
    have called := call_of_mem_moments (List.mem_of_mem_tail hm)
    exact Moment.resets_eq_false fun h => by simp [h, timed] at called
  have run : Run (fun _ _ => False) (.small [⟨"shop", none⟩])
      ([] ++ ⟨.small [⟨"shop", none⟩], .labelled .timer ⟨"shop", none⟩ "jobs" "h" ["queue"]⟩
        :: (moments (.small [⟨"shop", none⟩]) timed).tail)
      (reached (.small [⟨"shop", none⟩]) timed) := Run.of_calls _ _ timed
  obtain ⟨⟨f, again, -, -, unchanged⟩, made, -⟩ := given_again run rfl going
    (show InstrumentKind.timer.childKind = InstrumentKind.simpleTimer.childKind from rfl)
    (show Category.external ⟨"shop", none⟩ "jobs" = Category.external ⟨"shop", none⟩ "jobs" from
      rfl)
  exact ⟨_, _, rfl, going, ⟨f, again, unchanged rfl rfl⟩, made rfl⟩

end Runs

end Metering
