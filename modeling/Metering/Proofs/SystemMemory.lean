import Metering.Proofs.SystemRuns

/-!
# What a system remembers

Beside its lists a system remembers the names of counters, in its book, and the handles of
instruments, by external name. Both are traced to the calls that have been made since the last
shutdown that completed: every call that declares a counter is remembered, whatever becomes of it
(`Run.mem_book_iff`), and of the calls that give a handle for one external name only the first has
made it (`Moment.kept_after`).
-/

namespace Metering

open Operation Metering.System

namespace Call

/-- Whether the call is a shutdown. -/
def isShutdown : Call → Bool
  | shutdown => true
  | _ => false

/-- The category and name of the counter that the call declares. -/
def counter? : Call → Option (Category × String)
  | labelled .counter c name .. | single .counter c name .. | supplied .counter c name .. =>
    some (c, name)
  | _ => none

/-- The kind, category and name of the instrument that the call asks for. -/
def instrument? : Call → Option (InstrumentKind × Category × String)
  | labelled kind c name .. | single kind c name .. => some (kind, c, name)
  | _ => none

end Call

namespace Moment

/-- Whether the call did not fail. -/
def returned (m : Moment) : Bool :=
  match m.call.perform m.before with
  | .ok .. => true
  | .error .. => false

/-- Whether the call is a shutdown that completed. -/
def resets (m : Moment) : Bool := m.call.isShutdown && m.returned

lemma resets_eq_false {m : Moment} (h : m.call ≠ .shutdown) : m.resets = false := by
  obtain ⟨d, call⟩ := m
  cases call with
  | shutdown => exact absurd rfl h
  | _ => rfl

/-- The category under which the call gave a handle of this kind for this external name. -/
def provider? (m : Moment) (kind : InstrumentKind) (external : String) : Option Category :=
  match m.call.instrument? with
  | some (asked, c, name) =>
    if m.returned ∧ asked.childKind = kind.childKind ∧ c.external name = external then some c
    else none
  | none => none

end Moment

/-- The moments after the last shutdown that completed. -/
def sinceReset (ms : List Moment) : List Moment :=
  (ms.reverse.takeWhile fun m => !m.resets).reverse

lemma sinceReset_snoc (ms : List Moment) (m : Moment) :
    sinceReset (ms ++ [m]) = if m.resets then [] else sinceReset ms ++ [m] := by
  rw [sinceReset, List.reverse_append, List.reverse_singleton, List.singleton_append,
    List.takeWhile_cons]
  by_cases h : m.resets
  · simp [h]
  · simp [h, sinceReset]

/-- A counter of this name has been declared since then, under whatever category. -/
def Declared (ms : List Moment) (name : String) : Prop :=
  ∃ m ∈ sinceReset ms, ∃ c, m.call.counter? = some (c, name)

/-- The category of the first call since then that gave a handle of this kind for this external
name. -/
def founder (ms : List Moment) (kind : InstrumentKind) (external : String) : Option Category :=
  (sinceReset ms).findSome? fun m => m.provider? kind external

lemma declared_snoc (ms : List Moment) (m : Moment) (name : String) :
    Declared (ms ++ [m]) name
      ↔ m.resets = false ∧ (Declared ms name ∨ ∃ c, m.call.counter? = some (c, name)) := by
  rw [Declared, sinceReset_snoc]
  cases m.resets with
  | true => simp
  | false =>
    simp only [Bool.false_eq_true, if_false, List.mem_append, List.mem_singleton, true_and]
    constructor
    · rintro ⟨m', hm | rfl, declared⟩
      · exact Or.inl ⟨m', hm, declared⟩
      · exact Or.inr declared
    · rintro (⟨m', hm, declared⟩ | declared)
      · exact ⟨m', Or.inl hm, declared⟩
      · exact ⟨m, Or.inr rfl, declared⟩

namespace Deployment

/-- The deployment after a name has been declared. -/
def declaring (d : Deployment) (isCounter : Bool) (name : String) : Deployment :=
  if isCounter then { d with system := d.system.remember name } else d

variable (d : Deployment) (isCounter : Bool) (name : String)

lemma declaring_site : (d.declaring isCounter name).site = d.site := by
  cases isCounter <;> rfl

lemma declaring_records (kind : InstrumentKind) (c : Category) :
    (d.declaring isCounter name).system.records kind c = d.system.records kind c := by
  cases isCounter <;> cases kind <;> rfl

lemma declaring_handles (kind : InstrumentKind) :
    (d.declaring isCounter name).system.handles kind = d.system.handles kind := by
  cases isCounter <;> cases kind <;> rfl

/-- The deployment after the name of the counter that a call declares has been remembered. -/
def noting (d : Deployment) (call : Call) : Deployment :=
  d.declaring call.counter?.isSome ((call.counter?.map Prod.snd).getD "")

lemma noting_handles (call : Call) (kind : InstrumentKind) :
    (d.noting call).system.handles kind = d.system.handles kind := d.declaring_handles _ _ kind

lemma SameNotes.records {d e : Deployment} (h : d.SameNotes e) (kind : InstrumentKind)
    (c : Category) : e.system.records kind c = d.system.records kind c := by
  rw [h]
  cases kind <;> rfl

lemma SameNotes.handles {d e : Deployment} (h : d.SameNotes e) (kind : InstrumentKind) :
    e.system.handles kind = d.system.handles kind := by
  rw [h]
  cases kind <;> rfl

lemma SameNotes.book {d e : Deployment} (h : d.SameNotes e) : e.system.book = d.system.book := by
  rw [h]

end Deployment

namespace System

variable {kind : InstrumentKind} {c : Category} {name external help : String}
  {labels : List String} {d e : Deployment} {h : Handle}

lemma get?_keep (s : System) (kind asked : InstrumentKind) (external x : String) (h : Handle) :
    ((s.keep asked external h).handles kind).get? x
      = if asked.childKind = kind.childKind ∧ external = x then some h
        else (s.handles kind).get? x := by
  by_cases same : x = external
  · subst same
    cases asked <;> cases kind <;> simp [keep, handles, Index.get?_put, InstrumentKind.childKind]
  · have other : ¬ external = x := fun e => same e.symm
    cases asked <;> cases kind <;>
      simp [keep, handles, Index.get?_put, InstrumentKind.childKind, same, other]

lemma keep_roster (s : System) (kind : InstrumentKind) (external : String) (h : Handle) :
    (s.keep kind external h).roster = s.roster := by cases kind <;> rfl

lemma keep_book (s : System) (kind : InstrumentKind) (external : String) (h : Handle) :
    (s.keep kind external h).book = s.book := by cases kind <;> rfl

lemma keep_records (s : System) (asked kind : InstrumentKind) (external : String) (h : Handle)
    (c : Category) : (s.keep asked external h).records kind c = s.records kind c := by
  cases asked <;> cases kind <;> rfl

lemma handles_congr {s : System} {kind asked : InstrumentKind}
    (same : asked.childKind = kind.childKind) : s.handles asked = s.handles kind := by
  cases asked <;> cases kind <;> first | rfl | cases same

lemma records_congr {s : System} {kind asked : InstrumentKind}
    (same : asked.childKind = kind.childKind) (c : Category) :
    s.records asked c = s.records kind c := by
  cases asked <;> cases kind <;> first | rfl | cases same

lemma declareName_eq (isCounter : Bool) (name : String) (d : Deployment) :
    declareName isCounter name d = .ok () (d.declaring isCounter name) := by
  cases isCounter <;> rfl

lemma supplied_eq (kind : SuppliedKind) (c : Category) (name help : String) (labels : List String)
    (d : Deployment) :
    supplied kind c name help labels d
      = provide kind c name help labels (d.declaring (kind == .counter) name) :=
  bind_of_ok (declareName_eq _ name d) _

lemma buildKept_eq (kind : InstrumentKind) (c : Category) (external help : String)
    (labels : List String) (d : Deployment) :
    buildKept kind c external help labels d = match build kind c external help labels d with
      | .ok h e => .ok h { e with system := e.system.keep kind external h }
      | .error fault e => .error fault e := by
  rw [buildKept]
  cases built : build kind c external help labels d with
  | ok h e => exact (bind_of_ok built _).trans rfl
  | error fault e => exact bind_of_error built _

lemma labelled_eq (kind : InstrumentKind) (c : Category) (name help : String)
    (labels : List String) (d : Deployment) :
    labelled kind c name help labels d
      = match (d.system.handles kind).get? (c.external name) with
        | some h => .ok h (d.declaring (kind == .counter) name)
        | none => buildKept kind c (c.external name) help labels
            (d.declaring (kind == .counter) name) := by
  let m := d.declaring (kind == .counter) name
  rw [labelled, bind_of_ok (declareName_eq _ name d), obtainHandle, bind_system,
    d.declaring_handles]
  cases (d.system.handles kind).get? (c.external name) <;> rfl

/-- All that asking for an instrument can do: give the handle that is kept, fail to make one, or
make one and keep it. -/
lemma labelled_cases (kind : InstrumentKind) (c : Category) (name help : String)
    (labels : List String) (d : Deployment) :
    (∃ h, (d.system.handles kind).get? (c.external name) = some h
        ∧ labelled kind c name help labels d = .ok h (d.declaring (kind == .counter) name))
      ∨ (d.system.handles kind).get? (c.external name) = none
        ∧ ((∃ fault e, labelled kind c name help labels d = .error fault e
            ∧ (d.declaring (kind == .counter) name).SameNotes e)
          ∨ ∃ h e, build kind c (c.external name) help labels
              (d.declaring (kind == .counter) name) = .ok h e
            ∧ (d.declaring (kind == .counter) name).SameNotes e
            ∧ labelled kind c name help labels d
              = .ok h { e with system := e.system.keep kind (c.external name) h }) := by
  have notes := (build_enrols c (c.external name) help labels kind
    (d.declaring (kind == .counter) name)).sameNotes
  rw [labelled_eq]
  cases kept : (d.system.handles kind).get? (c.external name) with
  | some h => exact Or.inl ⟨h, rfl, rfl⟩
  | none =>
    refine Or.inr ⟨rfl, ?_⟩
    simp only [buildKept_eq]
    cases built : build kind c (c.external name) help labels
        (d.declaring (kind == .counter) name) with
    | ok h e =>
      rw [built] at notes
      exact Or.inr ⟨h, e, rfl, notes, rfl⟩
    | error fault e =>
      rw [built] at notes
      exact Or.inl ⟨fault, e, rfl, notes⟩

lemma issue_ok {use : HandleUse} {arity : Nat} {target : Option CollectorId}
    (issued : issue use arity target d = .ok h e) :
    h.arity = arity ∧ h.target = target ∧ e.system = d.system := by
  cases issued
  exact ⟨rfl, rfl, rfl⟩

/-- A new handle is active where the category takes part, and its collector is the next one of the
site, listed under the category. -/
lemma build_ok (built : build kind c external help labels d = .ok h e) :
    h.inert = !d.system.records kind c ∧ h.arity = labels.length
      ∧ ∀ k, h.target = some k → k = d.site.nextPlace ∧ k ∈ e.listed c := by
  rw [build, bind_system] at built
  by_cases records : d.system.records kind c
  · rw [if_pos records, buildActive] at built
    obtain ⟨m, m', got, first⟩ := ok_of_bind_ok built
    cases got
    obtain ⟨i, u, declared, second⟩ := ok_of_bind_ok first
    obtain ⟨-, rfl⟩ := ofExcept_ok declared
    obtain ⟨k, v, enrolled, issued⟩ := ok_of_bind_ok second
    obtain ⟨arity, target, same⟩ := issue_ok issued
    refine ⟨by rw [records, Handle.inert, target]; rfl, arity, ?_⟩
    intro j hj
    obtain rfl := Option.some.inj (target.symm.trans hj)
    rw [Deployment.listed, same]
    exact enroll_ok enrolled
  · rw [if_neg records, buildInert] at built
    obtain ⟨⟨⟩, m, -, issued⟩ := ok_of_bind_ok built
    obtain ⟨arity, target, -⟩ := issue_ok issued
    refine ⟨by rw [Handle.inert, target]; simpa using records, arity, ?_⟩
    intro j hj
    rw [target] at hj
    cases hj

/-- A new handle of a supplied metric is active where the category is enabled, and its collector is
the next one of the site, listed under the category and still without suppliers. -/
lemma supplied_ok {kind : SuppliedKind} (made : supplied kind c name help labels d = .ok h e) :
    h.use = .supplying ∧ h.arity = labels.length ∧ h.inert = !d.system.isEnabled c
      ∧ ∀ k, h.target = some k → k = d.site.nextPlace ∧ k.index < e.site.collectors.length
        ∧ e.site.collector k = .supplied ⟨kind, c.external name, help, labels, ∅⟩
        ∧ k ∈ e.listed c := by
  let m := d.declaring (kind == .counter) name
  have place : m.site.nextPlace = d.site.nextPlace := by rw [d.declaring_site]
  have switch : m.system.isEnabled c = d.system.isEnabled c := by cases kind <;> rfl
  rw [supplied_eq, provide, bind_system] at made
  by_cases enabled : m.system.isEnabled c
  · rw [if_pos enabled] at made
    obtain ⟨k, u, enrolled, issued⟩ := ok_of_bind_ok made
    have placed := nextPlace_lt_enroll c (.supplied ⟨kind, c.external name, help, labels, ∅⟩) m
    have collector := collector_enroll c (.supplied ⟨kind, c.external name, help, labels, ∅⟩) m
    obtain ⟨rfl, listed⟩ := enroll_ok enrolled
    rw [enrolled] at placed collector
    cases issued
    refine ⟨rfl, rfl, by rw [← switch, enabled]; rfl, ?_⟩
    rintro k ⟨⟩
    exact ⟨place, placed, collector, listed⟩
  · rw [if_neg enabled] at made
    cases made
    refine ⟨rfl, rfl, by rw [← switch, Bool.eq_false_iff.mpr enabled]; rfl, ?_⟩
    rintro k ⟨⟩

/-- The handle that is given is kept from then on. -/
lemma kept_of_labelled (given : labelled kind c name help labels d = .ok h e) :
    (e.system.handles kind).get? (c.external name) = some h := by
  rcases labelled_cases kind c name help labels d with
    ⟨made, kept, run⟩ | ⟨new, ⟨fault, u, run, notes⟩ | ⟨made, u, built, notes, run⟩⟩
  · rw [run] at given
    cases given
    rw [Deployment.declaring_handles, kept]
  · rw [run] at given
    cases given
  · rw [run] at given
    cases given
    exact (get?_keep _ kind kind _ _ h).trans (if_pos ⟨rfl, rfl⟩)

/-- The child of an instrument without labels is taken from its handle without touching the
system. -/
lemma single_of_ok (created : labelled kind c name help [] d = .ok h e) :
    ∃ s, endOf (single kind c name help d) = { e with site := s }
      ∧ (h.arity = 0 → ∃ child, single kind c name help d = .ok child { e with site := s }) := by
  have run : single kind c name help d
      = (liftM (h.labels kind.childKind []) : Operation Child) e := bind_of_ok created _
  refine ⟨endOf (h.labels kind.childKind [] e.site), ?_, ?_⟩
  · rw [run]
    exact endOf_ofAction _ e
  · intro bare
    have checked : h.checkArity [] e.site = .ok () e.site := by
      rw [Handle.checkArity, if_pos (by rw [bare]; rfl)]
      rfl
    have taken : ∃ child t, h.labels kind.childKind [] e.site = .ok child t := by
      rw [Handle.labels, bind_of_ok checked]
      cases h.target with
      | none => exact ⟨_, _, rfl⟩
      | some k => exact ⟨_, _, rfl⟩
    obtain ⟨child, t, taken⟩ := taken
    rw [run, taken]
    exact ⟨child, ofAction_ok taken⟩

lemma single_of_error {fault : Fault} (failed : labelled kind c name help [] d = .error fault e) :
    single kind c name help d = .error fault e := bind_of_error failed _

end System

namespace Moment

variable {m : Moment} {kind asked : InstrumentKind} {c : Category} {name external : String}

lemma after_of_ok {e : Deployment} (h : m.call.perform m.before = .ok () e) :
    m.after = e ∧ m.returned = true := by
  rw [after, returned, h]
  exact ⟨rfl, rfl⟩

lemma after_of_error {fault : Fault} {e : Deployment}
    (h : m.call.perform m.before = .error fault e) : m.after = e ∧ m.returned = false := by
  rw [after, returned, h]
  exact ⟨rfl, rfl⟩

/-- A call that asks for an instrument ends as the creation ends, up to the site. -/
lemma asked_ends (h : m.call.instrument? = some (asked, c, name)) : ∃ help labels,
    (∀ made e, labelled asked c name help labels m.before = .ok made e →
      (made.arity = labels.length → m.returned = true) ∧ ∃ s, m.after = { e with site := s })
    ∧ ∀ fault e, labelled asked c name help labels m.before = .error fault e →
      m.returned = false ∧ m.after = e := by
  obtain ⟨d, call⟩ := m
  cases call with
  | labelled kind' c' name' help labels =>
    cases h
    refine ⟨help, labels, ?_, ?_⟩
    · intro made e created
      have performed : Call.perform (.labelled asked c name help labels) d = .ok () e := by
        rw [Call.perform, discard_eq, created]
      obtain ⟨after, returned⟩ :=
        after_of_ok (m := ⟨d, .labelled asked c name help labels⟩) performed
      exact ⟨fun _ => returned, e.site, after⟩
    · intro fault e failed
      have performed : Call.perform (.labelled asked c name help labels) d = .error fault e := by
        rw [Call.perform, discard_eq, failed]
      obtain ⟨after, returned⟩ :=
        after_of_error (m := ⟨d, .labelled asked c name help labels⟩) performed
      exact ⟨returned, after⟩
  | single kind' c' name' help =>
    cases h
    refine ⟨help, [], ?_, ?_⟩
    · intro made e created
      obtain ⟨s, ends, taken⟩ := single_of_ok created
      refine ⟨?_, s, (endOf_discard _ d).trans ends⟩
      intro bare
      obtain ⟨child, taken⟩ := taken bare
      have performed : Call.perform (.single asked c name help) d
          = .ok () { e with site := s } := by
        rw [Call.perform, discard_eq, taken]
      exact (after_of_ok (m := ⟨d, .single asked c name help⟩) performed).2
    · intro fault e failed
      have performed : Call.perform (.single asked c name help) d = .error fault e := by
        rw [Call.perform, discard_eq, single_of_error failed]
      obtain ⟨after, returned⟩ := after_of_error (m := ⟨d, .single asked c name help⟩) performed
      exact ⟨returned, after⟩
  | _ => cases h

/-- What a call that asks for an instrument does to the handles: nothing if one is kept or none
could be made, otherwise it keeps the one that was made. -/
lemma asked_cases (h : m.call.instrument? = some (asked, c, name)) :
    ((m.before.system.handles asked).get? (c.external name) ≠ none
        ∧ ∀ kind, m.after.system.handles kind = m.before.system.handles kind)
      ∨ (m.returned = false
        ∧ ∀ kind, m.after.system.handles kind = m.before.system.handles kind)
      ∨ ((m.before.system.handles asked).get? (c.external name) = none ∧ m.returned = true
        ∧ ∃ made : Handle, made.inert = !m.before.system.records asked c
          ∧ (∀ k, made.target = some k → m.Registers c k)
          ∧ ∀ kind x, (m.after.system.handles kind).get? x
              = if asked.childKind = kind.childKind ∧ c.external name = x then some made
                else (m.before.system.handles kind).get? x) := by
  obtain ⟨help, labels, ended, failed⟩ := asked_ends h
  rcases labelled_cases asked c name help labels m.before with
    ⟨made, kept, run⟩ | ⟨new, ⟨fault, e, run, notes⟩ | ⟨made, e, built, notes, run⟩⟩
  · obtain ⟨-, s, after⟩ := ended _ _ run
    refine Or.inl ⟨by simp [kept], ?_⟩
    intro kind
    rw [after]
    exact Deployment.declaring_handles _ _ _ kind
  · obtain ⟨returned, after⟩ := failed _ _ run
    refine Or.inr (Or.inl ⟨returned, ?_⟩)
    intro kind
    rw [after, notes.handles, Deployment.declaring_handles]
  · obtain ⟨inert, arity, target⟩ := build_ok built
    obtain ⟨returned, s, after⟩ := ended _ _ run
    refine Or.inr (Or.inr ⟨new, returned arity, made, ?_, ?_, ?_⟩)
    · rw [inert, Deployment.declaring_records]
    · intro k hk
      obtain ⟨rfl, listed⟩ := target k hk
      refine ⟨by rw [Deployment.declaring_site]; exact Nat.le_refl _, ?_⟩
      rw [Deployment.listed, after]
      change _ ∈ (e.system.keep asked (c.external name) made).roster.ofCategory c
      rw [keep_roster]
      exact listed
    · intro kind x
      rw [after]
      simp only [get?_keep, notes.handles, Deployment.declaring_handles]

/-- A call that asks for no instrument changes of the notes at most the book, unless it is a
shutdown that completes. -/
lemma notes_of_unasked (unasked : m.call.instrument? = none) (kept : m.resets = false) :
    (m.before.noting m.call).SameNotes m.after := by
  obtain ⟨d, call⟩ := m
  by_cases discreet : call.IsDiscreet
  · have silent : d.noting call = d := by
      cases call with
      | labelled | single | supplied => exact absurd discreet id
      | _ => rfl
    rw [silent]
    exact (Call.enrols_of_discreet discreet d).sameNotes
  · cases call with
    | labelled | single => cases unasked
    | supplied kind' c' name' help labels =>
      have ends : after ⟨d, .supplied kind' c' name' help labels⟩
          = endOf (provide kind' c' name' help labels (d.declaring (kind' == .counter) name')) := by
        rw [after, Call.perform, endOf_discard, supplied_eq]
      have noted : d.noting (.supplied kind' c' name' help labels)
          = d.declaring (kind' == .counter) name' := by cases kind' <;> rfl
      rw [ends, noted]
      exact (provide_enrols c' name' help labels kind' _).sameNotes
    | shutdown =>
      have failed : returned ⟨d, .shutdown⟩ = false := by simpa [resets, Call.isShutdown] using kept
      rw [after_shutdown]
      rw [returned, Call.perform, shutdown_eq] at failed
      rw [shutdown_eq]
      cases h : d.system.roster.dismiss d.site with
      | ok x t =>
        rw [h] at failed
        cases failed
      | error fault t => rfl
    | _ => exact absurd trivial discreet

/-- A shutdown that completes forgets everything. -/
lemma reset_of_resets (resets : m.resets = true) :
    ∃ t, m.after = ⟨System.reset m.before.system, t⟩ := by
  obtain ⟨d, call⟩ := m
  cases call with
  | shutdown =>
    have completed : returned ⟨d, .shutdown⟩ = true := (Bool.and_eq_true_iff.mp resets).2
    rw [after_shutdown, shutdown_eq]
    rw [returned, Call.perform, shutdown_eq] at completed
    cases h : d.system.roster.dismiss d.site with
    | ok x t => exact ⟨_, rfl⟩
    | error fault t =>
      rw [h] at completed
      cases completed
  | _ => cases resets

lemma provider?_eq_some_iff : m.provider? kind external = some c ↔
    m.returned = true ∧ ∃ asked name, m.call.instrument? = some (asked, c, name)
      ∧ asked.childKind = kind.childKind ∧ c.external name = external := by
  rw [provider?]
  cases h : m.call.instrument? with
  | none => simp
  | some asked =>
    obtain ⟨asked, c', name⟩ := asked
    simp only [Option.some.injEq, Prod.mk.injEq]
    constructor
    · intro found
      split at found
      · next conditions =>
        obtain rfl := Option.some.inj found
        exact ⟨conditions.1, asked, name, ⟨rfl, rfl, rfl⟩, conditions.2⟩
      · cases found
    · rintro ⟨returned, _, _, ⟨rfl, rfl, rfl⟩, same⟩
      rw [if_pos ⟨returned, same⟩]

/-- What a call does to the handle that is kept for an external name: a completed shutdown forgets
it, and the first call that gives one makes it. -/
lemma kept_after (m : Moment) (kind : InstrumentKind) (external : String) :
    (m.resets = true ∧ (m.after.system.handles kind).get? external = none)
      ∨ (m.resets = false
        ∧ (m.after.system.handles kind).get? external
          = (m.before.system.handles kind).get? external
        ∧ ((m.before.system.handles kind).get? external = none →
          m.provider? kind external = none))
      ∨ (m.resets = false ∧ (m.before.system.handles kind).get? external = none
        ∧ ∃ c made, m.provider? kind external = some c
          ∧ (m.after.system.handles kind).get? external = some made
          ∧ made.inert = !m.before.system.records kind c
          ∧ ∀ k, made.target = some k → m.Registers c k) := by
  cases resets : m.resets with
  | true =>
    obtain ⟨t, ends⟩ := reset_of_resets resets
    refine Or.inl ⟨rfl, ?_⟩
    rw [ends]
    cases kind <;> rfl
  | false =>
    apply Or.inr
    cases h : m.call.instrument? with
    | none =>
      have same := (notes_of_unasked h resets).handles kind
      refine Or.inl ⟨rfl, by rw [same, Deployment.noting_handles], ?_⟩
      intro _
      rw [provider?, h]
    | some request =>
      obtain ⟨asked, c, name⟩ := request
      rcases asked_cases h with
        ⟨old, same⟩ | ⟨failed, same⟩ | ⟨new, returned, made, inert, target, kept⟩
      · refine Or.inl ⟨rfl, by rw [same], ?_⟩
        intro absent
        simp only [provider?, h]
        refine if_neg fun ⟨_, alike, meant⟩ => old ?_
        rw [handles_congr alike, meant, absent]
      · refine Or.inl ⟨rfl, by rw [same], ?_⟩
        intro _
        simp only [provider?, h]
        exact if_neg fun conditions => by simp [failed] at conditions
      · by_cases meant : asked.childKind = kind.childKind ∧ c.external name = external
        · refine Or.inr ⟨rfl, ?_, c, made, ?_, by rw [kept, if_pos meant], ?_, target⟩
          · rw [← handles_congr meant.1, ← meant.2, new]
          · exact provider?_eq_some_iff.mpr ⟨returned, asked, name, h, meant⟩
          · rw [inert, records_congr meant.1]
        · refine Or.inl ⟨rfl, by rw [kept, if_neg meant], ?_⟩
          intro _
          simp only [provider?, h]
          exact if_neg fun conditions => meant conditions.2

/-- A call that asks for an instrument remembers its name if it is a counter. -/
lemma asked_keeps (h : m.call.instrument? = some (asked, c, name)) :
    m.after.system.book = (m.before.noting m.call).system.book
      ∧ ∀ kind c', m.after.system.records kind c' = m.before.system.records kind c' := by
  have noted : m.before.noting m.call = m.before.declaring (asked == .counter) name := by
    obtain ⟨d, call⟩ := m
    cases call with
    | labelled kind' | single kind' =>
      cases h
      cases asked <;> rfl
    | _ => cases h
  rw [noted]
  obtain ⟨help, labels, ended, failed⟩ := asked_ends h
  rcases labelled_cases asked c name help labels m.before with
    ⟨made, kept, run⟩ | ⟨new, ⟨fault, e, run, notes⟩ | ⟨made, e, built, notes, run⟩⟩
  · obtain ⟨-, s, after⟩ := ended _ _ run
    rw [after]
    exact ⟨rfl, Deployment.declaring_records _ _ _⟩
  · obtain ⟨-, after⟩ := failed _ _ run
    rw [after]
    refine ⟨notes.book, ?_⟩
    intro kind c'
    rw [notes.records, Deployment.declaring_records]
  · obtain ⟨-, s, after⟩ := ended _ _ run
    rw [after]
    refine ⟨(keep_book e.system asked _ made).trans notes.book, ?_⟩
    intro kind c'
    rw [keep_records, notes.records, Deployment.declaring_records]

/-- The switches of a system are set once and for all. -/
lemma records_after (m : Moment) (kind : InstrumentKind) (c : Category) :
    m.after.system.records kind c = m.before.system.records kind c := by
  cases resets : m.resets with
  | true =>
    obtain ⟨t, ends⟩ := reset_of_resets resets
    rw [ends]
    cases kind <;> rfl
  | false =>
    cases h : m.call.instrument? with
    | none =>
      rw [(notes_of_unasked h resets).records]
      exact Deployment.declaring_records _ _ _ kind c
    | some request => exact (asked_keeps h).2 kind c

/-- A call adds to the book the name of the counter that it declares, if that has the ending, and
nothing else; a completed shutdown empties the book. -/
lemma mem_book_after (m : Moment) (x : String) : x ∈ m.after.system.book.suffixed ↔
    m.resets = false ∧ (x ∈ m.before.system.book.suffixed
      ∨ Text.endsWith Family.totalSuffix x = true ∧ ∃ c, m.call.counter? = some (c, x)) := by
  cases resets : m.resets with
  | true =>
    obtain ⟨t, ends⟩ := reset_of_resets resets
    rw [ends]
    simp [System.reset, System.fresh, NameBook.blank]
  | false =>
    have book : m.after.system.book = (m.before.noting m.call).system.book := by
      cases h : m.call.instrument? with
      | none => exact (notes_of_unasked h resets).book
      | some request => exact (asked_keeps h).1
    rw [book, Deployment.noting, Deployment.declaring]
    cases m.call.counter? with
    | none => simp
    | some declared =>
      obtain ⟨c, name⟩ := declared
      simp only [Option.isSome_some, if_true, Option.map_some, Option.getD_some, true_and]
      rw [System.remember, NameBook.mem_remember]
      refine or_congr_right ⟨?_, ?_⟩
      · rintro ⟨rfl, suffixed⟩
        exact ⟨suffixed, c, rfl⟩
      · rintro ⟨suffixed, c', same⟩
        cases same
        exact ⟨rfl, suffixed⟩

end Moment

namespace Run

variable {others : Deployment → Site → Prop} {start d : Deployment} {ms : List Moment}

lemma records (run : Run others start ms d) (kind : InstrumentKind) (c : Category) :
    d.system.records kind c = start.system.records kind c := by
  induction run with
  | start => rfl
  | call _ call ih => exact (Moment.records_after _ kind c).trans ih
  | others _ _ ih => exact ih

/-- What a system remembers was made by one call, and there has been no reset since, provided that
every call forgets it by a reset, leaves it, or makes it. -/
lemma remembered_since {α : Type} (run : Run others start ms d) (memory : System → Option α)
    (makes : Moment → α → Prop) {x : α}
    (after : ∀ m, m.resets = true ∧ memory m.after.system = none
      ∨ m.resets = false ∧ memory m.after.system = memory m.before.system
      ∨ ∃ x, memory m.after.system = some x ∧ makes m x)
    (none_first : memory start.system = none) (remembered : memory d.system = some x) :
    ∃ earlier m later, ms = earlier ++ m :: later ∧ makes m x
      ∧ ∀ m' ∈ later, m'.resets = false := by
  induction run with
  | start =>
    rw [none_first] at remembered
    cases remembered
  | @call ms d _ call ih =>
    rcases after ⟨d, call⟩ with ⟨-, forgotten⟩ | ⟨going, same⟩ | ⟨x', made, own⟩
    · rw [forgotten] at remembered
      cases remembered
    · obtain ⟨earlier, m, later, rfl, own, going'⟩ := ih (same ▸ remembered)
      refine ⟨earlier, m, later ++ [⟨d, call⟩], by simp, own, ?_⟩
      intro m' hm'
      rcases List.mem_append.mp hm' with old | new
      · exact going' m' old
      · rw [List.mem_singleton.mp new]
        exact going
    · obtain rfl := Option.some.inj (made.symm.trans remembered)
      exact ⟨ms, ⟨d, call⟩, [], rfl, own, by simp⟩
  | others _ _ ih => exact ih remembered

/-- The book holds exactly the names with the ending that have been declared since the last
completed shutdown. -/
lemma mem_book_iff (run : Run others start ms d) (blank : start.system.book = .blank) (x : String) :
    x ∈ d.system.book.suffixed
      ↔ Text.endsWith Family.totalSuffix x = true ∧ Declared ms x := by
  induction run with
  | start =>
    rw [blank]
    simp [NameBook.blank, Declared, sinceReset]
  | @call ms d _ call ih =>
    rw [Moment.mem_book_after, ih, declared_snoc]
    cases Moment.resets ⟨d, call⟩ with
    | true => simp
    | false => simp [← and_or_left]
  | others _ _ ih => exact ih

end Run

end Metering
