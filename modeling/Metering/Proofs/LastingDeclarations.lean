import Metering.Proofs.InterruptedCalls

/-!
# Declarations that last

Gauges, supplied metrics and external summaries are declared again whenever somebody creates them
again. Of all such calls under a category those last that returned and were not followed by another
one that returned and declares a family of the same name (`lasting`). In a run of such calls, the
collectors of an enabled category are at any time those of the calls that last, in the order of the
calls; all other calls have left the category alone.
-/

namespace Metering

open Site Operation Metering.System

namespace Call

/-- The category and the name of the family that the call declares: of a gauge, of a supplied
metric, or of a summary that is computed elsewhere. -/
def backed? : Call → Option (Category × String)
  | gauge c name .. | summary c name .. | supplied .gauge c name .. => some (c, c.external name)
  | supplied .counter c name .. => some (c, Family.counterStem (c.external name))
  | _ => none

/-- The call declares nothing and is no shutdown. -/
def Idle (call : Call) : Prop := call.offers = [] ∧ call ≠ .shutdown

end Call

lemma Collector.shares_of_single {x y : Collector} {family : String}
    (h : x.familyNames = [family]) : x.Shares y ↔ family ∈ y.familyNames := by
  simp [Shares, h]

/-- The family that the call has declared under the category, if that is enabled and the call
returned. -/
def Moment.declares? (m : Moment) (c : Category) : Option String :=
  match m.call.backed? with
  | some (c', family) =>
    if c' = c ∧ m.before.system.isEnabled c ∧ m.returned then some family else none
  | none => none

/-- The moments that declare a family under the category which no later one declares there. -/
def lasting (c : Category) : List Moment → List Moment
  | [] => []
  | m :: ms =>
    if m.declares? c = none ∨ ∃ later ∈ ms, later.declares? c = m.declares? c then lasting c ms
    else m :: lasting c ms

section Lasting

variable {c : Category} {m : Moment} {family : String}

lemma declares_of_lasting {ms : List Moment} (h : m ∈ lasting c ms) :
    m ∈ ms ∧ m.declares? c ≠ none := by
  induction ms with
  | nil => exact absurd h List.not_mem_nil
  | cons n ms ih =>
    rw [lasting] at h
    split at h
    · exact ⟨List.mem_cons_of_mem n (ih h).1, (ih h).2⟩
    · next lasts =>
      rcases List.mem_cons.mp h with rfl | later
      · exact ⟨List.mem_cons_self, fun absent => lasts (Or.inl absent)⟩
      · exact ⟨List.mem_cons_of_mem n (ih later).1, (ih later).2⟩

/-- A moment that declares nothing under the category adds nothing. -/
lemma lasting_snoc_none (ms : List Moment) (h : m.declares? c = none) :
    lasting c (ms ++ [m]) = lasting c ms := by
  induction ms with
  | nil => simp [lasting, h]
  | cons n ms ih =>
    rw [List.cons_append, lasting, lasting, ih]
    cases declared : n.declares? c with
    | none => simp
    | some family => simp [h]

/-- A moment that declares a family comes last and drops who declared that family before. -/
lemma lasting_snoc_some (ms : List Moment) (h : m.declares? c = some family) :
    lasting c (ms ++ [m])
      = (lasting c ms).filter (fun n => n.declares? c ≠ some family) ++ [m] := by
  induction ms with
  | nil => simp [lasting, h]
  | cons n ms ih =>
    rw [List.cons_append, lasting, lasting, ih]
    cases declared : n.declares? c with
    | none => simp
    | some own =>
      by_cases repeated : ∃ later ∈ ms, later.declares? c = some own
      · obtain ⟨later, member, same⟩ := repeated
        rw [if_pos (Or.inr ⟨later, List.mem_append_left _ member, same⟩),
          if_pos (Or.inr ⟨later, member, same⟩)]
      · by_cases same : own = family
        · subst same
          rw [if_pos (Or.inr ⟨m, List.mem_append_right _ List.mem_cons_self, h⟩), if_neg]
          · simp [declared]
          · simpa using repeated
        · rw [if_neg, if_neg]
          · simp [declared, same]
          · simpa using repeated
          · simpa [h, Ne.symm same] using repeated

end Lasting

namespace System

variable {c : Category} {d e : Deployment}

lemma discard_of_ok {α : Type} {x : Operation α} {a : α} (h : x d = .ok a e) :
    discard x d = .ok () e := by
  rw [discard_eq, h]

lemma discard_of_error {α : Type} {x : Operation α} {fault : Fault} (h : x d = .error fault e) :
    discard x d = .error fault e := by
  rw [discard_eq, h]

lemma issue_run (use : HandleUse) (arity : Nat) (target : Option CollectorId) (d : Deployment) :
    ∃ h e, issue use arity target d = .ok h e ∧ d.Unasked e := by
  have moved := issue_unasked use arity target d
  cases run : issue use arity target d with
  | ok h e =>
    rw [run] at moved
    exact ⟨h, e, rfl, moved⟩
  | error fault e => cases run

/-- What an operation gives goes as the enrolment of the collector under the category goes if that
is enabled; nothing else happens to the lists, and nobody is asked besides. -/
structure GoesAs (result : EStateM.Result Fault Deployment Unit) (c : Category) (y : Collector)
    (d : Deployment) : Prop where
  off : d.system.isEnabled c = false → ∃ e, result = .ok () e ∧ d.Unasked e
  enrolled : d.system.isEnabled c = true → ∀ k e, enroll c y d = .ok k e →
    ∃ f, result = .ok () f ∧ e.Unasked f
  failed : d.system.isEnabled c = true → ∀ fault e, enroll c y d = .error fault e →
    result = .error fault e

lemma goesAs_ifEnabled (c : Category) (y : Collector) (d : Deployment) :
    GoesAs ((do if (← Operation.system).isEnabled c then discard (enroll c y) : Operation Unit) d)
      c y d := by
  rw [bind_system]
  constructor
  · intro off
    exact ⟨d, by rw [off]; rfl, Std.Refl.refl d⟩
  · intro on k e enrolled
    exact ⟨e, by rw [on]; exact discard_of_ok enrolled, Std.Refl.refl e⟩
  · intro on fault e failed
    rw [on]
    exact discard_of_error failed

lemma goesAs_provide (kind : SuppliedKind) (c : Category) (name help : String)
    (labels : List String) (d : Deployment) :
    GoesAs (discard (provide kind c name help labels) d) c
      (.supplied ⟨kind, c.external name, help, labels, ∅⟩) d := by
  constructor
  · intro off
    obtain ⟨h, e, issued, unasked⟩ := issue_run .supplying labels.length none d
    have run : provide kind c name help labels d = .ok h e := by
      rw [provide, bind_system, off]
      exact issued
    exact ⟨e, discard_of_ok run, unasked⟩
  · intro on k e enrolled
    obtain ⟨h, f, issued, unasked⟩ := issue_run .supplying labels.length (some k) e
    have run : provide kind c name help labels d = .ok h f := by
      rw [provide, bind_system, if_pos on, bind_of_ok enrolled]
      exact issued
    exact ⟨f, discard_of_ok run, unasked⟩
  · intro on fault e failed
    apply discard_of_error
    rw [provide, bind_system, if_pos on, bind_of_error failed]

/-- A declaring call goes as the enrolment of its one offer, whose one family it declares. -/
lemma goesAs_backed {call : Call} {family : String} (h : call.backed? = some (c, family))
    (d : Deployment) : ∃ y m, call.offers = [(c, y)] ∧ y.declared = y ∧ y.familyNames = [family]
      ∧ d.Aside m ∧ m.site = d.site ∧ m.system.isEnabled c = d.system.isEnabled c
      ∧ GoesAs (call.perform d) c y m := by
  cases call with
  | gauge c' name help i =>
    cases h
    exact ⟨_, d, rfl, rfl, rfl, Std.Refl.refl d, rfl, rfl, goesAs_ifEnabled _ _ d⟩
  | summary c' name help i =>
    cases h
    exact ⟨_, d, rfl, rfl, rfl, Std.Refl.refl d, rfl, rfl, goesAs_ifEnabled _ _ d⟩
  | supplied kind c' name help labels =>
    have goes := goesAs_provide kind c' name help labels (d.declaring (kind == .counter) name)
    have run : Call.perform (.supplied kind c' name help labels) d
        = discard (provide kind c' name help labels) (d.declaring (kind == .counter) name) := by
      rw [Call.perform, discard_eq, discard_eq, supplied_eq]
    rw [← run] at goes
    have names : c' = c
        ∧ (Collector.supplied ⟨kind, c'.external name, help, labels, ∅⟩).familyNames
          = [family] := by
      cases kind <;> cases h <;> exact ⟨rfl, rfl⟩
    obtain ⟨rfl, names⟩ := names
    refine ⟨_, _, rfl, rfl, names, ?_, d.declaring_site _ _, ?_, goes⟩
    · cases kind
      · exact ⟨rfl, Std.Refl.refl _⟩
      · exact Std.Refl.refl d
    · cases kind <;> rfl
  | _ => cases h

end System

namespace Moment

variable {m : Moment} {c c' : Category} {family : String}

lemma declares_eq_some_iff : m.declares? c = some family ↔ m.call.backed? = some (c, family)
    ∧ m.before.system.isEnabled c = true ∧ m.returned = true := by
  rw [declares?]
  cases m.call.backed? with
  | none => simp
  | some backed =>
    obtain ⟨c', family'⟩ := backed
    simp only [Option.some.injEq, Prod.mk.injEq, ite_eq_iff, reduceCtorEq, and_false, or_false]
    tauto

/-- An idle call leaves the lists alone. -/
lemma roster_of_idle (idle : m.call.Idle) : m.after.system.roster = m.before.system.roster := by
  have enrols := m.enrols idle.2
  rw [idle.1] at enrols
  cases enrols with
  | rest h => exact h.roster

/-- A new collector with one family leaves those that have no family of that name. -/
lemma bystanders_of_single {d : Deployment} {y : Collector} (names : y.familyNames = [family])
    (tidy : d.system.roster.Tidy d.site) :
    d.system.roster.bystanders (d.site.withAdded y) c d.site.nextPlace
      = (d.system.roster.ofCategory c).filter fun j =>
        family ∉ (d.site.collector j).familyNames := by
  apply List.filter_congr
  intro j listed
  have known := (withAdded_aside d.site y).grows.declared j (tidy.placed listed)
  have same : ((d.site.withAdded y).collector j).familyNames
      = (d.site.collector j).familyNames := by
    rw [← Collector.familyNames_declared, known, Collector.familyNames_declared]
  simp only [collector_withAdded, Collector.shares_of_single names, same]

/-- What a declaring call does to the lists: nothing unless it returns and its category is enabled;
then its collector comes last, and those with a family of the same name are gone. -/
lemma listed_of_backed (backed : m.call.backed? = some (c, family))
    (tidy : m.before.system.roster.Tidy m.before.site) :
    (m.before.system.isEnabled c = false ∨ m.returned = false →
        m.after.system.roster = m.before.system.roster)
      ∧ (m.before.system.isEnabled c = true → m.returned = true →
        m.after.system.roster = m.before.system.roster.publish c
          ((m.before.listed c).filter fun j => family ∉ (m.before.site.collector j).familyNames)
          m.before.site.nextPlace
        ∧ m.before.site.nextPlace.index < m.after.site.collectors.length
        ∧ (c, (m.after.site.collector m.before.site.nextPlace).declared) ∈ m.call.offers) := by
  obtain ⟨y, e, offered, own, names, aside, same, switch, goes⟩ := goesAs_backed backed m.before
  have run := enroll_eq c y e
  cases on : m.before.system.isEnabled c with
  | false =>
    obtain ⟨f, ended, rest⟩ := goes.off (switch.trans on)
    refine ⟨fun _ => ?_, fun absurd => by cases absurd⟩
    rw [(after_of_ok ended).1, rest.aside.roster, aside.roster]
  | true =>
    cases registered : Roster.register e.system.roster c e.site.nextPlace (e.site.withAdded y) with
    | error fault t =>
      rw [registered] at run
      obtain ⟨ends, failed⟩ := after_of_error (goes.failed (switch.trans on) _ _ run)
      refine ⟨fun _ => by rw [ends]; exact aside.roster, fun _ returned => ?_⟩
      rw [failed] at returned
      cases returned
    | ok roster t =>
      rw [registered] at run
      obtain ⟨f, ended, rest⟩ := goes.enrolled (switch.trans on) _ _ run
      obtain ⟨ends, returned⟩ := after_of_ok ended
      have last : (endOf (enroll c y e)).site = t := by rw [run]; rfl
      have placed := last ▸ nextPlace_lt_enroll c y e
      have new := last ▸ collector_enroll c y e
      obtain ⟨rfl, -, -⟩ := Roster.exchanged_of_register_ok registered
      refine ⟨fun h => by simp [returned] at h, fun _ _ => ⟨?_, ?_, ?_⟩⟩
      · rw [ends, rest.aside.roster, bystanders_of_single names (aside.tidy tidy), aside.roster,
          same]
      · rw [ends, ← same]
        exact Nat.lt_of_lt_of_le placed rest.aside.site.grows.room
      · rw [ends, ← same, rest.aside.site.grows.declared _ placed, new, own, offered]
        exact List.mem_cons_self

/-- A call that declares nothing under a category leaves its list alone. -/
lemma listed_of_undeclared (declaring : m.call.backed?.isSome ∨ m.call.Idle)
    (tidy : m.before.system.roster.Tidy m.before.site) (h : m.declares? c = none) :
    m.after.listed c = m.before.listed c := by
  rcases declaring with some_backed | idle
  · obtain ⟨⟨c', family⟩, backed⟩ := Option.isSome_iff_exists.mp some_backed
    obtain ⟨unchanged, changed⟩ := listed_of_backed backed tidy
    by_cases effective : m.before.system.isEnabled c' = true ∧ m.returned = true
    · have other : c ≠ c' := by
        rintro rfl
        have declared := declares_eq_some_iff.mpr ⟨backed, effective⟩
        rw [h] at declared
        cases declared
      rw [Deployment.listed, (changed effective.1 effective.2).1, Roster.ofCategory_publish,
        if_neg other]
    · rw [Deployment.listed, unchanged]
      simpa only [Bool.not_eq_true] using not_and_or.mp effective
  · rw [Deployment.listed, roster_of_idle idle]

/-- What a declaring call offers has the family that it declares. -/
lemma familyNames_of_offer {x : Collector} (declared : m.declares? c = some family)
    (offered : (c, x.declared) ∈ m.call.offers) : x.familyNames = [family] := by
  obtain ⟨y, e, offers, -, names, -⟩ := goesAs_backed (declares_eq_some_iff.mp declared).1 m.before
  rw [offers] at offered
  obtain ⟨-, rfl⟩ := Prod.mk.inj (List.mem_singleton.mp offered)
  rw [← Collector.familyNames_declared, names]

end Moment

/-- At the place that was next when the call was made stands a collector that the call offered. -/
def Site.Bears (t : Site) (c : Category) (m : Moment) : Prop :=
  m.before.site.nextPlace.index < t.collectors.length
    ∧ (c, (t.collector m.before.site.nextPlace).declared) ∈ m.call.offers

lemma Site.Bears.grows {t u : Site} {c : Category} {m : Moment} (h : t.Bears c m)
    (grows : t.Grows u) : u.Bears c m := by
  refine ⟨Nat.lt_of_lt_of_le h.1 grows.room, ?_⟩
  rw [grows.declared _ h.1]
  exact h.2

namespace Run

variable {enabled : Distinct Category} {timers : Bool} {r : RegistryId} {s : Site}
  {ms : List Moment} {d : Deployment} {c : Category}

/-- The collectors of a category are those of the calls that last, and each is what its call
declared. -/
lemma listed_eq_lasting
    (run : Run (fun d t => d.site.Grows t) ⟨.fresh enabled timers r, s⟩ ms d)
    (declaring : ∀ m ∈ ms, m.call.backed?.isSome ∨ m.call.Idle) (c : Category) :
    d.listed c = (lasting c ms).map (fun m => m.before.site.nextPlace)
      ∧ ∀ m ∈ lasting c ms, d.site.Bears c m := by
  induction run with
  | start => exact ⟨rfl, fun _ h => absurd h List.not_mem_nil⟩
  | @call ms d run call ih =>
    have tidy := run.tidy (fun _ _ h => h) (tidy_vacant r s)
    obtain ⟨listed, offered⟩ := ih fun m hm => declaring m (List.mem_append_left _ hm)
    have still : ∀ m ∈ lasting c ms, (Moment.after ⟨d, call⟩).site.Bears c m :=
      fun m hm => (offered m hm).grows (Moment.grows ⟨d, call⟩)
    cases declared : Moment.declares? ⟨d, call⟩ c with
    | none =>
      rw [lasting_snoc_none ms declared, ← listed]
      exact ⟨Moment.listed_of_undeclared (declaring _ (by simp)) tidy declared, still⟩
    | some family =>
      obtain ⟨backed, enabled, returned⟩ := Moment.declares_eq_some_iff.mp declared
      obtain ⟨publish, placed, own⟩ := (Moment.listed_of_backed backed tidy).2 enabled returned
      rw [lasting_snoc_some ms declared]
      constructor
      · rw [Deployment.listed, publish, Roster.ofCategory_publish, if_pos rfl, List.map_append,
          listed, List.filter_map]
        apply congrArg fun kept => List.map _ kept ++ _
        apply List.filter_congr
        intro m hm
        obtain ⟨other, hother⟩ := Option.ne_none_iff_exists'.mp (declares_of_lasting hm).2
        have names := Moment.familyNames_of_offer hother (offered m hm).2
        simp [names, hother, eq_comm]
      · intro m hm
        rcases List.mem_append.mp hm with old | new
        · exact still m (List.mem_of_mem_filter old)
        · rw [List.mem_singleton.mp new]
          exact ⟨placed, own⟩
  | others _ grows ih =>
    obtain ⟨listed, offered⟩ := ih declaring
    exact ⟨listed, fun m hm => (offered m hm).grows grows⟩

end Run

/-- Gauges, supplied metrics and external summaries, declared on a new system in any order and with
whatever outcome, in any categories: the collectors of a category are those of the calls that last,
in the order of the calls, each as its call declared it; every call that declares nothing under the
category, because it failed, because the category is not enabled or because it was for another one,
has left the list as it was. -/
theorem listed_are_last_declared {enabled : Distinct Category} {timers : Bool} {r : RegistryId}
    {s : Site} {ms : List Moment} {d : Deployment}
    (run : Run (fun d t => d.site.Grows t) ⟨.fresh enabled timers r, s⟩ ms d)
    (declaring : ∀ m ∈ ms, m.call.backed?.isSome ∨ m.call.Idle) (c : Category) :
    d.listed c = (lasting c ms).map (fun m => m.before.site.nextPlace)
      ∧ (∀ m ∈ lasting c ms,
        (c, (d.site.collector m.before.site.nextPlace).declared) ∈ m.call.offers)
      ∧ ∀ m ∈ ms, m.before.system.isEnabled c = decide (c ∈ enabled)
        ∧ (m.declares? c = none → m.after.listed c = m.before.listed c) := by
  obtain ⟨listed, offered⟩ := run.listed_eq_lasting declaring c
  refine ⟨listed, fun m hm => (offered m hm).2, ?_⟩
  intro m hm
  obtain ⟨earlier, first⟩ := run.before hm
  refine ⟨first.records .counter c, ?_⟩
  exact Moment.listed_of_undeclared (declaring m hm) (first.tidy (fun _ _ h => h) (tidy_vacant r s))

/-- Three declarations of one family of different kinds, with another one among them, one that is
refused for its names, and one for a category that is not enabled. -/
def redeclarations : List Call :=
  [.gauge ⟨"shop", none⟩ "jobs" "h" ⟨0⟩, .gauge ⟨"shop", none⟩ "orders" "h" ⟨0⟩,
    .supplied .counter ⟨"shop", none⟩ "jobs_total" "h" ["queue"],
    .gauge ⟨"bank", none⟩ "jobs" "h" ⟨0⟩, .summary ⟨"shop", none⟩ "jobs" "h" ⟨0⟩,
    .supplied .gauge ⟨"shop", none⟩ "jobs_sum" "h" []]

/-- A system after those calls. -/
def redeclared : Deployment := reached (.small [⟨"shop", none⟩]) redeclarations

theorem listed_are_last_declared_redeclared :
    let ms := moments (.small [⟨"shop", none⟩]) redeclarations
    (∀ m ∈ ms, m.call.backed?.isSome ∨ m.call.Idle)
    ∧ redeclared.listed ⟨"shop", none⟩ = [⟨1⟩, ⟨3⟩]
    ∧ (lasting ⟨"shop", none⟩ ms).map (fun m => m.before.site.nextPlace) = [⟨1⟩, ⟨3⟩]
    ∧ (∀ m ∈ lasting ⟨"shop", none⟩ ms,
      (⟨"shop", none⟩, (redeclared.site.collector m.before.site.nextPlace).declared)
        ∈ m.call.offers)
    ∧ ∀ m ∈ ms, m.before.system.isEnabled ⟨"shop", none⟩
        = decide (⟨"shop", none⟩ ∈ Distinct.ofList [(⟨"shop", none⟩ : Category)])
      ∧ (m.declares? ⟨"shop", none⟩ = none →
        m.after.listed ⟨"shop", none⟩ = m.before.listed ⟨"shop", none⟩) := by
  intro ms
  have declaring : ∀ m ∈ ms, m.call.backed?.isSome ∨ m.call.Idle := by
    have backed : ∀ call ∈ redeclarations, call.backed?.isSome := by decide
    exact fun m hm => Or.inl (backed m.call (call_of_mem_moments hm))
  have run := Run.of_calls (fun d t => d.site.Grows t) (.small [⟨"shop", none⟩]) redeclarations
  obtain ⟨listed, offered, unchanged⟩ :=
    listed_are_last_declared run declaring ⟨"shop", none⟩
  have now : redeclared.listed ⟨"shop", none⟩ = [⟨1⟩, ⟨3⟩] := by decide +kernel
  exact ⟨declaring, now, listed.symm.trans now, offered, unchanged⟩

end Metering
