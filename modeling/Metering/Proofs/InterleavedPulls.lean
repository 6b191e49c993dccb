import Mathlib.Algebra.Ring.Nat
import Metering.Proofs.QuietSteps
import Metering.Proofs.StreamPages

/-!
# Pulling from a stream between other steps

A stream is opened in a scenario, and any steps follow, pulls of any sizes among them. Each pull
reaches some categories, takes the lists that these hold at that moment, and visits collectors
(`Leg`). Over all pulls the categories are those that were planned, in order, and the visited
collectors are those of the lists that were taken, one after the other, up to where the stream
stands (`Itinerary`): nobody's list is seen half old and half new. With nothing in between, pages of
any sizes add up to the observations of the system.
-/

namespace Metering.Scenario

open Session Operation

namespace Workspace

/-- The collectors that the system at a place lists under a category. -/
def listed (w : Workspace) (n : SystemId) (c : Category) : List CollectorId :=
  ((w.systems[n.index]?).map (·.roster.ofCategory c)).getD []

/-- The categories of the system at a place. -/
def categories (w : Workspace) (n : SystemId) : List Category :=
  ((w.systems[n.index]?).map (·.roster.categories)).getD []

end Workspace

namespace Pull

/-- What the pull gave. -/
def result (p : Pull) : Except Fault Reply := (advanceBy p.before (.pull p.name p.size)).1.result

/-- The state that the pull left. -/
def after (p : Pull) : Workspace := (advanceBy p.before (.pull p.name p.size)).2

/-- The collectors that were collected by the pull. -/
def visited (p : Pull) : List CollectorId := p.before.site.visitedUntil p.after.site

/-- The observations that the pull gave. -/
def observed (p : Pull) : List Observation :=
  match p.result with
  | .ok (.page os _) => os
  | _ => []

/-- The pull did not return, so the stream is over. -/
def Fails (p : Pull) : Prop := ∃ fault, p.result = .error fault

/-- The pull met the end of the stream. -/
def MeetsEnd (p : Pull) : Prop := ∃ os, p.result = .ok (.page os true)

end Pull

/-- The pulls from the stream at a place among steps that are carried out one after the other. -/
def pullsFrom (i : StreamId) : Workspace → List Step → List Pull
  | _, [] => []
  | w, step :: steps => (step.pullOf? i w).toList ++ pullsFrom i (advanceBy w step).2 steps

/-- The categories that a stream goes through: the given one, else those of the system when the
first pull of an observation finds it. -/
def plan (n : SystemId) (scope : Option Category) (ps : List Pull) : List Category :=
  match scope with
  | some c => [c]
  | none => ((ps.find? fun p => 0 < p.size).map (·.before.categories n)).getD []

/-- A pull with the categories that it reached. -/
structure Leg where
  pull : Pull
  reached : List Category

namespace Leg

/-- The lists that the categories held when the pull reached them. -/
def taken (n : SystemId) (l : Leg) : List (Category × List CollectorId) :=
  l.reached.map fun c => (c, l.pull.before.listed n c)

/-- The collectors that the pull visited. -/
def visited (l : Leg) : List CollectorId := l.pull.visited

end Leg

/-- A pull of nothing reaches nothing, and a pull that fails does so because the collection of the
last collector that it visited has failed. -/
structure Leg.Regular (l : Leg) : Prop where
  idle : l.pull.size = 0 → l.reached = [] ∧ l.visited = []
  raised : ∀ fault, l.pull.result = .error fault →
    ∃ ks k u, l.visited = ks ++ [k] ∧ Site.collect k u = .error fault l.pull.after.site

/-- The pulls go on from a point, each from where the one before stopped. If none fails and the end
is met, nothing is left of what was ahead. -/
structure Itinerary (n : SystemId) (a : Ahead) (ps : List Pull) (legs : List Leg) : Prop where
  pulls : legs.map Leg.pull = ps
  regular : ∀ l ∈ legs, l.Regular
  onward : ∀ earlier, earlier <+: legs →
    ∃ b, Onward a (earlier.flatMap (Leg.taken n)) (earlier.flatMap Leg.visited) b
  whole : (∀ p ∈ ps, ¬ p.Fails) → (∃ p ∈ ps, p.MeetsEnd) →
    Onward a (legs.flatMap (Leg.taken n)) (legs.flatMap Leg.visited) .nothing

namespace Itinerary

variable {n : SystemId} {a b : Ahead} {ps : List Pull} {legs : List Leg} {l : Leg}

lemma nil (a : Ahead) : Itinerary n a [] [] where
  pulls := rfl
  regular _ h := absurd h List.not_mem_nil
  onward earlier h := ⟨a, by rw [List.prefix_nil.mp h]; exact Onward.refl a⟩
  whole := by
    rintro - ⟨p, hp, -⟩
    exact absurd hp List.not_mem_nil

/-- Who has nothing ahead goes nowhere. -/
lemma of_nothing (h : Itinerary n .nothing ps legs) {earlier : List Leg}
    (part : earlier <+: legs) :
    earlier.flatMap (Leg.taken n) = [] ∧ earlier.flatMap Leg.visited = [] := by
  obtain ⟨b, onward⟩ := h.onward earlier part
  exact ⟨onward.of_nothing.1, onward.of_nothing.2.1⟩

/-- A pull that did not fail is followed by the pulls from where it stopped. -/
lemma cons (step : Onward a (l.taken n) l.visited b) (regular : l.Regular)
    (met : l.pull.MeetsEnd → b = .nothing) (rest : Itinerary n b ps legs) :
    Itinerary n a (l.pull :: ps) (l :: legs) where
  pulls := by rw [List.map_cons, rest.pulls]
  regular := List.forall_mem_cons.mpr ⟨regular, rest.regular⟩
  onward earlier part := by
    rcases List.prefix_cons_iff.mp part with rfl | ⟨later, rfl, inner⟩
    · exact ⟨a, Onward.refl a⟩
    · obtain ⟨c, onward⟩ := rest.onward later inner
      exact ⟨c, step.trans onward⟩
  whole calm ended := by
    obtain ⟨-, calm⟩ := List.forall_mem_cons.mp calm
    obtain ⟨p, hp, here⟩ := ended
    rcases List.mem_cons.mp hp with rfl | later
    · obtain ⟨c, onward⟩ := rest.onward legs List.prefix_rfl
      rw [met here] at onward step
      rw [onward.of_nothing.2.2] at onward
      exact step.trans onward
    · exact step.trans (rest.whole calm ⟨p, later, here⟩)

/-- After a pull that failed, the stream is over. -/
lemma cons_failed (step : Onward a (l.taken n) l.visited b) (regular : l.Regular)
    (failed : l.pull.Fails) (rest : Itinerary n .nothing ps legs) :
    Itinerary n a (l.pull :: ps) (l :: legs) where
  pulls := by rw [List.map_cons, rest.pulls]
  regular := List.forall_mem_cons.mpr ⟨regular, rest.regular⟩
  onward earlier part := by
    rcases List.prefix_cons_iff.mp part with rfl | ⟨later, rfl, inner⟩
    · exact ⟨a, Onward.refl a⟩
    · obtain ⟨taken, visited⟩ := rest.of_nothing inner
      refine ⟨b, ?_⟩
      rw [List.flatMap_cons, List.flatMap_cons, taken, visited, List.append_nil, List.append_nil]
      exact step
  whole calm := absurd failed (List.forall_mem_cons.mp calm).1

end Itinerary

/-- The stream at a place stands where it is said to, and reads the system at another place. -/
structure Workspace.Stands (w : Workspace) (i : StreamId) (n : SystemId) (s : System)
    (stream : Stream) : Prop where
  stream : w.streams[i.index]? = some ⟨n, stream⟩
  system : w.systems[n.index]? = some s

/-- The state in which the stream at a place has been moved and its system has been read. -/
def Workspace.moved (w : Workspace) (i : StreamId) (n : SystemId) (stream : Stream) (t : Site) :
    Workspace :=
  { w with site := t, streams := w.streams.set i.index ⟨n, stream⟩ }

namespace Workspace.Stands

variable {w : Workspace} {i : StreamId} {n : SystemId} {s : System} {stream rest : Stream}
  {t : Site}

lemma systems_set (h : w.Stands i n s stream) : w.systems.set n.index s = w.systems := by
  obtain ⟨room, rfl⟩ := List.getElem?_eq_some_iff.mp h.system
  exact List.set_getElem_self room

lemma moved (h : w.Stands i n s stream) : (w.moved i n rest t).Stands i n s rest where
  stream := by
    have room := (List.getElem?_eq_some_iff.mp h.stream).1
    rw [Workspace.moved, List.getElem?_set_self room]
  system := h.system

/-- A step that does not pull from the stream leaves it standing. -/
lemma spared (h : w.Stands i n s stream) {w' : Workspace} (spares : Spares i w w') :
    ∃ s', w'.Stands i n s' stream := by
  have room := (List.getElem?_eq_some_iff.mp h.system).1
  have room' : n.index < w'.systems.length := Nat.lt_of_lt_of_le room spares.systems
  exact ⟨_, spares.stream _ h.stream, List.getElem?_eq_getElem room'⟩

/-- What a pull does to the stream and its system. -/
lemma pull_ok (h : w.Stands i n s stream) {name : String} {k : Nat} {page : Stream.Page}
    (bound : w.bound.streams.get? name = some i)
    (pulled : Stream.pull s k stream w.site = .ok page t) :
    perform (.pull name k) w
      = .ok (.page page.observations page.done) (w.moved i n page.rest t) := by
  have found : find (·.streams) name w = .ok i w := find_ok bound
  have read : (do Stream.pull (← Operation.system) k stream : Operation Stream.Page) ⟨s, w.site⟩
      = .ok page ⟨s, t⟩ := (bind_system _ _).trans (ofAction_ok (d := ⟨s, w.site⟩) pulled)
  have pulls : pullFrom i k w = .ok page (w.moved i n page.rest t) := by
    rw [pullFrom, bind_get, h.stream]
    refine (bind_of_ok (tryCatch_of_ok (onSystem_ok h.system read) _) _).trans ?_
    rw [h.systems_set]
    rfl
  rw [perform, bind_of_ok found, bind_of_ok pulls]
  rfl

lemma pull_error (h : w.Stands i n s stream) {name : String} {k : Nat} {fault : Fault}
    (bound : w.bound.streams.get? name = some i)
    (failed : Stream.pull s k stream w.site = .error fault t) :
    perform (.pull name k) w = .error fault (w.moved i n .finished t) := by
  have found : find (·.streams) name w = .ok i w := find_ok bound
  have read : (do Stream.pull (← Operation.system) k stream : Operation Stream.Page) ⟨s, w.site⟩
      = .error fault ⟨s, t⟩ := (bind_system _ _).trans (ofAction_error (d := ⟨s, w.site⟩) failed)
  have pulls : pullFrom i k w = .error fault (w.moved i n .finished t) := by
    rw [pullFrom, bind_get, h.stream]
    refine bind_of_error ?_ _
    rw [tryCatch_of_error (onSystem_error h.system read), h.systems_set]
    rfl
  rw [perform, bind_of_ok found, bind_of_error pulls]

lemma listed (h : w.Stands i n s stream) (c : Category) : w.listed n c = s.roster.ofCategory c := by
  rw [Workspace.listed, h.system]
  rfl

lemma categories (h : w.Stands i n s stream) : w.categories n = s.roster.categories := by
  rw [Workspace.categories, h.system]
  rfl

end Workspace.Stands

namespace Pull

variable {p : Pull} {i : StreamId} {n : SystemId} {s : System} {stream : Stream} {t : Site}

/-- The pull is one from the stream at a place, which stands where it is said to. -/
structure From (p : Pull) (i : StreamId) (n : SystemId) (s : System) (stream : Stream) : Prop where
  bound : p.before.bound.streams.get? p.name = some i
  stands : p.before.Stands i n s stream

lemma of_ok {page : Stream.Page} (h : p.From i n s stream)
    (pulled : Stream.pull s p.size stream p.before.site = .ok page t) :
    p.result = .ok (.page page.observations page.done)
      ∧ p.after = p.before.moved i n page.rest t := by
  have performed := h.stands.pull_ok h.bound pulled
  simp only [result, after, advanceBy, performed, and_self]

lemma of_error {fault : Fault} (h : p.From i n s stream)
    (failed : Stream.pull s p.size stream p.before.site = .error fault t) :
    p.result = .error fault ∧ p.after = p.before.moved i n .finished t := by
  have performed := h.stands.pull_error h.bound failed
  simp only [result, after, advanceBy, performed, and_self]

lemma bound_after (h : p.From i n s stream) : p.after.bound = p.before.bound := by
  cases run : Stream.pull s p.size stream p.before.site with
  | ok page t => rw [(of_ok h run).2, Workspace.moved]
  | error fault t => rw [(of_error h run).2, Workspace.moved]

lemma site_after (h : p.From i n s stream) :
    p.after.site = endOf (Stream.pull s p.size stream p.before.site) := by
  cases run : Stream.pull s p.size stream p.before.site with
  | ok page t => rw [(of_ok h run).2, Workspace.moved, endOf]
  | error fault t => rw [(of_error h run).2, Workspace.moved, endOf]

lemma stands_after (h : p.From i n s stream) {page : Stream.Page}
    (pulled : Stream.pull s p.size stream p.before.site = .ok page t) :
    p.after.Stands i n s page.rest := by
  rw [(of_ok h pulled).2]
  exact h.stands.moved

/-- A pull that meets the end leaves nothing of the stream. -/
lemma rest_of_meetsEnd (h : p.From i n s stream) {page : Stream.Page}
    (pulled : Stream.pull s p.size stream p.before.site = .ok page t) (met : p.MeetsEnd) :
    page.rest = .finished := by
  obtain ⟨os, result⟩ := met
  rw [(of_ok h pulled).1] at result
  have done : page.done = true := by
    simp only [Except.ok.injEq, Reply.page.injEq] at result
    exact result.2
  have settled := (Stream.pull_ok pulled).2
  rw [if_pos done] at settled
  exact settled.1

lemma visited_eq (h : p.From i n s stream) {ks : List CollectorId}
    (visits : Site.Visited ks p.before.site
      (endOf (Stream.pull s p.size stream p.before.site))) : p.visited = ks := by
  rw [visited, site_after h]
  exact visits.visitedUntil

/-- A pull of nothing changes nothing. -/
lemma of_empty (h : p.From i n s stream) (empty : p.size = 0) :
    Stream.pull s p.size stream p.before.site = .ok ⟨[], false, stream⟩ p.before.site
      ∧ p.visited = [] := by
  have pulled : Stream.pull s p.size stream p.before.site
      = .ok ⟨[], false, stream⟩ p.before.site := by
    rw [empty]
    rfl
  refine ⟨pulled, visited_eq h ?_⟩
  rw [pulled]
  exact Site.Visited.refl _

lemma regular_of_empty (h : p.From i n s stream) (empty : p.size = 0) : Leg.Regular ⟨p, []⟩ where
  idle _ := ⟨rfl, (of_empty h empty).2⟩
  raised fault failed := by
    rw [(of_ok h (of_empty h empty).1).1] at failed
    cases failed

/-- A pull goes on from where the stream stands to where it leaves it. -/
lemma leg (h : p.From i n s stream) (some_size : p.size ≠ 0) :
    ∃ reached b, Onward (stream.ahead s.roster) (Leg.taken n ⟨p, reached⟩) p.visited b
      ∧ Leg.Regular ⟨p, reached⟩
      ∧ ∀ page t, Stream.pull s p.size stream p.before.site = .ok page t →
        b = page.rest.ahead s.roster := by
  obtain ⟨reached, ks, b, visits, onward, met⟩ := Stream.pull_tours s p.size stream p.before.site
  have held : Leg.taken n ⟨p, reached⟩ = reached.map s.roster.holding :=
    List.map_congr_left fun c _ => by rw [h.stands.listed, Roster.holding]
  refine ⟨reached, b, ?_, ⟨fun empty => absurd empty some_size, ?_⟩, ?_⟩
  · rw [held, visited_eq h visits]
    exact onward
  · intro fault failed
    cases run : Stream.pull s p.size stream p.before.site with
    | ok page t =>
      rw [(of_ok h run).1] at failed
      cases failed
    | error fault' t =>
      rw [(of_error h run).1] at failed
      cases failed
      rw [Leg.visited, visited_eq h visits, site_after h, run]
      rw [run] at met
      exact met
  · intro page t pulled
    rw [pulled] at met
    exact met

end Pull

section Itineraries

variable {i : StreamId} {n : SystemId}

/-- What follows a pull goes on from where the pull stopped. -/
lemma Pull.itinerary {p : Pull} {s : System} {stream : Stream} (h : p.From i n s stream)
    (some_size : p.size ≠ 0) {ps : List Pull}
    (later : ∀ {rest}, p.after.Stands i n s rest → rest.IsOpened →
      ∃ legs, Itinerary n (rest.ahead s.roster) ps legs) :
    ∃ legs, Itinerary n (stream.ahead s.roster) (p :: ps) legs := by
  obtain ⟨reached, b, onward, regular, met⟩ := p.leg h some_size
  cases run : Stream.pull s p.size stream p.before.site with
  | ok page t =>
    obtain ⟨legs, rest⟩ := later (stands_after h run) ((Stream.pull_ok run).1 (Or.inr some_size))
    rw [← met page t run] at rest
    refine ⟨⟨p, reached⟩ :: legs, Itinerary.cons onward regular (fun ends => ?_) rest⟩
    rw [met page t run, rest_of_meetsEnd h run ends]
    rfl
  | error fault t =>
    obtain ⟨result, after⟩ := of_error h run
    have standing : p.after.Stands i n s .finished := by
      rw [after]
      exact h.stands.moved
    obtain ⟨legs, rest⟩ := later standing trivial
    exact ⟨⟨p, reached⟩ :: legs, Itinerary.cons_failed onward regular ⟨fault, result⟩ rest⟩

/-- A pull of nothing is followed by what would have come without it. -/
lemma Pull.itinerary_of_empty {p : Pull} {s : System} {stream : Stream} (h : p.From i n s stream)
    (empty : p.size = 0) {a : Ahead} {ps : List Pull}
    (later : p.after.Stands i n s stream → ∃ legs, Itinerary n a ps legs) :
    ∃ legs, Itinerary n a (p :: ps) legs := by
  obtain ⟨pulled, quiet⟩ := of_empty h empty
  obtain ⟨legs, rest⟩ := later (stands_after h pulled)
  refine ⟨⟨p, []⟩ :: legs, Itinerary.cons (l := ⟨p, []⟩) ?_ (regular_of_empty h empty) ?_ rest⟩
  · rw [Leg.visited, quiet]
    exact Onward.refl a
  · rintro ⟨os, ended⟩
    rw [(of_ok h pulled).1] at ended
    cases ended

/-- The pulls from an opened stream go on from where it stands, whatever happens between them. -/
lemma itinerary_of_opened (steps : List Step) {w : Workspace} {s : System} {stream : Stream}
    (stands : w.Stands i n s stream) (opened : stream.IsOpened) (r : Roster) :
    ∃ legs, Itinerary n (stream.ahead r) (pullsFrom i w steps) legs := by
  induction steps generalizing w s stream r with
  | nil => exact ⟨[], Itinerary.nil _⟩
  | cons step steps ih =>
    rw [pullsFrom]
    cases isPull : step.pullOf? i w with
    | none =>
      obtain ⟨s', standing⟩ := stands.spared (spares_advanceBy isPull)
      exact ih standing opened r
    | some p =>
      obtain ⟨rfl, rfl, bound⟩ := pullOf_eq_some isPull
      have pulls : p.From i n s stream := ⟨bound, stands⟩
      by_cases empty : p.size = 0
      · exact Pull.itinerary_of_empty pulls empty fun standing => ih standing opened r
      · rw [opened.ahead r s.roster]
        exact Pull.itinerary pulls empty fun standing opened' => ih standing opened' s.roster

/-- The pulls from a stream that has not been read go through the categories of the plan. -/
lemma itinerary_of_unopened (scope : Option Category) (steps : List Step) {w : Workspace}
    {s : System} (stands : w.Stands i n s (.unopened scope)) :
    ∃ legs, Itinerary n ⟨[], plan n scope (pullsFrom i w steps)⟩ (pullsFrom i w steps) legs := by
  induction steps generalizing w s with
  | nil => exact ⟨[], Itinerary.nil _⟩
  | cons step steps ih =>
    rw [pullsFrom]
    cases isPull : step.pullOf? i w with
    | none =>
      obtain ⟨s', standing⟩ := stands.spared (spares_advanceBy isPull)
      exact ih standing
    | some p =>
      obtain ⟨rfl, rfl, bound⟩ := pullOf_eq_some isPull
      have pulls : p.From i n s (.unopened scope) := ⟨bound, stands⟩
      change ∃ legs, Itinerary n ⟨[], plan n scope (p :: pullsFrom i p.after steps)⟩
        (p :: pullsFrom i p.after steps) legs
      by_cases empty : p.size = 0
      · have skipped : plan n scope (p :: pullsFrom i p.after steps)
            = plan n scope (pullsFrom i p.after steps) := by
          cases scope <;> simp [plan, empty]
        rw [skipped]
        exact Pull.itinerary_of_empty pulls empty ih
      · have planned : plan n scope (p :: pullsFrom i p.after steps)
            = Stream.planned s.roster scope := by
          cases scope with
          | some c => rfl
          | none => simp [plan, Nat.pos_of_ne_zero empty, stands.categories, Stream.planned]
        rw [planned]
        exact Pull.itinerary pulls empty fun standing opened =>
          itinerary_of_opened steps standing opened _

end Itineraries

section Pages

variable {i : StreamId} {n : SystemId} {name : String} {s : System}

/-- Steps that pull from a stream one after the other, in pages of the given sizes. -/
def pages (name : String) (sizes : List Nat) : List Step := sizes.map (Step.pull name)

lemma pullsFrom_pages {w : Workspace} (bound : w.bound.streams.get? name = some i) (k : Nat)
    (sizes : List Nat) :
    pullsFrom i w (pages name (k :: sizes))
      = ⟨w, name, k⟩ :: pullsFrom i (Pull.after ⟨w, name, k⟩) (pages name sizes) := by
  simp only [pages, List.map_cons, pullsFrom, Step.pullOf?, bound, if_true]
  rfl

lemma Pull.observed_of_ok {p : Pull} {os : List Observation} {done : Bool}
    (h : p.result = .ok (.page os done)) : p.observed = os ∧ ¬ p.Fails := by
  constructor
  · rw [observed, h]
  · rintro ⟨fault, failed⟩
    rw [h] at failed
    cases failed

/-- A stream that can be read to its end gives in pages of any sizes what it would give at once. -/
lemma pages_of_remaining (sizes : List Nat) {w : Workspace} {stream : Stream}
    (stands : w.Stands i n s stream) (bound : w.bound.streams.get? name = some i)
    {os : List Observation} {t : Site} (reads : stream.remaining s w.site = .ok os t) :
    (∀ p ∈ pullsFrom i w (pages name sizes), ¬ p.Fails)
      ∧ (pullsFrom i w (pages name sizes)).flatMap Pull.observed = os.take sizes.sum
      ∧ (os.length < sizes.sum → ∃ p ∈ pullsFrom i w (pages name sizes), p.MeetsEnd) := by
  induction sizes generalizing w stream os with
  | nil => exact ⟨fun _ h => absurd h List.not_mem_nil, rfl, fun h => absurd h (Nat.not_lt_zero _)⟩
  | cons k sizes ih =>
    let p : Pull := ⟨w, name, k⟩
    have pulls : p.From i n s stream := ⟨bound, stands⟩
    obtain ⟨page, v, later, pulled, follows, rfl⟩ := Stream.pull_of_remaining s reads k
    have result := (Pull.of_ok pulls pulled).1
    obtain ⟨own, fine⟩ := Pull.observed_of_ok result
    have goes_on : page.rest.remaining s p.after.site = .ok later t := by
      rw [Pull.site_after pulls, pulled]
      exact follows
    obtain ⟨calm, gave, ended⟩ :=
      ih (Pull.stands_after pulls pulled) (by rw [Pull.bound_after pulls]; exact bound) goes_on
    rw [pullsFrom_pages bound, List.flatMap_cons, own, gave, List.sum_cons, List.length_append]
    refine ⟨List.forall_mem_cons.mpr ⟨fine, calm⟩, ?_⟩
    have settled := (Stream.pull_ok pulled).2
    by_cases done : page.done = true
    · rw [if_pos done] at settled
      rw [settled.1] at follows
      cases follows
      constructor
      · rw [List.take_nil, List.append_nil, List.take_of_length_le (by omega)]
      · exact fun _ => ⟨p, List.mem_cons_self, page.observations, by rw [result, done]⟩
    · rw [if_neg done] at settled
      constructor
      · rw [← settled, List.take_length_add_append]
      · intro short
        obtain ⟨q, hq, met⟩ := ended (by omega)
        exact ⟨q, List.mem_cons_of_mem p hq, met⟩

/-- Pages that meet the end are together what the stream would have given at once. -/
lemma remaining_of_pages (sizes : List Nat) {w : Workspace} {stream : Stream}
    (stands : w.Stands i n s stream) (bound : w.bound.streams.get? name = some i)
    (calm : ∀ p ∈ pullsFrom i w (pages name sizes), ¬ p.Fails)
    (ended : ∃ p ∈ pullsFrom i w (pages name sizes), p.MeetsEnd) :
    ∃ t, stream.remaining s w.site
      = .ok ((pullsFrom i w (pages name sizes)).flatMap Pull.observed) t := by
  induction sizes generalizing w stream with
  | nil =>
    obtain ⟨p, hp, -⟩ := ended
    exact absurd hp List.not_mem_nil
  | cons k sizes ih =>
    let p : Pull := ⟨w, name, k⟩
    have pulls : p.From i n s stream := ⟨bound, stands⟩
    have still : p.after.bound.streams.get? name = some i := by
      rw [Pull.bound_after pulls]
      exact bound
    rw [pullsFrom_pages bound] at calm ended ⊢
    obtain ⟨fine, calm⟩ := List.forall_mem_cons.mp calm
    cases pulled : Stream.pull s k stream w.site with
    | error fault v => exact absurd ⟨fault, (Pull.of_error pulls pulled).1⟩ fine
    | ok page v =>
      have standing := Pull.stands_after pulls pulled
      have site : p.after.site = v := by rw [Pull.site_after pulls, pulled, endOf]
      have goes_on : ∃ t, page.rest.remaining s p.after.site
          = .ok ((pullsFrom i p.after (pages name sizes)).flatMap Pull.observed) t := by
        obtain ⟨q, hq, met⟩ := ended
        rcases List.mem_cons.mp hq with rfl | later
        · rw [Pull.rest_of_meetsEnd pulls pulled met] at standing ⊢
          have nothing : Stream.finished.remaining s p.after.site = .ok [] p.after.site := rfl
          rw [(pages_of_remaining sizes standing still nothing).2.1, List.take_nil]
          exact ⟨_, nothing⟩
        · exact ih standing still calm ⟨q, later, met⟩
      obtain ⟨t, follows⟩ := goes_on
      rw [site] at follows
      rw [Stream.remaining_of_pull s pulled follows, List.flatMap_cons,
        (Pull.observed_of_ok (Pull.of_ok pulls pulled).1).1]
      exact ⟨t, rfl⟩

/-- Reading a system at once gives what a stream would give that is opened now. -/
lemma observations_reply_iff {w : Workspace} (placed : w.systems[n.index]? = some s)
    (scope : Option Category) (os : List Observation) :
    (∃ w', performOn n (.observations scope) w = .ok (.observations os) w')
      ↔ ∃ t, Stream.remaining s (.unopened scope) w.site = .ok os t := by
  have read := System.observations_eq_remaining scope ⟨s, w.site⟩
  rw [performOn]
  cases gave : Stream.remaining s (.unopened scope) w.site with
  | ok os' t =>
    rw [ofAction_ok gave] at read
    rw [bind_of_ok (onSystem_ok placed read)]
    constructor
    · rintro ⟨w', performed⟩
      cases performed
      exact ⟨t, rfl⟩
    · rintro ⟨t', same⟩
      cases same
      exact ⟨_, rfl⟩
  | error fault t =>
    rw [ofAction_error gave] at read
    rw [bind_of_error (onSystem_error placed read)]
    constructor <;>
    · rintro ⟨_, impossible⟩
      cases impossible

end Pages

/-- The place that the next stream will have. -/
def Workspace.nextStream (w : Workspace) : StreamId := ⟨w.streams.length⟩

/-- The state in which a stream over a system has been opened and named. -/
def Workspace.streaming (w : Workspace) (n : SystemId) (scope : Option Category) (id : String) :
    Workspace :=
  { w with
    streams := w.streams ++ [⟨n, .unopened scope⟩]
    bound := { w.bound with streams := w.bound.streams.put id w.nextStream } }

lemma Workspace.streaming_stands {w : Workspace} {n : SystemId} {s : System}
    (placed : w.systems[n.index]? = some s) (scope : Option Category) (id : String) :
    (w.streaming n scope id).Stands w.nextStream n s (.unopened scope) where
  stream := List.getElem?_concat_length
  system := placed

/-- A stream sees each category whole. Opening it collects nothing. Whatever steps follow, the pulls
among them visit the lists that the categories of the plan held when they were reached, one after
the other. And if the pulls follow one another, they give in pages what is read at once. -/
theorem streams_take_lists_whole {w : Workspace} {n : SystemId} {s : System}
    (placed : w.systems[n.index]? = some s) (scope : Option Category) (id : String) :
    (performOn n (.openStream scope id) w = .ok .nothing (w.streaming n scope id)
      ∧ (w.streaming n scope id).site = w.site)
    ∧ (∀ steps, ∃ legs,
        let ps := pullsFrom w.nextStream (w.streaming n scope id) steps
        Itinerary n ⟨[], plan n scope ps⟩ ps legs)
    ∧ (∀ sizes,
        let ps := pullsFrom w.nextStream (w.streaming n scope id) (pages id sizes)
        (∀ os, (∃ w', performOn n (.observations scope) (w.streaming n scope id)
            = .ok (.observations os) w') →
          (∀ p ∈ ps, ¬ p.Fails) ∧ ps.flatMap Pull.observed = os.take sizes.sum
            ∧ (os.length < sizes.sum → ∃ p ∈ ps, p.MeetsEnd))
        ∧ ((∀ p ∈ ps, ¬ p.Fails) → (∃ p ∈ ps, p.MeetsEnd) →
          ∃ w', performOn n (.observations scope) (w.streaming n scope id)
            = .ok (.observations (ps.flatMap Pull.observed)) w')) := by
  have stands := Workspace.streaming_stands placed scope id
  have bound : (w.streaming n scope id).bound.streams.get? id = some w.nextStream :=
    Index.get?_put_self _ _ _
  have reply := observations_reply_iff stands.system scope
  refine ⟨⟨rfl, rfl⟩, fun steps => itinerary_of_unopened scope steps stands, fun sizes => ⟨?_, ?_⟩⟩
  · intro os read
    obtain ⟨t, reads⟩ := (reply os).mp read
    exact pages_of_remaining sizes stands bound reads
  · intro calm ended
    exact (reply _).mpr (remaining_of_pages sizes stands bound calm ended)

/-- A system with two gauges under one category and one under another. -/
def shopping : Workspace :=
  (runFrom {} [
    .system "m" (.direct [⟨"shop", none⟩, ⟨"yard", none⟩] true none),
    .onSystem "m" (.gauge ⟨"shop", none⟩ "a" "h" (.constant (.value (some 1)))),
    .onSystem "m" (.gauge ⟨"shop", none⟩ "b" "h" (.constant (.value (some 2)))),
    .onSystem "m" (.gauge ⟨"yard", none⟩ "c" "h" (.constant (.value (some 3))))]).2

/-- Three pulls, before the last of which one gauge of each category is declared again. -/
def interrupted : List Step :=
  [.pull "all" 0, .pull "all" 1,
    .onSystem "m" (.gauge ⟨"shop", none⟩ "b" "h" (.constant (.value (some 4)))),
    .onSystem "m" (.gauge ⟨"yard", none⟩ "c" "h" (.constant (.value (some 5)))),
    .pull "all" 9]

/-- The category under way is read to its end as it was, and the next one as it has become. -/
theorem streams_take_lists_whole_interrupted :
    let w := shopping.streaming ⟨0⟩ none "all"
    let ps := pullsFrom shopping.nextStream w interrupted
    (∃ s, shopping.systems[0]? = some s)
      ∧ (∃ legs, Itinerary ⟨0⟩ ⟨[], plan ⟨0⟩ none ps⟩ ps legs)
      ∧ plan ⟨0⟩ none ps = [⟨"shop", none⟩, ⟨"yard", none⟩]
      ∧ ps.map Pull.visited = [[], [⟨0⟩], [⟨1⟩, ⟨4⟩]] := by
  have some_system : (shopping.systems[0]?).isSome := by decide +kernel
  obtain ⟨s, placed⟩ := Option.isSome_iff_exists.mp some_system
  refine ⟨⟨s, placed⟩, ?_, by decide +kernel, by decide +kernel⟩
  exact (streams_take_lists_whole (n := ⟨0⟩) placed none "all").2.1 interrupted

end Metering.Scenario
