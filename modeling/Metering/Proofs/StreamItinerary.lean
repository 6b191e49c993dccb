import Metering.Proofs.WorkBesideLists

/-!
# What a stream visits

Ahead of a stream are the collectors that are left of the category it is in, and the categories
that come after that one (`Ahead`). On its way it reaches categories, takes the whole list that each
of them then holds, and visits the collectors of these lists one after the other (`Onward`). What a
computation has visited shows in the activity of the site (`Visited`), also when it fails.
`Tours` is the rule that a computation keeps to, and a pull of any size keeps to it
(`Stream.pull_tours`).
-/

namespace Metering

namespace Site

/-- Between two states of the site the given collectors have been collected, and no others. -/
def Visited (ks : List CollectorId) (s t : Site) : Prop :=
  ∃ noted, t.activity = s.activity ++ noted ∧ noted.filterMap Activity.collected? = ks

/-- The collectors that have been collected between two states of the site. -/
def visitedUntil (s t : Site) : List CollectorId :=
  (t.activity.drop s.activity.length).filterMap Activity.collected?

section Visits

variable {s t u : Site} {ks ls : List CollectorId}

lemma Visited.refl (s : Site) : Visited [] s s := ⟨[], (List.append_nil _).symm, rfl⟩

lemma Visited.trans (first : Visited ks s t) (second : Visited ls t u) :
    Visited (ks ++ ls) s u := by
  obtain ⟨a, ha, rfl⟩ := first
  obtain ⟨b, hb, rfl⟩ := second
  exact ⟨a ++ b, by rw [hb, ha, List.append_assoc], List.filterMap_append⟩

lemma Visited.visitedUntil (h : Visited ks s t) : s.visitedUntil t = ks := by
  obtain ⟨noted, activity, rfl⟩ := h
  rw [Site.visitedUntil, activity, List.drop_left]

instance : IsPreorder Site (Visited []) where
  refl := Visited.refl
  trans _ _ _ := Visited.trans

end Visits

lemma note_visits {a : Activity} (other : a.collected? = none) : Moves (Visited []) (note a) :=
  Moves.modify fun s => ⟨[a], rfl, by simp [other]⟩

lemma collect_visits (k : CollectorId) : Moves (Visited [k]) (collect k) := by
  have own : Moves (Visited [k]) (note (.collected k)) := Moves.modify fun _ => ⟨[_], rfl, rfl⟩
  have rest : ∀ x, Moves (Visited []) (familiesOf x) := familiesOf_moves fun _ => note_visits
  exact own.bind_of_comp (fun _ _ h => h) (fun _ _ _ => Visited.trans)
    fun _ => Moves.get.bind fun _ => rest _

end Site

open Site

/-- What a stream has still ahead: the collectors that are left of its category, and the categories
after that. -/
structure Ahead where
  collectors : List CollectorId
  later : List Category

/-- Nothing is left to visit. -/
def Ahead.nothing : Ahead := ⟨[], []⟩

/-- From one point to another, a stream has taken the lists of categories and visited collectors.
Every collector of a list that was taken has been visited in its turn, but for those at the end of
the last list which are still ahead. -/
structure Onward (a : Ahead) (taken : List (Category × List CollectorId))
    (visited : List CollectorId) (b : Ahead) : Prop where
  later : a.later = taken.map Prod.fst ++ b.later
  collectors : a.collectors ++ taken.flatMap Prod.snd = visited ++ b.collectors
  current : b.collectors <:+ (taken.getLast?.map Prod.snd).getD a.collectors

namespace Onward

variable {a b c : Ahead} {taken more : List (Category × List CollectorId)}
  {visited others : List CollectorId}

lemma refl (a : Ahead) : Onward a [] [] a := ⟨rfl, List.append_nil _, List.suffix_rfl⟩

lemma trans (first : Onward a taken visited b) (second : Onward b more others c) :
    Onward a (taken ++ more) (visited ++ others) c where
  later := by rw [first.later, second.later, List.map_append, List.append_assoc]
  collectors := by
    calc a.collectors ++ (taken ++ more).flatMap Prod.snd
      _ = (a.collectors ++ taken.flatMap Prod.snd) ++ more.flatMap Prod.snd := by
        rw [List.flatMap_append, List.append_assoc]
      _ = visited ++ (b.collectors ++ more.flatMap Prod.snd) := by
        rw [first.collectors, List.append_assoc]
      _ = visited ++ others ++ c.collectors := by rw [second.collectors, List.append_assoc]
  current := by
    have left := second.current
    rcases List.eq_nil_or_concat more with rfl | ⟨init, last, rfl⟩
    · rw [List.append_nil]
      exact left.trans first.current
    · simpa using left

/-- The list of the next category is taken when the one before has been visited to its end. -/
lemma take (c : Category) (held : List CollectorId) (later : List Category) :
    Onward ⟨[], c :: later⟩ [(c, held)] [] ⟨held, later⟩ :=
  ⟨rfl, List.append_nil held, List.suffix_rfl⟩

lemma visit (k : CollectorId) (ks : List CollectorId) (later : List Category) :
    Onward ⟨k :: ks, later⟩ [] [k] ⟨ks, later⟩ :=
  ⟨rfl, List.append_nil _, List.suffix_cons k ks⟩

/-- Who has nothing ahead visits nothing. -/
lemma of_nothing (h : Onward .nothing taken visited b) :
    taken = [] ∧ visited = [] ∧ b = .nothing := by
  obtain ⟨categories, later⟩ := List.append_eq_nil_iff.mp h.later.symm
  have none_taken : taken = [] := List.map_eq_nil_iff.mp categories
  subst none_taken
  obtain ⟨rfl, collectors⟩ := List.append_eq_nil_iff.mp h.collectors.symm
  refine ⟨rfl, rfl, ?_⟩
  cases b
  cases collectors
  cases later
  rfl

end Onward

/-- A category with the list that the roster holds for it. -/
def Roster.holding (r : Roster) (c : Category) : Category × List CollectorId := (c, r.ofCategory c)

/-- The computation goes on from a point to the point that its result tells. If it fails, it has
gone on to some point, and it was the collection of the last visited collector that failed. -/
def Tours {α : Type} (r : Roster) (a : Ahead) (x : Action α) (ends : α → Ahead) : Prop :=
  ∀ s, ∃ (reached : List Category) (visited : List CollectorId) (b : Ahead),
    Visited visited s (endOf (x s)) ∧ Onward a (reached.map r.holding) visited b
    ∧ match x s with
      | .ok v _ => b = ends v
      | .error fault t => ∃ ks k u, visited = ks ++ [k] ∧ Site.collect k u = .error fault t

namespace Tours

variable {α β : Type} {r : Roster} {a : Ahead} {x : Action α} {f : α → Action β} {mid : α → Ahead}
  {ends : β → Ahead}

lemma pure {ends : α → Ahead} {v : α} (h : a = ends v) : Tours r a (Pure.pure v) ends :=
  fun s => ⟨[], [], a, Visited.refl s, Onward.refl a, h⟩

lemma bind (hx : Tours r a x mid) (hf : ∀ v, Tours r (mid v) (f v) ends) :
    Tours r a (x >>= f) ends := by
  intro s
  obtain ⟨reached, visited, b, seen, onward, met⟩ := hx s
  cases h : x s with
  | error fault t =>
    rw [h] at seen met
    rw [bind_of_error h]
    exact ⟨reached, visited, b, seen, onward, met⟩
  | ok v t =>
    rw [h] at seen met
    obtain ⟨more, others, c, seen', onward', met'⟩ := hf v t
    rw [← met] at onward'
    rw [bind_of_ok h]
    refine ⟨reached ++ more, visited ++ others, c, seen.trans seen', ?_, ?_⟩
    · rw [List.map_append]
      exact onward.trans onward'
    · cases later : f v t with
      | ok w u =>
        rw [later] at met'
        exact met'
      | error fault u =>
        rw [later] at met'
        obtain ⟨ks, k, site, rfl, failed⟩ := met'
        exact ⟨visited ++ ks, k, site, (List.append_assoc _ _ _).symm, failed⟩

/-- Who goes through the list of a category goes on from where that category comes next. -/
lemma take {c : Category} {cs : List Category} {ends : α → Ahead}
    (h : Tours r ⟨r.ofCategory c, cs⟩ x ends) : Tours r ⟨[], c :: cs⟩ x ends := by
  intro s
  obtain ⟨reached, visited, b, seen, onward, met⟩ := h s
  exact ⟨c :: reached, visited, b, seen, (Onward.take c _ cs).trans onward, met⟩

lemma collect (k : CollectorId) (ks : List CollectorId) (later : List Category) :
    Tours r ⟨k :: ks, later⟩ (Site.collect k) fun _ => ⟨ks, later⟩ := by
  refine fun s => ⟨[], [k], _, collect_visits k s, Onward.visit k ks later, ?_⟩
  split
  · rfl
  · next fault t failed => exact ⟨[], k, s, rfl, failed⟩

end Tours

/-- What is ahead of a position. -/
def StreamPosition.ahead (p : StreamPosition) : Ahead := ⟨p.collectors, p.later⟩

namespace Stream

/-- The categories that a stream goes through if it is opened now. -/
def planned (r : Roster) : Option Category → List Category
  | some c => [c]
  | none => r.categories

/-- What is ahead of a stream if it is read now. -/
def ahead (r : Roster) : Stream → Ahead
  | .unopened scope => ⟨[], planned r scope⟩
  | .reading p => p.ahead
  | .finished => .nothing

section Touring

variable (r : Roster)

lemma withinCategory_tours (later : List Category) (ks : List CollectorId) :
    Tours r ⟨ks, later⟩ (withinCategory ks)
      fun found => found.elim ⟨[], later⟩ fun x => ⟨x.2.2, later⟩ := by
  induction ks with
  | nil => exact Tours.pure rfl
  | cons k ks ih =>
    refine (Tours.collect k ks later).bind fun families => ?_
    split
    · exact ih
    · exact Tours.pure rfl

lemma acrossCategories_tours (cs : List Category) :
    Tours r ⟨[], cs⟩ (acrossCategories r cs)
      fun found => found.elim .nothing fun x => x.2.ahead := by
  induction cs with
  | nil => exact Tours.pure rfl
  | cons c cs ih =>
    refine ((withinCategory_tours r cs _).bind fun found => ?_).take
    cases found with
    | none => exact ih
    | some x => exact Tours.pure rfl

lemma locate_tours (stream : Stream) :
    Tours r (stream.ahead r) (stream.locate r)
      fun found => found.elim .nothing fun x => x.2.ahead := by
  cases stream with
  | unopened scope => cases scope <;> exact acrossCategories_tours r _
  | finished => exact Tours.pure rfl
  | reading p =>
    rw [locate]
    split
    · exact Tours.pure rfl
    · refine (withinCategory_tours r p.later p.collectors).bind fun found => ?_
      cases found with
      | none => exact acrossCategories_tours r p.later
      | some x => exact Tours.pure rfl

end Touring

lemma next_tours (s : System) (stream : Stream) :
    Tours s.roster (stream.ahead s.roster) (stream.next s)
      fun pulled => pulled.2.ahead s.roster := by
  refine (locate_tours s.roster stream).bind fun found => ?_
  cases found with
  | none => exact Tours.pure rfl
  | some x => exact Tours.pure rfl

/-- A pull of any size goes on from where the stream stands to where it leaves it. -/
lemma pull_tours (s : System) (n : Nat) (stream : Stream) :
    Tours s.roster (stream.ahead s.roster) (pull s n stream)
      fun page => page.rest.ahead s.roster := by
  induction n generalizing stream with
  | zero => exact Tours.pure rfl
  | succ n ih =>
    refine (next_tours s stream).bind fun pulled => ?_
    obtain ⟨found, rest⟩ := pulled
    cases found with
    | none => exact Tours.pure rfl
    | some o => exact (ih rest).bind fun page => Tours.pure rfl

/-- The stream has listed its categories. -/
def IsOpened : Stream → Prop
  | .unopened _ => False
  | _ => True

lemma IsOpened.ahead {stream : Stream} (opened : stream.IsOpened) (r r' : Roster) :
    stream.ahead r = stream.ahead r' := by
  cases stream with
  | unopened scope => exact absurd opened id
  | _ => rfl

variable {s : System} {stream : Stream} {u t : Site}

lemma next_ok {pulled : Option Observation × Stream} (h : stream.next s u = .ok pulled t) :
    pulled.2.IsOpened ∧ (pulled.1 = none → pulled.2 = .finished) := by
  obtain ⟨found, v, -, rest⟩ := ok_of_bind_ok h
  cases found with
  | none =>
    cases rest
    exact ⟨trivial, fun _ => rfl⟩
  | some x =>
    cases rest
    exact ⟨trivial, by rintro ⟨⟩⟩

/-- A pull either meets the end or gives as many observations as were asked for; unless none were
asked for, the stream is opened by it. -/
lemma pull_ok {n : Nat} {page : Page} (h : pull s n stream u = .ok page t) :
    (stream.IsOpened ∨ n ≠ 0 → page.rest.IsOpened)
      ∧ (if page.done then page.rest = .finished ∧ page.observations.length < n
          else page.observations.length = n) := by
  induction n generalizing stream u page t with
  | zero =>
    cases h
    exact ⟨fun h => h.resolve_right fun h => h rfl, rfl⟩
  | succ n ih =>
    obtain ⟨⟨found, rest⟩, v, step, more⟩ := ok_of_bind_ok h
    obtain ⟨opened, ended⟩ := next_ok step
    cases found with
    | none =>
      cases more
      exact ⟨fun _ => opened, ended rfl, Nat.succ_pos n⟩
    | some o =>
      obtain ⟨later, w, pulled, ends⟩ := ok_of_bind_ok more
      cases ends
      obtain ⟨opened', met⟩ := ih pulled
      refine ⟨fun _ => opened' (Or.inl opened), ?_⟩
      split at met <;> simp_all

end Stream

end Metering
