import Metering.Proofs.InterruptedRegistration

/-!
# How a system starts

A start enrols the built-in collectors of the enabled categories one after the other
(`init_eq_enrollAll`). They ask no supplier and share no name with each other, so on a system that
lists nothing else, and whatever its registry holds, each of them is admitted exactly if its names
are free. The first one that is not admitted ends the start, and those before it have been entered
(`Lists.enrollAll`).
-/

namespace Metering

open Operation Metering.System

/-- The families of a collector that are there without asking anybody. -/
def Collector.standing : Collector → List Family
  | .fixed families => families
  | _ => []

namespace Registry

/-- None of the names of the collector is taken. -/
def Admits (r : Registry) (x : Collector) : Prop := r.taken (x.claims r.describes) = []

instance (r : Registry) (x : Collector) : Decidable (r.Admits x) :=
  inferInstanceAs (Decidable (r.taken (x.claims r.describes) = []))

/-- The registry after collectors have been entered, at one place after the other. -/
def stock (r : Registry) (n : Nat) : List Collector → Registry
  | [] => r
  | x :: xs => (r.enter ⟨n⟩ (x.claims r.describes)).stock (n + 1) xs

variable {r : Registry} {n : Nat} {k : CollectorId}

/-- Collectors that are entered at places that are not in use come after the others. -/
lemma collectors_stock (housed : ∀ k ∈ r.held, k.index < n) (xs : List Collector) :
    (r.stock n xs).collectors = r.collectors ++ (List.range' n xs.length).map CollectorId.mk := by
  induction xs generalizing r n with
  | nil => exact (List.append_nil _).symm
  | cons x xs ih =>
    have fresh : (⟨n⟩ : CollectorId) ∉ r.held := fun held => Nat.lt_irrefl n (housed _ held)
    have entered : (r.enter ⟨n⟩ (x.claims r.describes)).collectors = r.collectors ++ [⟨n⟩] :=
      Index.keys_put_of_not_mem _ fresh
    have still : ∀ k ∈ (r.enter ⟨n⟩ (x.claims r.describes)).held, k.index < n + 1 := by
      intro k held
      have member : k ∈ r.collectors ++ [⟨n⟩] := entered ▸ held
      rcases List.mem_append.mp member with old | new
      · have placed := housed k old
        omega
      · rw [List.mem_singleton.mp new]
        exact Nat.lt_succ_self n
    rw [stock, ih still, entered, List.append_assoc, List.length_cons, List.range'_succ]
    rfl

/-- Whoever shares no name with what is entered is admitted after it if before. -/
lemma admits_enter {names : List String} {y : Collector}
    (apart : ∀ name ∈ y.claims r.describes, name ∉ names) :
    (r.enter k names).Admits y ↔ r.Admits y := by
  rw [Admits, Admits, taken_eq_nil_iff, taken_eq_nil_iff, enter_describes]
  refine forall₂_congr fun name claimed => ?_
  rw [get?_owners_enter, if_neg (apart name claimed)]

/-- The offers up to the first one that the registry does not admit. -/
def admitted (r : Registry) (offers : List Offer) : List Offer :=
  offers.takeWhile fun o => r.Admits o.2

lemma admitted_cons_of_admits {o : Offer} (offers : List Offer) (h : r.Admits o.2) :
    r.admitted (o :: offers) = o :: r.admitted offers :=
  List.takeWhile_cons_of_pos (by simpa using h)

lemma admitted_cons_of_not_admits {o : Offer} (offers : List Offer) (h : ¬ r.Admits o.2) :
    r.admitted (o :: offers) = [] :=
  List.takeWhile_cons_of_neg (by simpa using h)

lemma admitted_congr {r' : Registry} {offers : List Offer}
    (h : ∀ o ∈ offers, r.Admits o.2 ↔ r'.Admits o.2) : r.admitted offers = r'.admitted offers := by
  induction offers with
  | nil => rfl
  | cons o offers ih =>
    have rest := ih fun p hp => h p (List.mem_cons_of_mem o hp)
    by_cases admits : r.Admits o.2
    · rw [admitted_cons_of_admits _ admits,
        admitted_cons_of_admits _ ((h o List.mem_cons_self).mp admits), rest]
    · rw [admitted_cons_of_not_admits _ admits,
        admitted_cons_of_not_admits _ (mt (h o List.mem_cons_self).mpr admits)]

end Registry

namespace Site

variable {r : RegistryId} {k : CollectorId} {ks : List CollectorId} {s : Site}
  {families : List Family}

lemma collect_fixed (h : s.collector k = .fixed families) :
    collect k s = .ok families (s.noting [.collected k]) := by
  change familiesOf (s.collector k) (s.noting [.collected k]) = _
  rw [h]
  rfl

lemma familyNames_fixed (h : s.collector k = .fixed families) :
    familyNames k s = .ok (.ofList (families.map (·.name))) (s.noting [.collected k]) :=
  bind_of_ok (collect_fixed h) _

lemma partAll_fixed (names : Distinct String) (ks : List CollectorId)
    (h : ∀ k ∈ ks, ∃ families, s.collector k = .fixed families) :
    ∃ parts t, Roster.partAll names ks s = .ok parts t := by
  induction ks generalizing s with
  | nil => exact ⟨_, s, rfl⟩
  | cons k ks ih =>
    obtain ⟨families, fixed⟩ := h k List.mem_cons_self
    obtain ⟨parts, t, rest⟩ := ih (s := s.noting [.collected k])
      fun j hj => h j (List.mem_cons_of_mem k hj)
    exact ⟨_, t, (bind_of_ok (familyNames_fixed fixed) _).trans (bind_of_ok rest _)⟩

lemma claimsOf_fixed (fixed : s.collector k = .fixed families) : ∃ u, OnlyActivity s u
    ∧ claimsOf r k s = .ok ((s.collector k).claims (s.registry r).describes) u := by
  have known : ∃ names u, claimsOf r k s = .ok names u := by
    rw [(claimsOf_collected (fun i h => by rw [fixed] at h; cases h)).1]
    by_cases describes : (s.registry r).describes
    · rw [if_pos describes]
      exact ⟨_, _, bind_of_ok (collect_fixed fixed) _⟩
    · rw [if_neg describes]
      exact ⟨[], s, rfl⟩
  obtain ⟨names, u, known⟩ := known
  refine ⟨u, (claimsOf_moves r k).of_ok known, ?_⟩
  rw [known, claimsOf_ok known]

/-- A fixed collector is held exactly if the registry admits it. -/
lemma hold_fixed (fixed : s.collector k = .fixed families) : ∃ u, OnlyActivity s u
    ∧ hold r k s = if (s.registry r).Admits (s.collector k) then
        .ok () (u.withRegistry r
          ((s.registry r).enter k ((s.collector k).claims (s.registry r).describes)))
      else .error (.namesTaken
        ((s.registry r).taken ((s.collector k).claims (s.registry r).describes))) u := by
  obtain ⟨u, quiet, known⟩ := claimsOf_fixed (r := r) fixed
  have same : u.registry r = s.registry r := by rw [quiet]; rfl
  refine ⟨u, quiet, ?_⟩
  rw [hold_of_claims known, same]
  rfl

lemma collectAll_fixed (h : ∀ k ∈ ks, ∃ families, s.collector k = .fixed families) :
    ∃ t, collectAll ks s = .ok ((ks.map s.collector).flatMap Collector.standing) t := by
  induction ks generalizing s with
  | nil => exact ⟨s, rfl⟩
  | cons k ks ih =>
    obtain ⟨families, fixed⟩ := h k List.mem_cons_self
    obtain ⟨t, rest⟩ := ih (s := s.noting [.collected k])
      fun j hj => h j (List.mem_cons_of_mem k hj)
    refine ⟨t, (bind_of_ok (collect_fixed fixed) _).trans ((bind_of_ok rest _).trans ?_)⟩
    rw [List.map_cons, List.flatMap_cons, fixed]
    rfl

end Site

/-- Without rivals a registration goes as holding the new collector goes, and lists it after the
others. -/
lemma Roster.register_of_no_rivals {r : Roster} {c : Category} {k : CollectorId}
    {kept : List CollectorId} {s u : Site} (surveyed : r.survey c k s = .ok ([], kept) u) :
    r.register c k s = match Site.hold r.registry k u with
      | .ok _ t => .ok (r.publish c kept k) t
      | .error fault t => .error fault t := by
  obtain ⟨names, v, named, parted⟩ := ok_of_bind_ok surveyed
  have run : r.register c k s = (do
      exchange r.registry [] k
      reportReplaced c names []
      return r.publish c kept k : Action Roster) u :=
    (bind_of_ok named _).trans (bind_of_ok parted _)
  rw [run]
  cases held : Site.hold r.registry k u with
  | ok x t =>
    have exchanged : exchange r.registry [] k u = .ok () t := tryCatch_of_ok held _
    exact bind_of_ok exchanged _
  | error fault t =>
    have nothing : restore r.registry [] fault t = .error fault t := by
      rw [restore]
      split <;> rfl
    have exchanged : exchange r.registry [] k u = .error fault t :=
      (tryCatch_of_error held _).trans nothing
    exact bind_of_error exchanged _

/-- Offers that can be enrolled one after the other whoever answers what: they are fixed, and no two
share a family name within a category or claim a name twice. -/
structure Standing (offers : List Offer) : Prop where
  fixed : ∀ o ∈ offers, o.2 = .fixed o.2.standing
  apart : offers.Pairwise fun o p => o.1 = p.1 → ¬ p.2.Shares o.2
  free : offers.Pairwise fun o p => ∀ describes, ∀ name ∈ p.2.claims describes,
    name ∉ o.2.claims describes

lemma Standing.sublist {offers others : List Offer} (standing : Standing offers)
    (h : others.Sublist offers) : Standing others :=
  ⟨fun o ho => standing.fixed o (h.subset ho), standing.apart.sublist h, standing.free.sublist h⟩

lemma standing_builtin : Standing builtinOffers where
  fixed := by
    intro o ho
    simp only [builtinOffers, List.mem_cons, List.not_mem_nil, or_false] at ho
    rcases ho with rfl | rfl | rfl <;> rfl
  apart := by decide +kernel
  free := by decide +kernel

namespace System

/-- The built-in collectors that the system is to start with, those of its enabled categories. -/
def builtins (s : System) : List Offer := builtinOffers.filter fun o => s.isEnabled o.1

/-- Enrols the offers one after the other. -/
def enrollAll : List Offer → Operation Unit
  | [] => return
  | (c, x) :: offers => do
    discard (enroll c x)
    enrollAll offers

lemma enrollAll_append (offers others : List Offer) :
    enrollAll (offers ++ others) = (do
      enrollAll offers
      enrollAll others) := by
  induction offers with
  | nil => rfl
  | cons o offers ih =>
    rw [List.cons_append, enrollAll, ih, enrollAll, bind_assoc]

lemma enrollAll_map (c : Category) (bs : List Collector) :
    enrollAll (bs.map (c, ·)) = bs.forM fun b => discard (enroll c b) := by
  induction bs with
  | nil => rfl
  | cons b bs ih =>
    rw [List.map_cons, enrollAll, ih]
    rfl

lemma registerBuiltins_eq_enrollAll (c : Category) (bs : List Collector) (d : Deployment) :
    registerBuiltins c bs d
      = enrollAll ((bs.map (c, ·)).filter fun o => d.system.isEnabled o.1) d := by
  rw [registerBuiltins, bind_system]
  cases enabled : d.system.isEnabled c with
  | true =>
    have all : (bs.map (c, ·)).filter (fun o => d.system.isEnabled o.1) = bs.map (c, ·) :=
      List.filter_eq_self.mpr (by simp [enabled])
    rw [if_pos rfl, all, enrollAll_map]
  | false =>
    have none_enabled : (bs.map (c, ·)).filter (fun o => d.system.isEnabled o.1) = [] :=
      List.filter_eq_nil_iff.mpr (by simp [enabled])
    rw [none_enabled]
    rfl

/-- A start enrols the built-in collectors of the enabled categories. -/
lemma init_eq_enrollAll (d : Deployment) : init d = enrollAll d.system.builtins d := by
  let first : List Offer := [Builtin.process].map (Category.process, ·)
  let second : List Offer := [Builtin.platform, Builtin.garbage].map (Category.runtime, ·)
  have split : d.system.builtins = first.filter (fun o => d.system.isEnabled o.1)
      ++ second.filter fun o => d.system.isEnabled o.1 := by
    rw [← List.filter_append]
    rfl
  have begun := registerBuiltins_enrols .process [Builtin.process] d
  rw [init, split, enrollAll_append]
  cases run : registerBuiltins .process [Builtin.process] d with
  | ok x m =>
    rw [run] at begun
    have notes : m.system = _ := begun.sameNotes
    have same : m.system.isEnabled = d.system.isEnabled := by
      rw [notes]
      rfl
    rw [bind_of_ok run, registerBuiltins_eq_enrollAll, same]
    rw [registerBuiltins_eq_enrollAll] at run
    exact (bind_of_ok run fun _ => enrollAll _).symm
  | error fault m =>
    rw [bind_of_error run]
    rw [registerBuiltins_eq_enrollAll] at run
    exact (bind_of_error run _).symm

end System

namespace Deployment

/-- The system lists nothing under a category but what is offered, and its registry exists. -/
structure Lists (d : Deployment) (offers : List Offer) : Prop where
  room : d.system.roster.registry.index < d.site.registries.length
  listed : ∀ c, ∀ k ∈ d.listed c,
    k.index < d.site.collectors.length ∧ (c, d.site.collector k) ∈ offers

/-- Nothing of the system has changed but its lists, and nothing has been reported. -/
structure Furnished (d e : Deployment) : Prop where
  system : e.system = { d.system with roster := e.system.roster }
  registry : e.system.roster.registry = d.system.roster.registry
  journal : e.site.journal = d.site.journal

instance : IsPreorder Deployment Furnished where
  refl _ := ⟨rfl, rfl, rfl⟩
  trans d e f hde hef := by
    refine ⟨?_, hef.registry.trans hde.registry, hef.journal.trans hde.journal⟩
    rw [hef.system, hde.system]

/-- The offered collectors have been added and entered into the registry, one after the other, and
no other registry has changed. -/
structure Stocks (d : Deployment) (offers : List Offer) (e : Deployment) : Prop where
  added : d.site.collectors ++ offers.map Prod.snd <+: e.site.collectors
  registry : e.registry = d.registry.stock d.site.collectors.length (offers.map Prod.snd)
  elsewhere : ∀ i, i ≠ d.system.roster.registry → e.site.registry i = d.site.registry i
  furnished : d.Furnished e

variable {d e m : Deployment} {offers more : List Offer} {c : Category} {x : Collector}

lemma Stocks.refl (d : Deployment) : d.Stocks [] d where
  added := by simp
  registry := rfl
  elsewhere _ _ := rfl
  furnished := Std.Refl.refl d

lemma Stocks.cons (first : d.Stocks [(c, x)] m)
    (alone : m.site.collectors = d.site.collectors ++ [x]) (rest : m.Stocks offers e) :
    d.Stocks ((c, x) :: offers) e where
  added := by
    have added := rest.added
    rwa [alone, List.append_assoc] at added
  registry := by
    rw [rest.registry, first.registry, alone, List.length_append]
    rfl
  elsewhere i other := by
    rw [rest.elsewhere i (by rw [first.furnished.registry]; exact other), first.elsewhere i other]
  furnished := IsTrans.trans _ _ _ first.furnished rest.furnished

/-- A standing offer finds no rivals, so it is registered exactly if the registry admits it. -/
lemma Lists.register (lists : d.Lists offers) (standing : Standing (offers ++ [(c, x)])) :
    ∃ u, Site.OnlyActivity (d.site.withAdded x) u
      ∧ Roster.register d.system.roster c d.site.nextPlace (d.site.withAdded x)
        = if d.registry.Admits x then
            .ok (d.system.roster.publish c (d.listed c) d.site.nextPlace)
              (u.withRegistry d.system.roster.registry
                (d.registry.enter d.site.nextPlace (x.claims d.registry.describes)))
          else .error (.namesTaken (d.registry.taken (x.claims d.registry.describes))) u := by
  let s := d.site.withAdded x
  let k := d.site.nextPlace
  have new : s.collector k = x := Site.collector_withAdded d.site x
  have last : x = .fixed x.standing := standing.fixed (c, x) (by simp)
  have apart := (List.pairwise_append.mp standing.apart).2.2
  -- what is listed under the category is known, and has no family of these names
  have listed : ∀ j ∈ d.listed c, (c, s.collector j) ∈ offers := by
    intro j hj
    obtain ⟨placed, offered⟩ := lists.listed c j hj
    rw [Site.collector_withAdded_of_lt placed]
    exact offered
  have alone : d.system.roster.rivals s c k = [] := by
    refine List.filter_eq_nil_iff.mpr fun j hj => ?_
    rw [new, decide_eq_true_eq]
    exact apart _ (listed j hj) (c, x) (by simp) rfl
  have all : d.system.roster.bystanders s c k = d.listed c := by
    refine List.filter_eq_self.mpr fun j hj => ?_
    rw [new, decide_eq_true_eq]
    exact apart _ (listed j hj) (c, x) (by simp) rfl
  have surveyed : ∃ u, d.system.roster.survey c k s = .ok ([], d.listed c) u := by
    obtain ⟨parts, u, parted⟩ := Site.partAll_fixed (.ofList (x.standing.map (·.name)))
      (d.listed c) (s := s.noting [.collected k])
      fun j hj => ⟨_, standing.fixed _ (List.mem_append_left _ (listed j hj))⟩
    have run : d.system.roster.survey c k s = .ok parts u :=
      (bind_of_ok (Site.familyNames_fixed (new.trans last)) _).trans parted
    refine ⟨u, ?_⟩
    rw [run, (Roster.surveyed_ok run).1, alone, all]
  obtain ⟨u, surveyed⟩ := surveyed
  have quiet := (Roster.survey_moves d.system.roster c k).of_ok surveyed
  have same : u.registry d.system.roster.registry = d.registry := by rw [quiet]; rfl
  have here : u.collector k = x := by
    rw [quiet]
    exact new
  obtain ⟨t, calm, held⟩ :=
    Site.hold_fixed (r := d.system.roster.registry) (here.trans last)
  rw [here, same] at held
  refine ⟨t, IsTrans.trans _ _ _ quiet calm, ?_⟩
  rw [Roster.register_of_no_rivals surveyed, held]
  by_cases admits : d.registry.Admits x
  · rw [if_pos admits, if_pos admits]
  · rw [if_neg admits, if_neg admits]

/-- A standing offer that the registry admits is taken. -/
lemma Lists.admitted (lists : d.Lists offers) (standing : Standing (offers ++ [(c, x)]))
    (admits : d.registry.Admits x) :
    ∃ m, discard (System.enroll c x) d = .ok () m ∧ d.Stocks [(c, x)] m
      ∧ m.site.collectors = d.site.collectors ++ [x] ∧ m.Lists (offers ++ [(c, x)]) := by
  obtain ⟨u, quiet, registered⟩ := lists.register standing
  rw [if_pos admits] at registered
  let k := d.site.nextPlace
  let entered := d.registry.enter k (x.claims d.registry.describes)
  let m : Deployment := ⟨{ d.system with roster := d.system.roster.publish c (d.listed c) k },
    u.withRegistry d.system.roster.registry entered⟩
  have frame : Site.Rearranged d.system.roster.registry (d.site.withAdded x) m.site :=
    IsTrans.trans _ _ _ quiet.rearranged (Site.withRegistry_rearranged _ u _)
  have collectors : m.site.collectors = d.site.collectors ++ [x] := by rw [frame.rest]; rfl
  refine ⟨m, by rw [discard_eq, enroll_eq, registered], ⟨?_, ?_, ?_, ⟨rfl, rfl, ?_⟩⟩, collectors,
    ⟨?_, ?_⟩⟩
  · rw [collectors]
    exact List.prefix_rfl
  · refine Site.registry_withRegistry_self ?_
    rw [quiet]
    exact lists.room
  · intro i other
    exact frame.others i other
  · change u.journal = d.site.journal
    rw [quiet]
    rfl
  · exact Nat.lt_of_lt_of_eq lists.room frame.room.symm
  · intro c' j hj
    change j ∈ (d.system.roster.publish c (d.listed c) k).ofCategory c' at hj
    have length : m.site.collectors.length = d.site.collectors.length + 1 := by
      rw [collectors, List.length_append, List.length_singleton]
    have earlier : j ∈ d.listed c' → j.index < m.site.collectors.length
        ∧ (c', m.site.collector j) ∈ offers ++ [(c, x)] := by
      intro before
      obtain ⟨placed, offered⟩ := lists.listed c' j before
      rw [frame.collector, Site.collector_withAdded_of_lt placed]
      exact ⟨by omega, List.mem_append_left _ offered⟩
    rw [Roster.ofCategory_publish] at hj
    split at hj
    · next same =>
      subst same
      rcases List.mem_append.mp hj with before | now
      · exact earlier before
      · obtain rfl := List.mem_singleton.mp now
        rw [frame.collector, Site.collector_withAdded]
        exact ⟨length ▸ Nat.lt_succ_self _, by simp⟩
    · exact earlier hj

/-- A standing offer that the registry does not admit is refused, and leaves the registry. -/
lemma Lists.refused (lists : d.Lists offers) (standing : Standing (offers ++ [(c, x)]))
    (refused : ¬ d.registry.Admits x) :
    ∃ names e, discard (System.enroll c x) d = .error (.namesTaken names) e ∧ d.Stocks [] e := by
  obtain ⟨u, quiet, registered⟩ := lists.register standing
  rw [if_neg refused] at registered
  refine ⟨_, ⟨d.system, u⟩, by rw [discard_eq, enroll_eq, registered], ⟨?_, ?_, ?_, ⟨rfl, rfl, ?_⟩⟩⟩
  all_goals rw [quiet]
  · exact ⟨[x], by rw [List.map_nil, List.append_nil]; rfl⟩
  · rfl
  · exact fun _ _ => rfl
  · rfl

/-- Standing offers are enrolled up to the first one that the registry does not admit. -/
lemma Lists.enrollAll (lists : d.Lists offers) (standing : Standing (offers ++ more)) :
    ∃ e, d.Stocks (d.registry.admitted more) e
      ∧ (d.registry.admitted more = more → System.enrollAll more d = .ok () e)
      ∧ (d.registry.admitted more ≠ more →
        ∃ names, System.enrollAll more d = .error (.namesTaken names) e) := by
  induction more generalizing d offers with
  | nil => exact ⟨d, Stocks.refl d, fun _ => rfl, fun other => absurd rfl other⟩
  | cons o more ih =>
    obtain ⟨c, x⟩ := o
    rw [List.append_cons] at standing
    have own := standing.sublist (List.sublist_append_left (offers ++ [(c, x)]) more)
    by_cases admits : d.registry.Admits x
    · obtain ⟨m, enrolled, first, alone, listing⟩ := lists.admitted own admits
      obtain ⟨e, rest, whole, broken⟩ := ih listing standing
      have later : ∀ p ∈ more, m.registry.Admits p.2 ↔ d.registry.Admits p.2 := by
        intro p hp
        have free := (List.pairwise_append.mp standing.free).2.2 (c, x) (by simp) p hp
        rw [first.registry]
        exact Registry.admits_enter (free _)
      rw [Registry.admitted_congr later] at rest whole broken
      rw [Registry.admitted_cons_of_admits _ admits]
      refine ⟨e, Stocks.cons first alone rest, fun all => ?_, fun some_left => ?_⟩
      · exact (bind_of_ok enrolled _).trans (whole (List.cons.inj all).2)
      · obtain ⟨names, failed⟩ := broken fun all => some_left (by rw [all])
        exact ⟨names, (bind_of_ok enrolled _).trans failed⟩
    · obtain ⟨names, e, refused, stocks⟩ := lists.refused own admits
      rw [Registry.admitted_cons_of_not_admits _ admits]
      refine ⟨e, stocks, fun empty => ?_, fun _ => ⟨names, bind_of_error refused _⟩⟩
      cases empty

end Deployment

end Metering
