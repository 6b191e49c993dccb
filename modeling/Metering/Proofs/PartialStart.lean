import Metering.Proofs.ExactReplacement
import Metering.Proofs.LaunchFromEnvironment
import Metering.Proofs.RegistryRecords

/-!
# Starts that fail half-way

A start enrols one built-in collector after the other, and nothing takes back what has been enrolled
when a later one is refused. So a start that fails leaves lists and registry as they were only if
the very first collector was refused (`System.init_stalls`). A new system lists nothing, so there it
can be told from the registry alone which of its collectors stay behind: those before the first one
that the registry does not admit (`Scenario.makeSystem_admits`).
-/

namespace Metering

open Site Operation Metering.System

namespace Site

variable {i : RegistryId} {ks : List CollectorId} {k : CollectorId} {s t : Site}

/-- Whatever the registry holds has its place on the site. -/
def Houses (s : Site) (i : RegistryId) : Prop :=
  ∀ k ∈ (s.registry i).held, k.index < s.collectors.length

lemma Recorded.houses (recorded : s.Recorded i) : s.Houses i := by
  intro k held
  cases known : (s.registry i).held.get? k with
  | none => exact absurd held (Index.get?_eq_none_iff.mp known)
  | some names => exact (recorded k names known).1

/-- The registry still holds what it held before, some of the given collectors apart. -/
def Retains (i : RegistryId) (ks : List CollectorId) (s t : Site) : Prop :=
  ∀ j ∉ ks, j ∈ (s.registry i).held → j ∈ (t.registry i).held

instance (i : RegistryId) (ks : List CollectorId) : IsPreorder Site (Retains i ks) where
  refl _ _ _ held := held
  trans _ _ _ hst htu j other held := htu j other (hst j other held)

lemma OnlyActivity.retains (h : OnlyActivity s t) : Retains i ks s t := by
  rw [h]
  exact fun _ _ held => held

lemma withRegistry_retains {reg : Registry}
    (held : ∀ j ∉ ks, j ∈ (s.registry i).held → j ∈ reg.held) :
    Retains i ks s (s.withRegistry i reg) := by
  rcases registry_withRegistry_or s i reg with now | same
  · intro j other was
    rw [now]
    exact held j other was
  · intro j _ was
    rw [same]
    exact was

lemma hold_retains (k : CollectorId) : Moves (Retains i ks) (hold i k) := by
  intro s
  cases run : hold i k s with
  | error fault t => exact (quiet_of_hold_error run).retains
  | ok x t =>
    obtain ⟨u, quiet, rfl, -⟩ := hold_ok run
    have same : u.registry i = s.registry i := by rw [quiet]; rfl
    refine IsTrans.trans _ _ _ quiet.retains (withRegistry_retains fun j _ was => ?_)
    rw [same] at was
    exact Index.mem_put.mpr (Or.inl was)

lemma release_retains (h : k ∈ ks) : Moves (Retains i ks) (release i k) := by
  intro s
  rw [release, bind_get]
  cases held : (s.registry i).held.get? k with
  | none => exact Std.Refl.refl s
  | some names =>
    dsimp only
    rcases Registry.free names (s.registry i).owners with ⟨_ | missing, owners⟩
    · refine withRegistry_retains fun j other was => ?_
      have different : j ≠ k := fun same => other (same ▸ h)
      exact Index.mem_erase.mpr ⟨was, different⟩
    · exact withRegistry_retains fun j _ was => was

end Site

namespace Registry

variable {r : Registry} {n : Nat} {xs : List Collector} {offers : List Offer}

/-- Some of the offers can be entered, and then one cannot. -/
def Stalls (r : Registry) (offers : List Offer) : Prop :=
  r.admitted offers ≠ [] ∧ r.admitted offers ≠ offers

/-- Collectors that are entered at places that are not in use change the registry. -/
lemma not_without_stock (housed : ∀ k ∈ r.held, k.index < n) (some_entered : xs ≠ []) :
    ¬ r.Without (r.stock n xs) [] [] := by
  intro unchanged
  have length : 0 < xs.length := List.length_pos_iff.mpr some_entered
  have entered : (⟨n⟩ : CollectorId) ∈ (r.stock n xs).collectors := by
    rw [collectors_stock housed]
    refine List.mem_append_right _ (List.mem_map_of_mem ?_)
    rw [List.mem_range'_1]
    omega
  have held := (unchanged.mem_held.mp (Index.mem_def.mpr entered)).1
  exact absurd (housed _ held) (Nat.lt_irrefl n)

end Registry

namespace Roster

variable {r r' : Roster} {c : Category} {k : CollectorId} {s t : Site}

/-- Whatever comes of a registration, the registry loses nobody but rivals. -/
lemma register_retains (r : Roster) (c : Category) (k : CollectorId) (s : Site) :
    Retains r.registry (r.rivals s c k) s (endOf (r.register c k s)) :=
  register_along (fun h => by rw [h]; exact fun _ _ held => held)
    (fun _ rival => release_retains rival) fun j _ => hold_retains j

lemma new_held_of_register_ok (ok : r.register c k s = .ok r' t)
    (room : r.registry.index < s.registries.length) : k ∈ (t.registry r.registry).held := by
  obtain ⟨-, -, reg, gone, -, now⟩ := rivals_of_register_ok ok room
  rw [now]
  exact Index.mem_put.mpr (Or.inr rfl)

end Roster

/-- The offered collector is new, and is now held and listed under its category alone. -/
structure Deployment.Took (d : Deployment) (o : Offer) (e : Deployment) (k : CollectorId) :
    Prop where
  new : d.site.collectors.length ≤ k.index
  placed : k.index < e.site.collectors.length
  offered : e.site.collector k = o.2
  listed : k ∈ e.listed o.1
  alone : ∀ c, k ∈ e.listed c → c = o.1
  held : k ∈ e.registry.held

namespace System

variable {d e m : Deployment} {c : Category} {x : Collector} {k : CollectorId} {o : Offer}
  {offers : List Offer} {fault : Fault}

lemma room_enroll (c : Category) (x : Collector) (m : Deployment) :
    (endOf (enroll c x m)).site.registries.length = m.site.registries.length :=
  (rearranged_enroll c x m).room

lemma seated_enroll (seated : m.system.roster.Seated m.site) :
    (endOf (enroll c x m)).system.roster.Seated (endOf (enroll c x m)).site := by
  intro c' k listed
  rcases listed_of_enroll listed with old | ⟨-, rfl⟩
  · exact Nat.lt_of_lt_of_le (seated c' k old) (grows_enroll c x m).room
  · exact nextPlace_lt_enroll c x m

lemma retains_enroll (c : Category) (x : Collector) (m : Deployment) :
    Retains m.system.roster.registry
      (m.system.roster.rivals (m.site.withAdded x) c m.site.nextPlace) m.site
      (endOf (enroll c x m)).site := by
  rw [site_enroll]
  exact Roster.register_retains m.system.roster c m.site.nextPlace (m.site.withAdded x)

lemma took_enroll (seated : d.system.roster.Seated d.site)
    (room : d.system.roster.registry.index < d.site.registries.length)
    (ok : enroll c x d = .ok k e) : d.Took (c, x) e k := by
  obtain ⟨rfl, listed⟩ := enroll_ok ok
  have ends : endOf (enroll c x d) = e := by rw [ok]; rfl
  refine ⟨Nat.le_refl _, ends ▸ nextPlace_lt_enroll c x d, ends ▸ collector_enroll c x d, listed,
    fun c' there => ?_, ?_⟩
  · rcases listed_of_enroll (ends ▸ there) with old | ⟨same, -⟩
    · exact absurd (seated c' _ old) (Nat.lt_irrefl _)
    · exact same
  · have registered := (registered_of_enroll ok).2
    have held := Roster.new_held_of_register_ok registered room
    rw [Deployment.registry, (Roster.exchanged_of_register_ok registered).1]
    exact held

/-- What has been taken stays, unless a collector that shares a family name with it comes under the
same category. -/
lemma stays_took (took : d.Took o m k) (apart : o.1 = c → ¬ x.Shares o.2) :
    d.Took o (endOf (enroll c x m)) k := by
  have moved := rearranged_enroll c x m
  have known : (m.site.withAdded x).collector k = o.2 := by
    rw [collector_withAdded_of_lt took.placed, took.offered]
  refine ⟨took.new, Nat.lt_of_lt_of_le took.placed (grows_enroll c x m).room,
    (moved.collector k).trans known, ?_, fun c' there => ?_, ?_⟩
  · rcases stays_enroll (c := c) (y := x) took.listed with stays | ⟨same, -, shared⟩
    · exact stays
    · rw [collector_enroll, moved.collector, known] at shared
      exact absurd shared (apart same)
  · rcases listed_of_enroll there with old | ⟨-, rfl⟩
    · exact took.alone c' old
    · exact absurd took.placed (Nat.lt_irrefl _)
  · rw [Deployment.registry, registry_enroll]
    refine retains_enroll c x m k (fun rival => ?_) took.held
    obtain ⟨listed, shared⟩ := Roster.mem_rivals.mp rival
    rw [collector_withAdded, known] at shared
    exact apart (took.alone c listed).symm shared

lemma enrollAll_cons_ok (h : enrollAll ((c, x) :: offers) d = .ok () e) :
    ∃ k m, enroll c x d = .ok k m ∧ enrollAll offers m = .ok () e := by
  obtain ⟨⟨⟩, m, enrolled, rest⟩ := ok_of_bind_ok h
  rw [discard_eq] at enrolled
  split at enrolled
  · next k m run =>
    cases enrolled
    exact ⟨k, m, run, rest⟩
  · cases enrolled

/-- A sequence of enrolments fails at one of them, and ends as this one ends. -/
lemma enrollAll_error (h : enrollAll offers d = .error fault e) :
    ∃ before c x after m, offers = before ++ (c, x) :: after ∧ enrollAll before d = .ok () m
      ∧ enroll c x m = .error fault e := by
  induction offers generalizing d with
  | nil => cases h
  | cons o offers ih =>
    obtain ⟨c, x⟩ := o
    rcases error_of_bind_error h with failed | ⟨⟨⟩, m, enrolled, failed⟩
    · refine ⟨[], c, x, offers, d, rfl, rfl, ?_⟩
      rw [discard_eq] at failed
      split at failed
      · cases failed
      · next run =>
        cases failed
        exact run
    · obtain ⟨before, c', x', after, m', rfl, begun, last⟩ := ih failed
      exact ⟨(c, x) :: before, c', x', after, m', rfl, (bind_of_ok enrolled _).trans begun, last⟩

lemma stays_took_all (took : d.Took o m k) (ok : enrollAll offers m = .ok () e)
    (apart : ∀ p ∈ offers, o.1 = p.1 → ¬ p.2.Shares o.2) : d.Took o e k := by
  induction offers generalizing m with
  | nil =>
    cases ok
    exact took
  | cons p offers ih =>
    obtain ⟨j, n, enrolled, rest⟩ := enrollAll_cons_ok ok
    have stays := stays_took took (apart p List.mem_cons_self)
    rw [enrolled] at stays
    exact ih stays rest fun q hq => apart q (List.mem_cons_of_mem p hq)

/-- Offers that could all be enrolled have been taken, if no two of them share a family name within
a category. -/
lemma took_all (apart : offers.Pairwise fun o p => o.1 = p.1 → ¬ p.2.Shares o.2)
    (seated : d.system.roster.Seated d.site)
    (room : d.system.roster.registry.index < d.site.registries.length)
    (ok : enrollAll offers d = .ok () e) : ∀ o ∈ offers, ∃ k, d.Took o e k := by
  induction offers generalizing d with
  | nil => exact fun _ h => absurd h List.not_mem_nil
  | cons o offers ih =>
    obtain ⟨first, among⟩ := List.pairwise_cons.mp apart
    obtain ⟨k, m, enrolled, rest⟩ := enrollAll_cons_ok ok
    have ends : endOf (enroll o.1 o.2 d) = m := by rw [enrolled]; rfl
    have later : m.system.roster.Seated m.site := ends ▸ seated_enroll seated
    have still : m.system.roster.registry.index < m.site.registries.length := by
      rw [← ends, registry_enroll, room_enroll]
      exact room
    have length : d.site.collectors.length ≤ m.site.collectors.length :=
      ends ▸ (grows_enroll o.1 o.2 d).room
    intro p hp
    rcases List.mem_cons.mp hp with rfl | hp
    · exact ⟨k, stays_took_all (took_enroll seated room enrolled) rest first⟩
    · obtain ⟨j, took⟩ := ih among later still rest p hp
      exact ⟨j, { took with new := Nat.le_trans length took.new }⟩

lemma sound_all (nodup : ∀ o ∈ offers, ∀ describes, (o.2.claims describes).Nodup) (sound : d.Sound)
    (ok : enrollAll offers d = .ok () e) : e.Sound := by
  induction offers generalizing d with
  | nil =>
    cases ok
    exact sound
  | cons o offers ih =>
    obtain ⟨k, m, enrolled, rest⟩ := enrollAll_cons_ok ok
    have after := sound_enroll (c := o.1) (nodup o List.mem_cons_self) sound
    rw [enrolled] at after
    exact ih (fun p hp => nodup p (List.mem_cons_of_mem o hp)) after rest

/-- While no supplier raises, an enrolment is refused only for names that are taken, and leaves the
registry as it was. -/
lemma refused_of_enroll_error (sound : m.Sound) (nameable : x.Nameable)
    (failed : enroll c x m = .error fault e) :
    (∃ names, fault = .namesTaken names) ∧ m.registry.Without e.registry [] [] := by
  obtain ⟨taken, same, added, -, refused⟩ := refusal_of_enroll sound nameable failed
  refine ⟨taken, ?_⟩
  rw [Deployment.registry, Deployment.registry, same]
  exact (Roster.unchanged_of_register_error added.calm added.tidy added.backed refused).2

end System

/-- A start that has failed had taken some of the collectors that the system was to start with, and
the next one was refused. -/
structure Deployment.Stalls (d : Deployment) (taken : List Offer) (fault : Fault)
    (e : Deployment) : Prop where
  stopped : ∃ c x later m, d.system.builtins = taken ++ (c, x) :: later
    ∧ enrollAll taken d = .ok () m ∧ enroll c x m = .error fault e
  took : ∀ o ∈ taken, ∃ k, d.Took o e k

section Starting

variable {d e : Deployment} {taken : List Offer} {fault : Fault}

lemma System.init_stalls (seated : d.system.roster.Seated d.site)
    (room : d.system.roster.registry.index < d.site.registries.length)
    (failed : System.init d = .error fault e) : ∃ taken, d.Stalls taken fault e := by
  rw [init_eq_enrollAll] at failed
  obtain ⟨taken, c, x, later, m, split, begun, last⟩ := enrollAll_error failed
  have apart := (Deployment.standing_builtins d.system).apart
  rw [split] at apart
  obtain ⟨among, -, beyond⟩ := List.pairwise_append.mp apart
  refine ⟨taken, ⟨c, x, later, m, split, begun, last⟩, fun o ho => ?_⟩
  obtain ⟨k, took⟩ := took_all among seated room begun o ho
  have stays := stays_took took (beyond o ho (c, x) List.mem_cons_self)
  rw [last] at stays
  exact ⟨k, stays⟩

namespace Deployment.Stalls

/-- The lists are as before exactly if nothing was taken. -/
lemma roster_iff (stalls : d.Stalls taken fault e) (seated : d.system.roster.Seated d.site) :
    e.system.roster = d.system.roster ↔ taken = [] := by
  constructor
  · intro same
    by_contra some_taken
    obtain ⟨o, ho⟩ := List.exists_mem_of_ne_nil taken some_taken
    obtain ⟨k, took⟩ := stalls.took o ho
    have listed := took.listed
    rw [Deployment.listed, same] at listed
    exact absurd (seated o.1 k listed) (Nat.not_lt.mpr took.new)
  · rintro rfl
    obtain ⟨c, x, later, m, -, begun, last⟩ := stalls.stopped
    cases begun
    rw [(refused_of_enroll last).1]

/-- The registry is other than before if something was taken. -/
lemma nothing_taken (stalls : d.Stalls taken fault e)
    (houses : d.site.Houses d.system.roster.registry)
    (unchanged : d.registry.Without e.registry [] []) : taken = [] := by
  by_contra some_taken
  obtain ⟨o, ho⟩ := List.exists_mem_of_ne_nil taken some_taken
  obtain ⟨k, took⟩ := stalls.took o ho
  have held := (unchanged.mem_held.mp took.held).1
  exact absurd (houses k held) (Nat.not_lt.mpr took.new)

/-- While no supplier raises, a start fails only because a name is taken, and the registry is as
before exactly if nothing was taken. -/
lemma of_sound (stalls : d.Stalls taken fault e) (sound : d.Sound)
    (houses : d.site.Houses d.system.roster.registry) :
    (∃ names, fault = .namesTaken names)
      ∧ (d.registry.Without e.registry [] [] ↔ taken = []) := by
  obtain ⟨c, x, later, m, split, begun, last⟩ := stalls.stopped
  have offered : ∀ o ∈ taken ++ (c, x) :: later, o ∈ builtinOffers := by
    rw [← split]
    exact fun o ho => (List.mem_filter.mp ho).1
  have after : m.Sound := sound_all
    (fun o ho => fitting_builtin.nodup o (offered o (List.mem_append_left _ ho))) sound begun
  have fixed := standing_builtin.fixed (c, x) (offered _ (by simp))
  have nameable : x.Nameable := by
    rw [show x = _ from fixed]
    trivial
  obtain ⟨refused, unchanged⟩ := refused_of_enroll_error after nameable last
  refine ⟨refused, stalls.nothing_taken houses, ?_⟩
  rintro rfl
  cases begun
  exact unchanged

end Deployment.Stalls

end Starting

namespace Scenario

open Session

/-- The built-in collectors that a new system is to start with. -/
def planned (categories : List Category) (settings : Settings) : List Offer :=
  builtinOffers.filter fun o =>
    decide (o.1 ∈ (Gating.resolve (categories ++ Category.standard) settings).1)

/-- The named registries exist, and no registry holds what is not there. -/
structure Workspace.Proper (w : Workspace) : Prop where
  room : ∀ name i, w.bound.registries.get? name = some i → i.index < w.site.registries.length
  houses : ∀ i, w.site.Houses i

/-- A new system would come up on this registry with these settings. -/
structure Workspace.Opens (w : Workspace) (registry : Option String) (given : Option Settings)
    (i : RegistryId) (settings : Settings) : Prop where
  named : ∃ name, registry = some name ∧ w.bound.registries.get? name = some i
  read : ∃ w', settingsOr given w = .ok settings w'

lemma Workspace.Opens.opened {w : Workspace} {registry : Option String} {given : Option Settings}
    {i : RegistryId} {settings : Settings} (opens : w.Opens registry given i settings) :
    registryOr registry w = .ok i w := by
  obtain ⟨name, rfl, found⟩ := opens.named
  exact find_ok found

section FailedLaunch

variable {w w' : Workspace} {registry : Option String} {given : Option Settings}
  {settings : Settings} {i j : RegistryId} {categories : List Category} {id : String}
  {fault : Fault}

/-- Settings are read without touching the site. -/
lemma site_settingsOr (given : Option Settings) (w : Workspace) :
    (endOf (settingsOr given w)).site = w.site := by
  cases given with
  | some settings => rfl
  | none =>
    have read : (endOf (ofConfiguration (Configuration.current false) w)).site = w.site := by
      rw [ofConfiguration]
      split <;> rfl
    cases run : ofConfiguration (Configuration.current false) w with
    | ok snapshot w' =>
      rw [run] at read
      rw [settingsOr, bind_of_ok run]
      exact read
    | error fault w' =>
      rw [run] at read
      rw [settingsOr, bind_of_error run]
      exact read

/-- Once the registry and the settings can be had, a launch succeeds if all planned collectors are
admitted. Otherwise it fails, and those before the first that is not admitted have been entered. -/
lemma makeSystem_admits {w₁ w₂ : Workspace} (opened : registryOr registry w = .ok i w₁)
    (read : settingsOr given w₁ = .ok settings w₂) (room : i.index < w₁.site.registries.length)
    (categories : List Category) (id : String) :
    let admitted := (w₁.site.registry i).admitted (planned categories settings)
    let step := makeSystem id (.fromSettings categories given registry true) w
    (admitted = planned categories settings → ∃ w', step = .ok () w')
      ∧ (admitted ≠ planned categories settings → ∃ names w', step = .error (.namesTaken names) w'
        ∧ w'.site.registry i
          = (w₁.site.registry i).stock w₁.site.collectors.length (admitted.map Prod.snd)
        ∧ ∀ j, j ≠ i → w'.site.registry j = w₁.site.registry j) := by
  intro admitted step
  have same : w₂.site = w₁.site := by
    rw [← site_settingsOr given w₁, read]
    rfl
  let resolved := Gating.resolve (categories ++ Category.standard) settings
  let d : Deployment := ⟨System.fresh resolved.1 settings.timers i,
    { w₂.site with journal := w₂.site.journal ++ resolved.2 }⟩
  have unused : d.registry = w₁.site.registry i := by rw [← same]; rfl
  have length : d.site.collectors.length = w₁.site.collectors.length := by rw [← same]
  have lists : d.Lists [] := Deployment.lists_fresh (by rw [same]; exact room)
  have standing : Standing ([] ++ planned categories settings) :=
    Deployment.standing_builtins d.system
  have run : System.init d = enrollAll (planned categories settings) d := init_eq_enrollAll d
  obtain ⟨e, stocks, whole, broken⟩ := lists.enrollAll standing
  rw [unused, ← run] at whole broken
  have made := makeSystem_of_opened opened read (rfl : d = _) true id
  rw [if_pos rfl] at made
  constructor
  · intro all
    rw [whole all] at made
    exact ⟨_, made⟩
  · intro some_left
    obtain ⟨names, failed⟩ := broken some_left
    rw [failed] at made
    refine ⟨names, _, made, ?_, fun j other => ?_⟩
    · have entered := stocks.registry
      rw [Deployment.registry, stocks.furnished.registry, unused, length] at entered
      exact entered
    · refine (stocks.elsewhere j other).trans ?_
      rw [← same]
      rfl

/-- The registry of a new system is a new one, or what a name stands for. The existing ones are as
before. -/
lemma registryOr_ok {w₁ : Workspace} (opened : registryOr registry w = .ok i w₁) :
    (∀ j : RegistryId, j.index < w.site.registries.length →
        w₁.site.registry j = w.site.registry j)
      ∧ (i.index = w.site.registries.length ∧ i.index < w₁.site.registries.length
        ∨ w₁ = w ∧ ∃ name, registry = some name ∧ w.bound.registries.get? name = some i) := by
  cases registry with
  | none =>
    cases opened
    refine ⟨fun j old => ?_, Or.inl ⟨rfl, by simp⟩⟩
    rw [Site.registry, List.getElem?_append_left old, Site.registry]
  | some name =>
    cases found : w.bound.registries.get? name with
    | none =>
      rw [show registryOr (some name) w = _ from find_error found] at opened
      cases opened
    | some j =>
      rw [show registryOr (some name) w = _ from find_ok found] at opened
      cases opened
      exact ⟨fun _ _ => rfl, Or.inr ⟨rfl, name, rfl, found⟩⟩

/-- A name that stands for no registry changes nothing. -/
lemma registryOr_error (failed : registryOr registry w = .error fault w') : w' = w := by
  cases registry with
  | none => cases failed
  | some name =>
    cases found : w.bound.registries.get? name with
    | none =>
      rw [show registryOr (some name) w = _ from find_error found] at failed
      cases failed
      rfl
    | some j =>
      rw [show registryOr (some name) w = _ from find_ok found] at failed
      cases failed

/-- If a launch fails, an existing registry is as before, unless it is the one that the new system
was to come up on. -/
lemma registry_of_failed_launch (proper : w.Proper) (room : i.index < w.site.registries.length)
    (failed : makeSystem id (.fromSettings categories given registry true) w = .error fault w') :
    w'.site.registry i = w.site.registry i ∨ ∃ settings, w.Opens registry given i settings := by
  cases opened : registryOr registry w with
  | error other w₁ =>
    left
    rw [makeSystem, bind_of_error opened] at failed
    cases failed
    rw [registryOr_error opened]
  | ok j w₁ =>
    obtain ⟨kept, origin⟩ := registryOr_ok opened
    cases read : settingsOr given w₁ with
    | error other w₂ =>
      left
      have same := site_settingsOr given w₁
      rw [makeSystem, bind_of_ok opened, bind_of_error read] at failed
      cases failed
      rw [read] at same
      exact (congrArg (Site.registry · i) same).trans (kept i room)
    | ok settings w₂ =>
      by_cases same : i = j
      · subst same
        rcases origin with ⟨new, -⟩ | ⟨rfl, named⟩
        · exact absurd room (by omega)
        · exact Or.inr ⟨settings, named, w₂, read⟩
      · left
        have there : j.index < w₁.site.registries.length := by
          rcases origin with ⟨-, there⟩ | ⟨rfl, name, -, found⟩
          · exact there
          · exact proper.room name j found
        obtain ⟨whole, broken⟩ := makeSystem_admits opened read there categories id
        by_cases all : (w₁.site.registry j).admitted (planned categories settings)
            = planned categories settings
        · obtain ⟨w₃, made⟩ := whole all
          rw [made] at failed
          cases failed
        · obtain ⟨names, w₃, made, -, elsewhere⟩ := broken all
          rw [made] at failed
          cases failed
          exact (elsewhere i same).trans (kept i room)

/-- A launch fails if some of the planned collectors are admitted and then one is not, and those
that are admitted stay behind. -/
lemma launch_stalls (opens : w.Opens registry given i settings)
    (room : i.index < w.site.registries.length)
    (stalls : (w.site.registry i).Stalls (planned categories settings)) (id : String) :
    ∃ names w', perform (.system id (.fromSettings categories given registry true)) w
        = .error (.namesTaken names) w'
      ∧ w'.site.registry i = (w.site.registry i).stock w.site.collectors.length
        (((w.site.registry i).admitted (planned categories settings)).map Prod.snd) := by
  obtain ⟨w₂, read⟩ := opens.read
  obtain ⟨names, w', made, entered, -⟩ :=
    (makeSystem_admits opens.opened read room categories id).2 stalls.2
  exact ⟨names, w', bind_of_error made _, entered⟩

/-- Otherwise a launch that fails leaves an existing registry as it was. -/
lemma stalls_of_failed_launch (proper : w.Proper) (room : i.index < w.site.registries.length)
    (failed : perform (.system id (.fromSettings categories given registry true)) w
      = .error fault w')
    (changed : ¬ (w.site.registry i).Without (w'.site.registry i) [] []) :
    ∃ settings, w.Opens registry given i settings
      ∧ (w.site.registry i).Stalls (planned categories settings) := by
  have made : makeSystem id (.fromSettings categories given registry true) w
      = .error fault w' := by
    rcases error_of_bind_error failed with made | ⟨⟨⟩, w₁, -, ended⟩
    · exact made
    · cases ended
  rcases registry_of_failed_launch proper room made with same | ⟨settings, opens⟩
  · rw [same] at changed
    exact absurd (Registry.Without.refl _) changed
  · obtain ⟨w₂, read⟩ := opens.read
    obtain ⟨whole, broken⟩ := makeSystem_admits opens.opened read room categories id
    have some_left : (w.site.registry i).admitted (planned categories settings)
        ≠ planned categories settings := by
      intro all
      obtain ⟨w₁, ok⟩ := whole all
      rw [made] at ok
      cases ok
    obtain ⟨names, w₁, refused, entered, -⟩ := broken some_left
    rw [made] at refused
    cases refused
    refine ⟨settings, opens, fun none_admitted => changed ?_, some_left⟩
    rw [entered, none_admitted]
    exact Registry.Without.refl _

end FailedLaunch

/-- What a start that fails leaves behind, for every registry and every system of a workspace. A
launch that fails changes an existing registry exactly if the new system was to come up on it, and
some of its built-in collectors, but not all, come before the first one that the registry does not
admit; and whenever this is so, the launch fails, and the registry has these collectors. A start
that fails of a system, in whatever state it is, has taken the built-in collectors before the one
that was refused. The lists are as before exactly if there were none. The registry is as before only
if there were none, and then, while no supplier raises, it is. -/
theorem failed_start_keeps_taken {w : Workspace} (proper : w.Proper) {i : RegistryId}
    (room : i.index < w.site.registries.length) (categories : List Category)
    (given : Option Settings) (registry : Option String) (id : String) {s : System}
    (reached : s.roster.Reached w.site)
    (placed : s.roster.registry.index < w.site.registries.length) :
    let step := perform (.system id (.fromSettings categories given registry true)) w
    let d : Deployment := ⟨s, w.site⟩
    (∀ fault w', step = .error fault w' →
      (¬ (w.site.registry i).Without (w'.site.registry i) [] []
        ↔ ∃ settings, w.Opens registry given i settings
          ∧ (w.site.registry i).Stalls (planned categories settings)))
    ∧ (∀ settings, w.Opens registry given i settings →
      (w.site.registry i).Stalls (planned categories settings) →
      ∃ names w', step = .error (.namesTaken names) w'
        ∧ w'.site.registry i = (w.site.registry i).stock w.site.collectors.length
          (((w.site.registry i).admitted (planned categories settings)).map Prod.snd))
    ∧ ∀ fault e, System.init d = .error fault e →
      ∃ taken, d.Stalls taken fault e
        ∧ (e.system.roster = d.system.roster ↔ taken = [])
        ∧ (d.registry.Without e.registry [] [] → taken = [])
        ∧ (d.Sound → (∃ names, fault = .namesTaken names)
          ∧ (d.registry.Without e.registry [] [] ↔ taken = [])) := by
  intro step d
  refine ⟨fun fault w' failed => ⟨stalls_of_failed_launch proper room failed, ?_⟩,
    fun settings opens stalls => launch_stalls opens room stalls id, fun fault e failed => ?_⟩
  · rintro ⟨settings, opens, stalls⟩
    obtain ⟨names, w₁, refused, entered⟩ := launch_stalls opens room stalls id
    cases failed.symm.trans refused
    rw [entered]
    exact Registry.not_without_stock (proper.houses i) (by simpa using stalls.1)
  · obtain ⟨seated, recorded⟩ := reached.recorded
    obtain ⟨taken, stalls⟩ := System.init_stalls (d := d) seated placed failed
    exact ⟨taken, stalls, stalls.roster_iff seated, stalls.nothing_taken recorded.houses,
      fun sound => stalls.of_sound sound recorded.houses⟩

/-- A site with a collector that claims the name of the platform's, and an empty registry. -/
def rivalSite : Site :=
  { collectors := [.fixed [⟨"python_info", .gauge, "h", []⟩]], registries := [.vacant true] }

/-- The site after the collector has been entered. -/
def crowdedSite : Site := endOf (Site.hold ⟨0⟩ ⟨0⟩ rivalSite)

/-- A workspace on that site, where the registry has a name. -/
def crowded : Workspace :=
  { site := crowdedSite, bound := { registries := (∅ : Index _ _).put "shared" ⟨0⟩ } }

/-- Settings that disable nothing. -/
def permissive : Settings := ⟨true, none, ∅, true⟩

/-- A system on that site that has not been started yet. -/
def unstarted : System := System.fresh (.ofList [.process, .runtime]) true ⟨0⟩

lemma crowded_proper : crowded.Proper where
  room name i bound := by
    change ((∅ : Index String RegistryId).put "shared" ⟨0⟩).get? name = some i at bound
    rw [Index.get?_put] at bound
    split at bound
    · cases bound
      decide
    · cases bound
  houses := by
    rintro ⟨_ | n⟩ k held
    · have alone : (crowded.site.registry ⟨0⟩).held.keys = [⟨0⟩] := by decide +kernel
      have found : k ∈ [⟨0⟩] := alone ▸ held
      rw [List.mem_singleton.mp found]
      decide +kernel
    · exact absurd held List.not_mem_nil

lemma crowded_room : (⟨0⟩ : RegistryId).index < crowded.site.registries.length := by
  decide +kernel

lemma crowded_opens : crowded.Opens (some "shared") (some permissive) ⟨0⟩ permissive :=
  ⟨⟨"shared", rfl, rfl⟩, crowded, rfl⟩

/-- The registry admits the process collector, but not the platform's. -/
lemma crowded_stalls : (crowded.site.registry ⟨0⟩).Stalls (planned [] permissive) := by
  have one : ((crowded.site.registry ⟨0⟩).admitted (planned [] permissive)).length = 1 := by
    decide +kernel
  have three : (planned [] permissive).length = 3 := by decide +kernel
  constructor
  · intro none_admitted
    rw [none_admitted] at one
    cases one
  · intro all
    rw [all, three] at one
    cases one

theorem failed_start_keeps_taken_process :
    crowded.Proper ∧ (⟨0⟩ : RegistryId).index < crowded.site.registries.length
      ∧ unstarted.roster.Reached crowded.site
      ∧ crowded.Opens (some "shared") (some permissive) ⟨0⟩ permissive
      ∧ (∃ names w', perform (.system "s" (.fromSettings [] (some permissive) (some "shared") true))
          crowded = .error (.namesTaken names) w'
        ∧ ¬ (crowded.site.registry ⟨0⟩).Without (w'.site.registry ⟨0⟩) [] [])
      ∧ let d : Deployment := ⟨unstarted, crowded.site⟩
        d.Sound ∧ ∃ names e taken, System.init d = .error (.namesTaken names) e
          ∧ d.Stalls taken (.namesTaken names) e
          ∧ (d.registry.Without e.registry [] [] ↔ taken = []) := by
  have entered : Disturbs ⟨0⟩ rivalSite crowdedSite := .held (by decide)
  have reached : unstarted.roster.Reached crowded.site := .disturbed (.vacant rfl) entered
  obtain ⟨changed, fails, starts⟩ := failed_start_keeps_taken crowded_proper crowded_room []
    (some permissive) (some "shared") "s" reached crowded_room
  obtain ⟨names, w', failed, -⟩ := fails permissive crowded_opens crowded_stalls
  have different := (changed _ w' failed).mpr ⟨_, crowded_opens, crowded_stalls⟩
  have sound : Deployment.Sound ⟨unstarted, crowded.site⟩ :=
    sound_fresh crowded_room fun _ h => absurd h List.not_mem_nil
  refine ⟨crowded_proper, crowded_room, reached, crowded_opens, ⟨names, w', failed, different⟩,
    sound, ?_⟩
  obtain ⟨names, e, refused⟩ : ∃ names e,
      System.init ⟨unstarted, crowded.site⟩ = .error (.namesTaken names) e := ⟨_, _, rfl⟩
  obtain ⟨taken, stalled, -, -, exactly⟩ := starts _ e refused
  exact ⟨names, e, taken, refused, stalled, (exactly sound).2⟩

/-- The launch fails, and the process collector stays behind in the registry. -/
theorem failed_launch_leaves_process : ∃ names w',
    perform (.system "s" (.fromSettings [] (some permissive) (some "shared") true)) crowded
        = .error (.namesTaken names) w'
      ∧ (crowded.site.registry ⟨0⟩).collectors = [⟨0⟩]
      ∧ (w'.site.registry ⟨0⟩).collectors = [⟨0⟩, ⟨1⟩] := by
  obtain ⟨names, w', failed, entered⟩ := launch_stalls crowded_opens crowded_room crowded_stalls "s"
  refine ⟨names, w', failed, ?_, ?_⟩
  · decide +kernel
  · rw [entered]
    decide +kernel

end Scenario

end Metering
