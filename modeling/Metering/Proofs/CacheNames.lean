import Metering.Proofs.RaisedFaults
import Metering.Proofs.SharedCacheCollector

/-!
# The names of attached caches

A name is taken in the whole system as soon as a cache has been attached under it, and until the
next shutdown that completes. Everything that can fail comes before the name is entered, so an
attachment that fails leaves no trace: names, shared collectors and attached caches tell exactly
which calls have attached what (`Ledger`, `Run.ledger`), in their order.
-/

namespace Metering

open Site Operation Metering.System

/-- The fault is not that the name of a cache is taken. -/
def Fault.Foreign (fault : Fault) : Prop := ∀ name, fault ≠ .cacheTaken name

namespace Site

lemma collect_foreign (k : CollectorId) : FailsOnly Fault.Foreign (collect k) :=
  collect_failsOnly (fun _ same => by cases same) (fun _ _ _ same => by cases same) k

lemma claimsOf_foreign (r : RegistryId) (k : CollectorId) :
    FailsOnly Fault.Foreign (claimsOf r k) := by
  refine FailsOnly.get.bind fun s => ?_
  split
  · exact .pure _
  · split
    · exact (collect_foreign k).bind fun _ => .pure _
    · exact .pure _

lemma hold_foreign (r : RegistryId) (k : CollectorId) : FailsOnly Fault.Foreign (hold r k) := by
  refine (claimsOf_foreign r k).bind fun names => FailsOnly.get.bind fun s => ?_
  dsimp only
  split
  · exact .modify _
  · exact .throw fun _ same => by cases same

lemma release_foreign (r : RegistryId) (k : CollectorId) :
    FailsOnly Fault.Foreign (release r k) :=
  release_failsOnly (fun _ same => by cases same) (fun _ _ same => by cases same) r k

end Site

namespace Roster

lemma register_foreign (r : Roster) (c : Category) (k : CollectorId) :
    FailsOnly Fault.Foreign (r.register c k) := by
  refine (familyNames_failsOnly (collect_foreign k)).bind fun names => ?_
  refine (partAll_failsOnly collect_foreign names _).bind fun ⟨displaced, kept⟩ => ?_
  refine FailsOnly.bind ?_ fun _ => FailsOnly.bind ?_ fun _ => .pure _
  · refine (FailsOnly.forM (release_foreign r.registry) _).bind fun _ => ?_
    refine (hold_foreign r.registry k).tryCatch fun fault foreign => ?_
    rw [restore]
    split
    · exact (FailsOnly.forM (hold_foreign r.registry) _).bind fun _ => .throw foreign
    · exact .throw foreign
  · intro s fault t h
    obtain ⟨u, reported, -⟩ := reportReplaced_ok c names displaced s
    rw [reported] at h
    cases h

end Roster

lemma System.enroll_foreign (c : Category) (x : Collector) :
    FailsOnly Fault.Foreign (enroll c x) := by
  intro d fault e h
  exact Roster.register_foreign _ c _ _ _ _ (refused_of_enroll h).2

/-- The caches of a collector, each with its name, in the order in which they were attached. -/
def Collector.attachments : Collector → List (String × CacheId)
  | .caches _ attached => attached.entries
  | _ => []

/-- The caches that are attached to the collector at a place. -/
def Site.attachedTo (s : Site) (k : CollectorId) : List (String × CacheId) :=
  (s.collector k).attachments

/-- No cache has been attached or detached. -/
def Deployment.KeepsCaches (d e : Deployment) : Prop :=
  ∀ k, e.site.attachedTo k = d.site.attachedTo k

instance : IsPreorder Deployment Deployment.KeepsCaches where
  refl _ _ := rfl
  trans _ _ _ hde hef k := (hef k).trans (hde k)

section Keeping

lemma Collector.attachments_of_gathers {x y : Collector} (h : x.Gathers y) :
    y.attachments = x.attachments := by
  have declared := h.declared
  cases x with
  | caches stem attached => exact absurd rfl (h.gathering stem attached)
  | _ => cases y <;> first | rfl | cases declared

namespace Site

lemma attachedTo_of_same {s t : Site} (h : t.collectors = s.collectors) (k : CollectorId) :
    t.attachedTo k = s.attachedTo k := by
  rw [attachedTo, attachedTo, collector, collector, h]

/-- Whatever takes the place of a collector with the same caches. -/
lemma attachedTo_withCollector {s : Site} {k : CollectorId} {x : Collector}
    (h : x.attachments = s.attachedTo k) (j : CollectorId) :
    (s.withCollector k x).attachedTo j = s.attachedTo j := by
  by_cases room : k.index < s.collectors.length
  · rw [attachedTo, collector_withCollector room]
    split
    · next same => rw [same, h]
    · rfl
  · rw [withCollector, List.set_eq_of_length_le (Nat.le_of_not_lt room)]

/-- A new collector comes without caches. -/
lemma attachedTo_withAdded {s : Site} {x : Collector} (bare : x.attachments = [])
    (k : CollectorId) : (s.withAdded x).attachedTo k = s.attachedTo k := by
  by_cases placed : k.index < s.collectors.length
  · rw [attachedTo, collector_withAdded_of_lt placed, attachedTo]
  · have absent : s.attachedTo k = [] := by
      rw [attachedTo, collector, List.getElem?_eq_none (Nat.le_of_not_lt placed)]
      rfl
    rw [absent, attachedTo, collector, withAdded, List.getElem?_append_right
      (Nat.le_of_not_lt placed)]
    cases k.index - s.collectors.length with
    | zero => exact bare
    | succ n => rfl

end Site

lemma System.enroll_keepsCaches (c : Category) {y : Collector} (bare : y.attachments = []) :
    Moves Deployment.KeepsCaches (enroll c y) := by
  intro d k
  rw [Site.attachedTo, (rearranged_enroll c y d).collector]
  exact Site.attachedTo_withAdded bare k

lemma Deployment.keepsCaches_steps : Steps KeepsCaches where
  noted s t quiet _ k := Site.attachedTo_of_same (by rw [quiet]) k
  gathered s k x gathers _ j :=
    Site.attachedTo_withCollector (Collector.attachments_of_gathers gathers) j
  reported _ _ _ _ := rfl
  issued _ _ _ _ := rfl
  remembered _ _ _ := rfl
  kept _ _ _ _ _ := rfl
  enrolled c y made := by
    refine enroll_keepsCaches c ?_
    cases y with
    | caches stem attached => exact absurd made id
    | _ => rfl

/-- Unless it attaches a cache or resets the system, a call changes nothing about caches. -/
lemma Moment.keeps {m : Moment} (others : ∀ c, ¬ m.call.Attaches c) (going : m.resets = false) :
    m.before.SameCaches m.after ∧ m.before.KeepsCaches m.after := by
  obtain ⟨d, call⟩ := m
  by_cases stopping : call = .shutdown
  · subst stopping
    constructor
    · have failed : returned ⟨d, .shutdown⟩ = false := by
        simpa [Moment.resets, Call.isShutdown] using going
      rw [returned, Call.perform, shutdown_eq] at failed
      rw [after_shutdown, shutdown_eq]
      cases h : d.system.roster.dismiss d.site with
      | ok x t =>
        rw [h] at failed
        cases failed
      | error fault t => exact ⟨rfl, rfl⟩
    · intro k
      rw [after_shutdown, Site.attachedTo, (rearranged_shutdown d).collector, Site.attachedTo]
  · refine ⟨Call.sameCaches others stopping d, ?_⟩
    exact call.moves Deployment.keepsCaches_steps (fun c name cache h => others c ⟨name, cache, h⟩)
      stopping d

end Keeping

/-- A cache that was attached: the category, the name and the cache. -/
structure Attachment where
  category : Category
  name : String
  cache : CacheId
  deriving DecidableEq

/-- The caches among the attachments that go to the shared collector of a category. -/
def Attachment.under (given : List Attachment) (c : Category) : List (String × CacheId) :=
  (given.filter fun a => a.category = c).map fun a => (a.name, a.cache)

/-- What the call attached: it returned, and its category was enabled. -/
def Moment.attachment? (m : Moment) : Option Attachment :=
  match m.call with
  | .attachCache c name cache =>
    if m.returned ∧ m.before.system.isEnabled c then some ⟨c, name, cache⟩ else none
  | _ => none

/-- What has been attached since the last shutdown that completed. -/
def attachments (ms : List Moment) : List Attachment :=
  (sinceReset ms).filterMap Moment.attachment?

lemma attachments_snoc (ms : List Moment) (m : Moment) :
    attachments (ms ++ [m])
      = if m.resets then [] else attachments ms ++ m.attachment?.toList := by
  rw [attachments, sinceReset_snoc]
  cases m.resets with
  | true => rfl
  | false =>
    rw [if_neg Bool.false_ne_true, if_neg Bool.false_ne_true, List.filterMap_append]
    cases h : m.attachment? <;> simp [attachments, h]

/-- The system remembers exactly what has been attached: the names in their order, and for each
category with attachments one collector, which has just these caches. -/
structure Ledger (given : List Attachment) (d : Deployment) : Prop where
  names : d.system.cacheNames.toList = given.map (·.name)
  shared : ∀ c k, d.system.shared.get? c = some k →
    d.site.attachedTo k = Attachment.under given c ∧ d.site.attachedTo k ≠ []
  unshared : ∀ c, d.system.shared.get? c = none → Attachment.under given c = []
  apart : ∀ c c' k, d.system.shared.get? c = some k → d.system.shared.get? c' = some k → c = c'

/-- One cache has been attached, after the others of the shared collector of its category; that one
is new and without caches if there was none before. -/
structure Deployment.Attached (d : Deployment) (c : Category) (name : String) (cache : CacheId)
    (e : Deployment) : Prop where
  names : e.system.cacheNames.toList = d.system.cacheNames.toList ++ [name]
  others : ∀ c', c' ≠ c → e.system.shared.get? c' = d.system.shared.get? c'
  here : ∃ k, e.system.shared.get? c = some k
    ∧ (d.system.shared.get? c = some k
      ∨ d.system.shared.get? c = none ∧ d.site.collectors.length ≤ k.index)
    ∧ e.site.attachedTo k = d.site.attachedTo k ++ [(name, cache)]
    ∧ ∀ j, j ≠ k → e.site.attachedTo j = d.site.attachedTo j

lemma Site.attachedTo_of_unplaced {s : Site} {k : CollectorId}
    (unplaced : s.collectors.length ≤ k.index) : s.attachedTo k = [] := by
  rw [attachedTo, collector, List.getElem?_eq_none unplaced]
  rfl

namespace Ledger

variable {given : List Attachment} {d e : Deployment} {c : Category} {name : String}
  {cache : CacheId}

lemma of_same (ledger : Ledger given d) (same : d.SameCaches e)
    (kept : ∀ c k, d.system.shared.get? c = some k → e.site.attachedTo k = d.site.attachedTo k) :
    Ledger given e where
  names := by rw [same.names, ledger.names]
  shared c k shared := by
    rw [same.shared] at shared
    rw [kept c k shared]
    exact ledger.shared c k shared
  unshared c unshared := by
    rw [same.shared] at unshared
    exact ledger.unshared c unshared
  apart c c' k here there := by
    rw [same.shared] at here there
    exact ledger.apart c c' k here there

/-- A shared collector is there. -/
lemma placed (ledger : Ledger given d) {k : CollectorId}
    (shared : d.system.shared.get? c = some k) : k.index < d.site.collectors.length := by
  by_contra unplaced
  exact (ledger.shared c k shared).2 (attachedTo_of_unplaced (Nat.le_of_not_lt unplaced))

/-- One more cache is one more attachment. -/
lemma attached (ledger : Ledger given d) (attached : d.Attached c name cache e) :
    Ledger (given ++ [⟨c, name, cache⟩]) e := by
  obtain ⟨k, shared, origin, own, frame⟩ := attached.here
  have before : d.site.attachedTo k = Attachment.under given c := by
    rcases origin with old | ⟨fresh, unplaced⟩
    · exact (ledger.shared c k old).1
    · rw [attachedTo_of_unplaced unplaced, ledger.unshared c fresh]
  have different : ∀ c', c' ≠ c → e.system.shared.get? c' ≠ some k := by
    intro c' other same
    rw [attached.others c' other] at same
    rcases origin with old | ⟨-, unplaced⟩
    · exact other (ledger.apart c' c k same old)
    · have placed := ledger.placed same
      omega
  have under : ∀ c', c' ≠ c → Attachment.under (given ++ [⟨c, name, cache⟩]) c'
      = Attachment.under given c' := by
    intro c' other
    simp [Attachment.under, Ne.symm other]
  refine ⟨?_, ?_, ?_, ?_⟩
  · rw [attached.names, ledger.names, List.map_append]
    rfl
  · intro c' k' now
    by_cases here : c' = c
    · subst here
      obtain rfl := Option.some.inj (shared.symm.trans now)
      rw [own, before]
      simp [Attachment.under]
    · have other : k' ≠ k := by
        rintro rfl
        exact different c' here now
      rw [attached.others c' here] at now
      rw [frame k' other, under c' here]
      exact ledger.shared c' k' now
  · intro c' unshared
    have other : c' ≠ c := by
      rintro rfl
      rw [shared] at unshared
      cases unshared
    rw [attached.others c' other] at unshared
    rw [under c' other, ledger.unshared c' unshared]
  · intro c₁ c₂ k' here there
    by_cases first : c₁ = c
    · by_cases second : c₂ = c
      · rw [first, second]
      · rw [first, shared] at here
        exact absurd (here ▸ there) (different c₂ second)
    · by_cases second : c₂ = c
      · rw [second, shared] at there
        exact absurd (there ▸ here) (different c₁ first)
      · rw [attached.others c₁ first] at here
        rw [attached.others c₂ second] at there
        exact ledger.apart c₁ c₂ k' here there

lemma fresh {enabled : Distinct Category} {timers : Bool} {r : RegistryId} {s : Site} :
    Ledger [] ⟨System.fresh enabled timers r, s⟩ where
  names := rfl
  shared c k shared := by cases shared
  unshared c _ := rfl
  apart c c' k shared := by cases shared

end Ledger

namespace Deployment

/-- The deployment in which a collector is remembered for a category. -/
def sharing (d : Deployment) (c : Category) (k : CollectorId) : Deployment :=
  { d with system := { d.system with shared := d.system.shared.put c k } }

/-- The deployment after a cache has been attached to a collector and its name has been taken. -/
def attaching (d : Deployment) (k : CollectorId) (name : String) (cache : CacheId) : Deployment :=
  ⟨{ d.system with cacheNames := d.system.cacheNames.insert name },
    endOf (attachTo k name cache d.site)⟩

end Deployment

section Attaching

variable {given : List Attachment} {d e m : Deployment} {c : Category} {name : String}
  {cache : CacheId} {k : CollectorId}

/-- All that attaching a cache can do: nothing under a category that is not enabled, refuse a name
that is taken, fail at the registration of the shared collector, or attach. -/
lemma System.attachCache_cases (c : Category) (name : String) (cache : CacheId) (d : Deployment) :
    (d.system.isEnabled c = false ∧ attachCache c name cache d = .ok () d)
      ∨ d.system.isEnabled c = true
        ∧ (name ∈ d.system.cacheNames ∧ attachCache c name cache d = .error (.cacheTaken name) d
          ∨ name ∉ d.system.cacheNames
            ∧ ((∃ k, d.system.shared.get? c = some k
                ∧ attachCache c name cache d = .ok () (d.attaching k name cache))
              ∨ d.system.shared.get? c = none
                ∧ ((∃ fault m, enroll c (.caches c.stem ∅) d = .error fault m
                    ∧ attachCache c name cache d = .error fault m)
                  ∨ ∃ m, enroll c (.caches c.stem ∅) d = .ok d.site.nextPlace m
                    ∧ attachCache c name cache d = .ok ()
                      ((m.sharing c d.site.nextPlace).attaching d.site.nextPlace name
                        cache)))) := by
  by_cases enabled : d.system.isEnabled c = true
  · refine Or.inr ⟨enabled, ?_⟩
    by_cases taken : name ∈ d.system.cacheNames
    · exact Or.inl ⟨taken, by rw [attachCache, bind_system, if_pos enabled, if_pos taken]; rfl⟩
    · refine Or.inr ⟨taken, ?_⟩
      rw [attachCache_eq enabled taken, attachShared_eq]
      rcases sharedCollector_cases c d with
        ⟨k, kept, run⟩ | ⟨none_kept, ⟨fault, m, failed, run⟩ | ⟨m, enrolled, run⟩⟩
      · exact Or.inl ⟨k, kept, by rw [run]; rfl⟩
      · exact Or.inr ⟨none_kept, Or.inl ⟨fault, m, failed, by rw [run]⟩⟩
      · exact Or.inr ⟨none_kept, Or.inr ⟨m, enrolled, by rw [run]; rfl⟩⟩
  · refine Or.inl ⟨by simpa using enabled, ?_⟩
    rw [attachCache, bind_system, if_neg enabled]
    rfl

/-- A cache with a new name goes after the others of its collector. -/
lemma Deployment.attachedTo_attaching {stem : String} {attached : Index String CacheId}
    (cache : CacheId) (caches : d.site.collector k = .caches stem attached)
    (new : name ∉ attached) :
    (d.attaching k name cache).site.attachedTo k = d.site.attachedTo k ++ [(name, cache)]
      ∧ ∀ j, j ≠ k → (d.attaching k name cache).site.attachedTo j = d.site.attachedTo j := by
  have placed : k.index < d.site.collectors.length := by
    by_contra unplaced
    rw [collector, List.getElem?_eq_none (Nat.le_of_not_lt unplaced)] at caches
    cases caches
  constructor
  · rw [attachedTo, attachedTo, attaching, collector_attachTo placed caches, caches]
    exact Index.entries_put_of_not_mem cache new
  · intro j other
    rw [attachedTo, attachedTo, attaching, attachTo, modify_ok, endOf]
    simp only [caches]
    rw [collector_withCollector placed, if_neg other]

/-- Nobody is attached under a name that is not taken. -/
lemma Ledger.unattached (ledger : Ledger given d) (new : name ∉ d.system.cacheNames)
    (shared : d.system.shared.get? c = some k) :
    ∃ stem attached, d.site.collector k = .caches stem attached ∧ name ∉ attached := by
  obtain ⟨entries, some_attached⟩ := ledger.shared c k shared
  rw [attachedTo] at entries some_attached
  cases caches : d.site.collector k with
  | caches stem attached =>
    refine ⟨stem, attached, rfl, ?_⟩
    intro member
    obtain ⟨entry, there, rfl⟩ := List.mem_map.mp (Index.mem_def.mp member)
    rw [caches] at entries
    change attached.entries = _ at entries
    rw [entries, Attachment.under, List.mem_map] at there
    obtain ⟨a, ha, rfl⟩ := there
    refine new (Distinct.mem_def.mpr ?_)
    rw [ledger.names]
    exact List.mem_map_of_mem (List.mem_of_mem_filter ha)
  | _ =>
    rw [caches] at some_attached
    exact absurd rfl some_attached

/-- An attachment that returns under an enabled category attaches the cache. -/
lemma Ledger.attached_of_ok (ledger : Ledger given d) (enabled : d.system.isEnabled c = true)
    (returned : attachCache c name cache d = .ok () e) : d.Attached c name cache e := by
  rcases attachCache_cases c name cache d with ⟨disabled, -⟩ | ⟨-, ⟨-, run⟩ |
    ⟨new, ⟨k, shared, run⟩ | ⟨unshared, ⟨fault, m, -, run⟩ | ⟨m, enrolled, run⟩⟩⟩⟩
  · rw [enabled] at disabled
    cases disabled
  · rw [run] at returned
    cases returned
  · rw [run] at returned
    cases returned
    obtain ⟨stem, attached, caches, unattached⟩ := ledger.unattached new shared
    exact ⟨Distinct.toList_insert_of_not_mem new, fun _ _ => rfl, k, shared, Or.inl shared,
      Deployment.attachedTo_attaching cache caches unattached⟩
  · rw [run] at returned
    cases returned
  · rw [run] at returned
    cases returned
    have same := (enroll_sameCaches c _).of_ok enrolled
    have kept : d.KeepsCaches m := (enroll_keepsCaches c rfl).of_ok enrolled
    have made : m.site.collector d.site.nextPlace = .caches c.stem ∅ := by
      have added := collector_enroll c (.caches c.stem ∅) d
      rwa [enrolled] at added
    have unattached : name ∉ (∅ : Index String CacheId) := List.not_mem_nil
    have attached := Deployment.attachedTo_attaching (d := m.sharing c d.site.nextPlace) cache made
      unattached
    refine ⟨?_, ?_, d.site.nextPlace, Index.get?_put_self _ _ _, Or.inr ⟨unshared, Nat.le_refl _⟩,
      ?_, ?_⟩
    · change (m.system.cacheNames.insert name).toList = _
      rw [same.names]
      exact Distinct.toList_insert_of_not_mem new
    · intro c' other
      refine (Index.get?_put _ _ _ _).trans ?_
      rw [if_neg other, same.shared]
    · rw [attached.1]
      exact congrArg (· ++ _) (kept d.site.nextPlace)
    · intro j other
      rw [attached.2 j other]
      exact kept j

/-- An attachment that fails leaves everything about caches as it was. It is refused for the name
only if the name is taken, and then nothing at all has happened. -/
lemma System.kept_of_attachCache_error {fault : Fault}
    (failed : attachCache c name cache d = .error fault e) :
    d.SameCaches e ∧ d.KeepsCaches e
      ∧ (fault = .cacheTaken name ∧ e = d ∧ d.system.isEnabled c = true
          ∧ name ∈ d.system.cacheNames
        ∨ fault.Foreign ∧ name ∉ d.system.cacheNames) := by
  rcases attachCache_cases c name cache d with ⟨-, run⟩ | ⟨enabled, ⟨taken, run⟩ |
    ⟨new, ⟨k, -, run⟩ | ⟨-, ⟨fault, m, refused, run⟩ | ⟨m, -, run⟩⟩⟩⟩
  all_goals
    rw [run] at failed
    cases failed
  · exact ⟨Std.Refl.refl _, Std.Refl.refl _, Or.inl ⟨rfl, rfl, enabled, taken⟩⟩
  · exact ⟨(enroll_sameCaches c _).of_error refused, (enroll_keepsCaches c rfl).of_error refused,
      Or.inr ⟨enroll_foreign c _ _ _ _ refused, new⟩⟩

end Attaching

namespace Moment

variable {m : Moment} {given : List Attachment} {c : Category} {name : String} {cache : CacheId}
  {k : CollectorId}

lemma attachment?_eq_some_iff {a : Attachment} : m.attachment? = some a
    ↔ m.call = .attachCache a.category a.name a.cache ∧ m.returned = true
      ∧ m.before.system.isEnabled a.category = true := by
  obtain ⟨d, call⟩ := m
  cases call with
  | attachCache c name cache =>
    simp only [attachment?]
    constructor
    · intro attached
      split at attached
      · next conditions =>
        cases attached
        exact ⟨rfl, conditions⟩
      · cases attached
    · rintro ⟨same, conditions⟩
      cases same
      rw [if_pos conditions]
  | _ => simp [attachment?]

/-- What the system remembers of caches goes along with the attachments. -/
lemma ledger (ledger : Ledger given m.before) :
    Ledger (if m.resets then [] else given ++ m.attachment?.toList) m.after := by
  cases resets : m.resets with
  | true =>
    obtain ⟨t, ends⟩ := reset_of_resets resets
    rw [if_pos rfl, ends]
    exact Ledger.fresh
  | false =>
    rw [if_neg Bool.false_ne_true]
    by_cases attaching : ∃ c, m.call.Attaches c
    · obtain ⟨c, name, cache, call⟩ := attaching
      cases run : attachCache c name cache m.before with
      | error fault e =>
        have performed : m.call.perform m.before = .error fault e := by rw [call]; exact run
        obtain ⟨after, failed⟩ := after_of_error performed
        have none_attached : m.attachment? = none := by
          simp [attachment?, call, failed]
        obtain ⟨same, kept, -⟩ := kept_of_attachCache_error run
        rw [after, none_attached, Option.toList_none, List.append_nil]
        exact ledger.of_same same fun c k _ => kept k
      | ok x e =>
        have performed : m.call.perform m.before = .ok () e := by rw [call]; exact run
        obtain ⟨after, returned⟩ := after_of_ok performed
        rw [after]
        by_cases enabled : m.before.system.isEnabled c = true
        · rw [attachment?_eq_some_iff (a := ⟨c, name, cache⟩).mpr ⟨call, returned, enabled⟩]
          exact ledger.attached (ledger.attached_of_ok enabled run)
        · have none_attached : m.attachment? = none := by
            simp [attachment?, call, enabled]
          rw [none_attached, Option.toList_none, List.append_nil]
          rcases attachCache_cases c name cache m.before with ⟨-, still⟩ | ⟨on, -⟩
          · rw [still] at run
            cases run
            exact ledger
          · exact absurd on enabled
    · obtain ⟨same, kept⟩ := m.keeps (not_exists.mp attaching) resets
      have none_attached : m.attachment? = none := by
        cases h : m.attachment? with
        | none => rfl
        | some a =>
          obtain ⟨call, -⟩ := attachment?_eq_some_iff.mp h
          exact absurd ⟨a.category, a.name, a.cache, call⟩ attaching
      rw [none_attached, Option.toList_none, List.append_nil]
      exact ledger.of_same same fun c k _ => kept k

/-- The cache collector that a call registers is the one that is remembered. -/
lemma shared_of_registers (tidy : m.before.system.roster.Tidy m.before.site)
    (attaches : m.call.Attaches c) (registered : m.Registers c k) :
    m.after.system.shared.get? c = some k := by
  obtain ⟨late, listed⟩ := registered
  have unlisted : k ∉ m.before.listed c := by
    intro old
    have placed := tidy.placed old
    omega
  obtain ⟨name, cache, call⟩ := attaches
  have ends : m.after = endOf (attachCache c name cache m.before) := by rw [after, call]; rfl
  rw [ends] at listed ⊢
  rcases attachCache_cases c name cache m.before with ⟨-, run⟩ | ⟨-, ⟨-, run⟩ |
    ⟨-, ⟨j, -, run⟩ | ⟨-, ⟨fault, d, refused, run⟩ | ⟨d, enrolled, run⟩⟩⟩⟩
  · rw [run] at listed
    exact absurd listed unlisted
  · rw [run] at listed
    exact absurd listed unlisted
  · rw [run] at listed
    exact absurd listed unlisted
  · rw [run] at listed
    rw [endOf, Deployment.listed, (refused_of_enroll refused).1] at listed
    exact absurd listed unlisted
  · rw [run] at listed ⊢
    have own : k ∈ (endOf (enroll c (.caches c.stem ∅) m.before)).listed c := by
      rw [enrolled]
      exact listed
    rcases listed_of_enroll own with old | ⟨-, rfl⟩
    · exact absurd old unlisted
    · exact Index.get?_put_self _ _ _

/-- A shared collector stays the one until a shutdown that completes. -/
lemma shared_stays (going : m.resets = false) (shared : m.before.system.shared.get? c = some k) :
    m.after.system.shared.get? c = some k := by
  by_cases attaching : ∃ c', m.call.Attaches c'
  · obtain ⟨c', name, cache, call⟩ := attaching
    have ends : m.after = endOf (attachCache c' name cache m.before) := by rw [after, call]; rfl
    rw [ends]
    rcases attachCache_cases c' name cache m.before with ⟨-, run⟩ | ⟨-, ⟨-, run⟩ |
      ⟨-, ⟨j, -, run⟩ | ⟨unshared, ⟨fault, d, refused, run⟩ | ⟨d, enrolled, run⟩⟩⟩⟩
    · rwa [run]
    · rwa [run]
    · rwa [run]
    · rw [run, endOf, ((enroll_sameCaches c' _).of_error refused).shared, shared]
    · have other : c ≠ c' := by
        rintro rfl
        rw [unshared] at shared
        cases shared
      rw [run]
      refine (Index.get?_put _ _ _ _).trans ?_
      rw [if_neg other, ((enroll_sameCaches c' _).of_ok enrolled).shared, shared]
  · rw [(m.keeps (not_exists.mp attaching) going).1.shared, shared]

end Moment

/-- The site has gone on without touching the caches of the remembered collectors. -/
structure Deployment.SparesCaches (d : Deployment) (t : Site) : Prop where
  grows : d.site.Grows t
  attached : ∀ c k, d.system.shared.get? c = some k → t.attachedTo k = d.site.attachedTo k

namespace Run

variable {start d : Deployment} {ms : List Moment}

/-- After any run the system remembers exactly what has been attached. -/
lemma ledger (run : Run Deployment.SparesCaches start ms d) (first : Ledger [] start) :
    Ledger (attachments ms) d := by
  induction run with
  | start => exact first
  | @call ms d _ call ih =>
    rw [attachments_snoc]
    exact Moment.ledger ih
  | others _ spares ih => exact ih.of_same ⟨rfl, rfl⟩ spares.attached

/-- All cache collectors that were registered for one category since the last completed shutdown
are the one that is remembered. -/
lemma shared_of_registers (run : Run Deployment.SparesCaches start ms d)
    (first : start.system.roster.Tidy start.site) {m : Moment} (hm : m ∈ sinceReset ms)
    {c : Category} {k : CollectorId} (attaches : m.call.Attaches c) (registered : m.Registers c k) :
    d.system.shared.get? c = some k := by
  induction run with
  | start => exact absurd hm List.not_mem_nil
  | @call ms d run call ih =>
    rw [sinceReset_snoc] at hm
    cases resets : Moment.resets ⟨d, call⟩ with
    | true =>
      rw [resets] at hm
      exact absurd hm List.not_mem_nil
    | false =>
      rw [resets, if_neg Bool.false_ne_true] at hm
      rcases List.mem_append.mp hm with old | new
      · exact Moment.shared_stays resets (ih old)
      · obtain rfl := List.mem_singleton.mp new
        exact Moment.shared_of_registers (run.tidy (fun _ _ h => h.grows) first) attaches registered
  | others _ _ ih => exact ih hm

end Run

/-- After any run, attaching a cache is refused for its name exactly if the category is enabled and
a cache has been attached under that name since the last shutdown that completed. An attachment that
fails, for whatever reason, changes neither the names nor the shared collectors nor any attached
cache; one that returns under an enabled category attaches one cache after the others. So the system
remembers exactly what has been attached, and one cache collector for each category at most. -/
theorem cache_names_since_reset {enabled : Distinct Category} {timers : Bool} {r : RegistryId}
    {s : Site} {ms : List Moment} {d : Deployment}
    (run : Run Deployment.SparesCaches ⟨fresh enabled timers r, s⟩ ms d) :
    Ledger (attachments ms) d
      ∧ (∀ m ∈ sinceReset ms, ∀ c k, m.call.Attaches c → m.Registers c k →
        d.system.shared.get? c = some k)
      ∧ ∀ c name cache,
        (attachCache c name cache d = .error (.cacheTaken name) d
          ↔ d.system.isEnabled c = true ∧ ∃ m ∈ sinceReset ms, ∃ c' cache',
            m.call = .attachCache c' name cache' ∧ m.returned = true
              ∧ m.before.system.isEnabled c' = true)
        ∧ (∀ fault e, attachCache c name cache d = .error fault e →
          d.SameCaches e ∧ d.KeepsCaches e
            ∧ ∀ taken, fault = .cacheTaken taken → taken = name ∧ e = d)
        ∧ ∀ e, attachCache c name cache d = .ok () e → d.system.isEnabled c = true →
          d.Attached c name cache e := by
  have ledger := run.ledger Ledger.fresh
  refine ⟨ledger, fun m hm c k => run.shared_of_registers (tidy_vacant r s) hm, ?_⟩
  intro c name cache
  have taken : name ∈ d.system.cacheNames ↔ ∃ m ∈ sinceReset ms, ∃ c' cache',
      m.call = .attachCache c' name cache' ∧ m.returned = true
        ∧ m.before.system.isEnabled c' = true := by
    rw [Distinct.mem_def, ledger.names, List.mem_map]
    constructor
    · rintro ⟨a, ha, rfl⟩
      obtain ⟨m, hm, made⟩ := List.mem_filterMap.mp ha
      exact ⟨m, hm, a.category, a.cache, Moment.attachment?_eq_some_iff.mp made⟩
    · rintro ⟨m, hm, c', cache', made⟩
      exact ⟨⟨c', name, cache'⟩,
        List.mem_filterMap.mpr ⟨m, hm, Moment.attachment?_eq_some_iff.mpr made⟩, rfl⟩
  rw [← taken]
  refine ⟨⟨?_, ?_⟩, ?_, fun e returned enabled => ledger.attached_of_ok enabled returned⟩
  · intro refused
    obtain ⟨-, -, ⟨-, -, enabled, member⟩ | ⟨foreign, -⟩⟩ := kept_of_attachCache_error refused
    · exact ⟨enabled, member⟩
    · exact absurd rfl (foreign name)
  · rintro ⟨enabled, member⟩
    rcases attachCache_cases c name cache d with ⟨disabled, -⟩ | ⟨-, ⟨-, run⟩ | ⟨new, -⟩⟩
    · rw [enabled] at disabled
      cases disabled
    · exact run
    · exact absurd member new
  · intro fault e failed
    obtain ⟨same, kept, why⟩ := kept_of_attachCache_error failed
    refine ⟨same, kept, fun taken own => ?_⟩
    rcases why with ⟨named, still, -⟩ | ⟨foreign, -⟩
    · exact ⟨Fault.cacheTaken.inj (own.symm.trans named), still⟩
    · exact absurd own (foreign taken)

/-- A cache, a shutdown, and another cache. -/
def cachesAcrossReset : List Call :=
  [.attachCache ⟨"shop", none⟩ "first" ⟨0⟩, .shutdown, .attachCache ⟨"shop", none⟩ "second" ⟨0⟩]

theorem cache_names_since_reset_again :
    attachCache ⟨"shop", none⟩ "second" ⟨0⟩ (reached .caching cachesAcrossReset)
        = .error (.cacheTaken "second") (reached .caching cachesAcrossReset)
      ∧ ∃ e, attachCache ⟨"shop", none⟩ "first" ⟨0⟩ (reached .caching cachesAcrossReset) = .ok () e
        ∧ (reached .caching cachesAcrossReset).Attached ⟨"shop", none⟩ "first" ⟨0⟩ e := by
  obtain ⟨-, -, attach⟩ :=
    cache_names_since_reset (Run.of_calls Deployment.SparesCaches .caching cachesAcrossReset)
  constructor
  · refine (attach ⟨"shop", none⟩ "second" ⟨0⟩).1.mpr ⟨rfl, ?_⟩
    exact ⟨_, List.mem_cons_self, ⟨"shop", none⟩, ⟨0⟩, rfl, rfl, rfl⟩
  · exact ⟨_, rfl, (attach ⟨"shop", none⟩ "first" ⟨0⟩).2.2 _ rfl rfl⟩

end Metering
