import Metering.Proofs.CacheNames
import Metering.Proofs.CollectionQuestions
import Metering.Proofs.ExactReplacement
import Metering.Proofs.LastingDeclarations

/-!
# Whom a registration collects

A registration collects the new collector and the listed ones of its category once, for their names.
A registry that describes then collects the new one a second time, and if it refuses it, each rival
that it takes back (`Roster.polled`); instruments bring their names with them and are never
collected for a registry. So a call that registers a collector with suppliers or caches collects
nobody but that one and its category, each of them once or twice (`attempt_collects`).
-/

namespace Metering

open Site Operation Metering.System

/-- The collector is an instrument, whose names are known without collecting it. -/
def Collector.isInstrument : Collector → Bool
  | .instrument _ => true
  | _ => false

namespace Site

/-- The registry has to collect the collector to learn its names. -/
def polls (s : Site) (i : RegistryId) (k : CollectorId) : Bool :=
  (s.registry i).describes && !(s.collector k).isInstrument

/-- The second site differs from the first at most in its records and in what one registry holds,
and the collectors have been collected in between, one after the other. -/
structure Polled (s : Site) (i : RegistryId) (ks : List CollectorId) (t : Site) : Prop
    extends Rearranged i s t where
  describes : (t.registry i).describes = (s.registry i).describes
  activity : t.activity = s.activity ++ ks.flatMap s.visit

section Polling

variable {i : RegistryId} {j k : CollectorId} {js ks : List CollectorId} {s t u : Site}
  {names : List String}

lemma polls_iff : s.polls i k = true
    ↔ (s.registry i).describes = true ∧ (s.collector k).isInstrument = false := by
  simp [polls]

namespace Polled

lemma visit (polled : s.Polled i ks t) : t.visit = s.visit := by
  funext k
  rw [Site.visit, Site.visit, polled.collector]

lemma polls (polled : s.Polled i ks t) : t.polls i = s.polls i := by
  funext k
  rw [Site.polls, Site.polls, polled.describes, polled.collector]

lemma refl (s : Site) (i : RegistryId) : s.Polled i [] s :=
  ⟨Std.Refl.refl s, rfl, (List.append_nil _).symm⟩

lemma trans (first : s.Polled i ks t) (next : t.Polled i js u) : s.Polled i (ks ++ js) u := by
  refine ⟨IsTrans.trans _ _ _ first.toRearranged next.toRearranged,
    next.describes.trans first.describes, ?_⟩
  rw [next.activity, first.visit, first.activity, List.flatMap_append, List.append_assoc]

/-- What collects nobody goes unnoticed. -/
lemma silent (first : s.Polled i ks t) (next : t.Polled i [] u) : s.Polled i ks u := by
  simpa using first.trans next

end Polled

instance (i : RegistryId) : IsPreorder Site (Polled · i []) where
  refl s := Polled.refl s i
  trans _ _ _ first next := first.silent next

lemma polled_withRegistry {r : Registry} (same : r.describes = (s.registry i).describes) :
    s.Polled i [] (s.withRegistry i r) := by
  refine ⟨withRegistry_rearranged i s r, ?_, (List.append_nil _).symm⟩
  by_cases room : i.index < s.registries.length
  · rw [registry_withRegistry_self room, same]
  · rw [withRegistry, List.set_eq_of_length_le (Nat.le_of_not_lt room)]

lemma polled_of_collect {families : List Family} (collected : collect k s = .ok families t) :
    s.Polled i [k] t := by
  refine ⟨((collect_moves k).of_ok collected).rearranged, ?_, ?_⟩
  · rw [(collect_moves k).of_ok collected]
    rfl
  · rw [collect_noted collected, List.flatMap_singleton]
    rfl

lemma polled_of_claims (claimed : claimsOf i k s = .ok names t) :
    s.Polled i ([k].filter (s.polls i)) t := by
  by_cases described : ∃ x, s.collector k = .instrument x
  · obtain ⟨x, instrument⟩ := described
    rw [claimsOf_instrument instrument] at claimed
    cases claimed
    have known : s.polls i k = false := by simp [Site.polls, instrument, Collector.isInstrument]
    rw [List.filter_singleton, known]
    exact Polled.refl s i
  · rw [(claimsOf_collected (not_exists.mp described)).1] at claimed
    have plain : (s.collector k).isInstrument = false := by
      cases found : s.collector k with
      | instrument x => exact absurd ⟨x, found⟩ described
      | _ => rfl
    rw [List.filter_singleton, Site.polls, plain, Bool.not_false, Bool.and_true]
    by_cases describes : (s.registry i).describes
    · rw [if_pos describes] at claimed
      obtain ⟨families, u, collected, rest⟩ := ok_of_bind_ok claimed
      cases rest
      rw [describes]
      exact polled_of_collect collected
    · rw [if_neg describes] at claimed
      cases claimed
      rw [Bool.eq_false_iff.mpr describes]
      exact Polled.refl s i

/-- Whether the collector is held or refused, it has been collected at most for its names. -/
lemma polled_hold (claimed : claimsOf i k s = .ok names t) :
    s.Polled i ([k].filter (s.polls i)) (endOf (hold i k s)) := by
  have asked := polled_of_claims claimed
  rw [hold_of_claims claimed]
  split
  · exact asked.silent (polled_withRegistry rfl)
  · exact asked

lemma polled_of_hold (held : hold i k s = .ok () t) : s.Polled i ([k].filter (s.polls i)) t := by
  obtain ⟨names, u, claimed, -⟩ := ok_of_bind_ok held
  have polled := polled_hold claimed
  rwa [held] at polled

lemma polled_of_holdAll (held : holdAll i ks s = .ok () t) :
    s.Polled i (ks.filter (s.polls i)) t := by
  induction ks generalizing s with
  | nil =>
    cases held
    exact Polled.refl _ i
  | cons k ks ih =>
    obtain ⟨⟨⟩, u, first, rest⟩ := ok_of_bind_ok held
    have own := polled_of_hold first
    have others := ih rest
    rw [own.polls] at others
    rw [← List.singleton_append, List.filter_append]
    exact own.trans others

/-- A release collects nobody, however it ends. -/
lemma release_polled (i : RegistryId) (k : CollectorId) : Moves (Polled · i []) (release i k) := by
  intro s
  rw [release, bind_get]
  cases held : (s.registry i).held.get? k with
  | none => exact Polled.refl s i
  | some names =>
    dsimp only
    rcases Registry.free names (s.registry i).owners with ⟨_ | missing, owners⟩
    · exact polled_withRegistry rfl
    · exact polled_withRegistry rfl

lemma polled_of_partAll {known : Distinct String} {parts : List CollectorId × List CollectorId}
    (parted : Roster.partAll known ks s = .ok parts t) : s.Polled i ks t := by
  induction ks generalizing s parts with
  | nil =>
    cases parted
    exact Polled.refl _ i
  | cons k ks ih =>
    obtain ⟨own, u, named, rest⟩ := ok_of_bind_ok parted
    obtain ⟨families, u', collected, ends⟩ := ok_of_bind_ok named
    cases ends
    obtain ⟨others, v, later, ends⟩ := ok_of_bind_ok rest
    cases ends
    exact (polled_of_collect collected).trans (ih later)

end Polling

end Site

namespace Roster

variable {r r' : Roster} {c : Category} {j k : CollectorId} {s t : Site} {fault : Fault}

/-- Whom a registration collects, in order: for the lists, and then for the registry. -/
def polled (r : Roster) (s : Site) (c : Category) (k : CollectorId) (refused : Bool) :
    List CollectorId :=
  k :: r.ofCategory c
    ++ (if refused then k :: r.rivals s c k else [k]).filter (s.polls r.registry)

lemma polled_of_survey {parts : List CollectorId × List CollectorId}
    (surveyed : r.survey c k s = .ok parts t) : s.Polled r.registry (k :: r.ofCategory c) t := by
  obtain ⟨names, u, named, parted⟩ := ok_of_bind_ok surveyed
  obtain ⟨families, u', collected, ends⟩ := ok_of_bind_ok named
  cases ends
  exact (polled_of_collect collected).trans (polled_of_partAll parted)

/-- A survey and a release collect those that are surveyed. -/
lemma polled_of_released {displaced kept : List CollectorId} {u : Site}
    (surveyed : r.survey c k s = .ok (displaced, kept) u)
    (released : releaseAll r.registry displaced u = .ok () t) :
    s.Polled r.registry (k :: r.ofCategory c) t :=
  (polled_of_survey surveyed).silent ((Moves.forM (release_polled r.registry) _).of_ok released)

/-- A registration that goes through collects the new collector for the registry too. -/
lemma activity_of_register_ok (ok : r.register c k s = .ok r' t) :
    t.activity = s.activity ++ (r.polled s c k false).flatMap s.visit := by
  obtain ⟨names, u, named, rest⟩ := ok_of_bind_ok ok
  obtain ⟨⟨displaced, kept⟩, v, parted, -⟩ := ok_of_bind_ok rest
  have surveyed : r.survey c k s = .ok (displaced, kept) v := (bind_of_ok named _).trans parted
  obtain ⟨through, stopped⟩ := register_of_survey_ok surveyed
  cases exchanged : exchange r.registry displaced k v with
  | error fault w =>
    rw [stopped fault w exchanged] at ok
    cases ok
  | ok x w =>
    obtain ⟨t', registered, same⟩ := through w exchanged
    rw [registered] at ok
    cases ok
    obtain ⟨w', released, held⟩ := exchanged_of_ok exchanged
    have before := polled_of_released surveyed released
    have entered := polled_of_hold held
    rw [before.polls] at entered
    rw [same]
    exact (before.trans entered).activity

/-- A registration that is refused also collects the rivals that the registry takes back. -/
lemma Sound.activity_of_register_error (sound : r.Sound s) (nameable : (s.collector k).Nameable)
    (failed : r.register c k s = .error fault t) :
    t.activity = s.activity ++ (r.polled s c k true).flatMap s.visit := by
  obtain ⟨names, u, v, w, rfl, surveyed, released, refused, restored⟩ :=
    sound.restored_of_register_error nameable failed
  have before := polled_of_released surveyed released
  -- the registry learns the names before it refuses them, so the new collector counts here too
  obtain ⟨claims, u', claimed⟩ := claimsOf_succeeds (r := r.registry)
    (before.calm sound.calm) (by rw [before.collector]; exact nameable)
  have kept_out := polled_hold claimed
  rw [refused, before.polls] at kept_out
  have polled : s.Polled r.registry _ w := before.trans kept_out
  have back := polled_of_holdAll restored
  rw [polled.polls] at back
  have all := (polled.trans back).activity
  rwa [List.append_assoc, ← List.filter_append] at all

lemma count_filter_eq_ite {α : Type} [DecidableEq α] (p : α → Bool) (l : List α) (a : α) :
    (l.filter p).count a = if p a then l.count a else 0 := by
  split
  · next passes => exact List.count_filter passes
  · next fails =>
    exact List.count_eq_zero_of_not_mem fun member => fails (List.mem_filter.mp member).2

/-- The new collector and the listed ones are collected once for the lists; of the new one and of
the rivals that are taken back, the registry has those collected that it has to. -/
lemma count_polled (nodup : (r.ofCategory c).Nodup) (refused : Bool) (j : CollectorId) :
    (r.polled s c k refused).count j
      = (if k = j then 1 else 0) + (if j ∈ r.ofCategory c then 1 else 0)
        + if s.polls r.registry j then
            (if k = j then 1 else 0) + if refused ∧ j ∈ r.rivals s c k then 1 else 0
          else 0 := by
  have listed : (r.ofCategory c).count j = if j ∈ r.ofCategory c then 1 else 0 := nodup.count
  have rivals : (r.rivals s c k).count j = if j ∈ r.rivals s c k then 1 else 0 :=
    (nodup.filter _).count
  have again : (if refused then k :: r.rivals s c k else [k]).count j
      = (if k = j then 1 else 0) + if refused ∧ j ∈ r.rivals s c k then 1 else 0 := by
    cases refused with
    | false => simp [List.count_singleton]
    | true => simp [List.count_cons, rivals, Nat.add_comm]
  rw [polled, List.count_append, count_filter_eq_ite, again, List.count_cons, listed,
    Nat.add_comm (ite _ _ _)]
  simp only [beq_iff_eq]

end Roster

/-- How often each collector is collected while a new one is registered under a category: the new
one twice if the registry describes, and else once; a listed one of the category once, and once more
if the new one is refused by a registry that describes and takes this one back, which is no
instrument; nobody else. -/
structure Deployment.Collects (d : Deployment) (c : Category) (x : Collector) (refused : Bool)
    (ks : List CollectorId) : Prop where
  new : ks.count d.site.nextPlace = if d.registry.describes then 2 else 1
  listed : ∀ j ∈ d.listed c, ks.count j
    = if refused ∧ d.registry.describes ∧ x.Shares (d.site.collector j)
        ∧ (d.site.collector j).isInstrument = false then 2 else 1
  others : ∀ j, j ≠ d.site.nextPlace → j ∉ d.listed c → ks.count j = 0

namespace System

variable {c : Category} {x : Collector} {d m e : Deployment} {k : CollectorId} {fault : Fault}

lemma collects_polled (tidy : d.system.roster.Tidy d.site) (plain : x.isInstrument = false)
    (refused : Bool) : d.Collects c x refused
      (d.system.roster.polled (d.site.withAdded x) c d.site.nextPlace refused) := by
  have count := Roster.count_polled (s := d.site.withAdded x) (k := d.site.nextPlace)
    (tidy.nodup c) refused
  have absent : d.site.nextPlace ∉ d.listed c := not_listed_nextPlace tidy c
  have registry : (d.site.withAdded x).registry d.system.roster.registry = d.registry := rfl
  constructor
  · have asked : (d.site.withAdded x).polls d.system.roster.registry d.site.nextPlace
        = d.registry.describes := by
      rw [Site.polls, registry, collector_withAdded, plain, Bool.not_false, Bool.and_true]
    have fresh : ¬ (refused = true ∧ d.site.nextPlace
        ∈ d.system.roster.rivals (d.site.withAdded x) c d.site.nextPlace) :=
      fun again => absent (Roster.mem_rivals.mp again.2).1
    rw [count, if_pos rfl, if_neg absent, asked, if_neg fresh]
    split <;> rfl
  · intro j listed
    have old := collector_withAdded_of_lt (x := x) (tidy.placed listed)
    have different : d.site.nextPlace ≠ j := fun same => absent (same ▸ listed)
    rw [count, if_neg different, if_pos listed]
    simp only [polls_iff, registry, Roster.mem_rivals, collector_withAdded, old]
    grind
  · intro j different unlisted
    have spared : ¬ (refused = true
        ∧ j ∈ d.system.roster.rivals (d.site.withAdded x) c d.site.nextPlace) :=
      fun again => unlisted (Roster.mem_rivals.mp again.2).1
    rw [count, if_neg different.symm, if_neg unlisted, if_neg spared, Nat.add_zero, ite_self]

lemma activity_of_enroll_ok (enrolled : enroll c x m = .ok k e) :
    e.site.activity = m.site.activity
      ++ (m.system.roster.polled (m.site.withAdded x) c m.site.nextPlace false).flatMap
        (m.site.withAdded x).visit := by
  obtain ⟨rfl, registered⟩ := registered_of_enroll enrolled
  exact Roster.activity_of_register_ok registered

/-- An enrolment fails only because a name is taken. -/
lemma activity_of_enroll_error (sound : m.Sound) (nameable : x.Nameable)
    (failed : enroll c x m = .error fault e) :
    (∃ names, fault = .namesTaken names) ∧ e.site.activity = m.site.activity
      ++ (m.system.roster.polled (m.site.withAdded x) c m.site.nextPlace true).flatMap
        (m.site.withAdded x).visit := by
  obtain ⟨taken, -, added, named, refused⟩ := refusal_of_enroll sound nameable failed
  exact ⟨taken, added.activity_of_register_error named refused⟩

end System

namespace Call

/-- The collector with suppliers or caches that the call is about to register, with its category:
that must be enabled, and for a cache, whose name must be new, it must have no cache collector
yet. -/
def attempt? (d : Deployment) : Call → Option Offer
  | gauge c name help supplier =>
    if d.system.isEnabled c then some (c, .gauge (c.external name) help supplier) else none
  | summary c name help supplier =>
    if d.system.isEnabled c then some (c, .summary (c.external name) help supplier) else none
  | supplied kind c name help labels =>
    if d.system.isEnabled c then some (c, .supplied ⟨kind, c.external name, help, labels, ∅⟩)
    else none
  | attachCache c name _ =>
    if d.system.isEnabled c ∧ name ∉ d.system.cacheNames ∧ d.system.shared.get? c = none then
      some (c, .caches c.stem ∅)
    else none
  | _ => none

/-- The category under which the call creates a metric. -/
def under? : Call → Option Category
  | labelled _ c .. | single _ c .. | supplied _ c .. | gauge c .. | summary c .. => some c
  | attachCache c .. => some c
  | _ => none

section Attempting

variable {call : Call} {c : Category} {x : Collector} {d : Deployment}

lemma plain_of_attempt (attempts : call.attempt? d = some (c, x)) : x.isInstrument = false := by
  cases call <;> simp only [attempt?, Option.ite_none_right_eq_some, reduceCtorEq] at attempts <;>
    (obtain ⟨-, ⟨⟩⟩ := attempts; rfl)

/-- The call goes as the enrolment of the collector goes on the same site with the same lists, and
asks nobody besides. -/
structure Enrolling (call : Call) (c : Category) (x : Collector) (d m : Deployment) : Prop where
  site : m.site = d.site
  roster : m.system.roster = d.system.roster
  enrolled : ∀ k e, enroll c x m = .ok k e →
    ∃ f, call.perform d = .ok () f ∧ e.site.Unasked f.site
  failed : ∀ fault e, enroll c x m = .error fault e → call.perform d = .error fault e

lemma enrolling_of_backed {family : String} (backed : call.backed? = some (c, family))
    (offered : call.offers = [(c, x)]) (enabled : d.system.isEnabled c = true) :
    ∃ m, call.Enrolling c x d m := by
  obtain ⟨y, m, offers, -, -, aside, site, switch, goes⟩ := goesAs_backed backed d
  rw [offered] at offers
  cases offers
  refine ⟨m, site, aside.roster, fun k e enrolled => ?_, goes.failed (switch.trans enabled)⟩
  obtain ⟨f, run, unasked⟩ := goes.enrolled (switch.trans enabled) k e enrolled
  exact ⟨f, run, unasked.site⟩

/-- The first cache of a category comes with the cache collector. -/
lemma enrolling_of_attachCache {name : String} (cache : CacheId)
    (enabled : d.system.isEnabled c = true) (new : name ∉ d.system.cacheNames)
    (none_kept : d.system.shared.get? c = none) :
    (attachCache c name cache).Enrolling c (.caches c.stem ∅) d d := by
  rcases attachCache_cases c name cache d with
    ⟨off, -⟩ | ⟨-, ⟨taken, -⟩ | ⟨-, ⟨k, kept, -⟩ | ⟨-, made⟩⟩⟩
  · rw [enabled] at off
    cases off
  · exact absurd taken new
  · rw [none_kept] at kept
    cases kept
  · refine ⟨rfl, rfl, fun k e enrolled => ?_, fun fault e failed => ?_⟩
    · rcases made with ⟨fault, m, failed, -⟩ | ⟨m, enrolled', run⟩
      · rw [failed] at enrolled
        cases enrolled
      · rw [enrolled] at enrolled'
        cases enrolled'
        exact ⟨_, run, attachTo_unasked name _ cache e.site⟩
    · rcases made with ⟨fault', m, failed', run⟩ | ⟨m, enrolled, -⟩
      · rw [failed] at failed'
        cases failed'
        exact run
      · rw [failed] at enrolled
        cases enrolled

lemma enrolling_of_attempt (attempts : call.attempt? d = some (c, x)) :
    ∃ m, call.Enrolling c x d m := by
  cases call with
  | gauge | summary =>
    simp only [attempt?, Option.ite_none_right_eq_some] at attempts
    obtain ⟨enabled, ⟨⟩⟩ := attempts
    exact enrolling_of_backed rfl rfl enabled
  | supplied kind c' name help labels =>
    simp only [attempt?, Option.ite_none_right_eq_some] at attempts
    obtain ⟨enabled, ⟨⟩⟩ := attempts
    cases kind <;> exact enrolling_of_backed rfl rfl enabled
  | attachCache c' name cache =>
    simp only [attempt?, Option.ite_none_right_eq_some] at attempts
    obtain ⟨⟨enabled, new, none_kept⟩, ⟨⟩⟩ := attempts
    exact ⟨d, enrolling_of_attachCache cache enabled new none_kept⟩
  | _ => cases attempts

/-- What a call collects that registers a collector with suppliers or caches, and that it fails only
because a name is taken. -/
lemma collects_of_attempt (sound : d.Sound) (attempts : call.attempt? d = some (c, x))
    (nameable : x.Nameable) : ∃ ks e,
      e.site.activity = d.site.activity ++ ks.flatMap (d.site.withAdded x).visit
      ∧ (call.perform d = .ok () e ∧ d.Collects c x false ks
        ∨ ∃ names, call.perform d = .error (.namesTaken names) e ∧ d.Collects c x true ks) := by
  obtain ⟨⟨system, site⟩, rfl, same, goes, fails⟩ := enrolling_of_attempt attempts
  have collects := collects_polled (c := c) sound.tidy (plain_of_attempt attempts)
  have still : Deployment.Sound ⟨system, d.site⟩ :=
    ⟨same ▸ sound.tidy, same ▸ sound.backed, sound.calm⟩
  cases run : enroll c x ⟨system, d.site⟩ with
  | ok k e =>
    obtain ⟨f, performed, unasked⟩ := goes k e run
    have noted := activity_of_enroll_ok run
    rw [same] at noted
    exact ⟨_, f, unasked.trans noted, Or.inl ⟨performed, collects false⟩⟩
  | error fault e =>
    obtain ⟨⟨names, rfl⟩, noted⟩ := activity_of_enroll_error still nameable run
    rw [same] at noted
    exact ⟨_, e, noted, Or.inr ⟨names, fails _ e run, collects true⟩⟩

end Attempting

section Disabled

variable {call : Call} {kind : InstrumentKind} {c : Category} {d : Deployment}

lemma build_unasked_of_off (external help : String) (labels : List String)
    (off : d.system.records kind c = false) :
    d.Unasked (endOf (build kind c external help labels d)) := by
  rw [build, bind_system, off]
  exact ((ofAction_unasked (report_aside _) fun _ => rfl).bind fun _ => issue_unasked _ _ _) d

/-- An instrument that does not record asks nobody when it is created. -/
lemma labelled_unasked_of_off (name help : String) (labels : List String)
    (off : d.system.records kind c = false) :
    d.Unasked (endOf (System.labelled kind c name help labels d)) := by
  have first : d.Unasked (d.declaring (kind == .counter) name) :=
    (declareName_unasked name (kind == .counter)).of_ok (declareName_eq _ name d)
  rw [labelled_eq]
  cases (d.system.handles kind).get? (c.external name) with
  | some h => exact first
  | none =>
    have built := build_unasked_of_off (c.external name) help labels
      ((d.declaring_records (kind == .counter) name kind c).trans off)
    simp only [buildKept_eq]
    cases run : build kind c (c.external name) help labels
        (d.declaring (kind == .counter) name) with
    | ok h e =>
      rw [run] at built
      have kept := change_unasked (f := fun s => s.keep kind (c.external name) h)
        (fun s => by cases kind <;> rfl) e
      exact IsTrans.trans _ _ _ (IsTrans.trans _ _ _ first built) kept
    | error fault e =>
      rw [run] at built
      exact IsTrans.trans _ _ _ first built

/-- A call that creates a metric under a category that is not enabled asks nobody. -/
lemma unasked_of_disabled (creates : call.under? = some c) (off : d.system.isEnabled c = false) :
    d.site.Unasked (Moment.after ⟨d, call⟩).site := by
  have silent : ∀ kind : InstrumentKind, d.system.records kind c = false := by
    intro kind
    cases kind <;> simp [System.records, off]
  have declared : ∀ family, call.backed? = some (c, family) →
      d.site.Unasked (Moment.after ⟨d, call⟩).site := by
    intro family backed
    obtain ⟨y, m, -, -, -, -, site, switch, goes⟩ := goesAs_backed backed d
    obtain ⟨e, run, unasked⟩ := goes.off (switch.trans off)
    rw [(Moment.after_of_ok (m := ⟨d, call⟩) run).1, ← site]
    exact unasked.site
  cases call with
  | gauge | summary =>
    cases creates
    exact declared _ rfl
  | supplied kind =>
    cases creates
    cases kind <;> exact declared _ rfl
  | attachCache c' name cache =>
    cases creates
    rcases attachCache_cases c name cache d with ⟨-, run⟩ | ⟨on, -⟩
    · rw [(Moment.after_of_ok (m := ⟨d, .attachCache c name cache⟩) run).1]
      exact Std.Refl.refl _
    · rw [off] at on
      cases on
  | labelled kind c' name help labels =>
    cases creates
    rw [Moment.after_discard rfl]
    exact (labelled_unasked_of_off name help labels (silent kind)).site
  | single kind c' name help =>
    cases creates
    rw [Moment.after_discard rfl]
    have first := labelled_unasked_of_off name help [] (silent kind)
    rw [System.single]
    cases run : System.labelled kind c name help [] d with
    | ok h e =>
      rw [run] at first
      rw [bind_of_ok run]
      have taken := ofAction_unasked (h.labels_aside kind.childKind [])
        (labels_unasked h kind.childKind []) e
      exact (IsTrans.trans _ _ _ first taken).site
    | error fault e =>
      rw [run] at first
      rw [bind_of_error run]
      exact first.site
  | _ => cases creates

end Disabled

end Call

section Runs

variable {enabled : Distinct Category} {timers : Bool} {r : RegistryId} {s : Site}
  {ms : List Moment} {d : Deployment}

/-- In every state that a system reaches while no supplier raises: a call that registers a new
collector with suppliers or caches collects that one and the listed ones of its category as often as
`Deployment.Collects` says, and fails, if at all, because a name is taken; a collector that is
collected asks each of its suppliers once, or looks once into each of its caches; and a call that
creates a metric under a category that is not enabled asks nobody. -/
theorem attempt_collects (room : r.index < s.registries.length) (calm : s.Calm)
    (run : Run (fun d t => d.Spared t ∧ t.Calm) ⟨fresh enabled timers r, s⟩ ms d) :
    (∀ call c x, Call.attempt? d call = some (c, x) → x.Nameable → ∃ ks e,
        e.site.activity = d.site.activity ++ ks.flatMap (d.site.withAdded x).visit
        ∧ (call.perform d = .ok () e ∧ d.Collects c x false ks
          ∨ ∃ names, call.perform d = .error (.namesTaken names) e ∧ d.Collects c x true ks))
      ∧ (∀ t : Site, t.Calm → ∀ k, (t.collector k).Nameable →
        ∃ families, collect k t = .ok families (t.noting (t.visit k)))
      ∧ ∀ call c, Call.under? call = some c → d.system.isEnabled c = false →
        (Moment.after ⟨d, call⟩).site.activity = d.site.activity := by
  have sound := run.sound (sound_fresh room calm)
  refine ⟨fun call c x => Call.collects_of_attempt sound, fun t calm k => collect_of_calm calm, ?_⟩
  intro call c creates off
  exact Call.unasked_of_disabled creates off

/-- Two gauges; the second has a sample name of a counter that is called like the first. -/
def twoGauges : List Call :=
  [.gauge ⟨"shop", none⟩ "jobs" "h" ⟨0⟩, .gauge ⟨"shop", none⟩ "jobs_total" "h" ⟨0⟩]

/-- A system after those calls. -/
def gauged : Deployment := reached (.small [⟨"shop", none⟩]) twoGauges

/-- The counter is refused because of the second gauge, and the first one is taken back: the counter
and the first gauge are collected twice, the second gauge once. -/
theorem attempt_collects_refused :
    (⟨0⟩ : RegistryId).index < Site.small.registries.length ∧ Site.small.Calm
      ∧ (∃ names, ∃ ks : List CollectorId, ∃ e,
        Call.perform (.supplied .counter ⟨"shop", none⟩ "jobs" "h" []) gauged
            = .error (.namesTaken names) e
          ∧ e.site.activity = gauged.site.activity
            ++ ks.flatMap (gauged.site.withAdded
              (.supplied ⟨.counter, "shop_jobs", "h", [], ∅⟩)).visit
          ∧ ks.count ⟨2⟩ = 2 ∧ ks.count ⟨0⟩ = 2 ∧ ks.count ⟨1⟩ = 1)
      ∧ (∃ families, collect ⟨0⟩ gauged.site
          = .ok families (gauged.site.noting [.collected ⟨0⟩, .asked ⟨0⟩]))
      ∧ (Moment.after ⟨gauged, .gauge ⟨"bank", none⟩ "jobs" "h" ⟨0⟩⟩).site.activity
        = gauged.site.activity := by
  have run : Run (fun d t => d.Spared t ∧ t.Calm) (.small [⟨"shop", none⟩]) _ gauged :=
    Run.of_calls _ _ twoGauges
  have sound := run.sound (sound_fresh (by decide) Site.small_calm)
  have named : (Family.counterStem "shop_jobs") ≠ "" := by decide +kernel
  obtain ⟨attempts, collected, disabled⟩ := attempt_collects (by decide) Site.small_calm run
  refine ⟨by decide, Site.small_calm, ?refused, ?collected, ?disabled⟩
  case refused =>
    obtain ⟨ks, e, activity, ⟨ok, -⟩ | ⟨names, failed, collects⟩⟩ := attempts
      (.supplied .counter ⟨"shop", none⟩ "jobs" "h" []) ⟨"shop", none⟩ _ rfl named
    · cases ok
    · exact ⟨names, ks, e, failed, activity, collects.new,
        collects.listed ⟨0⟩ (by decide +kernel), collects.listed ⟨1⟩ (by decide +kernel)⟩
  case collected =>
    exact collected _ sound.calm ⟨0⟩ (sound.tidy.nameable (c := ⟨"shop", none⟩) (by decide +kernel))
  case disabled => exact disabled _ ⟨"bank", none⟩ rfl (by decide +kernel)

end Runs

end Metering
