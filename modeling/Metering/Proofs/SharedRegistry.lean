import Metering.Proofs.QuietSteps
import Metering.Proofs.RegistryRecords

/-!
# Systems that share a registry

A system takes out of its registry only what it lists, and it lists only what it has made. So
however the calls of several systems are mixed, failing ones and shutdowns among them, none of them
touches what another system has made: it stays in the registry with its names, and in its order
(`neighbours_undisturbed`). What carries this is that whatever a system has made and the registry
holds owns all of its names, each of them once (`Registry.Tenured`).
-/

namespace Metering

open Site Metering.System

namespace Registry

/-- Of the given collectors the registry says the same: who is held with which names, who owns a
name, and in which order they were entered. -/
structure Spares (theirs : CollectorId → Bool) (r r' : Registry) : Prop where
  held : ∀ k, theirs k = true → r'.held.get? k = r.held.get? k
  owners : ∀ name k, theirs k = true →
    (r'.owners.get? name = some k ↔ r.owners.get? name = some k)
  order : r'.collectors.filter theirs = r.collectors.filter theirs

instance (theirs : CollectorId → Bool) : IsPreorder Registry (Spares theirs) where
  refl _ := ⟨fun _ _ => rfl, fun _ _ _ => Iff.rfl, rfl⟩
  trans _ _ _ h h' :=
    ⟨fun k hk => (h'.held k hk).trans (h.held k hk),
      fun name k hk => (h'.owners name k hk).trans (h.owners name k hk),
      h'.order.trans h.order⟩

lemma Spares.fewer {theirs some_of_them : CollectorId → Bool} {r r' : Registry}
    (h : Spares theirs r r') (sub : ∀ k, some_of_them k = true → theirs k = true) :
    Spares some_of_them r r' := by
  refine ⟨fun k hk => h.held k (sub k hk), fun name k hk => h.owners name k (sub k hk), ?_⟩
  have both : ∀ ks : List CollectorId, ks.filter some_of_them
      = (ks.filter theirs).filter some_of_them := by
    intro ks
    rw [List.filter_filter]
    refine List.filter_congr fun k _ => ?_
    cases his : some_of_them k with
    | true => rw [sub k his]; rfl
    | false => rfl
  rw [both r'.collectors, both r.collectors, h.order]

/-- Whatever of the given collectors is held owns its names, each of them once. -/
def Tenured (mine : CollectorId → Bool) (r : Registry) : Prop :=
  ∀ k names, mine k = true → r.held.get? k = some names → r.Holds k names

lemma Tenured.fewer {mine some_of_them : CollectorId → Bool} {r : Registry} (h : Tenured mine r)
    (sub : ∀ k, r.held.get? k ≠ none → some_of_them k = true → mine k = true) :
    Tenured some_of_them r := fun k names hk held =>
  h k names (sub k (by simp [held]) hk) held

/-- Collectors that are spared keep their tenure. -/
lemma Tenured.spared {theirs : CollectorId → Bool} {r r' : Registry} (h : Tenured theirs r)
    (spares : r.Spares theirs r') : Tenured theirs r' := by
  intro k names hk held
  rw [spares.held k hk] at held
  have before := h k names hk held
  refine ⟨(spares.held k hk).trans held, before.nodup, ?_⟩
  exact fun name hname => (spares.owners name k hk).mpr (before.owned name hname)

section Moving

variable {mine : CollectorId → Bool} {r : Registry} {k : CollectorId} {names : List String}

lemma Tenured.enter (h : Tenured mine r) (nodup : names.Nodup)
    (free : ∀ name ∈ names, r.owners.get? name = none) : Tenured mine (r.enter k names) := by
  intro j others hj held
  by_cases same : j = k
  · subst same
    rw [get?_held_enter, if_pos rfl] at held
    obtain rfl := Option.some.inj held
    exact holds_enter nodup
  · rw [get?_held_enter, if_neg same] at held
    exact (h j others hj held).enter_other same free

lemma spares_enter (own : mine k = true) (free : ∀ name ∈ names, r.owners.get? name = none) :
    r.Spares (fun j => !mine j) (r.enter k names) := by
  refine ⟨fun j hj => ?_, fun name j hj => ?_, ?_⟩
  · rw [get?_held_enter, if_neg]
    rintro rfl
    simp [own] at hj
  · rw [get?_owners_enter]
    split
    · next taken =>
      rw [free name taken]
      refine iff_of_false (fun same => ?_) (by simp)
      obtain rfl := Option.some.inj same
      simp [own] at hj
    · exact Iff.rfl
  · by_cases again : k ∈ r.held
    · exact congrArg (List.filter _) (Index.keys_put_of_mem names again)
    · refine (congrArg (List.filter _) (Index.keys_put_of_not_mem names again)).trans ?_
      simp [own, collectors]

/-- The registry after a collector has been taken out with its names. -/
lemma tenured_release (h : Tenured mine r) (own : mine k = true) (holds : r.Holds k names)
    {rest : Index String CollectorId} (freed : free names r.owners = (none, rest)) :
    let r' : Registry := { r with held := r.held.erase k, owners := rest }
    Tenured mine r' ∧ r.Spares (fun j => !mine j) r' := by
  intro r'
  have without : r.Without r' [k] names :=
    ⟨rfl, fun j => by simp [r', Index.get?_erase], get?_free freed⟩
  refine ⟨?_, fun j hj => ?_, fun name j hj => ?_, ?_⟩
  · intro j others hj held
    have different : j ≠ k := by
      rintro rfl
      simp [without.held] at held
    rw [without.held, if_neg (by simpa using different)] at held
    have before := h j others hj held
    refine before.without without (by simpa using different) ?_
    exact fun name hname gone => different (before.apart holds hname gone)
  · rw [without.held, if_neg]
    rw [List.mem_singleton]
    rintro rfl
    simp [own] at hj
  · rw [without.owners]
    split
    · next gone =>
      rw [holds.owned name gone]
      refine iff_of_false (by simp) (fun same => ?_)
      obtain rfl := Option.some.inj same
      simp [own] at hj
    · exact Iff.rfl
  · change (r.held.erase k).keys.filter _ = r.held.keys.filter _
    rw [Index.keys_erase, List.filter_filter]
    refine List.filter_congr fun j _ => ?_
    by_cases same : j = k
    · simp [same, own]
    · simp [same]

end Moving

end Registry

namespace Site

variable {i : RegistryId} {mine : CollectorId → Bool} {ks displaced : List CollectorId}
  {k : CollectorId} {s t u : Site}

/-- Only one registry has changed. If the given collectors claim no name twice, those that are mine
keep their tenure in it, the others are spared, and nobody has come but the given ones. -/
def Confined (i : RegistryId) (mine : CollectorId → Bool) (ks : List CollectorId)
    (s t : Site) : Prop :=
  Rearranged i s t
    ∧ ((∀ k ∈ ks, ∀ describes, ((s.collector k).claims describes).Nodup) →
      (s.registry i).Tenured mine →
        (t.registry i).Tenured mine ∧ (s.registry i).Spares (fun k => !mine k) (t.registry i)
          ∧ ∀ k ∈ (t.registry i).held, k ∈ (s.registry i).held ∨ k ∈ ks)

instance (i : RegistryId) (mine : CollectorId → Bool) (ks : List CollectorId) :
    IsPreorder Site (Confined i mine ks) where
  refl s := ⟨Std.Refl.refl s, fun _ h => ⟨h, Std.Refl.refl _, fun _ => Or.inl⟩⟩
  trans s t u := by
    rintro ⟨frame, first⟩ ⟨frame', second⟩
    refine ⟨IsTrans.trans _ _ _ frame frame', fun nodup tenured => ?_⟩
    obtain ⟨tenured, spares, came⟩ := first nodup tenured
    obtain ⟨tenured, spares', came'⟩ := second (by simpa only [frame.collector] using nodup) tenured
    refine ⟨tenured, IsTrans.trans _ _ _ spares spares', fun k hk => ?_⟩
    rcases came' k hk with earlier | given
    · exact came k earlier
    · exact Or.inr given

lemma Rearranged.confined (frame : Rearranged i s t) (same : t.registry i = s.registry i) :
    Confined i mine ks s t := by
  refine ⟨frame, fun _ tenured => ?_⟩
  rw [same]
  exact ⟨tenured, Std.Refl.refl _, fun _ => Or.inl⟩

lemma OnlyActivity.confined (h : OnlyActivity s t) : Confined i mine ks s t :=
  h.rearranged.confined (by rw [h]; rfl)

lemma hold_confined (given : k ∈ ks) (own : mine k = true) :
    Moves (Confined i mine ks) (hold i k) := by
  intro s
  cases h : hold i k s with
  | error fault t => exact (quiet_of_hold_error h).confined
  | ok x t =>
    obtain ⟨u, quiet, rfl, free⟩ := hold_ok h
    refine IsTrans.trans _ _ _ quiet.confined
      ⟨withRegistry_rearranged i u _, fun nodup tenured => ?_⟩
    have same : u.registry i = s.registry i := by rw [quiet]; rfl
    have known : u.collector k = s.collector k := by rw [quiet]; rfl
    change Registry.Tenured mine ((u.withRegistry i _).registry i) ∧ _
    rcases registry_withRegistry_or u i ((s.registry i).enter k
        ((s.collector k).claims (s.registry i).describes)) with now | unchanged
    · rw [endOf, now, same]
      rw [same] at tenured
      refine ⟨tenured.enter (by rw [← known]; exact nodup k given _) free,
        Registry.spares_enter own free, fun j hj => ?_⟩
      refine (Index.mem_put.mp hj).imp_right ?_
      rintro rfl
      exact given
    · rw [endOf, unchanged]
      exact ⟨tenured, Std.Refl.refl _, fun _ => Or.inl⟩

lemma release_confined (own : mine k = true) : Moves (Confined i mine ks) (release i k) := by
  intro s
  refine ⟨release_moves i k s, fun _ tenured => ?_⟩
  cases held : (s.registry i).held.get? k with
  | none =>
    have refused : release i k s = .error .notHeld s := by
      rw [release, bind_get]
      simp only [held]
      rfl
    rw [refused]
    exact ⟨tenured, Std.Refl.refl _, fun _ => Or.inl⟩
  | some names =>
    have holds := tenured k names own held
    obtain ⟨run, freed⟩ := release_of_holds holds
    rw [run, endOf, registry_withRegistry_self (room_of_held held)]
    obtain ⟨tenured, spares⟩ := Registry.tenured_release tenured own holds freed
    exact ⟨tenured, spares, fun j hj => Or.inl (Index.mem_erase.mp hj).1⟩

end Site

namespace Roster

variable {r : Roster} {c : Category} {k : CollectorId} {displaced ks : List CollectorId}
  {mine : CollectorId → Bool} {i : RegistryId}

/-- A registration is confined to the new collector and those listed under its category. -/
lemma register_confined (own : mine k = true) (owned : ∀ j ∈ r.ofCategory c, mine j = true) :
    Moves (Confined r.registry mine (k :: r.ofCategory c)) (register r c k) := by
  intro s
  have rival : ∀ j ∈ r.rivals s c k, j ∈ r.ofCategory c := fun j hj => (mem_rivals.mp hj).1
  refine register_along (fun h => ?_) (fun j hj => release_confined (owned j (rival j hj))) ?_
  · exact Rearranged.confined ⟨by rw [h], by rw [h], fun _ _ => by rw [h]; rfl⟩ (by rw [h]; rfl)
  · refine List.forall_mem_cons.mpr ⟨hold_confined List.mem_cons_self own, fun j hj => ?_⟩
    exact hold_confined (List.mem_cons_of_mem k (rival j hj)) (owned j (rival j hj))

lemma dismiss_confined (owned : ∀ j ∈ r.collectors, mine j = true) :
    Moves (Confined r.registry mine []) r.dismiss := by
  refine (Moves.forM_of_mem fun j hj => release_confined (owned j hj)).bind fun _ => ?_
  exact Moves.modify fun _ => Rearranged.confined ⟨rfl, rfl, fun _ _ => rfl⟩ rfl

end Roster

namespace Deployment

/-- Whatever the system lists is mine, has its place and claims no name twice, what is mine and held
owns its names, and nothing is held that the site does not have. -/
structure Tenant (mine : CollectorId → Bool) (d : Deployment) : Prop where
  own : ∀ {c k}, k ∈ d.listed c → mine k = true
  placed : ∀ {c k}, k ∈ d.listed c → k.index < d.site.collectors.length
  nodup : ∀ {c k}, k ∈ d.listed c → ∀ describes, ((d.site.collector k).claims describes).Nodup
  tenured : d.registry.Tenured mine
  housed : ∀ k ∈ d.registry.held, k.index < d.site.collectors.length

/-- The system is on the same registry, which has spared the others, and no other registry has
changed. -/
structure Respects (mine : CollectorId → Bool) (d e : Deployment) : Prop where
  registry : e.system.roster.registry = d.system.roster.registry
  elsewhere : ∀ r, r ≠ d.system.roster.registry → e.site.registry r = d.site.registry r
  spares : d.registry.Spares (fun k => !mine k) e.registry

instance (mine : CollectorId → Bool) : IsPreorder Deployment (Respects mine) where
  refl _ := ⟨rfl, fun _ _ => rfl, Std.Refl.refl _⟩
  trans d e f h h' := by
    refine ⟨h'.registry.trans h.registry, fun r hr => ?_, IsTrans.trans _ _ _ h.spares h'.spares⟩
    rw [h'.elsewhere r (by rw [h.registry]; exact hr), h.elsewhere r hr]

variable {mine : CollectorId → Bool} {d e m : Deployment} {c : Category} {y : Collector}
  {offers : List Offer}

/-- A collector that has its place claims the same names after the site has grown. -/
lemma nodup_grows {s t : Site} (grows : s.Grows t) {k : CollectorId}
    (placed : k.index < s.collectors.length)
    (nodup : ∀ describes, ((s.collector k).claims describes).Nodup) (describes : Bool) :
    ((t.collector k).claims describes).Nodup := by
  rw [Collector.claims_congr (grows.declared k placed)]
  exact nodup describes

lemma Tenant.aside (tenant : d.Tenant mine) (h : d.Aside e) :
    e.Tenant mine ∧ d.Respects mine e := by
  have same : e.registry = d.registry := by
    rw [registry, h.roster, h.site.registry]
  have listed : ∀ c, e.listed c = d.listed c := fun c => by rw [Deployment.listed, h.roster]
  have room := h.site.grows.room
  refine ⟨⟨?_, ?_, ?_, ?_, ?_⟩, ⟨by rw [h.roster], fun r _ => h.site.registry r, ?_⟩⟩
  · intro c k hk
    rw [listed] at hk
    exact tenant.own hk
  · intro c k hk
    rw [listed] at hk
    exact Nat.lt_of_lt_of_le (tenant.placed hk) room
  · intro c k hk
    rw [listed] at hk
    exact nodup_grows h.site.grows (tenant.placed hk) (tenant.nodup hk)
  · rw [same]
    exact tenant.tenured
  · rw [same]
    exact fun k hk => Nat.lt_of_lt_of_le (tenant.housed k hk) room
  · rw [same]
    exact Std.Refl.refl _

/-- Enrolling a collector that is mine, and claims no name twice, disturbs nobody. -/
lemma Tenant.enroll (tenant : m.Tenant mine) (own : mine m.site.nextPlace = true)
    (nodup : ∀ describes, (y.claims describes).Nodup) :
    (endOf (System.enroll c y m)).Tenant mine ∧ m.Respects mine (endOf (System.enroll c y m)) := by
  let s := m.site.withAdded y
  let k := m.site.nextPlace
  let e := endOf (System.enroll c y m)
  have aside := withAdded_aside m.site y
  have grows := grows_enroll c y m
  have moved := rearranged_enroll c y m
  have registry := registry_enroll c y m
  have next := nextPlace_lt_enroll c y m
  have same : s.registry m.system.roster.registry = m.registry := aside.registry _
  have claims : ∀ j ∈ k :: m.listed c, ∀ describes, ((s.collector j).claims describes).Nodup := by
    intro j hj
    rcases List.mem_cons.mp hj with rfl | listed
    · rw [collector_withAdded]
      exact nodup
    · exact nodup_grows aside.grows (tenant.placed listed) (tenant.nodup listed)
  have confined : Confined m.system.roster.registry mine (k :: m.listed c) s e.site := by
    have moves := Roster.register_confined (r := m.system.roster) (c := c) own fun _ => tenant.own
    rcases endOf_enroll c y m with ⟨roster, t, h, ends⟩ | ⟨fault, t, h, ends⟩
    · rw [show e = _ from ends]
      exact moves.of_ok h
    · rw [show e = _ from ends]
      exact moves.of_error h
  have tenured : (s.registry m.system.roster.registry).Tenured mine := same ▸ tenant.tenured
  obtain ⟨tenured, spares, came⟩ := confined.2 claims tenured
  rw [same] at spares came
  have now : e.registry = e.site.registry m.system.roster.registry := by
    rw [Deployment.registry, registry]
  refine ⟨⟨?_, ?_, ?_, ?_, ?_⟩, ⟨registry, fun r hr => ?_, ?_⟩⟩
  · intro c' j hj
    rcases listed_of_enroll hj with old | ⟨-, rfl⟩
    · exact tenant.own old
    · exact own
  · intro c' j hj
    rcases listed_of_enroll hj with old | ⟨-, rfl⟩
    · exact Nat.lt_of_lt_of_le (tenant.placed old) grows.room
    · exact next
  · intro c' j hj
    rcases listed_of_enroll hj with old | ⟨-, rfl⟩
    · exact nodup_grows grows (tenant.placed old) (tenant.nodup old)
    · rw [collector_enroll]
      exact nodup
  · rw [now]
    exact tenured
  · intro j hj
    rw [now] at hj
    rcases came j hj with before | given
    · exact Nat.lt_of_lt_of_le (tenant.housed j before) grows.room
    · rcases List.mem_cons.mp given with rfl | listed
      · exact next
      · exact Nat.lt_of_lt_of_le (tenant.placed listed) grows.room
  · rw [moved.others r hr]
    exact aside.registry r
  · rw [now]
    exact spares

lemma Tenant.enrols (tenant : d.Tenant mine) (h : Enrols Deployment.Aside offers d e)
    (nodup : ∀ o ∈ offers, ∀ describes, (o.2.claims describes).Nodup)
    (late : ∀ k, d.site.collectors.length ≤ k.index → mine k = true) :
    e.Tenant mine ∧ d.Respects mine e := by
  induction h with
  | rest h => exact tenant.aside h
  | leave _ ih => exact ih tenant (fun o ho => nodup o (List.mem_cons_of_mem _ ho)) late
  | @take c x y offers d m e before declared _ ih =>
    obtain ⟨tenant, first⟩ := tenant.aside before
    have claims : ∀ describes, (y.claims describes).Nodup := by
      intro describes
      have own := nodup _ List.mem_cons_self describes
      rwa [← declared, Collector.claims_declared] at own
    obtain ⟨tenant, second⟩ :=
      tenant.enroll (c := c) (late _ before.site.grows.room) claims
    obtain ⟨tenant, third⟩ := ih tenant (fun o ho => nodup o (List.mem_cons_of_mem _ ho))
      fun k hk => late k (Nat.le_trans (Nat.le_trans before.site.grows.room
        (grows_enroll c y m).room) hk)
    exact ⟨tenant, IsTrans.trans _ _ _ (IsTrans.trans _ _ _ first second) third⟩

lemma Tenant.shutdown (tenant : d.Tenant mine) :
    (endOf (System.shutdown d)).Tenant mine ∧ d.Respects mine (endOf (System.shutdown d)) := by
  let e := endOf (System.shutdown d)
  have moved := rearranged_shutdown d
  have roster := roster_shutdown d
  have registry : e.system.roster.registry = d.system.roster.registry := by rw [roster]; rfl
  have unlisted : ∀ {c k}, k ∉ e.listed c := by
    intro c k hk
    rw [Deployment.listed, roster] at hk
    exact absurd hk List.not_mem_nil
  have confined : Confined d.system.roster.registry mine [] d.site e.site := by
    have dismissed : Moves (Confined d.system.roster.registry mine []) d.system.roster.dismiss := by
      refine Roster.dismiss_confined fun j hj => ?_
      obtain ⟨c, listed⟩ := Roster.mem_collectors.mp hj
      exact tenant.own listed
    have ended := dismissed d.site
    change Confined _ _ _ _ (endOf (System.shutdown d)).site
    rw [shutdown_eq]
    cases h : d.system.roster.dismiss d.site with
    | ok x t =>
      rw [h] at ended
      exact IsTrans.trans _ _ _ ended (Rearranged.confined ⟨rfl, rfl, fun _ _ => rfl⟩ rfl)
    | error fault t =>
      rw [h] at ended
      exact ended
  obtain ⟨tenured, spares, came⟩ :=
    confined.2 (fun _ h => absurd h List.not_mem_nil) tenant.tenured
  have now : e.registry = e.site.registry d.system.roster.registry := by
    rw [Deployment.registry, registry]
  refine ⟨⟨fun hk => absurd hk unlisted, fun hk => absurd hk unlisted,
    fun hk => absurd hk unlisted, ?_, ?_⟩, ⟨registry, moved.others, ?_⟩⟩
  · rw [now]
    exact tenured
  · intro k hk
    rw [now] at hk
    rcases came k hk with before | none_given
    · exact Nat.lt_of_lt_of_le (tenant.housed k before) moved.grows.room
    · exact absurd none_given List.not_mem_nil
  · rw [now]
    exact spares

/-- A tenant stays one on a site that has grown, if the registry has spared what is his. -/
lemma Tenant.grows {b : System} {s u : Site} (tenant : Tenant mine ⟨b, s⟩) (grows : s.Grows u)
    (spares : (s.registry b.roster.registry).Spares mine (u.registry b.roster.registry))
    (housed : ∀ k ∈ (u.registry b.roster.registry).held, k.index < u.collectors.length) :
    Tenant mine ⟨b, u⟩ where
  own := tenant.own
  placed hk := Nat.lt_of_lt_of_le (tenant.placed hk) grows.room
  nodup hk := nodup_grows grows (tenant.placed hk) (tenant.nodup hk)
  tenured := tenant.tenured.spared spares
  housed := housed

/-- Whatever a call does, it respects what is not mine; what comes to the site by it is mine. -/
lemma Tenant.called {m : Moment} (tenant : m.before.Tenant mine)
    (late : ∀ k, m.before.site.collectors.length ≤ k.index → mine k = true) :
    m.after.Tenant mine ∧ m.before.Respects mine m.after := by
  by_cases h : m.call = .shutdown
  · obtain ⟨d, call⟩ := m
    subst h
    exact tenant.shutdown
  · exact tenant.enrols (Moment.enrols h) (fitting_offers m.call).nodup late

end Deployment

namespace Scenario

/-- A call of the system at a place, with the workspace that it found. -/
structure Turn where
  before : Workspace
  system : SystemId
  call : Call

namespace Turn

/-- The workspace after the call, whether it failed or not. -/
def after (t : Turn) : Workspace := endOf (Session.onSystem t.system t.call.perform t.before)

/-- The collector came to the site in this turn. -/
def adds (t : Turn) (k : CollectorId) : Bool :=
  decide (t.before.site.collectors.length ≤ k.index)
    && decide (k.index < t.after.site.collectors.length)

end Turn

/-- The system at this place has made the collector in one of the turns. -/
def madeBy (turns : List Turn) (i : SystemId) (k : CollectorId) : Bool :=
  turns.any fun t => decide (t.system = i) && t.adds k

/-- The turns of several systems in any order, and the workspace that they have reached. In between
anything may happen beside the registries of the systems. -/
inductive Interleaving (start : Workspace) : List Turn → Workspace → Prop
  | start : Interleaving start [] start
  | call {turns : List Turn} {w : Workspace} (run : Interleaving start turns w) (i : SystemId)
      (call : Call) : Interleaving start (turns ++ [⟨w, i, call⟩]) (Turn.after ⟨w, i, call⟩)
  | others {turns : List Turn} {w : Workspace} {t : Site} (run : Interleaving start turns w)
      (grows : w.site.Grows t)
      (beside : ∀ s ∈ w.systems,
        t.registry s.roster.registry = w.site.registry s.roster.registry) :
      Interleaving start turns { w with site := t }

/-- Every system lists what it has made, and what systems at different places have made is
different. -/
structure Workspace.Tenanted (w : Workspace) (turns : List Turn) : Prop where
  tenant : ∀ i s, w.systems[i.index]? = some s → Deployment.Tenant (madeBy turns i) ⟨s, w.site⟩
  placed : ∀ i k, madeBy turns i k = true → k.index < w.site.collectors.length
  apart : ∀ i j k, madeBy turns i k = true → madeBy turns j k = true → i = j

section Turns

variable {start w : Workspace} {turns : List Turn} {t : Turn} {i j : SystemId} {a b : System}
  {k : CollectorId}

lemma index_ne (h : i ≠ j) : i.index ≠ j.index := by
  obtain ⟨i⟩ := i
  obtain ⟨j⟩ := j
  rintro rfl
  exact h rfl

lemma madeBy_snoc : madeBy (turns ++ [t]) i k = true
    ↔ madeBy turns i k = true ∨ t.system = i ∧ t.adds k = true := by
  simp [madeBy]

/-- A call of a system changes the site and the system at that place. -/
lemma Turn.after_eq (placed : t.before.systems[t.system.index]? = some a) :
    t.after = { t.before with
      site := (Moment.after ⟨⟨a, t.before.site⟩, t.call⟩).site
      systems := t.before.systems.set t.system.index
        (Moment.after ⟨⟨a, t.before.site⟩, t.call⟩).system } := by
  rw [Turn.after, Moment.after]
  cases h : t.call.perform ⟨a, t.before.site⟩ with
  | ok x d => rw [Session.onSystem_ok placed h]; rfl
  | error fault d => rw [Session.onSystem_error placed h]; rfl

/-- Where there is no system a call does nothing. -/
lemma Turn.after_of_none (nobody : t.before.systems[t.system.index]? = none) :
    t.after = t.before := by
  rw [Turn.after, Session.onSystem, nobody]
  rfl

/-- What a turn does to the tenants of the site. -/
lemma Turn.respects (tenanted : t.before.Tenanted turns)
    (placed : t.before.systems[t.system.index]? = some a) :
    let m : Moment := ⟨⟨a, t.before.site⟩, t.call⟩
    let mine := fun k =>
      madeBy turns t.system k || decide (t.before.site.collectors.length ≤ k.index)
    m.after.Tenant mine ∧ m.before.Respects mine m.after := by
  intro m mine
  have tenant := tenanted.tenant _ _ placed
  refine Deployment.Tenant.called (m := m) ⟨?_, tenant.placed, tenant.nodup, ?_, tenant.housed⟩ ?_
  · exact fun hk => Bool.or_eq_true_iff.mpr (Or.inl (tenant.own hk))
  · refine tenant.tenured.fewer fun k held hk => ?_
    have here := tenant.housed k (by simpa [Index.get?_eq_none_iff] using held)
    rcases Bool.or_eq_true_iff.mp hk with made | late
    · exact made
    · exact absurd here (Nat.not_lt.mpr (of_decide_eq_true late))
  · exact fun k hk => Bool.or_eq_true_iff.mpr (Or.inr (decide_eq_true hk))

/-- A turn leaves the systems at other places and what they have made alone. -/
lemma Turn.spares (tenanted : t.before.Tenanted turns) (other : j ≠ t.system)
    (neighbour : t.before.systems[j.index]? = some b) :
    t.after.systems[j.index]? = some b ∧ t.before.site.Grows t.after.site
      ∧ (t.before.site.registry b.roster.registry).Spares (madeBy turns j)
        (t.after.site.registry b.roster.registry)
      ∧ ∀ k ∈ (t.after.site.registry b.roster.registry).held,
        k.index < t.after.site.collectors.length := by
  have housed := (tenanted.tenant _ _ neighbour).housed
  cases placed : t.before.systems[t.system.index]? with
  | none =>
    rw [Turn.after_of_none placed]
    exact ⟨neighbour, Std.Refl.refl _, Std.Refl.refl _, housed⟩
  | some a =>
    obtain ⟨tenant, respects⟩ := Turn.respects tenanted placed
    have grows := Moment.grows ⟨⟨a, t.before.site⟩, t.call⟩
    rw [Turn.after_eq placed]
    refine ⟨by rw [List.getElem?_set_ne (index_ne other.symm)]; exact neighbour, grows, ?_⟩
    by_cases shared : b.roster.registry = a.roster.registry
    · have registry := respects.registry
      refine ⟨?_, ?_⟩
      · have spares := respects.spares
        rw [Deployment.registry, Deployment.registry, registry] at spares
        rw [shared]
        refine spares.fewer fun k hk => ?_
        have own : madeBy turns t.system k = false := by
          by_contra made
          exact other (tenanted.apart j t.system k hk (by simpa using made))
        have early := Nat.not_le.mpr (tenanted.placed j k hk)
        simp [own, early]
      · have housed := tenant.housed
        rw [Deployment.registry, registry] at housed
        rw [shared]
        exact housed
    · have same : (Moment.after ⟨⟨a, t.before.site⟩, t.call⟩).site.registry b.roster.registry
          = t.before.site.registry b.roster.registry := respects.elsewhere _ shared
      refine ⟨?_, fun k hk => ?_⟩
      · rw [same]
        exact Std.Refl.refl _
      · rw [same] at hk
        exact Nat.lt_of_lt_of_le (housed k hk) grows.room

namespace Workspace.Tenanted

variable {s : System} {call : Call}

/-- The system that was called lists what it had made and what it has made now. -/
lemma tenant_caller (tenanted : w.Tenanted turns)
    (at_place : (Turn.after ⟨w, i, call⟩).systems[i.index]? = some s) :
    Deployment.Tenant (madeBy (turns ++ [⟨w, i, call⟩]) i)
      ⟨s, (Turn.after ⟨w, i, call⟩).site⟩ := by
  let t : Turn := ⟨w, i, call⟩
  cases placed : w.systems[i.index]? with
  | none =>
    rw [Turn.after_of_none (t := t) placed, placed] at at_place
    cases at_place
  | some a =>
    obtain ⟨tenant, -⟩ := Turn.respects (t := t) tenanted placed
    have after : Turn.after ⟨w, i, call⟩ = _ := Turn.after_eq (t := t) placed
    rw [after, List.getElem?_set_self (List.getElem?_eq_some_iff.mp placed).1] at at_place
    obtain rfl := Option.some.inj at_place
    rw [after]
    refine ⟨fun hk => madeBy_snoc.mpr ?_, tenant.placed, tenant.nodup, ?_, tenant.housed⟩
    · have here := tenant.placed hk
      refine (Bool.or_eq_true_iff.mp (tenant.own hk)).imp_right fun late => ⟨rfl, ?_⟩
      rw [Turn.adds, Bool.and_eq_true_iff, after]
      exact ⟨late, decide_eq_true here⟩
    · refine tenant.tenured.fewer fun k _ made => Bool.or_eq_true_iff.mpr ?_
      exact (madeBy_snoc.mp made).imp_right fun new => (Bool.and_eq_true_iff.mp new.2).1

/-- A system at another place stays a tenant with what it had made. -/
lemma tenant_other (tenanted : w.Tenanted turns) (other : j ≠ i)
    (at_place : (Turn.after ⟨w, i, call⟩).systems[j.index]? = some s) :
    Deployment.Tenant (madeBy (turns ++ [⟨w, i, call⟩]) j)
      ⟨s, (Turn.after ⟨w, i, call⟩).site⟩ := by
  let t : Turn := ⟨w, i, call⟩
  have before : w.systems[j.index]? = some s := by
    cases placed : w.systems[i.index]? with
    | none =>
      rw [Turn.after_of_none (t := t) placed] at at_place
      exact at_place
    | some a =>
      rw [Turn.after_eq (t := t) placed] at at_place
      rwa [List.getElem?_set_ne (index_ne other.symm)] at at_place
  obtain ⟨-, grows, spares, housed⟩ := Turn.spares (t := t) tenanted other before
  have unmade : madeBy (turns ++ [t]) j = madeBy turns j := by
    funext k
    rw [Bool.eq_iff_iff, madeBy_snoc]
    exact or_iff_left fun new => other new.1.symm
  rw [unmade]
  exact (tenanted.tenant j s before).grows grows spares housed

lemma called (tenanted : w.Tenanted turns) (i : SystemId) (call : Call) :
    (Turn.after ⟨w, i, call⟩).Tenanted (turns ++ [⟨w, i, call⟩]) := by
  let t : Turn := ⟨w, i, call⟩
  have room : w.site.collectors.length ≤ t.after.site.collectors.length := by
    cases placed : w.systems[i.index]? with
    | none => exact Nat.le_of_eq (by rw [Turn.after_of_none (t := t) placed])
    | some a =>
      rw [Turn.after_eq (t := t) placed]
      exact (Moment.grows ⟨⟨a, w.site⟩, call⟩).room
  have early : ∀ {j k}, madeBy turns j k = true → t.adds k = false := by
    intro j k made
    have placed := Nat.not_le.mpr (tenanted.placed j k made)
    rw [Turn.adds, decide_eq_false placed, Bool.false_and]
  constructor
  · intro j s at_place
    by_cases same : j = i
    · subst same
      exact tenanted.tenant_caller at_place
    · exact tenanted.tenant_other same at_place
  · intro j k made
    rcases madeBy_snoc.mp made with old | ⟨-, new⟩
    · exact Nat.lt_of_lt_of_le (tenanted.placed j k old) room
    · exact of_decide_eq_true (Bool.and_eq_true_iff.mp new).2
  · intro j n k made made'
    rcases madeBy_snoc.mp made with old | ⟨here, new⟩ <;>
      rcases madeBy_snoc.mp made' with old' | ⟨here', new'⟩
    · exact tenanted.apart j n k old old'
    · rw [early old] at new'
      cases new'
    · rw [early old'] at new
      cases new
    · exact here.symm.trans here'

end Workspace.Tenanted

lemma Interleaving.tenanted (run : Interleaving start turns w) (first : start.Tenanted []) :
    w.Tenanted turns := by
  induction run with
  | start => exact first
  | call _ i call ih => exact ih.called i call
  | @others turns w t _ grows beside ih =>
    refine ⟨fun i s at_place => ?_, fun i k made => ?_, ih.apart⟩
    · have same := beside s (List.mem_of_getElem? at_place)
      have tenant := ih.tenant i s at_place
      refine tenant.grows grows ?_ fun k hk => ?_
      · rw [same]
        exact Std.Refl.refl _
      · rw [same] at hk
        exact Nat.lt_of_lt_of_le (tenant.housed k hk) grows.room
    · exact Nat.lt_of_lt_of_le (ih.placed i k made) grows.room

/-- New systems are the only tenants of registries that hold nothing but what is there. -/
lemma tenanted_fresh
    (fresh : ∀ s ∈ start.systems, ∃ enabled timers r, s = System.fresh enabled timers r)
    (housed : ∀ r, ∀ k ∈ (start.site.registry r).held, k.index < start.site.collectors.length) :
    start.Tenanted [] where
  tenant i s at_place := by
    obtain ⟨enabled, timers, r, rfl⟩ := fresh s (List.mem_of_getElem? at_place)
    exact ⟨fun hk => absurd hk List.not_mem_nil, fun hk => absurd hk List.not_mem_nil,
      fun hk => absurd hk List.not_mem_nil, fun _ _ made => absurd made Bool.false_ne_true,
      housed r⟩
  placed _ _ made := absurd made Bool.false_ne_true
  apart _ _ _ made := absurd made Bool.false_ne_true

/-- Whatever the calls of several systems have been, in any order, the next call of one of them
leaves every other one as it is: its lists, its handles, its cache collectors and the names it
remembers. What the other one has made stays in the registry if it is there, in the same order and
with the same names, and each of these stays its own. -/
theorem neighbours_undisturbed (run : Interleaving start turns w)
    (fresh : ∀ s ∈ start.systems, ∃ enabled timers r, s = System.fresh enabled timers r)
    (housed : ∀ r, ∀ k ∈ (start.site.registry r).held, k.index < start.site.collectors.length)
    (call : Call) (other : j ≠ i) (neighbour : w.systems[j.index]? = some b) :
    let before := w.site.registry b.roster.registry
    let after := (Turn.after ⟨w, i, call⟩).site.registry b.roster.registry
    (Turn.after ⟨w, i, call⟩).systems[j.index]? = some b
      ∧ after.collectors.filter (madeBy turns j) = before.collectors.filter (madeBy turns j)
      ∧ (∀ k, madeBy turns j k = true → after.held.get? k = before.held.get? k
        ∧ ∀ names, before.held.get? k = some names → ∀ name ∈ names,
          before.owners.get? name = some k ∧ after.owners.get? name = some k)
      ∧ (∀ name k, madeBy turns j k = true →
        (after.owners.get? name = some k ↔ before.owners.get? name = some k))
      ∧ ∀ k ∈ b.roster.collectors, madeBy turns j k = true := by
  intro before after
  have tenanted := run.tenanted (tenanted_fresh fresh housed)
  have tenant := tenanted.tenant j b neighbour
  obtain ⟨stays, -, spares, -⟩ := Turn.spares (t := ⟨w, i, call⟩) tenanted other neighbour
  refine ⟨stays, spares.order, fun k made => ⟨spares.held k made, ?_⟩, spares.owners, ?_⟩
  · intro names held name hname
    have own := (tenant.tenured k names made held).owned name hname
    exact ⟨own, (spares.owners name k made).mpr own⟩
  · intro k hk
    obtain ⟨c, listed⟩ := Roster.mem_collectors.mp hk
    exact tenant.own listed

/-- Two new systems on one registry. -/
def neighbours : Workspace :=
  { site := .small
    systems := [.fresh (.ofList [⟨"shop", none⟩]) true ⟨0⟩,
      .fresh (.ofList [⟨"bank", none⟩]) true ⟨0⟩] }

/-- The first system counts jobs, and so does the second one. -/
def counting : List Turn :=
  let first : Turn := ⟨neighbours, ⟨0⟩, .labelled .counter ⟨"shop", none⟩ "jobs" "h" []⟩
  [first, ⟨first.after, ⟨1⟩, .labelled .counter ⟨"bank", none⟩ "jobs" "h" []⟩]

/-- The counter of the second system outlives the shutdown of the first one. -/
theorem neighbours_undisturbed_shutdown : ∃ w b k, Interleaving neighbours counting w
    ∧ w.systems[1]? = some b ∧ madeBy counting ⟨1⟩ k = true
    ∧ (w.site.registry ⟨0⟩).held.get? k
      = some ["bank_jobs", "bank_jobs_total", "bank_jobs_created"]
    ∧ (Turn.after ⟨w, ⟨0⟩, .shutdown⟩).systems[1]? = some b
    ∧ ((Turn.after ⟨w, ⟨0⟩, .shutdown⟩).site.registry ⟨0⟩).held.get? k
      = some ["bank_jobs", "bank_jobs_total", "bank_jobs_created"]
    ∧ ((Turn.after ⟨w, ⟨0⟩, .shutdown⟩).site.registry ⟨0⟩).owners.get? "bank_jobs_total"
      = some k := by
  have unused : Interleaving neighbours [] neighbours := .start
  have run := (unused.call ⟨0⟩ (.labelled .counter ⟨"shop", none⟩ "jobs" "h" [])).call ⟨1⟩
    (.labelled .counter ⟨"bank", none⟩ "jobs" "h" [])
  obtain ⟨stays, -, spared, -, -⟩ := neighbours_undisturbed run (i := ⟨0⟩) (j := ⟨1⟩)
    (by
      intro s hs
      rcases List.mem_pair.mp hs with rfl | rfl <;> exact ⟨_, _, _, rfl⟩)
    (by
      rintro ⟨_ | r⟩ k held <;> cases held)
    .shutdown (by decide) rfl
  have made : madeBy counting ⟨1⟩ ⟨1⟩ = true := by decide +kernel
  obtain ⟨held, own⟩ := spared ⟨1⟩ made
  exact ⟨_, _, ⟨1⟩, run, rfl, made, rfl, stays, held.trans rfl, (own _ rfl _ (by decide)).2⟩

end Turns

end Scenario

end Metering
