import Metering.Proofs.BuiltinStart
import Metering.Proofs.QuietSteps
import Metering.Proofs.SelectedCategories

/-!
# Systems launched from an environment

A system that is launched from the settings of its environment on an empty registry comes up in
every case that the settings are accepted in: the built-in collectors ask no supplier, share no name
and find every name free, so all of them can be enrolled. Which categories are enabled, which
built-in collectors are held and what is reported are told by the variables
(`launched_as_configured`).
-/

namespace Metering

open Operation Metering.System

lemma Registry.admits_vacant (describes : Bool) (x : Collector) :
    (Registry.vacant describes).Admits x :=
  taken_eq_nil_iff.mpr fun _ _ => rfl

/-- Collectors that have been added one after the other are found at their places. -/
lemma Site.map_collector_range {s : Site} {before xs : List Collector}
    (added : before ++ xs <+: s.collectors) :
    ((List.range' before.length xs.length).map CollectorId.mk).map s.collector = xs := by
  obtain ⟨rest, split⟩ := added
  refine List.ext_getElem (by simp) fun i hi hi' => ?_
  simp only [List.getElem_map, List.getElem_range', Nat.one_mul]
  rw [Site.collector, ← split, List.append_assoc,
    List.getElem?_append_right (Nat.le_add_right _ _), Nat.add_sub_cancel_left,
    List.getElem?_append_left hi', List.getElem?_eq_getElem hi', Option.getD_some]

namespace Deployment

variable {d e : Deployment} {offers : List Offer}

/-- A system that lists nothing can be given any standing offers, one after the other, if its
registry is empty. -/
lemma Lists.enrollAll_vacant {describes : Bool} (lists : d.Lists [])
    (vacant : d.registry = .vacant describes) (standing : Standing offers) :
    ∃ e, System.enrollAll offers d = .ok () e ∧ d.Stocks offers e := by
  obtain ⟨e, stocks, whole, -⟩ := lists.enrollAll standing
  have all : d.registry.admitted offers = offers := by
    refine List.takeWhile_eq_self_iff.mpr fun o _ => decide_eq_true ?_
    rw [vacant]
    exact Registry.admits_vacant describes o.2
  rw [all] at stocks whole
  exact ⟨e, whole rfl, stocks⟩

lemma lists_fresh {enabled : Distinct Category} {timers : Bool} {r : RegistryId} {s : Site}
    (room : r.index < s.registries.length) : Lists ⟨.fresh enabled timers r, s⟩ [] :=
  ⟨room, fun _ _ h => absurd h List.not_mem_nil⟩

lemma standing_builtins (s : System) : Standing s.builtins :=
  standing_builtin.sublist List.filter_sublist

/-- A new system on an empty registry is given the built-in collectors of its enabled categories, if
these are wanted. -/
lemma Lists.start_vacant {describes : Bool} (lists : d.Lists [])
    (vacant : d.registry = .vacant describes) (wanted : Bool) :
    ∃ e, (if wanted then System.init d else .ok () d) = .ok () e
      ∧ d.Stocks (if wanted then d.system.builtins else []) e := by
  cases wanted with
  | true =>
    obtain ⟨e, run, stocks⟩ := lists.enrollAll_vacant vacant (standing_builtins d.system)
    exact ⟨e, (init_eq_enrollAll d).trans run, stocks⟩
  | false => exact ⟨d, rfl, Stocks.refl d⟩

/-- An empty registry holds afterwards what was offered. -/
lemma Stocks.held {describes : Bool} (stocks : d.Stocks offers e)
    (vacant : d.registry = .vacant describes) :
    e.registry.collectors.map e.site.collector = offers.map Prod.snd := by
  have housed : ∀ k ∈ (Registry.vacant describes).held, k.index < d.site.collectors.length :=
    fun _ held => absurd held List.not_mem_nil
  rw [stocks.registry, vacant, Registry.collectors_stock housed]
  exact Site.map_collector_range stocks.added

/-- Gathering from it asks nobody. -/
lemma Stocks.gather {describes : Bool} (stocks : d.Stocks offers e)
    (vacant : d.registry = .vacant describes) (standing : Standing offers) :
    ∃ t, Site.gather e.system.roster.registry e.site
      = .ok (offers.flatMap fun o => o.2.standing) t := by
  have held := stocks.held vacant
  have fixed : ∀ k ∈ e.registry.collectors, ∃ families, e.site.collector k = .fixed families := by
    intro k hk
    have offered : e.site.collector k ∈ offers.map Prod.snd := by
      rw [← held]
      exact List.mem_map_of_mem hk
    obtain ⟨o, ho, same⟩ := List.mem_map.mp offered
    exact ⟨_, same ▸ standing.fixed o ho⟩
  obtain ⟨t, run⟩ := Site.collectAll_fixed fixed
  refine ⟨t, ?_⟩
  rw [Site.gather, bind_get]
  refine run.trans ?_
  rw [held, List.flatMap_map]

end Deployment

namespace System

lemma reportAll_eq (events : List Event) (s : Site) :
    reportAll events s = .ok () { s with journal := s.journal ++ events } := by
  induction events generalizing s with
  | nil => simp only [List.append_nil]; rfl
  | cons event events ih =>
    have reported : Site.report event s = .ok () { s with journal := s.journal ++ [event] } := rfl
    refine (bind_of_ok reported _).trans ((ih _).trans ?_)
    simp only [List.append_assoc, List.singleton_append]

lemma launch_eq (categories : List Category) (settings : Settings) (r : RegistryId) (s : Site) :
    launch categories settings r s
      = let resolved := Gating.resolve (categories ++ Category.standard) settings
        .ok (fresh resolved.1 settings.timers r)
          { s with journal := s.journal ++ resolved.2 } :=
  bind_of_ok (reportAll_eq _ s) _

end System

namespace Scenario

open Session

lemma lift_ok {α : Type} {a : Action α} {w : Workspace} {x : α} {t : Site}
    (h : a w.site = .ok x t) : (liftM a : Session α) w = .ok x { w with site := t } := by
  change Session.ofAction a w = _
  rw [Session.ofAction, h]

/-- The settings in use are those of the environment unless an old snapshot says otherwise. -/
lemma settingsOr_none {w : Workspace} {settings : Settings}
    (accepted : Settings.ofEnvironment w.configuration.environment = .ok settings)
    (recent : ∀ old, w.configuration.snapshot = some old →
      Settings.ofEnvironment w.configuration.environment = .ok old.settings) :
    ∃ configuration, settingsOr none w
      = .ok settings { w with configuration := configuration } := by
  cases taken : w.configuration.snapshot with
  | none =>
    have current : Configuration.current false w.configuration
        = Configuration.takeSnapshot w.configuration := by
      simp only [Configuration.current, taken]
    have run : ∃ configuration new, ofConfiguration (Configuration.current false) w
        = .ok new { w with configuration := configuration } ∧ new.settings = settings := by
      rw [ofConfiguration, current, Configuration.takeSnapshot, accepted]
      exact ⟨_, _, rfl, rfl⟩
    obtain ⟨configuration, new, run, rfl⟩ := run
    exact ⟨configuration, bind_of_ok run _⟩
  | some old =>
    have same : old.settings = settings := by
      have read := recent old taken
      rw [accepted] at read
      exact (Except.ok.inj read).symm
    refine ⟨w.configuration, ?_⟩
    have current := Configuration.current_of_snapshot taken
    have run : ofConfiguration (Configuration.current false) w = .ok old w := by
      rw [ofConfiguration, current]
    rw [← same]
    exact bind_of_ok run _

/-- The registry of a new system is a new one, or the empty one that a name stands for. -/
lemma registryOr_empty {w : Workspace} {registry : Option String}
    (empty : ∀ name, registry = some name → ∃ r, w.bound.registries.get? name = some r
      ∧ r.index < w.site.registries.length ∧ ∃ describes, w.site.registry r = .vacant describes) :
    ∃ r site describes, registryOr registry w = .ok r { w with site := site }
      ∧ site.journal = w.site.journal ∧ r.index < site.registries.length
      ∧ site.registry r = .vacant describes := by
  cases registry with
  | none =>
    refine ⟨⟨w.site.registries.length⟩,
      { w.site with registries := w.site.registries ++ [.vacant true] }, true, rfl, rfl, ?_, ?_⟩
    · simp
    · simp [Site.registry]
  | some name =>
    obtain ⟨r, found, room, describes, vacant⟩ := empty name rfl
    exact ⟨r, w.site, describes, find_ok found, rfl, room, vacant⟩

/-- Making a system from settings that can be read, on a registry that can be had: it is launched,
placed after the others, started if this is wanted, and bound to its name if the start succeeds. -/
lemma makeSystem_of_opened {w w₁ w₂ : Workspace} {registry : Option String} {r : RegistryId}
    {given : Option Settings} {settings : Settings} (opened : registryOr registry w = .ok r w₁)
    (read : settingsOr given w₁ = .ok settings w₂) {categories : List Category} {d : Deployment}
    (new : d = ⟨System.fresh (Gating.resolve (categories ++ Category.standard) settings).1
        settings.timers r,
      { w₂.site with journal := w₂.site.journal
          ++ (Gating.resolve (categories ++ Category.standard) settings).2 }⟩)
    (init : Bool) (id : String) :
    makeSystem id (.fromSettings categories given registry init) w
      = match if init then System.init d else .ok () d with
        | .ok _ e => .ok () { w₂ with
            site := e.site
            systems := w₂.systems ++ [e.system]
            bound := { w₂.bound with systems := w₂.bound.systems.put id ⟨w₂.systems.length⟩ } }
        | .error fault e => .error fault { w₂ with
            site := e.site
            systems := w₂.systems ++ [e.system] } := by
  let w₃ : Workspace := { w₂ with site := d.site }
  have launched : (liftM (System.launch categories settings r) : Session System) w₂
      = .ok d.system w₃ := by
    subst new
    exact lift_ok (System.launch_eq categories settings r w₂.site)
  let w₄ : Workspace := { w₃ with systems := w₂.systems ++ [d.system] }
  have added : addSystem d.system w₃ = .ok ⟨w₂.systems.length⟩ w₄ := rfl
  have placed : w₄.systems[w₂.systems.length]? = some d.system := List.getElem?_concat_length
  have put : ∀ s, w₄.systems.set w₂.systems.length s = w₂.systems ++ [s] := by
    intro s
    simp [w₄]
  rw [makeSystem, bind_of_ok opened, bind_of_ok read, bind_of_ok launched, bind_of_ok added]
  cases init with
  | false => rfl
  | true =>
    rw [if_pos rfl]
    cases run : System.init d with
    | ok x e =>
      have started : initIf true ⟨w₂.systems.length⟩ w₄
          = .ok () { w₄ with site := e.site, systems := w₂.systems ++ [e.system] } := by
        rw [initIf, if_pos rfl, onSystem_ok placed run, put]
      exact bind_of_ok started _
    | error fault e =>
      have failed : initIf true ⟨w₂.systems.length⟩ w₄
          = .error fault { w₄ with site := e.site, systems := w₂.systems ++ [e.system] } := by
        rw [initIf, if_pos rfl, onSystem_error placed run, put]
      exact bind_of_error failed _

/-- Launching a system on an empty registry, from the environment as it is: the step cannot fail,
and binds the name to the new system. A category is enabled if the master switch is not off, the
category is the first with its name among those of the application followed by the standard ones,
there is no allow list or it lists the name, and the deny list does not list it. The registry holds
the built-in collectors of the enabled standard categories, if these were wanted, and gives their
families. One event is reported at the end, and before it, if there are any, the listed names that
no known category has. -/
theorem launched_as_configured {w : Workspace} {settings : Settings} (categories : List Category)
    (registry : Option String) (init : Bool) (id : String)
    (accepted : Settings.ofEnvironment w.configuration.environment = .ok settings)
    (recent : ∀ old, w.configuration.snapshot = some old →
      Settings.ofEnvironment w.configuration.environment = .ok old.settings)
    (empty : ∀ name, registry = some name → ∃ r, w.bound.registries.get? name = some r
      ∧ r.index < w.site.registries.length ∧ ∃ describes, w.site.registry r = .vacant describes) :
    let env := w.configuration.environment
    let known := categories ++ Category.standard
    ∃ w' s, perform (.system id (.fromSettings categories none registry init)) w = .ok .nothing w'
      ∧ w'.systems = w.systems ++ [s] ∧ w'.bound.systems.get? id = some ⟨w.systems.length⟩
      ∧ (∀ c, s.isEnabled c = true
        ↔ ¬ env.Off ∧ c.FirstAmong known ∧ env.Allows c.name ∧ ¬ env.Denies c.name)
      ∧ (let held := if init then builtinOffers.filter fun o => s.isEnabled o.1 else []
        (w'.site.registry s.roster.registry).collectors.map w'.site.collector = held.map Prod.snd
          ∧ ∃ t, Site.gather s.roster.registry w'.site
            = .ok (held.flatMap fun o => o.2.standing) t)
      ∧ ∃ names last, names.Pairwise (· ≤ ·) ∧ names.Nodup
        ∧ (∀ name, name ∈ names ↔ ¬ env.Off ∧ env.Mentions name ∧ ∀ c ∈ known, c.name ≠ name)
        ∧ w'.site.journal
          = w.site.journal ++ (if names = [] then [] else [.unknownNames names]) ++ [last]
        ∧ ∀ names, last ≠ .unknownNames names := by
  intro env known
  obtain ⟨r, site, describes, opened, silent, room, vacant⟩ := registryOr_empty empty
  obtain ⟨configuration, read⟩ := settingsOr_none (w := { w with site := site }) accepted recent
  let resolved := Gating.resolve known settings
  let d : Deployment := ⟨System.fresh resolved.1 settings.timers r,
    { site with journal := site.journal ++ resolved.2 }⟩
  have lists : d.Lists [] := Deployment.lists_fresh room
  obtain ⟨e, started, stocks⟩ := lists.start_vacant vacant init
  have made := makeSystem_of_opened opened read (rfl : d = _) init id
  rw [started] at made
  have enabled : ∀ c, e.system.isEnabled c = decide (c ∈ resolved.1) := by
    intro c
    rw [stocks.furnished.system]
    rfl
  have same : e.system.isEnabled = d.system.isEnabled := funext fun c => enabled c
  have standing : Standing (if init then d.system.builtins else []) := by
    split
    · exact Deployment.standing_builtins d.system
    · exact ⟨fun _ h => absurd h List.not_mem_nil, .nil, .nil⟩
  obtain ⟨names, last, ascending, once, listed, events, ends⟩ :=
    Gating.events_resolve known accepted
  refine ⟨_, e.system, bind_of_ok made _, rfl, Index.get?_put_self _ _ _, ?_, ?_,
    names, last, ascending, once, listed, ?_, ends⟩
  · intro c
    rw [enabled, ← Gating.mem_selected_iff accepted]
    exact decide_eq_true_iff
  · rw [same]
    exact ⟨stocks.held vacant, stocks.gather vacant standing⟩
  · change e.site.journal = _
    rw [stocks.furnished.journal, ← silent, List.append_assoc, ← events]

/-- An environment that allows a category of the application, a standard one and one that nobody
knows. -/
def configured : Workspace :=
  { configuration := { environment :=
    { categories := some "shop, python ,,lost", disabled := some "idle" } } }

theorem launched_as_configured_named :
    let env := configured.configuration.environment
    let known := [⟨"shop", none⟩] ++ Category.standard
    (∃ settings, Settings.ofEnvironment env = .ok settings)
      ∧ configured.configuration.snapshot = none
      ∧ ∃ w' s, perform (.system "s" (.fromSettings [⟨"shop", none⟩] none none true)) configured
          = .ok .nothing w'
        ∧ w'.systems = [s]
        ∧ (∀ c, s.isEnabled c = true
          ↔ ¬ env.Off ∧ c.FirstAmong known ∧ env.Allows c.name ∧ ¬ env.Denies c.name)
        ∧ (w'.site.registry s.roster.registry).collectors.map w'.site.collector
          = (builtinOffers.filter fun o => s.isEnabled o.1).map Prod.snd
        ∧ ∃ names last, names.Nodup
          ∧ (∀ name, name ∈ names ↔ ¬ env.Off ∧ env.Mentions name ∧ ∀ c ∈ known, c.name ≠ name)
          ∧ w'.site.journal = (if names = [] then [] else [.unknownNames names]) ++ [last] := by
  refine ⟨⟨_, rfl⟩, rfl, ?_⟩
  obtain ⟨w', s, run, systems, -, enabled, ⟨held, -⟩, names, last, -, once, listed, events, -⟩ :=
    launched_as_configured (w := configured) [⟨"shop", none⟩] none true "s" rfl
      (fun _ h => by cases h) (fun _ h => by cases h)
  exact ⟨w', s, run, systems, enabled, held, names, last, once, listed, events⟩

end Scenario

end Metering
