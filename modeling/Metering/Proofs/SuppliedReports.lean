import Metering.Proofs.CollectionQuestions
import Metering.Proofs.HandleTargets

/-!
# What supplied metrics report

A supplied metric takes suppliers through its handle, each combination of label values once, and no
other call changes what it holds (`Call.keepsSupplied`, `Moment.supplied_after`). So if a run hands
suppliers only to handles that it was given (`Entrusted`), a listed metric holds what was accepted
through its handle, in that order (`Run.supplies`), and each collection shows it so
(`supplied_reported`).
-/

namespace Metering

open Site Operation Metering.System

lemma Site.placed_of_supplied {s : Site} {k : CollectorId} {m : Supplied}
    (supplied : s.collector k = .supplied m) : k.index < s.collectors.length :=
  placed_of_ne (by simp [supplied])

lemma Collector.supplied_of_declared {x : Collector} {m : Supplied}
    (h : x.declared = (Collector.supplied m).declared) : ∃ n, x = .supplied n := by
  cases x with
  | supplied n => exact ⟨n, rfl⟩
  | _ => cases h

section Keeping

/-- Supplied metrics are as they were. -/
def Deployment.KeepsSupplied (d e : Deployment) : Prop :=
  ∀ k m, d.site.collector k = .supplied m → e.site.collector k = .supplied m

instance : IsPreorder Deployment Deployment.KeepsSupplied where
  refl _ _ _ h := h
  trans _ _ _ first next k m h := next k m (first k m h)

open Deployment

/-- Collectors that are the same keep all supplied metrics. -/
lemma keepsSupplied_of_same {d e : Deployment} (same : e.site.collectors = d.site.collectors) :
    d.KeepsSupplied e := by
  intro k m supplied
  rw [Site.collector, same]
  exact supplied

lemma System.enroll_keepsSupplied (c : Category) (y : Collector) :
    Moves KeepsSupplied (enroll c y) := by
  intro d k m supplied
  rw [(rearranged_enroll c y d).collector,
    collector_withAdded_of_lt (placed_of_supplied supplied), supplied]

lemma Deployment.keepsSupplied_builds : Builds KeepsSupplied where
  noted s t quiet system := by
    refine keepsSupplied_of_same (d := ⟨system, s⟩) (e := ⟨system, t⟩) ?_
    rw [quiet]
  reported _ _ _ := keepsSupplied_of_same rfl
  issued _ _ _ := keepsSupplied_of_same rfl
  remembered _ _ := keepsSupplied_of_same rfl
  kept _ _ _ _ := keepsSupplied_of_same rfl
  enrolled c y _ := System.enroll_keepsSupplied c y

lemma System.attachCache_keepsSupplied (c : Category) (name : String) (cache : CacheId) :
    Moves KeepsSupplied (attachCache c name cache) := by
  refine attachCache_moves c name cache (enroll_keepsSupplied c _)
    (fun _ _ => keepsSupplied_of_same rfl) fun d k stem attached caches l m supplied => ?_
  have apart : l ≠ k := by
    rintro rfl
    rw [caches] at supplied
    cases supplied
  rw [collector_withCollector (placed_of_ne (by simp [caches])), if_neg apart, supplied]

lemma Handle.labels_keepsSupplied (h : Handle) (kind : ChildKind) (values : List String) :
    Moves KeepsSupplied (ofAction (h.labels kind values)) := by
  intro d k m supplied
  rw [endOf_ofAction]
  rcases h.labels_cases kind values d.site with ⟨-, run⟩ | ⟨-, ⟨-, run⟩ | ⟨l, -, run⟩⟩
  · rw [run]
    exact supplied
  · rw [run]
    exact supplied
  · rw [run, endOf, collector_touched, supplied]
    split <;> rfl

/-- Only handing over a supplier changes a supplied metric. -/
lemma Call.keepsSupplied {call : Call} (other : ∀ h i values, call ≠ supply h i values) :
    Moves KeepsSupplied call.perform := by
  by_cases builds : call.Builds
  · exact Call.builds_moves keepsSupplied_builds builds
  by_cases recording : call.IsRecording
  · intro d k m supplied
    have site := Moment.site_after_recording (m := ⟨d, call⟩) recording
    rw [Moment.after] at site
    rw [site, collector_gained, supplied]
    rfl
  cases call with
  | attachCache c name cache => exact attachCache_keepsSupplied c name cache
  | childOf h kind values => exact (h.labels_keepsSupplied kind values).discard
  | single kind c name help =>
    exact ((labelled_moves keepsSupplied_builds c name help [] kind).bind fun h =>
      h.labels_keepsSupplied _ _).discard
  | shutdown =>
    intro d
    refine keepsSupplied_of_same ?_
    rw [perform, (rearranged_shutdown d).rest]
  | supply h i values => exact absurd rfl (other h i values)
  | increment | observe | stop => exact absurd trivial recording
  | _ => exact absurd trivial builds

end Keeping

namespace Moment

variable {m : Moment} {h : Handle} {i : SupplierId} {values : List String} {k : CollectorId}

/-- The combination of label values, with its supplier, that the call has brought in through a
handle of this sort. -/
def accepted (m : Moment) (through : Handle → Prop) [DecidablePred through] :
    List (List String × SupplierId) :=
  match m.call with
  | .supply h i values => if through h ∧ m.returned = true then [(values, i)] else []
  | _ => []

section Accepting

variable {through : Handle → Prop} [DecidablePred through]

lemma accepted_supply (called : m.call = .supply h i values) :
    m.accepted through = if through h ∧ m.returned = true then [(values, i)] else [] := by
  rw [accepted, called]

lemma accepted_eq_nil
    (other : ∀ h i values, m.call = .supply h i values → through h → m.returned = false) :
    m.accepted through = [] := by
  rw [accepted]
  split
  · next h i values called =>
    refine if_neg fun taken => ?_
    rw [other h i values called taken.1] at taken
    exact Bool.false_ne_true taken.2
  · rfl

lemma accepted_congr {other : Handle → Prop} [DecidablePred other]
    (same : ∀ h i values, m.call = .supply h i values → (through h ↔ other h)) :
    m.accepted through = m.accepted other := by
  rw [accepted, accepted]
  split
  · next h i values called => simp only [same h i values called]
  · rfl

end Accepting

/-- A supplied metric gets what the call brings in through a handle that leads to it. -/
lemma supplied_after {n : Supplied} (supplied : m.before.site.collector k = .supplied n) :
    ∃ n', m.after.site.collector k = .supplied n'
      ∧ n'.suppliers.entries = n.suppliers.entries ++ m.accepted (·.target = some k) := by
  obtain ⟨d, call⟩ := m
  -- what ends without a trace has brought in nothing
  have idle : after ⟨d, call⟩ = d → accepted ⟨d, call⟩ (·.target = some k) = [] →
      ∃ n', (after ⟨d, call⟩).site.collector k = .supplied n'
        ∧ n'.suppliers.entries = n.suppliers.entries ++ accepted ⟨d, call⟩ (·.target = some k) := by
    intro ends nothing
    rw [ends, nothing, List.append_nil]
    exact ⟨n, supplied, rfl⟩
  by_cases other : ∀ h i values, call ≠ .supply h i values
  · have nothing : accepted ⟨d, call⟩ (·.target = some k) = [] :=
      accepted_eq_nil fun h i values called => absurd called (other h i values)
    refine ⟨n, Call.keepsSupplied other d k n supplied, ?_⟩
    rw [nothing, List.append_nil]
  · push Not at other
    obtain ⟨h, i, values, rfl⟩ := other
    have failing : ∀ {fault}, h.supply i values d.site = .error fault d.site →
        after ⟨d, .supply h i values⟩ = d
          ∧ accepted ⟨d, .supply h i values⟩ (·.target = some k) = [] := by
      intro fault run
      obtain ⟨ends, failed⟩ := after_of_error (m := ⟨d, .supply h i values⟩) (ofAction_error run)
      exact ⟨ends, accepted_eq_nil fun _ _ _ _ _ => failed⟩
    rcases h.supply_cases i values d.site with
      ⟨-, run⟩ | ⟨-, ⟨l, n', target, found, ⟨-, run⟩ | ⟨new, run⟩⟩ | ⟨elsewhere, run⟩⟩
    · exact idle (failing run).1 (failing run).2
    · exact idle (failing run).1 (failing run).2
    · obtain ⟨ends, returned⟩ := after_of_ok (m := ⟨d, .supply h i values⟩) (ofAction_ok run)
      rw [ends, accepted_supply rfl]
      by_cases here : l = k
      · subst here
        obtain rfl := Collector.supplied.inj (found.symm.trans supplied)
        refine ⟨_, (collector_withCollector (placed_of_supplied found)).trans (if_pos rfl), ?_⟩
        rw [if_pos ⟨target, returned⟩]
        exact Index.entries_put_of_not_mem i new
      · refine ⟨n, ?_, ?_⟩
        · rw [collector_withCollector (placed_of_supplied found), if_neg (Ne.symm here), supplied]
        · rw [if_neg fun taken => here (Option.some.inj (target.symm.trans taken.1)),
            List.append_nil]
    · have ends := (after_of_ok (m := ⟨d, .supply h i values⟩) (ofAction_ok run)).1
      refine idle ends ?_
      rw [accepted_supply rfl, if_neg fun taken => elsewhere k n taken.1 supplied]

end Moment

/-- Suppliers are handed only to handles that earlier calls have given. -/
def Entrusted (ms : List Moment) : Prop :=
  ∀ earlier m later, ms = earlier ++ m :: later →
    ∀ h i values, m.call = .supply h i values → ∃ m' ∈ earlier, m'.Replies (.handle h)

/-- What was accepted through a handle: combinations of label values with their suppliers, in the
order of the calls. -/
def acceptedOf (ms : List Moment) (h : Handle) : List (List String × SupplierId) :=
  ms.flatMap fun m => m.accepted (· = h)

section Histories

variable {ms : List Moment} {m : Moment} {h : Handle}

lemma entrusted_nil : Entrusted [] := by
  intro earlier m later split
  simp at split

lemma entrusted_concat : Entrusted (ms ++ [m]) ↔ Entrusted ms
    ∧ ∀ h i values, m.call = .supply h i values → ∃ m' ∈ ms, m'.Replies (.handle h) :=
  forall_splits_snoc

lemma acceptedOf_concat : acceptedOf (ms ++ [m]) h = acceptedOf ms h ++ m.accepted (· = h) := by
  rw [acceptedOf, List.flatMap_append, List.flatMap_singleton]
  rfl

/-- Nothing was accepted through a handle that nobody has been given. -/
lemma Entrusted.acceptedOf_eq_nil (entrusted : Entrusted ms)
    (new : ∀ m ∈ ms, ¬ m.Replies (.handle h)) : acceptedOf ms h = [] := by
  refine List.flatMap_eq_nil_iff.mpr fun m hm => Moment.accepted_eq_nil ?_
  rintro h' i values called rfl
  obtain ⟨earlier, later, split⟩ := List.append_of_mem hm
  obtain ⟨m', before, given⟩ := entrusted earlier m later split h' i values called
  exact absurd given (new m' (split ▸ List.mem_append_left _ before))

end Histories

namespace Moment

variable {m : Moment} {h : Handle} {k : CollectorId}

/-- A handle that was given leads to an instrument or to a new supplied metric without suppliers. -/
lemma target_cases (kept : m.before.KeepsLeading) (given : m.Replies (.handle h))
    (target : h.target = some k) :
    (∃ i, m.after.site.collector k = .instrument i ∧ i.labels.length = h.arity)
      ∨ m.before.site.collectors.length ≤ k.index
        ∧ ∃ n, m.after.site.collector k = .supplied n ∧ n.labels.length = h.arity
          ∧ n.suppliers = ∅ := by
  rcases handle_cases given with
    ⟨kind, c, name, help, labels, -, made⟩ | ⟨kind, c, name, help, labels, -, made⟩
  · obtain ⟨use, leads⟩ := (labelled_leads kept).2 h m.after made
    obtain ⟨i, instrument, -, same⟩ := leads _ k use target
    exact Or.inl ⟨i, instrument, same⟩
  · obtain ⟨-, arity, -, new⟩ := supplied_ok made
    obtain ⟨place, -, supplied, -⟩ := new k target
    exact Or.inr ⟨by rw [place]; exact Nat.le_refl _, _, supplied, arity.symm, rfl⟩

lemma fits_of_handle (kept : m.before.KeepsLeading) (given : m.Replies (.handle h)) :
    h.Fits m.after.site := by
  intro k target
  rcases target_cases kept given target with ⟨i, instrument, same⟩ | ⟨-, n, supplied, same, -⟩
  · exact ⟨placed_of_instrument instrument, by rw [instrument]; exact same⟩
  · exact ⟨placed_of_supplied supplied, by rw [supplied]; exact same⟩

end Moment

/-- The handles that were given fit, no two of them lead to one supplied metric, and a listed
supplied metric holds what was accepted through its handle. -/
structure Deployment.Supplies (ms : List Moment) (d : Deployment) : Prop where
  kept : d.KeepsLeading
  fits : ∀ m ∈ ms, ∀ h, m.Replies (.handle h) → h.Fits d.site
  sole : ∀ m ∈ ms, ∀ h, m.Replies (.handle h) → ∀ m' ∈ ms, ∀ h', m'.Replies (.handle h') →
    ∀ k n, d.site.collector k = .supplied n → h.target = some k → h'.target = some k → h' = h
  held : ∀ m ∈ ms, ∀ h, m.Replies (.handle h) → ∀ c k n, k ∈ d.listed c →
    d.site.collector k = .supplied n → h.target = some k →
      n.suppliers.entries = acceptedOf ms h

section Runs

variable {ms : List Moment} {m : Moment}

/-- A call adds to the history what it does to the supplied metrics. -/
lemma Moment.supplies (before : m.before.Supplies ms) (entrusted : Entrusted (ms ++ [m])) :
    m.after.Supplies (ms ++ [m]) := by
  obtain ⟨past, now⟩ := entrusted_concat.mp entrusted
  have early : ∀ m' ∈ ms, ∀ h, m'.Replies (.handle h) → ∀ k, h.target = some k →
      k.index < m.before.site.collectors.length :=
    fun m' hm h given k target => (before.fits m' hm h given k target).1
  have late : ∀ h, m.Replies (.handle h) → ∀ k n, m.after.site.collector k = .supplied n →
      h.target = some k → m.before.site.collectors.length ≤ k.index ∧ n.suppliers = ∅ := by
    intro h given k n supplied target
    rcases target_cases before.kept given target with
      ⟨i, instrument, -⟩ | ⟨outside, n', found, -, empty⟩
    · rw [supplied] at instrument
      cases instrument
    · obtain rfl := Collector.supplied.inj (found.symm.trans supplied)
      exact ⟨outside, empty⟩
  have origin : ∀ k n, m.after.site.collector k = .supplied n →
      k.index < m.before.site.collectors.length →
      ∃ n', m.before.site.collector k = .supplied n' := by
    intro k n supplied placed
    refine Collector.supplied_of_declared (m := n) ?_
    rw [← supplied, m.grows.declared k placed]
  refine ⟨Moment.keepsLeading before.kept, ?fits, ?sole, ?held⟩
  case fits =>
    intro m' hm h given
    rcases List.mem_append.mp hm with old | new
    · exact (before.fits m' old h given).grows m.grows
    · obtain rfl := List.mem_singleton.mp new
      exact fits_of_handle before.kept given
  case sole =>
    intro m₁ hm₁ h₁ given₁ m₂ hm₂ h₂ given₂ k n supplied target₁ target₂
    rcases List.mem_append.mp hm₁ with old₁ | new₁ <;>
      rcases List.mem_append.mp hm₂ with old₂ | new₂
    · obtain ⟨n', was⟩ := origin k n supplied (early m₁ old₁ h₁ given₁ k target₁)
      exact before.sole m₁ old₁ h₁ given₁ m₂ old₂ h₂ given₂ k n' was target₁ target₂
    · obtain rfl := List.mem_singleton.mp new₂
      have placed := early m₁ old₁ h₁ given₁ k target₁
      have outside := (late h₂ given₂ k n supplied target₂).1
      omega
    · obtain rfl := List.mem_singleton.mp new₁
      have placed := early m₂ old₂ h₂ given₂ k target₂
      have outside := (late h₁ given₁ k n supplied target₁).1
      omega
    · obtain rfl := List.mem_singleton.mp new₁
      obtain rfl := List.mem_singleton.mp new₂
      exact Reply.handle.inj (Except.ok.inj (given₂.symm.trans given₁))
  case held =>
    intro m' hm h given c k n listed supplied target
    rw [acceptedOf_concat]
    rcases List.mem_append.mp hm with old | new
    · have placed := early m' old h given k target
      have was_listed : k ∈ m.before.listed c := by
        rcases (listed_after listed).2 with listed | ⟨⟨outside, -⟩, -⟩
        · exact listed
        · omega
      obtain ⟨n', was⟩ := origin k n supplied placed
      obtain ⟨n'', is_now, entries⟩ := m.supplied_after was
      obtain rfl := Collector.supplied.inj (is_now.symm.trans supplied)
      rw [entries, before.held m' old h given c k n' was_listed was target]
      congr 1
      -- the only given handle that leads there is this one
      refine accepted_congr fun h' i values called => ⟨fun leads => ?_, fun same => same ▸ target⟩
      obtain ⟨m'', hm'', given''⟩ := now h' i values called
      exact before.sole m' old h given m'' hm'' h' given'' k n' was target leads
    · obtain rfl := List.mem_singleton.mp new
      obtain ⟨outside, empty⟩ := late h given k n supplied target
      have unknown : ∀ m'' ∈ ms, ¬ m''.Replies (.handle h) := by
        intro m'' hm'' given''
        have placed := early m'' hm'' h given'' k target
        omega
      have nothing : m'.accepted (· = h) = [] := by
        refine accepted_eq_nil ?_
        rintro h' i values called rfl
        obtain ⟨m'', hm'', given''⟩ := now h' i values called
        exact absurd given'' (unknown m'' hm'')
      rw [empty, past.acceptedOf_eq_nil unknown, nothing]
      rfl

variable {others : Deployment → Site → Prop} {enabled : Distinct Category} {timers : Bool}
  {r : RegistryId} {s : Site} {d : Deployment}

/-- After a run that hands suppliers only to given handles, listed supplied metrics hold what was
accepted through their handles. -/
lemma Run.supplies (run : Run others ⟨fresh enabled timers r, s⟩ ms d)
    (gentle : ∀ d t, others d t → d.site.Grows t ∧ d.Unchanged t) (entrusted : Entrusted ms) :
    d.Supplies ms := by
  induction run with
  | start =>
    refine ⟨fun kind external h now => ?_, ?_, ?_, ?_⟩
    · cases kind <;> cases now
    all_goals exact fun _ hm => absurd hm List.not_mem_nil
  | @call ms d run call ih =>
    exact Moment.supplies (m := ⟨d, call⟩) (ih (entrusted_concat.mp entrusted).1) entrusted
  | @others ms d t run disturbed ih =>
    obtain ⟨kept, fits, sole, held⟩ := ih entrusted
    obtain ⟨grows, unchanged⟩ := gentle d t disturbed
    refine ⟨kept.goes_on grows fun _ => rfl, fun m hm h given => (fits m hm h given).grows grows,
      fun m hm h given m' hm' h' given' k n supplied target target' => ?_,
      fun m hm h given c k n listed supplied target => ?_⟩
    · have declared := grows.declared k (fits m hm h given k target).1
      obtain ⟨n', was⟩ := Collector.supplied_of_declared (m := n)
        (declared.symm.trans (congrArg Collector.declared supplied))
      exact sole m hm h given m' hm' h' given' k n' was target target'
    · exact held m hm h given c k n listed ((unchanged c k listed).symm.trans supplied) target

/-- What was accepted has a value for each label. -/
lemma Moment.length_of_accepted {h : Handle} {e : List String × SupplierId}
    (member : e ∈ m.accepted (· = h)) : e.1.length = h.arity := by
  obtain ⟨d, call⟩ := m
  rw [accepted] at member
  split at member
  · next h' i values called =>
    obtain rfl : call = .supply h' i values := called
    split at member
    · next taken =>
      obtain ⟨rfl, returned⟩ := taken
      obtain rfl := List.mem_singleton.mp member
      rcases h'.supply_cases i values d.site with ⟨-, refused⟩ | ⟨right, -⟩
      · have failed := (after_of_error (m := ⟨d, .supply h' i values⟩) (ofAction_error refused)).2
        rw [failed] at returned
        cases returned
      · exact right
    · cases member
  · cases member

lemma length_of_acceptedOf {h : Handle} {e : List String × SupplierId}
    (member : e ∈ acceptedOf ms h) : e.1.length = h.arity := by
  obtain ⟨m, -, own⟩ := List.mem_flatMap.mp member
  exact m.length_of_accepted own

section Metrics

variable {kind : SuppliedKind} {c : Category} {name help : String} {labels : List String}
  {h : Handle} {k : CollectorId}

/-- A supplied metric under an enabled category is registered, and is declared as it was asked for
from then on. -/
lemma Run.supplied_of_given {start : Deployment} (run : Run others start ms d)
    (growing : ∀ d t, others d t → d.site.Grows t) (first : start.system.roster.Tidy start.site)
    (member : m ∈ ms) (called : m.call = .supplied kind c name help labels)
    (takesPart : m.before.system.isEnabled c = true) (given : m.Replies (.handle h)) :
    h.arity = labels.length ∧ ∃ k, h.target = some k
      ∧ ∃ n, d.site.collector k = .supplied n ∧ n.kind = kind ∧ n.name = c.external name
        ∧ n.help = help ∧ n.labels = labels := by
  rcases Moment.handle_cases given with
    ⟨kind', c', name', help', labels', same, -⟩ | ⟨kind', c', name', help', labels', same, made⟩
  · rw [called] at same
    cases same
  · rw [called] at same
    cases same
    obtain ⟨-, arity, inert, new⟩ := supplied_ok made
    obtain ⟨k, target⟩ : ∃ k, h.target = some k := by
      rw [takesPart, Handle.inert, Bool.not_true, Option.isNone_eq_false_iff] at inert
      exact Option.isSome_iff_exists.mp inert
    obtain ⟨place, -, -, listed⟩ := new k target
    have registered : m.Registers c k := ⟨by rw [place]; exact Nat.le_refl _, listed⟩
    have offered := run.offered_of_registers growing first member registered
    rw [called] at offered
    have declared := congrArg Prod.snd (List.mem_singleton.mp offered)
    obtain ⟨n, supplied⟩ := Collector.supplied_of_declared
      (m := ⟨kind, c.external name, help, labels, ∅⟩) declared
    rw [supplied] at declared
    simp only [Collector.declared, Collector.supplied.injEq, Supplied.mk.injEq] at declared
    exact ⟨arity, k, target, n, supplied, declared.1, declared.2.1, declared.2.2.1,
      declared.2.2.2.1⟩

end Metrics

/-- A collection of a supplied metric asks each supplier once, in order, and shows what it
answers. -/
lemma Site.collect_supplied {s t : Site} {k : CollectorId} {n : Supplied} {families : List Family}
    (supplied : s.collector k = .supplied n) (collected : collect k s = .ok families t) :
    t = s.noting (.collected k :: n.suppliers.entries.map fun e => .asked e.2)
      ∧ ∃ samples, families = [⟨n.familyName, n.kind.familyType, n.help, samples⟩]
        ∧ samples.map (fun x => (x.name, x.labels)) = n.suppliers.entries.map (fun e =>
          (n.familyName ++ n.kind.ending, Labels.zip n.labels e.1))
        ∧ samples.map (·.value)
          = (s.noting [.collected k]).answersTo (n.suppliers.entries.map Prod.snd) := by
  have ends := collect_noted collected
  rw [visit, supplied] at ends
  have run : collect k s = familiesOf (s.collector k) (s.noting [.collected k]) := rfl
  rw [run, supplied] at collected
  obtain ⟨f, u, declared, rest⟩ := ok_of_bind_ok collected
  obtain ⟨made, rfl⟩ := ofExcept_ok declared
  obtain ⟨rfl, -⟩ := declare_ok made
  obtain ⟨samples, v, asked, given⟩ := ok_of_bind_ok rest
  cases given
  exact ⟨ends, samples, rfl, askAll_ok asked, (askAll_noted asked).1⟩

/-- A supplied metric with different labels that was created under an enabled category. However
suppliers are handed to its handle: while the category lists it, a supplier is refused, without a
trace, if there are too many or too few label values, or else if there has been one for the same
values, and otherwise it is accepted. Unless a supplier raises, each collection succeeds. It asks
each accepted supplier once, in the order of acceptance, and shows one sample for each with what
the supplier answers; its labels are the declared ones with the given values, and these values are
what is read back. -/
theorem supplied_reported {kind : SuppliedKind} {c : Category} {name help : String}
    {labels : List String} {h : Handle} (run : Run others ⟨fresh enabled timers r, s⟩ ms d)
    (gentle : ∀ d t, others d t → d.site.Grows t ∧ d.Unchanged t) (entrusted : Entrusted ms)
    (member : m ∈ ms) (called : m.call = .supplied kind c name help labels)
    (takesPart : m.before.system.isEnabled c = true) (nodup : labels.Nodup)
    (given : m.Replies (.handle h)) :
    ∃ k, h.target = some k ∧ (k ∈ d.listed c →
      let accepted := acceptedOf ms h
      (accepted.map Prod.fst).Nodup
      ∧ (∀ i values,
        (values.length ≠ labels.length ∧ Call.perform (.supply h i values) d
            = .error (.arity labels.length values.length) d)
          ∨ (values.length = labels.length ∧ values ∈ accepted.map Prod.fst
            ∧ Call.perform (.supply h i values) d
              = .error (.combinationTaken (c.external name) values) d)
          ∨ values.length = labels.length ∧ values ∉ accepted.map Prod.fst
            ∧ (∃ e, Call.perform (.supply h i values) d = .ok () e)
            ∧ acceptedOf (ms ++ [⟨d, .supply h i values⟩]) h = accepted ++ [(values, i)])
      ∧ (d.site.Calm → ∀ t, d.site.Notes t → ∃ families u, Site.collect k t = .ok families u)
      ∧ ∀ t families u, d.site.Notes t → Site.collect k t = .ok families u →
        u = t.noting (.collected k :: accepted.map fun e => .asked e.2)
        ∧ ∃ samples,
          families = [⟨kind.familyName (c.external name), kind.familyType, help, samples⟩]
          ∧ samples.map (·.labels.entries) = accepted.map (fun e => labels.zip e.1)
          ∧ ∀ b, (Observation.ofFamilies b c families).map (fun o => (o.labels, o.value))
            = (accepted.map Prod.fst).zip
              ((t.noting [.collected k]).answersTo (accepted.map Prod.snd))) := by
  have growing : ∀ d t, others d t → d.site.Grows t := fun d t h => (gentle d t h).1
  have first := tidy_vacant r s
  obtain ⟨arity, k, target, n, supplied, rfl, external, rfl, rfl⟩ :=
    run.supplied_of_given growing first member called takesPart given
  refine ⟨k, target, fun listed => ?_⟩
  have held := (run.supplies gentle entrusted).held m member h given c k n listed supplied target
  have keys : n.suppliers.keys = (acceptedOf ms h).map Prod.fst := congrArg _ held
  have even : ∀ values ∈ n.suppliers, values.length = n.labels.length := by
    intro values hv
    rw [Index.mem_def, keys] at hv
    obtain ⟨e, he, rfl⟩ := List.mem_map.mp hv
    rw [length_of_acceptedOf he, arity]
  refine ⟨keys ▸ n.suppliers.keys_nodup, fun i values => ?calls, fun calm t notes => ?succeeds,
    fun t families u notes collected => ?shows⟩
  case calls =>
    rw [← keys, ← external, ← arity]
    rcases h.supply_cases i values d.site with
      ⟨wrong, refused⟩ | ⟨right, ⟨l, n', target', found, rest⟩ | ⟨elsewhere, -⟩⟩
    · exact Or.inl ⟨wrong, ofAction_error refused⟩
    · obtain rfl := Option.some.inj (target'.symm.trans target)
      obtain rfl := Collector.supplied.inj (found.symm.trans supplied)
      rcases rest with ⟨taken, refused⟩ | ⟨new, accepted⟩
      · exact Or.inr (Or.inl ⟨right, taken, ofAction_error refused⟩)
      · have ran := ofAction_ok (d := d) accepted
        have returned := (Moment.after_of_ok (m := ⟨d, .supply h i values⟩) ran).2
        refine Or.inr (Or.inr ⟨right, new, ⟨_, ran⟩, ?_⟩)
        rw [acceptedOf_concat, Moment.accepted_supply rfl, if_pos ⟨rfl, returned⟩]
    · exact absurd supplied (elsewhere k n target)
  case succeeds =>
    have nameable : (t.collector k).Nameable := by
      rw [notes.collector]
      exact (run.tidy growing first).nameable listed
    obtain ⟨families, collected⟩ := collect_of_calm (notes.onlyActivity.calm calm) nameable
    exact ⟨families, _, collected⟩
  case shows =>
    have still : t.collector k = .supplied n := by rw [notes.collector, supplied]
    obtain ⟨ends, samples, rfl, shown, answers⟩ := collect_supplied still collected
    have read := labelValues_supplied shown nodup even
    rw [held] at ends answers
    refine ⟨ends, samples, by rw [← external]; rfl, ?_, fun b => ?_⟩
    · have zipped := congrArg (List.map fun e : String × Labels => e.2.entries) shown
      rw [List.map_map, List.map_map, held] at zipped
      refine zipped.trans (List.map_congr_left fun e he => ?_)
      exact Labels.entries_zip nodup ((length_of_acceptedOf he).trans arity)
    · rw [← answers, ← keys, ← read, List.zip_map', Observation.ofFamilies,
        List.flatMap_singleton, List.map_map]
      rfl

end Runs

/-- The handle that the next run is given. -/
def loadHandle : Handle := ⟨0, .supplying, 2, some ⟨0⟩⟩

/-- A supplied gauge with two labels, and four suppliers handed to it: the second one with too few
label values, the third one with those of the first. -/
def loads : List Call :=
  [.supplied .gauge ⟨"shop", none⟩ "load" "h" ["queue", "zone"],
    .supply loadHandle ⟨0⟩ ["mail", "eu"], .supply loadHandle ⟨0⟩ ["mail"],
    .supply loadHandle ⟨0⟩ ["mail", "eu"], .supply loadHandle ⟨0⟩ ["web", "us"]]

lemma loads_entrusted : Entrusted (moments (.small [⟨"shop", none⟩]) loads) := by
  refine entrusted_concat.mpr ⟨entrusted_concat.mpr ⟨entrusted_concat.mpr ⟨entrusted_concat.mpr
    ⟨entrusted_concat.mpr ⟨entrusted_nil, ?_⟩, ?_⟩, ?_⟩, ?_⟩, ?_⟩
  case refine_1 => rintro _ _ _ ⟨⟩
  all_goals
    -- the handle was given by the first call
    rintro _ _ _ ⟨⟩
    exact ⟨_, List.mem_cons_self, rfl⟩

lemma accepted_loads : acceptedOf (moments (.small [⟨"shop", none⟩]) loads) loadHandle
    = [(["mail", "eu"], ⟨0⟩), (["web", "us"], ⟨0⟩)] := rfl

theorem supplied_reported_loads :
    let c : Category := ⟨"shop", none⟩
    let m : Moment := ⟨.small [c], .supplied .gauge c "load" "h" ["queue", "zone"]⟩
    let d := reached (.small [c]) loads
    Entrusted (moments (.small [c]) loads) ∧ m ∈ moments (.small [c]) loads
      ∧ m.before.system.isEnabled c = true ∧ ["queue", "zone"].Nodup
      ∧ m.Replies (.handle loadHandle) ∧ ⟨0⟩ ∈ d.listed c ∧ d.site.Calm
      ∧ Call.perform (.supply loadHandle ⟨0⟩ ["web", "us"]) d
        = .error (.combinationTaken "shop_load" ["web", "us"]) d
      ∧ ∃ families u, Site.collect ⟨0⟩ d.site = .ok families u
        ∧ (Observation.ofFamilies d.system.book c families).map (fun o => (o.labels, o.value))
          = [(["mail", "eu"], some 3), (["web", "us"], some 3)] := by
  intro c m d
  have member : m ∈ moments (.small [c]) loads := List.mem_cons_self
  have enabled : m.before.system.isEnabled c = true := by decide +kernel
  have given : m.Replies (.handle loadHandle) := rfl
  have listed : ⟨0⟩ ∈ d.listed c := by decide +kernel
  have suppliers : d.site.suppliers = Site.small.suppliers := rfl
  have calm : d.site.Calm := by
    rw [Site.Calm, suppliers]
    exact Site.small_calm
  have run := Run.of_calls (fun d t => d.site.Grows t ∧ d.Unchanged t) (.small [c]) loads
  obtain ⟨k, target, reported⟩ := supplied_reported run (fun _ _ gentle => gentle) loads_entrusted
    member rfl enabled (by decide) given
  cases target
  obtain ⟨-, calls, succeeds, shows⟩ := reported listed
  rw [accepted_loads] at calls shows
  have again : Call.perform (.supply loadHandle ⟨0⟩ ["web", "us"]) d
      = .error (.combinationTaken "shop_load" ["web", "us"]) d := by
    rcases calls ⟨0⟩ ["web", "us"] with ⟨wrong, -⟩ | ⟨-, -, refused⟩ | ⟨-, new, -⟩
    · exact absurd rfl wrong
    · exact refused
    · exact absurd (by decide) new
  obtain ⟨families, u, collected⟩ := succeeds calm d.site (Std.Refl.refl _)
  obtain ⟨-, samples, -, -, read⟩ := shows d.site families u (Std.Refl.refl _) collected
  have answers : (d.site.noting [.collected ⟨0⟩]).answersTo [⟨0⟩, ⟨0⟩] = [some 3, some 3] := rfl
  refine ⟨loads_entrusted, member, enabled, by decide, given, listed, calm, again, families, u,
    collected, (read _).trans ?_⟩
  exact congrArg _ answers

end Metering
