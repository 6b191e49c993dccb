import Metering.Proofs.RefusedNames

/-!
# Clearing

A dismissal releases a collector as often as it is listed, while a registry holds it once. So a
dismissal completes as long as the lists and the registry agree (`Roster.Level`). They come apart,
for good until the next dismissal, by a registration that doubles something (`Roster.Turn.Doubles`):
the collector stays listed beside its new listing, or claims a name twice. Where nothing is doubled
the registry is rid of all that was registered, once the roster has been dismissed.
-/

namespace Metering

open Site Metering.System

/-- The names of an instrument are always known, those of another collector to a registry that
describes. -/
lemma Collector.claims_ne_nil_iff {x : Collector} {describes : Bool} :
    x.claims describes ≠ []
      ↔ (∃ i, x = .instrument i) ∨ describes = true ∧ x.familyNames ≠ [] := by
  have claiming : ∀ entries : List (FamilyType × String),
      (entries.flatMap fun e => Family.claimsOf e.1 e.2) ≠ [] ↔ entries.map Prod.snd ≠ [] := by
    intro entries
    cases entries <;> simp [Family.claimsOf]
  rw [familyNames_eq]
  cases x with
  | instrument i => exact iff_of_true (List.cons_ne_nil _ _) (Or.inl ⟨i, rfl⟩)
  | _ =>
    cases describes with
    | false => simp [claims]
    | true =>
      refine (claiming _).trans ⟨fun named => Or.inr ⟨rfl, named⟩, ?_⟩
      rintro (⟨i, same⟩ | ⟨-, named⟩)
      · cases same
      · exact named

/-- The registry does not hold the collector, and nobody owns a name that the collector claims. -/
structure Site.RidOf (s : Site) (i : RegistryId) (k : CollectorId) : Prop where
  held : k ∉ (s.registry i).held
  owned : ∀ name ∈ (s.collector k).claims (s.registry i).describes, name ∉ (s.registry i).owners

/-- What happens beside a registry while no supplier raises. -/
structure Site.CalmBeside (i : RegistryId) (s t : Site) : Prop where
  beside : s.Beside i t
  room : s.registries.length ≤ t.registries.length
  calm : t.Calm

namespace Roster

namespace Turn

/-- The names that a collector claims in the registry that the call finds. -/
def claims (m : Turn) (k : CollectorId) : List String :=
  (m.site.collector k).claims (m.site.registry m.roster.registry).describes

/-- The registry that the call finds learns the names of the collector: it is an instrument, or it
has a family and the registry describes. -/
def Knows (m : Turn) (k : CollectorId) : Prop :=
  (∃ i, m.site.collector k = .instrument i)
    ∨ (m.site.registry m.roster.registry).describes = true
      ∧ (m.site.collector k).familyNames ≠ []

/-- The call registered a collector. -/
def Registers (m : Turn) (c : Category) (k : CollectorId) : Prop :=
  m.call = .register c k ∧ ∃ r t, m.roster.register c k m.site = .ok r t

/-- The call registered a collector that claims a name twice, or one that was listed already and has
not made way for itself: it was listed under another category, or has no family. -/
def Doubles (m : Turn) : Prop :=
  ∃ c k, m.Registers c k
    ∧ ((∃ c', k ∈ m.roster.ofCategory c' ∧ (c' ≠ c ∨ (m.site.collector k).familyNames = []))
      ∨ ¬ (m.claims k).Nodup)

end Turn

variable {r r' : Roster} {c : Category} {j k : CollectorId} {s t : Site} {fault : Fault}

lemma Turn.not_registers_of_error (failed : r.register c k s = .error fault t) (c' : Category)
    (j : CollectorId) : ¬ Turn.Registers ⟨r, s, .register c k⟩ c' j := by
  rintro ⟨called, r', t', ok⟩
  cases called
  rw [failed] at ok
  cases ok

lemma shares_self_iff {x : Collector} : x.Shares x ↔ x.familyNames ≠ [] := by
  constructor
  · rintro ⟨name, member, -⟩
    exact List.ne_nil_of_mem member
  · intro some_name
    obtain ⟨name, member⟩ := List.exists_mem_of_ne_nil _ some_name
    exact ⟨name, member, member⟩

/-- A registration that doubles nothing found its collector listed as its own rival, if at all. -/
lemma not_doubles_iff (registered : r.register c k s = .ok r' t) :
    ¬ Turn.Doubles ⟨r, s, .register c k⟩
      ↔ (∀ c', k ∈ r.ofCategory c' → c' = c ∧ (s.collector k).Shares (s.collector k))
        ∧ ((s.collector k).claims (s.registry r.registry).describes).Nodup := by
  constructor
  · intro single
    constructor
    · intro c' listed
      rw [shares_self_iff]
      by_contra other
      refine single ⟨c, k, ⟨rfl, r', t, registered⟩, Or.inl ⟨c', listed, ?_⟩⟩
      by_contra neither
      rw [not_or, not_not] at neither
      exact other neither
    · by_contra repeated
      exact single ⟨c, k, ⟨rfl, r', t, registered⟩, Or.inr repeated⟩
  · rintro ⟨own_rival, nodup⟩ ⟨c, k, ⟨called, -⟩, ⟨c', listed, beside⟩ | repeated⟩
    · cases called
      obtain ⟨same, shared⟩ := own_rival c' listed
      exact beside.elim (· same) (shares_self_iff.mp shared)
    · cases called
      exact repeated nodup

/-- A category lists nobody twice if neither the rivals of a collector nor the bystanders do. -/
lemma nodup_of_parted (rivals : (r.rivals s c k).Nodup) (bystanders : (r.bystanders s c k).Nodup) :
    (r.ofCategory c).Nodup := by
  rw [← (List.filter_append_perm (fun j => decide ((s.collector k).Shares (s.collector j)))
    (r.ofCategory c)).nodup_iff]
  rw [Roster.bystanders] at bystanders
  simp only [decide_not] at bystanders
  refine List.nodup_append.mpr ⟨rivals, bystanders, ?_⟩
  rintro j rival _ stays rfl
  simp only [List.mem_filter] at rival stays
  simp [rival.2] at stays

/-- Every collector is listed once, and held with names that differ from one another. -/
structure Level (r : Roster) (s : Site) : Prop where
  nodup : ∀ c, (r.ofCategory c).Nodup
  apart : ∀ {k c c'}, k ∈ r.ofCategory c → k ∈ r.ofCategory c' → c = c'
  held : ∀ {k c}, k ∈ r.ofCategory c →
    ∃ own, (s.registry r.registry).held.get? k = some own ∧ own.Nodup

/-- A dismissal completes only if the lists and the registry agree. -/
lemma level_of_dismiss_ok {x : Unit} (ok : r.dismiss s = .ok x t) : r.Level s := by
  obtain ⟨⟨⟩, u, released, -⟩ := ok_of_bind_ok ok
  obtain ⟨distinct, held, -⟩ := held_of_released released
  obtain ⟨nodup, apart⟩ := nodup_collectors_iff.mp distinct
  exact ⟨nodup, apart, fun listed => held _ (mem_collectors.mpr ⟨_, listed⟩)⟩

section Registered

variable (ok : r.register c k s = .ok r' t) (level : r'.Level t)

include ok level

/-- The new collector was listed as its own rival, if at all, or it would be listed twice now. -/
lemma own_rival_of_level {c' : Category} (old : k ∈ r.ofCategory c') :
    c' = c ∧ (s.collector k).Shares (s.collector k) := by
  obtain ⟨rfl, -, -⟩ := exchanged_of_register_ok ok
  by_contra other
  have still := mem_ofCategory_publish.mpr (Or.inl ⟨old, other⟩)
  obtain rfl := level.apart still new_listed_publish
  have once := level.nodup c'
  rw [ofCategory_publish, if_pos rfl] at once
  have stayed := mem_bystanders.mpr ⟨old, fun shared => other ⟨rfl, shared⟩⟩
  exact (List.nodup_append.mp once).2.2 k stayed k (List.mem_singleton_self k) rfl

/-- Whoever else is listed was held before, and is no rival. -/
lemma held_of_level {j : CollectorId} {c' : Category} (other : j ≠ k)
    (listed : j ∈ r'.ofCategory c') : j ∉ r.rivals s c k
      ∧ ∃ own, (s.registry r.registry).held.get? j = some own ∧ own.Nodup := by
  obtain ⟨own, held, differ⟩ := level.held listed
  obtain ⟨rfl, -, -⟩ := exchanged_of_register_ok ok
  obtain ⟨before, stays⟩ := (held_of_register_ok ok held).resolve_left other
  exact ⟨stays, own, before, differ⟩

/-- A rival was listed under no other category, as it has left the registry. -/
lemma category_of_rival {j : CollectorId} {c' : Category} (rival : j ∈ r.rivals s c k)
    (listed : j ∈ r.ofCategory c') : c' = c := by
  by_cases new : j = k
  · exact (own_rival_of_level ok level (new ▸ listed)).1
  · by_contra elsewhere
    have still : j ∈ r'.ofCategory c' := by
      obtain ⟨rfl, -, -⟩ := exchanged_of_register_ok ok
      exact mem_ofCategory_publish.mpr (Or.inl ⟨listed, fun h => elsewhere h.1⟩)
    exact (held_of_level ok level new still).1 rival

/-- If the lists and the registry agree after a registration they agreed before, and the
registration has doubled nothing. -/
lemma level_of_register_ok : r.Level s ∧ ¬ Turn.Doubles ⟨r, s, .register c k⟩ := by
  have frame := (register_moves r c k).of_ok ok
  have own_rival : ∀ c', k ∈ r.ofCategory c' → c' = c ∧ (s.collector k).Shares (s.collector k) :=
    fun _ => own_rival_of_level ok level
  have elsewhere : ∀ {j c'}, j ∈ r.ofCategory c' → j ∉ r.rivals s c k → j ∈ r'.ofCategory c' := by
    intro j c' old stays
    obtain ⟨rfl, -, -⟩ := exchanged_of_register_ok ok
    exact listed_publish old stays
  have here : k ∈ r'.ofCategory c := by
    obtain ⟨rfl, -, -⟩ := exchanged_of_register_ok ok
    exact new_listed_publish
  obtain ⟨claimed, entered, differ⟩ := level.held here
  have same : r'.registry = r.registry := by rw [(exchanged_of_register_ok ok).1]; rfl
  rw [same] at entered
  obtain ⟨distinct, were, reg, gone, without, now⟩ :=
    rivals_of_register_ok ok (frame.room ▸ room_of_held entered)
  rw [not_doubles_iff ok]
  refine ⟨⟨?_, ?_, ?_⟩, own_rival, ?_⟩
  · intro c'
    have once := level.nodup c'
    rw [(exchanged_of_register_ok ok).1, ofCategory_publish] at once
    split at once
    · next h =>
      subst h
      exact nodup_of_parted distinct (List.nodup_append.mp once).1
    · exact once
  · intro j c₁ c₂ first second
    by_cases rival : j ∈ r.rivals s c k
    · exact (category_of_rival ok level rival first).trans
        (category_of_rival ok level rival second).symm
    · exact level.apart (elsewhere first rival) (elsewhere second rival)
  · intro j c' listed
    by_cases rival : j ∈ r.rivals s c k
    · exact were j rival
    · have other : j ≠ k := by
        rintro rfl
        obtain ⟨rfl, shared⟩ := own_rival c' listed
        exact rival (mem_rivals.mpr ⟨listed, shared⟩)
      exact (held_of_level ok level other (elsewhere listed rival)).2
  · rw [now, Registry.get?_held_enter, if_pos rfl] at entered
    rw [Option.some.inj entered]
    exact differ

end Registered

/-- A registration that fails does not make the lists and the registry agree. -/
lemma level_of_register_error (failed : r.register c k s = .error fault t) (level : r.Level t) :
    r.Level s := by
  refine ⟨level.nodup, level.apart, fun listed => ?_⟩
  obtain ⟨own, held, differ⟩ := level.held listed
  obtain ⟨old, before, same | differed⟩ := held_of_register_error failed held
  · exact ⟨old, before, same ▸ differ⟩
  · exact ⟨old, before, differed⟩

lemma level_of_beside (beside : s.Beside r.registry t) (level : r.Level t) : r.Level s := by
  refine ⟨level.nodup, level.apart, fun listed => ?_⟩
  rw [← beside.registry]
  exact level.held listed

/-- If every dismissal of a run completes, and the lists and the registry agree at its end, then
nothing was doubled on the way. -/
lemma Run.not_doubles {others : RegistryId → Site → Site → Prop} {r₀ : Roster} {s₀ : Site}
    {turns : List Turn} (run : Run others r₀ s₀ turns r s)
    (beside : ∀ i s t, others i s t → s.Beside i t) (level : r.Level s)
    (complete : ∀ m ∈ turns, ¬ m.Breaks) : ∀ m ∈ turns, ¬ m.Doubles := by
  induction run with
  | start => exact fun _ h => absurd h List.not_mem_nil
  | @call turns r s run call placed ih =>
    rw [List.forall_mem_append, List.forall_mem_singleton] at complete ⊢
    obtain ⟨earlier, last⟩ := complete
    have before : r.Level s ∧ ¬ Turn.Doubles ⟨r, s, call⟩ := by
      cases call with
      | register c k =>
        rcases after_register r s c k with ⟨r', t, ok, ends⟩ | ⟨fault, t, failed, ends⟩
        · rw [ends] at level
          exact level_of_register_ok ok level
        · rw [ends] at level
          refine ⟨level_of_register_error failed level, ?_⟩
          rintro ⟨c, k, registered, -⟩
          exact Turn.not_registers_of_error failed c k registered
      | dismiss =>
        cases ends : r.dismiss s with
        | error fault t => exact absurd ⟨rfl, fault, t, ends⟩ last
        | ok x t =>
          refine ⟨level_of_dismiss_ok ends, ?_⟩
          rintro ⟨c, k, ⟨called, -⟩, -⟩
          cases called
    exact ⟨ih before.1 earlier, before.2⟩
  | others _ h ih => exact ih (level_of_beside (beside _ _ _ h) level) complete

/-- A roster that is tidy and backed, on a site whose suppliers do not raise. -/
structure Sound (r : Roster) (s : Site) : Prop where
  tidy : r.Tidy s
  backed : r.Backed s
  calm : s.Calm

namespace Sound

lemma vacant {i : RegistryId} (room : i.index < s.registries.length) (calm : s.Calm) :
    (Roster.vacant i).Sound s := ⟨tidy_vacant i s, backed_vacant room, calm⟩

lemma register_ok (sound : r.Sound s) (placed : k.index < s.collectors.length)
    (ok : r.register c k s = .ok r' t) (single : ¬ Turn.Doubles ⟨r, s, .register c k⟩) :
    r'.Sound t := by
  have frame := (register_moves r c k).of_ok ok
  obtain ⟨own_rival, nodup⟩ := (not_doubles_iff ok).mp single
  refine ⟨?_, backed_of_register_ok sound.tidy sound.backed nodup ok, frame.calm sound.calm⟩
  obtain ⟨rfl, nameable, -⟩ := exchanged_of_register_ok ok
  exact (sound.tidy.publish placed own_rival nameable).grows frame.grows

lemma register_error (sound : r.Sound s) (failed : r.register c k s = .error fault t) :
    r.Sound t := by
  obtain ⟨frame, unchanged⟩ :=
    unchanged_of_register_error sound.calm sound.tidy sound.backed failed
  exact ⟨sound.tidy.grows frame.grows, sound.backed.of_unchanged frame unchanged,
    frame.calm sound.calm⟩

lemma dismiss (sound : r.Sound s) : r.emptied.Sound (endOf (r.dismiss s)) := by
  have frame := dismiss_moves r s
  exact Sound.vacant (frame.room ▸ sound.backed.room) (frame.calm sound.calm)

lemma beside (sound : r.Sound s) (h : s.CalmBeside r.registry t) : r.Sound t :=
  ⟨sound.tidy.grows h.beside.grows,
    sound.backed.grows sound.tidy h.beside.grows h.room h.beside.registry, h.calm⟩

lemma added (sound : r.Sound s) (x : Collector) : r.Sound (s.withAdded x) := by
  have aside := withAdded_aside s x
  exact ⟨sound.tidy.grows aside.grows,
    sound.backed.grows sound.tidy aside.grows (Nat.le_refl _) (aside.registry _),
    aside.calm sound.calm⟩

/-- Only a collector without a claimed name can be registered and stay listed where it was. -/
lemma claims_eq_nil (sound : r.Sound s) (ok : r.register c k s = .ok r' t) {c' : Category}
    (listed : k ∈ r.ofCategory c') (stays : c' ≠ c ∨ (s.collector k).familyNames = []) :
    (s.collector k).claims (s.registry r.registry).describes = [] := by
  obtain ⟨-, reg, without, -, free⟩ := entered_of_register_ok sound.tidy sound.backed ok
  rw [List.eq_nil_iff_forall_not_mem]
  intro name claimed
  have holds := sound.backed.holds listed
  have unowned := free name claimed
  rw [without.owners] at unowned
  split at unowned
  · next gone =>
    obtain ⟨j, rival, shared⟩ := List.mem_flatMap.mp gone
    obtain ⟨here, unparted⟩ := mem_rivals.mp rival
    obtain rfl := holds.apart (sound.backed.holds here) claimed shared
    exact stays.elim (· (sound.tidy.apart listed here)) (shares_self_iff.mp unparted)
  · rw [holds.owned name claimed] at unowned
    cases unowned

end Sound

/-- If the registry holds the collector it is listed, and whoever owns a name that the collector
claims is listed and claims it too. -/
structure Accounts (r : Roster) (s : Site) (k : CollectorId) : Prop where
  placed : k.index < s.collectors.length
  held : k ∈ (s.registry r.registry).held → ∃ c, k ∈ r.ofCategory c
  owned : ∀ name ∈ (s.collector k).claims (s.registry r.registry).describes, ∀ j,
    (s.registry r.registry).owners.get? name = some j →
      (∃ c, j ∈ r.ofCategory c) ∧ name ∈ (s.collector j).claims (s.registry r.registry).describes

namespace Accounts

/-- Whoever is registered is accounted for, and so is everyone who was. -/
lemma register_ok (sound : r.Sound s) (placed : k.index < s.collectors.length)
    (ok : r.register c k s = .ok r' t) (known : j = k ∨ r.Accounts s j) : r'.Accounts t j := by
  obtain ⟨rfl, -, -⟩ := exchanged_of_register_ok ok
  obtain ⟨frame, reg, without, now, free⟩ := entered_of_register_ok sound.tidy sound.backed ok
  refine ⟨?_, ?_, ?_⟩
  · have room := frame.grows.room
    rcases known with rfl | accounts
    · omega
    · have before := accounts.placed
      omega
  · intro held
    change j ∈ (t.registry r.registry).held at held
    rw [now] at held
    rcases without.of_held_enter held with rfl | ⟨old, stays⟩
    · exact ⟨c, new_listed_publish⟩
    · rcases known with rfl | accounts
      · exact ⟨c, new_listed_publish⟩
      · obtain ⟨c', listed⟩ := accounts.held old
        exact ⟨c', listed_publish listed stays⟩
  · intro name claimed owner owned
    change name ∈ (t.collector j).claims (t.registry r.registry).describes at claimed
    change (t.registry r.registry).owners.get? name = some owner at owned
    change _ ∧ name ∈ (t.collector owner).claims (t.registry r.registry).describes
    rw [now, Registry.enter_describes, without.describes, frame.collector] at claimed ⊢
    rw [now] at owned
    rcases without.of_owned_enter owned with ⟨rfl, own⟩ | ⟨old, spared⟩
    · exact ⟨⟨c, new_listed_publish⟩, own⟩
    · rcases known with rfl | accounts
      · rw [Registry.get?_owners_enter, if_pos claimed] at owned
        obtain rfl := Option.some.inj owned
        exact ⟨⟨c, new_listed_publish⟩, claimed⟩
      · obtain ⟨⟨c', listed⟩, own⟩ := accounts.owned name claimed owner old
        refine ⟨⟨c', listed_publish listed fun rival => spared ?_⟩, own⟩
        exact List.mem_flatMap.mpr ⟨owner, rival, own⟩

lemma register_error (accounts : r.Accounts s j) (sound : r.Sound s)
    (failed : r.register c k s = .error fault t) : r.Accounts t j := by
  obtain ⟨frame, unchanged⟩ :=
    unchanged_of_register_error sound.calm sound.tidy sound.backed failed
  refine ⟨Nat.lt_of_lt_of_le accounts.placed frame.grows.room, ?_, ?_⟩
  · intro held
    exact accounts.held (unchanged.mem_held.mp held).1
  · intro name claimed owner owned
    rw [unchanged.describes, frame.collector] at claimed
    rw [unchanged.owners, if_neg List.not_mem_nil] at owned
    rw [unchanged.describes, frame.collector]
    exact accounts.owned name claimed owner owned

lemma beside (accounts : r.Accounts s j) (tidy : r.Tidy s) (h : s.Beside r.registry t) :
    r.Accounts t j := by
  refine ⟨Nat.lt_of_lt_of_le accounts.placed h.grows.room, ?_, ?_⟩
  · rw [h.registry]
    exact accounts.held
  · rw [h.registry, Collector.claims_congr (h.grows.declared j accounts.placed)]
    intro name claimed owner owned
    obtain ⟨⟨c, listed⟩, own⟩ := accounts.owned name claimed owner owned
    rw [Collector.claims_congr (h.grows.declared owner (tidy.placed listed))]
    exact ⟨⟨c, listed⟩, own⟩

/-- A dismissal takes out all that is listed, and with it whoever owned a name. -/
lemma dismiss (accounts : r.Accounts s j) (sound : r.Sound s) :
    r.emptied.Accounts (endOf (r.dismiss s)) j := by
  obtain ⟨t, ok, without⟩ := dismiss_ok sound.tidy sound.backed
  have frame := (dismiss_moves r).of_ok ok
  rw [ok, endOf]
  refine ⟨Nat.lt_of_lt_of_le accounts.placed frame.grows.room, ?_, ?_⟩
  · intro held
    obtain ⟨before, unlisted⟩ := without.mem_held.mp held
    exact absurd (mem_collectors.mpr (accounts.held before)) unlisted
  · intro name claimed owner owned
    change (t.registry r.registry).owners.get? name = some owner at owned
    change name ∈ (t.collector j).claims (t.registry r.registry).describes at claimed
    rw [frame.collector, without.describes] at claimed
    rw [without.owners] at owned
    split at owned
    · cases owned
    · next spared =>
      obtain ⟨listed, own⟩ := accounts.owned name claimed owner owned
      exact absurd (List.mem_flatMap.mpr ⟨owner, mem_collectors.mpr listed, own⟩) spared

/-- Where nothing is listed, the registry is rid of whoever is accounted for. -/
lemma ridOf {i : RegistryId} (accounts : (Roster.vacant i).Accounts s j) : s.RidOf i j := by
  have unlisted : ∀ k, ¬ ∃ c, k ∈ (Roster.vacant i).ofCategory c :=
    fun k ⟨_, listed⟩ => List.not_mem_nil listed
  constructor
  · exact fun held => unlisted j (accounts.held held)
  · intro name claimed owned
    apply Index.get?_eq_none_iff.mp _ owned
    cases found : (s.registry i).owners.get? name with
    | none => rfl
    | some owner => exact absurd (accounts.owned name claimed owner found).1 (unlisted owner)

end Accounts

section Runs

variable {i : RegistryId} {s₀ : Site} {turns : List Turn}

/-- While nothing is doubled the roster stays sound, and whoever was registered is accounted for. -/
lemma Run.sound (run : Run CalmBeside (.vacant i) s₀ turns r s)
    (room : i.index < s₀.registries.length) (calm : s₀.Calm)
    (single : ∀ m ∈ turns, ¬ m.Doubles) :
    r.Sound s ∧ ∀ m ∈ turns, ∀ c k, m.Registers c k → r.Accounts s k := by
  induction run with
  | start => exact ⟨Sound.vacant room calm, fun _ h => absurd h List.not_mem_nil⟩
  | @call turns r s run call placed ih =>
    rw [List.forall_mem_append, List.forall_mem_singleton] at single ⊢
    obtain ⟨earlier, last⟩ := single
    obtain ⟨sound, accounts⟩ := ih earlier
    cases call with
    | register c k =>
      rcases after_register r s c k with ⟨r', t, ok, ends⟩ | ⟨fault, t, failed, ends⟩
      · rw [ends]
        refine ⟨sound.register_ok placed ok last, ?_, ?_⟩
        · intro m member c' j registered
          exact .register_ok sound placed ok (Or.inr (accounts m member c' j registered))
        · rintro c' j ⟨called, -⟩
          cases called
          exact .register_ok sound placed ok (Or.inl rfl)
      · rw [ends]
        refine ⟨sound.register_error failed, ?_, ?_⟩
        · intro m member c' j registered
          exact (accounts m member c' j registered).register_error sound failed
        · intro c' j registered
          exact absurd registered (Turn.not_registers_of_error failed c' j)
    | dismiss =>
      rw [after_dismiss]
      refine ⟨sound.dismiss, ?_, ?_⟩
      · intro m member c j registered
        exact (accounts m member c j registered).dismiss sound
      · rintro c j ⟨called, -⟩
        cases called
  | others _ h ih =>
    obtain ⟨sound, accounts⟩ := ih single
    exact ⟨sound.beside h, fun m member c k registered =>
      (accounts m member c k registered).beside sound.tidy h.beside⟩

/-- While nothing is doubled every dismissal completes. -/
lemma Run.not_breaks (run : Run CalmBeside (.vacant i) s₀ turns r s)
    (room : i.index < s₀.registries.length) (calm : s₀.Calm)
    (single : ∀ m ∈ turns, ¬ m.Doubles) : ∀ m ∈ turns, ¬ m.Breaks := by
  induction run with
  | start => exact fun _ h => absurd h List.not_mem_nil
  | @call turns r s run call placed ih =>
    rw [List.forall_mem_append, List.forall_mem_singleton] at single ⊢
    obtain ⟨earlier, -⟩ := single
    refine ⟨ih earlier, ?_⟩
    rintro ⟨called, fault, t, failed⟩
    obtain ⟨sound, -⟩ := run.sound room calm earlier
    obtain ⟨u, ok, -⟩ := dismiss_ok sound.tidy sound.backed
    have same : r.dismiss s = .error fault t := failed
    rw [ok] at same
    cases same
  | others _ _ ih => exact ih single

/-- An instrument, and on a registry that describes any collector with a family, is never doubled,
unless it claims a name twice. -/
lemma Run.not_doubles_of_known (run : Run CalmBeside (.vacant i) s₀ turns r s)
    (room : i.index < s₀.registries.length) (calm : s₀.Calm)
    (known : ∀ m ∈ turns, ∀ c k, m.Registers c k → m.Knows k ∧ (m.claims k).Nodup) :
    ∀ m ∈ turns, ¬ m.Doubles := by
  induction run with
  | start => exact fun _ h => absurd h List.not_mem_nil
  | @call turns r s run call placed ih =>
    rw [List.forall_mem_append, List.forall_mem_singleton] at known ⊢
    obtain ⟨earlier, last⟩ := known
    refine ⟨ih earlier, ?_⟩
    rintro ⟨c, k, registered, ⟨c', listed, stays⟩ | repeated⟩
    · obtain ⟨sound, -⟩ := run.sound room calm (ih earlier)
      have claiming := Collector.claims_ne_nil_iff.mpr (last c k registered).1
      obtain ⟨-, r', t, ok⟩ := registered
      exact claiming (sound.claims_eq_nil ok listed stays)
    · exact repeated (last c k registered).2
  | others _ _ ih => exact ih known

/-- On whatever registry, and while no supplier raises: all dismissals of a run complete, and so
does the next one, exactly if no registration has doubled anything. Then nothing is listed any more,
and the registry is rid of every collector that was registered. Only a collector whose names the
registry does not learn, or that claims a name twice, can ever be doubled. -/
theorem dismissals_complete_iff (run : Run CalmBeside (.vacant i) s₀ turns r s)
    (room : i.index < s₀.registries.length) (calm : s₀.Calm) :
    ((∀ m ∈ turns, ¬ m.Breaks) ∧ (∃ t, r.dismiss s = .ok () t) ↔ ∀ m ∈ turns, ¬ m.Doubles)
    ∧ ((∀ m ∈ turns, ¬ m.Doubles) →
      (Turn.after ⟨r, s, .dismiss⟩).1.categories = []
      ∧ ∀ m ∈ turns, ∀ c k, m.Registers c k →
        (Turn.after ⟨r, s, .dismiss⟩).2.RidOf r.registry k)
    ∧ ((∀ m ∈ turns, ∀ c k, m.Registers c k → m.Knows k ∧ (m.claims k).Nodup) →
      ∀ m ∈ turns, ¬ m.Doubles) := by
  refine ⟨⟨?_, ?_⟩, ?_, run.not_doubles_of_known room calm⟩
  · rintro ⟨complete, t, ok⟩
    exact run.not_doubles (fun _ _ _ h => h.beside) (level_of_dismiss_ok ok) complete
  · intro single
    obtain ⟨sound, -⟩ := run.sound room calm single
    obtain ⟨t, ok, -⟩ := dismiss_ok sound.tidy sound.backed
    exact ⟨run.not_breaks room calm single, t, ok⟩
  · intro single
    obtain ⟨sound, accounts⟩ := run.sound room calm single
    refine ⟨rfl, fun m member c k registered => ?_⟩
    exact ((accounts m member c k registered).dismiss sound).ridOf

end Runs

/-- A site with two collectors of one family each and one without a family. -/
def clearingSite : Site :=
  { collectors := [.fixed [⟨"a", .gauge, "h", []⟩], .fixed [⟨"b", .gauge, "h", []⟩], .fixed []]
    registries := [.vacant true] }

lemma clearingSite_calm : clearingSite.Calm := fun _ h => absurd h List.not_mem_nil

/-- Two collectors are registered and the roster is dismissed. -/
theorem dismissals_complete_iff_both : ∃ turns r s,
    Run CalmBeside (.vacant ⟨0⟩) clearingSite turns r s
      ∧ (⟨0⟩ : RegistryId).index < clearingSite.registries.length ∧ clearingSite.Calm
      ∧ (∃ t, r.dismiss s = .ok () t) ∧ (Turn.after ⟨r, s, .dismiss⟩).1.categories = []
      ∧ (Turn.after ⟨r, s, .dismiss⟩).2.RidOf ⟨0⟩ ⟨0⟩
      ∧ (Turn.after ⟨r, s, .dismiss⟩).2.RidOf ⟨0⟩ ⟨1⟩ := by
  have run := ((@Run.start CalmBeside (.vacant ⟨0⟩) clearingSite).call
    (.register ⟨"shop", none⟩ ⟨0⟩) (by decide)).call (.register ⟨"shop", none⟩ ⟨1⟩) (by decide)
  obtain ⟨complete, clears, known⟩ := dismissals_complete_iff run (by decide) clearingSite_calm
  have single := known fun m member c k registered => by
    simp only [List.nil_append, List.mem_append, List.mem_singleton] at member
    rcases member with rfl | rfl <;> cases registered.1 <;>
      exact ⟨Or.inr ⟨by decide +kernel, by decide +kernel⟩, by decide +kernel⟩
  obtain ⟨unlisted, rid⟩ := clears single
  refine ⟨_, _, _, run, by decide, clearingSite_calm, (complete.mpr single).2, unlisted, ?_, ?_⟩
  · exact rid _ (List.mem_append_left _ (List.mem_append_right [] List.mem_cons_self))
      ⟨"shop", none⟩ ⟨0⟩ ⟨rfl, _, _, rfl⟩
  · exact rid _ (List.mem_append_right _ List.mem_cons_self) ⟨"shop", none⟩ ⟨1⟩ ⟨rfl, _, _, rfl⟩

/-- The collector without a family is listed twice and held once, so the dismissal breaks off at its
second listing, and what is listed after it stays in the registry. -/
theorem cleared_halfway :
    let state := afterCalls (.vacant ⟨0⟩, clearingSite)
      [.register ⟨"shop", none⟩ ⟨2⟩, .register ⟨"shop", none⟩ ⟨2⟩, .register ⟨"bank", none⟩ ⟨0⟩]
    (∃ turns, Run CalmBeside (.vacant ⟨0⟩) clearingSite turns state.1 state.2)
      ∧ clearingSite.Calm
      ∧ ∃ t, state.1.dismiss state.2 = .error .notHeld t
        ∧ ⟨0⟩ ∈ (t.registry ⟨0⟩).held ∧ "a" ∈ (t.registry ⟨0⟩).owners := by
  obtain ⟨turns, run⟩ := (@Run.start CalmBeside (.vacant ⟨0⟩) clearingSite).append_calls
    [.register ⟨"shop", none⟩ ⟨2⟩, .register ⟨"shop", none⟩ ⟨2⟩, .register ⟨"bank", none⟩ ⟨0⟩]
    (by decide)
  exact ⟨⟨_, run⟩, clearingSite_calm, _, rfl, by decide +kernel, by decide +kernel⟩

end Roster

end Metering
