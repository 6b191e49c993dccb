import Metering.Proofs.CompleteDismissal
import Metering.Proofs.ExpositionAgreement

/-!
# What a registration does, exactly

On a registry that describes and is left to one roster, the two stores tell the same: the registry
holds what the lists have, with its names, and nothing else (`Roster.Settled`). A registration then
either puts the new collector in the place of its rivals, in the lists and in the registry, and
reports them (`Roster.Replaces`), or it is refused for the names that it shares with somebody else
who is listed, and nothing has changed but the record of what was collected
(`Roster.Unchanged`).
-/

namespace Metering

open Site

/-- Nothing has been reported. -/
def Site.Unreported (s t : Site) : Prop := t.journal = s.journal

instance : IsPreorder Site Site.Unreported where
  refl _ := rfl
  trans _ _ _ hst htu := htu.trans hst

namespace Site

variable {s t : Site}

lemma OnlyActivity.unreported (h : s.OnlyActivity t) : s.Unreported t := by
  rw [h]
  rfl

lemma hold_unreported (i : RegistryId) (k : CollectorId) : Moves Unreported (hold i k) := by
  refine ((claimsOf_moves i k).mono fun _ _ h => h.unreported).bind fun names => ?_
  refine Moves.get.bind fun s => ?_
  dsimp only
  split
  · exact Moves.modify fun _ => rfl
  · exact Moves.throw _

lemma release_unreported (i : RegistryId) (k : CollectorId) : Moves Unreported (release i k) := by
  refine Moves.get.bind fun s => ?_
  dsimp only
  split
  · exact Moves.throw _
  · split
    · exact Moves.bind (R := Unreported) (Moves.modify fun _ => rfl) fun _ => Moves.throw _
    · exact Moves.modify fun _ => rfl

end Site

namespace Roster

variable {r r' : Roster} {c : Category} {j k : CollectorId} {s t : Site} {fault : Fault}
  {name : String}

lemma exchange_unreported (i : RegistryId) (displaced : List CollectorId) (k : CollectorId) :
    Moves Unreported (exchange i displaced k) :=
  exchange_along (fun j _ => release_unreported i j) fun j _ => hold_unreported i j

/-- A registration that fails reports nothing. -/
lemma unreported_of_register_error (failed : r.register c k s = .error fault t) :
    s.Unreported t := by
  rcases exchange_of_register_error failed with quiet | ⟨-, u, quiet, exchanged⟩
  · exact quiet.unreported
  · exact IsTrans.trans _ _ _ quiet.unreported ((exchange_unreported _ _ _).of_error exchanged)

/-- A registration that succeeds reports the rivals, if there were any: how many they were, and the
names of the new families in ascending order. -/
lemma journal_of_register_ok (ok : r.register c k s = .ok r' t) :
    t.journal = s.journal ++ if r.rivals s c k = [] then [] else
      [.replaced c.name (Text.ascending (Distinct.ofList (s.collector k).familyNames).toList)
        (r.rivals s c k).length] := by
  obtain ⟨names, u, named, ok⟩ := ok_of_bind_ok ok
  obtain ⟨parts, v, parted, ok⟩ := ok_of_bind_ok ok
  obtain rfl := parted_of_names named parted
  obtain ⟨⟨⟩, w, exchanged, ok⟩ := ok_of_bind_ok ok
  obtain ⟨rfl, -⟩ := familyNames_ok named
  have silent : s.Unreported w :=
    IsTrans.trans _ _ _ ((familyNames_moves k).of_ok named).unreported <|
      IsTrans.trans _ _ _ ((partAll_moves _ _).of_ok parted).unreported
        ((exchange_unreported _ _ _).of_ok exchanged)
  rw [← silent]
  cases rivals : r.rivals s c k with
  | nil =>
    rw [rivals] at ok
    cases ok
    rw [if_pos rfl, List.append_nil]
  | cons j js =>
    rw [rivals] at ok
    cases ok
    rw [if_neg (List.cons_ne_nil j js)]

section Surveying

lemma partAll_succeeds (names : Distinct String) (calm : s.Calm) {ks : List CollectorId}
    (nameable : ∀ k ∈ ks, (s.collector k).Nameable) :
    ∃ parts t, partAll names ks s = .ok parts t := by
  induction ks generalizing s with
  | nil => exact ⟨_, s, rfl⟩
  | cons k ks ih =>
    obtain ⟨families, u, collected⟩ := collect_succeeds calm (nameable k List.mem_cons_self)
    have named : familyNames k s = .ok (.ofList (families.map (·.name))) u :=
      bind_of_ok collected _
    have quiet := (collect_moves k).of_ok collected
    obtain ⟨parts, t, parted⟩ := ih (quiet.calm calm) fun j hj => by
      rw [quiet.collector]
      exact nameable j (List.mem_cons_of_mem k hj)
    exact ⟨_, t, (bind_of_ok named _).trans (bind_of_ok parted _)⟩

/-- While no supplier raises, a survey goes through. -/
lemma survey_succeeds (calm : s.Calm) (nameable : (s.collector k).Nameable)
    (others : ∀ j ∈ r.ofCategory c, (s.collector j).Nameable) :
    ∃ u, r.survey c k s = .ok (r.rivals s c k, r.bystanders s c k) u := by
  obtain ⟨families, u, collected⟩ := collect_succeeds calm nameable
  have named : familyNames k s = .ok (.ofList (families.map (·.name))) u := bind_of_ok collected _
  have quiet := (collect_moves k).of_ok collected
  have known : ∀ j ∈ r.ofCategory c, (u.collector j).Nameable := by
    intro j listed
    rw [quiet.collector]
    exact others j listed
  obtain ⟨parts, v, parted⟩ :=
    partAll_succeeds (.ofList (families.map (·.name))) (quiet.calm calm) known
  have surveyed : r.survey c k s = .ok parts v := (bind_of_ok named _).trans parted
  rw [(surveyed_ok surveyed).1] at surveyed
  exact ⟨v, surveyed⟩

/-- While no supplier raises, a registration fails only because a name is taken: what it displaced
has then been released and held again. -/
lemma Sound.restored_of_register_error (sound : r.Sound s)
    (nameable : (s.collector k).Nameable) (failed : r.register c k s = .error fault t) :
    ∃ names u v w, fault = .namesTaken names
      ∧ r.survey c k s = .ok (r.rivals s c k, r.bystanders s c k) u
      ∧ releaseAll r.registry (r.rivals s c k) u = .ok () v
      ∧ hold r.registry k v = .error fault w
      ∧ holdAll r.registry (r.rivals s c k) w = .ok () t := by
  obtain ⟨u, surveyed⟩ := survey_succeeds (c := c) sound.calm nameable fun j hj =>
    sound.tidy.nameable hj
  obtain ⟨through, stopped⟩ := register_of_survey_ok surveyed
  have quiet := (survey_moves r c k).of_ok surveyed
  have frame := quiet.rearranged (i := r.registry)
  have same : u.registry r.registry = s.registry r.registry := by rw [quiet]; rfl
  cases exchanged : exchange r.registry (r.rivals s c k) k u with
  | ok x v =>
    obtain ⟨w, registered, -⟩ := through v exchanged
    rw [registered] at failed
    cases failed
  | error other t' =>
    rw [stopped other t' exchanged] at failed
    cases failed
    have others : ∀ j ∈ r.rivals s c k, (u.collector j).Nameable := by
      intro j hj
      rw [frame.collector]
      exact sound.tidy.nameable (mem_rivals.mp hj).1
    have held : ∀ j ∈ r.rivals s c k, (u.registry r.registry).Holds j
        ((u.collector j).claims (u.registry r.registry).describes) := by
      intro j hj
      rw [frame.collector, same]
      exact sound.backed.holds (mem_rivals.mp hj).1
    obtain ⟨⟨names, v, w, taken, released, refused, restored⟩, -⟩ :=
      exchange_error (frame.calm sound.calm) (by rw [frame.collector]; exact nameable) others
        ((sound.tidy.nodup c).filter _) (by rw [frame.room]; exact sound.backed.room) held exchanged
    exact ⟨names, u, v, w, taken, surveyed, released, refused, restored⟩

end Surveying

/-- The names that a collector claims in the registry of the roster. -/
abbrev claims (r : Roster) (s : Site) (k : CollectorId) : List String :=
  (s.collector k).claims (s.registry r.registry).describes

/-- The name is claimed by the new collector and by a listed one that is no rival of it. -/
def Withholds (r : Roster) (s : Site) (c : Category) (k : CollectorId) (name : String) : Prop :=
  name ∈ r.claims s k
    ∧ ∃ c', ∃ j ∈ r.ofCategory c', j ∉ r.rivals s c k ∧ name ∈ r.claims s j

/-- A sound roster whose registry describes and holds nothing but what is listed. -/
structure Settled (r : Roster) (s : Site) : Prop where
  sound : r.Sound s
  sole : r.Sole s
  describes : (s.registry r.registry).describes = true

namespace Settled

lemma vacant {i : RegistryId} (room : i.index < s.registries.length) (calm : s.Calm)
    (unused : s.registry i = .vacant true) : (Roster.vacant i).Settled s := by
  refine ⟨Sound.vacant room calm, Deployment.sole_vacant unused, ?_⟩
  change (s.registry i).describes = true
  rw [unused]
  rfl

/-- A collector that has a family is not doubled: it is listed as its own rival, if at all. -/
lemma not_doubles (settled : r.Settled s) (some_family : (s.collector k).familyNames ≠ [])
    (nodup : (r.claims s k).Nodup) (ok : r.register c k s = .ok r' t) :
    ¬ Turn.Doubles ⟨r, s, .register c k⟩ := by
  refine (not_doubles_iff ok).mpr ⟨?_, nodup⟩
  intro c' listed
  refine ⟨?_, shares_self_iff.mpr some_family⟩
  by_contra elsewhere
  have claiming : r.claims s k ≠ [] :=
    Collector.claims_ne_nil_iff.mpr (Or.inr ⟨settled.describes, some_family⟩)
  exact claiming (settled.sound.claims_eq_nil ok listed (Or.inl elsewhere))

lemma register_ok (settled : r.Settled s) (placed : k.index < s.collectors.length)
    (some_family : (s.collector k).familyNames ≠ []) (nodup : (r.claims s k).Nodup)
    (ok : r.register c k s = .ok r' t) : r'.Settled t := by
  have single := settled.not_doubles some_family nodup ok
  refine ⟨settled.sound.register_ok placed ok single,
    sole_of_register_ok settled.sound.tidy settled.sound.backed settled.sole ok, ?_⟩
  obtain ⟨rfl, -, -⟩ := exchanged_of_register_ok ok
  obtain ⟨-, reg, without, entered, -⟩ :=
    entered_of_register_ok settled.sound.tidy settled.sound.backed ok
  change (t.registry r.registry).describes = true
  rw [entered, Registry.enter_describes, without.describes, settled.describes]

lemma register_error (settled : r.Settled s) (failed : r.register c k s = .error fault t) :
    r.Settled t := by
  obtain ⟨frame, unchanged⟩ := unchanged_of_register_error settled.sound.calm settled.sound.tidy
    settled.sound.backed failed
  exact ⟨settled.sound.register_error failed, settled.sole.of_unchanged frame unchanged,
    unchanged.describes.trans settled.describes⟩

lemma dismiss (settled : r.Settled s) : r.emptied.Settled (endOf (r.dismiss s)) := by
  refine ⟨settled.sound.dismiss,
    System.sole_dismiss settled.sound.tidy settled.sound.backed settled.sole, ?_⟩
  obtain ⟨t, dismissed, without⟩ := System.dismiss_ok settled.sound.tidy settled.sound.backed
  rw [dismissed]
  exact without.describes.trans settled.describes

lemma beside (settled : r.Settled s) (h : s.CalmBeside r.registry t) : r.Settled t := by
  refine ⟨settled.sound.beside h,
    settled.sole.grows settled.sound.tidy h.beside.grows h.beside.registry, ?_⟩
  rw [h.beside.registry, settled.describes]

/-- What the registry holds is on record. -/
lemma recorded (settled : r.Settled s) : s.Recorded r.registry := by
  intro j names held
  obtain ⟨c, listed⟩ := settled.sole.held j (Index.mem_of_get?_eq_some held)
  have holds := (settled.sound.backed.holds listed).held
  exact ⟨settled.sound.tidy.placed listed, Option.some.inj (held.symm.trans holds)⟩

/-- Without its rivals the registry knows the names of the other listed collectors. -/
lemma mem_owners_without (settled : r.Settled s) {reg : Registry}
    (without : (s.registry r.registry).Without reg (r.rivals s c k)
      ((r.rivals s c k).flatMap (r.claims s))) :
    name ∈ reg.owners
      ↔ ∃ c', ∃ j ∈ r.ofCategory c', j ∉ r.rivals s c k ∧ name ∈ r.claims s j := by
  rw [without.mem_owners]
  constructor
  · rintro ⟨known, spared⟩
    cases owned : (s.registry r.registry).owners.get? name with
    | none => exact absurd known (Index.get?_eq_none_iff.mp owned)
    | some j =>
      obtain ⟨⟨c', listed⟩, claimed⟩ := settled.sole.owned name j owned
      refine ⟨c', j, listed, fun rival => spared ?_, claimed⟩
      exact List.mem_flatMap.mpr ⟨j, rival, claimed⟩
  · rintro ⟨c', j, listed, stays, claimed⟩
    have holds := settled.sound.backed.holds listed
    refine ⟨Index.mem_of_get?_eq_some (holds.owned name claimed), fun gone => ?_⟩
    obtain ⟨i, rival, shared⟩ := List.mem_flatMap.mp gone
    have same := holds.apart (settled.sound.backed.holds (mem_rivals.mp rival).1) claimed shared
    exact stays (same ▸ rival)

end Settled

/-- The new collector has taken the place of its rivals: its category lists those it shares no
family name with, in their order, and then the new one; the other lists and the order of the
categories are as they were, a new category going last; the registry holds what is listed, each with
the names that it claims; and the rivals have been reported, if there were any. -/
structure Replaces (r : Roster) (s : Site) (c : Category) (k : CollectorId) (r' : Roster)
    (t : Site) : Prop where
  here : r'.ofCategory c
    = (r.ofCategory c).filter (fun j => ¬ (s.collector k).Shares (s.collector j)) ++ [k]
  elsewhere : ∀ c', c' ≠ c → r'.ofCategory c' = r.ofCategory c'
  categories : r'.categories = if c ∈ r.categories then r.categories else r.categories ++ [c]
  registry : r'.registry = r.registry
  held : ∀ j names, (t.registry r'.registry).held.get? j = some names
    ↔ (∃ c', j ∈ r'.ofCategory c') ∧ names = r'.claims t j
  owned : ∀ name j, (t.registry r'.registry).owners.get? name = some j
    ↔ (∃ c', j ∈ r'.ofCategory c') ∧ name ∈ r'.claims t j
  reported : ∃ names, names.Pairwise (· ≤ ·) ∧ names.Nodup
    ∧ (∀ name, name ∈ names ↔ name ∈ (s.collector k).familyNames)
    ∧ t.journal = s.journal ++ if r.rivals s c k = [] then [] else
        [.replaced c.name names (r.rivals s c k).length]

/-- The lists and the collectors are as they were, the registry holds the same with the same names,
and nothing has been reported. -/
structure Unchanged (r : Roster) (s : Site) (r' : Roster) (t : Site) : Prop where
  roster : r' = r
  collectors : t.collectors = s.collectors
  held : ∀ j, (t.registry r.registry).held.get? j = (s.registry r.registry).held.get? j
  owned : ∀ name,
    (t.registry r.registry).owners.get? name = (s.registry r.registry).owners.get? name
  journal : t.journal = s.journal

namespace Settled

lemma replaces (settled : r.Settled s) (placed : k.index < s.collectors.length)
    (some_family : (s.collector k).familyNames ≠ []) (nodup : (r.claims s k).Nodup)
    (ok : r.register c k s = .ok r' t) :
    (∀ name, ¬ r.Withholds s c k name) ∧ r.Replaces s c k r' t := by
  have now := settled.register_ok placed some_family nodup ok
  obtain ⟨-, reg, without, -, free⟩ :=
    entered_of_register_ok settled.sound.tidy settled.sound.backed ok
  constructor
  · rintro name ⟨claimed, others⟩
    have known := (settled.mem_owners_without without).mpr others
    exact Index.get?_eq_none_iff.mp (free name claimed) known
  · have listed := (exchanged_of_register_ok ok).1
    refine ⟨?_, ?_, ?_, by rw [listed]; rfl, ?_, ?_, ?_⟩
    · rw [listed, ofCategory_publish, if_pos rfl]
      rfl
    · intro c' other
      rw [listed, ofCategory_publish, if_neg other]
    · rw [listed]
      by_cases known : c ∈ r.categories
      · rw [if_pos known]
        exact Index.keys_put_of_mem _ known
      · rw [if_neg known]
        exact Index.keys_put_of_not_mem _ known
    · intro j names
      constructor
      · intro held
        obtain ⟨c', member⟩ := now.sole.held j (Index.mem_of_get?_eq_some held)
        exact ⟨⟨c', member⟩, (now.recorded j names held).2⟩
      · rintro ⟨⟨c', member⟩, rfl⟩
        exact (now.sound.backed.holds member).held
    · intro name j
      constructor
      · exact now.sole.owned name j
      · rintro ⟨⟨c', member⟩, claimed⟩
        exact (now.sound.backed.holds member).owned name claimed
    · refine ⟨_, Text.pairwise_ascending _, ?_, ?_, journal_of_register_ok ok⟩
      · exact (Text.ascending_perm _).nodup_iff.mpr (Distinct.nodup _)
      · intro name
        rw [(Text.ascending_perm _).mem_iff, ← Distinct.mem_def, Distinct.mem_ofList]

lemma refused (settled : r.Settled s) (nameable : (s.collector k).Nameable)
    (failed : r.register c k s = .error fault t) :
    ∃ names, fault = .namesTaken names ∧ names ≠ []
      ∧ (∀ name, name ∈ names ↔ r.Withholds s c k name)
      ∧ r.Unchanged s (Turn.after ⟨r, s, .register c k⟩).1 t := by
  obtain ⟨names, -, -, -, rfl, -⟩ := settled.sound.restored_of_register_error nameable failed
  obtain ⟨reg, without, taken, some_name⟩ := taken_of_register_error settled.recorded failed
  obtain ⟨frame, unchanged⟩ := unchanged_of_register_error settled.sound.calm settled.sound.tidy
    settled.sound.backed failed
  refine ⟨names, rfl, some_name, ?_, ?_⟩
  · intro name
    rw [taken, Registry.mem_taken, settled.mem_owners_without without, and_comm]
    rfl
  · refine ⟨?_, by rw [frame.rest], unchanged.held, unchanged.owners,
      unreported_of_register_error failed⟩
    simp only [Turn.after, failed]

end Settled

/-- A roster that has a registry of its own which describes stays settled as long as every collector
that it registers has a family and claims no name twice. -/
lemma Run.settled {i : RegistryId} {s₀ : Site} {turns : List Turn}
    (run : Run CalmBeside (.vacant i) s₀ turns r s) (room : i.index < s₀.registries.length)
    (calm : s₀.Calm) (unused : s₀.registry i = .vacant true)
    (plain : ∀ m ∈ turns, ∀ c k, m.Registers c k →
      (m.site.collector k).familyNames ≠ [] ∧ (m.claims k).Nodup) : r.Settled s := by
  induction run with
  | start => exact Settled.vacant room calm unused
  | @call turns r s run call placed ih =>
    rw [List.forall_mem_append, List.forall_mem_singleton] at plain
    obtain ⟨earlier, last⟩ := plain
    have settled := ih earlier
    cases call with
    | register c k =>
      rcases after_register r s c k with ⟨r', t, ok, ends⟩ | ⟨fault, t, failed, ends⟩
      · rw [ends]
        obtain ⟨some_family, nodup⟩ := last c k ⟨rfl, r', t, ok⟩
        exact settled.register_ok placed some_family nodup ok
      · rw [ends]
        exact settled.register_error failed
    | dismiss => exact settled.dismiss
  | others _ h ih => exact (ih plain).beside h

/-- In every state that a roster reaches with a registry of its own that describes, with collectors
that have families, claim no name twice and never raise: if no listed collector but the rivals
claims a name of the new one, the registration puts it in the place of its rivals; otherwise it is
refused for exactly these names, and changes nothing. -/
theorem register_replaces_or_refuses {i : RegistryId} {s₀ : Site} {turns : List Turn}
    (run : Run CalmBeside (.vacant i) s₀ turns r s) (room : i.index < s₀.registries.length)
    (calm : s₀.Calm) (unused : s₀.registry i = .vacant true)
    (plain : ∀ m ∈ turns, ∀ c k, m.Registers c k →
      (m.site.collector k).familyNames ≠ [] ∧ (m.claims k).Nodup)
    (placed : k.index < s.collectors.length) (nameable : (s.collector k).Nameable)
    (some_family : (s.collector k).familyNames ≠ []) (nodup : (r.claims s k).Nodup) :
    ((∀ name, ¬ r.Withholds s c k name) →
      ∃ r' t, r.register c k s = .ok r' t ∧ r.Replaces s c k r' t)
    ∧ ((∃ name, r.Withholds s c k name) →
      ∃ names t, r.register c k s = .error (.namesTaken names) t
        ∧ (∀ name, name ∈ names ↔ r.Withholds s c k name)
        ∧ r.Unchanged s (Turn.after ⟨r, s, .register c k⟩).1 t) := by
  have settled := run.settled room calm unused plain
  cases outcome : r.register c k s with
  | ok r' t =>
    obtain ⟨free, replaces⟩ := settled.replaces placed some_family nodup outcome
    refine ⟨fun _ => ⟨r', t, rfl, replaces⟩, ?_⟩
    rintro ⟨name, withheld⟩
    exact absurd withheld (free name)
  | error fault t =>
    obtain ⟨names, rfl, some_name, exactly, unchanged⟩ := settled.refused nameable outcome
    refine ⟨fun free => ?_, fun _ => ⟨names, t, rfl, exactly, unchanged⟩⟩
    obtain ⟨name, member⟩ := List.exists_mem_of_ne_nil names some_name
    exact absurd ((exactly name).mp member) (free name)

/-- A site with four collectors; the third shares a family with the first, and the fourth with the
first and the second. -/
def replacingSite : Site :=
  { collectors :=
      [.fixed [⟨"a", .gauge, "h", []⟩], .fixed [⟨"b", .gauge, "h", []⟩],
        .fixed [⟨"a", .gauge, "h", []⟩, ⟨"c", .gauge, "h", []⟩],
        .fixed [⟨"a", .gauge, "h", []⟩, ⟨"b", .gauge, "h", []⟩]]
    registries := [.vacant true] }

lemma replacingSite_calm : replacingSite.Calm := fun _ h => absurd h List.not_mem_nil

/-- With the first collector listed in one category and the second in another, the third one takes
the place of the first, and the fourth is refused for the name of the second. -/
theorem register_replaces_or_refuses_both : ∃ turns r s,
    Run CalmBeside (.vacant ⟨0⟩) replacingSite turns r s
      ∧ (⟨0⟩ : RegistryId).index < replacingSite.registries.length ∧ replacingSite.Calm
      ∧ replacingSite.registry ⟨0⟩ = .vacant true
      ∧ (∃ r' t, r.register ⟨"shop", none⟩ ⟨2⟩ s = .ok r' t
        ∧ r.Replaces s ⟨"shop", none⟩ ⟨2⟩ r' t ∧ r'.ofCategory ⟨"shop", none⟩ = [⟨2⟩])
      ∧ ∃ names t, r.register ⟨"shop", none⟩ ⟨3⟩ s = .error (.namesTaken names) t ∧ "b" ∈ names
        ∧ r.Unchanged s (Turn.after ⟨r, s, .register ⟨"shop", none⟩ ⟨3⟩⟩).1 t := by
  have run := ((@Run.start CalmBeside (.vacant ⟨0⟩) replacingSite).call
    (.register ⟨"shop", none⟩ ⟨0⟩) (by decide)).call (.register ⟨"bank", none⟩ ⟨1⟩) (by decide)
  have effect (k : CollectorId) (placed) (nameable) (some_family) (nodup) :=
    register_replaces_or_refuses (c := ⟨"shop", none⟩) (k := k) run (by decide)
      replacingSite_calm rfl (fun m member c k registered => by
        simp only [List.nil_append, List.mem_append, List.mem_singleton] at member
        rcases member with rfl | rfl <;> cases registered.1 <;>
          exact ⟨by decide +kernel, by decide +kernel⟩) placed nameable some_family nodup
  refine ⟨_, _, _, run, by decide, replacingSite_calm, rfl, ?replaced, ?refused⟩
  case replaced =>
    obtain ⟨free, withheld⟩ := effect ⟨2⟩ (by decide) trivial (by decide +kernel)
      (by decide +kernel)
    obtain ⟨r', t, ok, replaces⟩ := free fun name withholds => by
      obtain ⟨names, t, refused, -⟩ := withheld ⟨name, withholds⟩
      cases refused
    refine ⟨r', t, ok, replaces, ?_⟩
    rw [replaces.here]
    decide +kernel
  case refused =>
    obtain ⟨-, withheld⟩ := effect ⟨3⟩ (by decide) trivial (by decide +kernel) (by decide +kernel)
    obtain ⟨names, t, refused, exactly, unchanged⟩ := withheld
      ⟨"b", by decide +kernel, ⟨"bank", none⟩, ⟨1⟩, by decide +kernel, by decide +kernel,
        by decide +kernel⟩
    refine ⟨names, t, refused, (exactly "b").mpr ?_, unchanged⟩
    exact ⟨by decide +kernel, ⟨"bank", none⟩, ⟨1⟩, by decide +kernel, by decide +kernel,
      by decide +kernel⟩

end Roster

/-- While no supplier raises, an enrolment that fails is a registration on a sound roster, refused
because a name is taken. -/
lemma System.refusal_of_enroll {c : Category} {x : Collector} {m e : Deployment} {fault : Fault}
    (sound : m.Sound) (nameable : x.Nameable) (failed : enroll c x m = .error fault e) :
    (∃ names, fault = .namesTaken names) ∧ e.system = m.system
      ∧ m.system.roster.Sound (m.site.withAdded x)
      ∧ ((m.site.withAdded x).collector m.site.nextPlace).Nameable
      ∧ m.system.roster.register c m.site.nextPlace (m.site.withAdded x)
        = .error fault e.site := by
  have added := Roster.Sound.added ⟨sound.tidy, sound.backed, sound.calm⟩ x
  obtain ⟨same, refused⟩ := refused_of_enroll failed
  have named : ((m.site.withAdded x).collector m.site.nextPlace).Nameable := by
    rw [collector_withAdded]
    exact nameable
  obtain ⟨names, -, -, -, taken, -⟩ := added.restored_of_register_error named refused
  exact ⟨⟨names, taken⟩, same, added, named, refused⟩

end Metering
