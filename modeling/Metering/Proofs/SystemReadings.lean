import Metering.Proofs.SystemRuns

/-!
# What is read from which collector

The observations of a category, each with the collector that it is read from (`System.readings`).
While no supplier raises, the reading of tidy lists goes through: every listed collector is
collected once, and what is read from it are the observations of the families that it gave
(`readings_calm`).
-/

namespace Metering

namespace System

/-- The observations of collectors, each with the collector that it is read from. -/
def readings (c : Category) : List CollectorId → Operation (List (CollectorId × Observation))
  | [] => return []
  | k :: ks => do
    let families ← Site.collect k
    let own := Observation.ofFamilies (← Operation.system).book c families
    return own.map (k, ·) ++ (← readings c ks)

lemma observationsOf_eq (c : Category) (ks : List CollectorId) :
    observationsOf c ks = List.map Prod.snd <$> readings c ks := by
  induction ks with
  | nil => rfl
  | cons k ks ih => simp [observationsOf, readings, ih, Function.comp_def]

/-- What is read under a category is read from its collectors one after the other. -/
lemma observations_of_readings {c : Category} {d e : Deployment}
    {rs : List (CollectorId × Observation)} (read : readings c (d.listed c) d = .ok rs e) :
    observations (some c) d = .ok (rs.map Prod.snd) e := by
  have split : observations (some c) = do
      return (← readings c ((← Operation.system).roster.ofCategory c)).map Prod.snd := by
    simp [observations, observationsIn, observationsOf_eq]
  rw [split, Operation.bind_system]
  exact (bind_of_ok read _).trans rfl

/-- The observations of categories, each with the collector that it is read from. -/
def readingsIn : List Category → Operation (List (CollectorId × Observation))
  | [] => return []
  | c :: cs => do
    let own ← readings c ((← Operation.system).roster.ofCategory c)
    return own ++ (← readingsIn cs)

lemma observationsIn_eq (cs : List Category) :
    observationsIn cs = List.map Prod.snd <$> readingsIn cs := by
  induction cs with
  | nil => rfl
  | cons c cs ih => simp [observationsIn, readingsIn, observationsOf_eq, ih]

lemma observations_of_readingsIn {d e : Deployment} {rs : List (CollectorId × Observation)}
    (read : readingsIn d.system.roster.categories d = .ok rs e) :
    observations none d = .ok (rs.map Prod.snd) e := by
  rw [observations, Operation.bind_system, observationsIn_eq, ← bind_pure_comp, bind_of_ok read]
  rfl

/-- Each collector of a reading with the families that it gave, in the course of what was noted from
one site to the other. -/
structure Collected (s : Site) (ks : List CollectorId) (given : List (CollectorId × List Family))
    (e : Site) : Prop where
  each : given.map Prod.fst = ks
  collected : ∀ g ∈ given, ∃ t u, s.Notes t ∧ Site.collect g.1 t = .ok g.2 u ∧ u.Notes e
  notes : s.Notes e

/-- The families that a collector gave are those that it was declared with. -/
lemma Collected.outline {s e : Site} {ks : List CollectorId}
    {given : List (CollectorId × List Family)} (h : Collected s ks given e)
    {g : CollectorId × List Family} (hg : g ∈ given) :
    g.2.map (fun f => (f.type, f.name)) = (s.collector g.1).outline := by
  obtain ⟨t, u, before, collected, -⟩ := h.collected g hg
  rw [(Site.collect_outline collected).1, before.collector]

/-- What the collectors of a reading gave, each family as its observations. -/
def readingsOf (b : NameBook) (c : Category) (given : List (CollectorId × List Family)) :
    List (CollectorId × Observation) :=
  given.flatMap fun g => (Observation.ofFamilies b c g.2).map (g.1, ·)

lemma snd_readingsOf (b : NameBook) (c : Category) (given : List (CollectorId × List Family)) :
    (readingsOf b c given).map Prod.snd = Observation.ofFamilies b c (given.flatMap Prod.snd) := by
  simp [readingsOf, Observation.ofFamilies, List.map_flatMap, List.flatMap_assoc, Function.comp_def]

/-- What was read from one of the collectors. -/
def readFrom (k : CollectorId) (rs : List (CollectorId × Observation)) : List Observation :=
  (rs.filter fun r => r.1 = k).map Prod.snd

lemma readFrom_readingsOf (b : NameBook) (c : Category) {given : List (CollectorId × List Family)}
    (nodup : (given.map Prod.fst).Nodup) {g : CollectorId × List Family} (hg : g ∈ given) :
    readFrom g.1 (readingsOf b c given) = Observation.ofFamilies b c g.2 := by
  have apart : ∀ l, g.1 ∉ List.map Prod.fst l → readFrom g.1 (readingsOf b c l) = [] := by
    intro l absent
    rw [readFrom, List.map_eq_nil_iff, List.filter_eq_nil_iff]
    intro r member same
    obtain ⟨g', hg', own⟩ := List.mem_flatMap.mp member
    obtain ⟨o, -, rfl⟩ := List.mem_map.mp own
    exact absent ((of_decide_eq_true same) ▸ List.mem_map_of_mem hg')
  obtain ⟨before, after, rfl⟩ := List.append_of_mem hg
  rw [List.map_append, List.map_cons, List.nodup_append] at nodup
  obtain ⟨-, rest, between⟩ := nodup
  have earlier := apart before fun member => between _ member _ List.mem_cons_self rfl
  have later := apart after (List.nodup_cons.mp rest).1
  simp only [readFrom, readingsOf, List.flatMap_append, List.flatMap_cons, List.filter_append,
    List.map_append] at earlier later ⊢
  rw [earlier, later, List.nil_append, List.append_nil]
  simp [List.filter_map, Function.comp_def]

/-- A reading collects one collector after the other, and gives what they gave. -/
lemma readings_ok {c : Category} {ks : List CollectorId} {d e : Deployment}
    {rs : List (CollectorId × Observation)} (read : readings c ks d = .ok rs e) :
    ∃ given, Collected d.site ks given e.site ∧ rs = readingsOf d.system.book c given := by
  induction ks generalizing d rs with
  | nil =>
    cases read
    exact ⟨[], ⟨rfl, fun _ h => absurd h List.not_mem_nil, Std.Refl.refl _⟩, rfl⟩
  | cons k ks ih =>
    obtain ⟨families, u, lifted, rest⟩ := ok_of_bind_ok read
    obtain ⟨t, collected, here⟩ := Operation.action_of_ok lifted
    subst here
    obtain ⟨s, v, asked, rest⟩ := ok_of_bind_ok rest
    cases asked
    obtain ⟨others, w, later, ends⟩ := ok_of_bind_ok rest
    cases ends
    obtain ⟨given, ⟨each, gave, notes⟩, rfl⟩ := ih later
    have noted := (Site.collect_notes k).of_ok collected
    refine ⟨(k, families) :: given, ⟨by rw [List.map_cons, each], ?_, ?_⟩, rfl⟩
    · intro g hg
      rcases List.mem_cons.mp hg with rfl | hg
      · exact ⟨d.site, t, Std.Refl.refl _, collected, notes⟩
      · obtain ⟨u, v, before, own, after⟩ := gave g hg
        exact ⟨u, v, IsTrans.trans _ _ _ noted before, own, after⟩
    · exact IsTrans.trans _ _ _ noted notes

lemma mem_readings {c : Category} {ks : List CollectorId} {d e : Deployment}
    {rs : List (CollectorId × Observation)} {k : CollectorId} {o : Observation}
    (read : readings c ks d = .ok rs e) (own : (k, o) ∈ rs) :
    k ∈ ks ∧ ∃ families : List Family,
      families.map (fun f => (f.type, f.name)) = (d.site.collector k).outline
      ∧ o ∈ Observation.ofFamilies d.system.book c families := by
  obtain ⟨given, gave, rfl⟩ := readings_ok read
  obtain ⟨⟨j, families⟩, hg, same⟩ := List.mem_flatMap.mp own
  obtain ⟨o', ho, same⟩ := List.mem_map.mp same
  cases same
  refine ⟨?_, families, gave.outline hg, ho⟩
  rw [← gave.each]
  exact List.mem_map_of_mem hg

/-- While no supplier raises, collectors that have names can be read. -/
lemma readings_calm (c : Category) {d : Deployment} (calm : d.site.Calm) (ks : List CollectorId)
    (nameable : ∀ k ∈ ks, (d.site.collector k).Nameable) :
    ∃ given e, Collected d.site ks given e.site
      ∧ readings c ks d = .ok (readingsOf d.system.book c given) e := by
  have succeeds : ∃ rs e, readings c ks d = .ok rs e := by
    induction ks generalizing d with
    | nil => exact ⟨[], d, rfl⟩
    | cons k ks ih =>
      obtain ⟨families, t, collected⟩ := Site.collect_succeeds calm (nameable k List.mem_cons_self)
      have quiet := (Site.collect_moves k).of_ok collected
      let m : Deployment := { d with site := t }
      obtain ⟨rs, e, rest⟩ := ih (d := m) (quiet.calm calm) fun j hj => by
        rw [quiet.collector]
        exact nameable j (List.mem_cons_of_mem k hj)
      exact ⟨_, e, (bind_of_ok (Operation.ofAction_ok collected) _).trans
        ((Operation.bind_system _ m).trans ((bind_of_ok rest _).trans rfl))⟩
  obtain ⟨rs, e, read⟩ := succeeds
  obtain ⟨given, gave, rfl⟩ := readings_ok read
  exact ⟨given, e, gave, read⟩

end System

end Metering
