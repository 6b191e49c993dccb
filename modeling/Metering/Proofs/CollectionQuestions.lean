import Metering.Proofs.CollectedFamilies

/-!
# What one collection asks

A collection that goes through notes itself, then one question to each supplier of the collector, or
one look into each of its caches, in order (`Site.visit`). The answers are those that the suppliers
give next, one after the other (`Site.answersTo`).
-/

namespace Metering

/-- The number that an answer comes to, if any. -/
def Answer.number : Answer → Option Number
  | .value x => x
  | _ => none

/-- The questions of one collection: each supplier of the collector, or each of its caches, once. -/
def Collector.inquiries : Collector → List Activity
  | .gauge _ _ i | .summary _ _ i => [.asked i]
  | .supplied m => m.suppliers.entries.map fun e => .asked e.2
  | .caches _ attached => attached.entries.map fun e => .inspected e.2
  | .instrument _ | .fixed _ => []

namespace Site

/-- What one collection of a collector notes. -/
def visit (s : Site) (k : CollectorId) : List Activity := .collected k :: (s.collector k).inquiries

/-- What suppliers answer when they are asked one after the other. -/
def answersTo (s : Site) : List SupplierId → List (Option Number)
  | [] => []
  | i :: rest => (s.nextAnswer i).number :: (s.noting [.asked i]).answersTo rest

variable {s t : Site}

@[simp] lemma noting_noting (s : Site) (first second : List Activity) :
    (s.noting first).noting second = s.noting (first ++ second) := by
  simp [noting]

@[simp] lemma noting_nil (s : Site) : s.noting [] = s := by simp [noting]

lemma ask_noted {i : SupplierId} {a : Answer} (asked : ask i s = .ok a t) :
    a = s.nextAnswer i ∧ t = s.noting [.asked i] := by
  rw [ask, bind_get] at asked
  have noted : note (.asked i) s = .ok () (s.noting [.asked i]) := rfl
  rw [bind_of_ok noted] at asked
  cases next : s.nextAnswer i with
  | raises alarm message =>
    rw [next] at asked
    cases asked
  | value x | digest d =>
    rw [next] at asked
    cases asked
    exact ⟨rfl, rfl⟩

lemma askValue_noted {i : SupplierId} {x : Option Number} (asked : askValue i s = .ok x t) :
    x = (s.nextAnswer i).number ∧ t = s.noting [.asked i] := by
  obtain ⟨a, u, first, rest⟩ := ok_of_bind_ok asked
  obtain ⟨rfl, rfl⟩ := ask_noted first
  cases next : s.nextAnswer i with
  | value y =>
    rw [next] at rest
    cases rest
    exact ⟨rfl, rfl⟩
  | raises | digest =>
    rw [next] at rest
    cases rest
    exact ⟨rfl, rfl⟩

lemma askDigest_noted {i : SupplierId} {name : String} {samples : List Sample}
    (asked : askDigest i name s = .ok samples t) : t = s.noting [.asked i] := by
  obtain ⟨a, u, first, rest⟩ := ok_of_bind_ok asked
  obtain ⟨-, rfl⟩ := ask_noted first
  split at rest <;> cases rest <;> rfl

/-- The suppliers of a supplied metric are asked one after the other, and nothing else is noted. -/
lemma askAll_noted {m : Supplied} {entries : List (List String × SupplierId)}
    {samples : List Sample} (asked : askAll m entries s = .ok samples t) :
    samples.map (·.value) = s.answersTo (entries.map Prod.snd)
      ∧ t = s.noting (entries.map fun e => .asked e.2) := by
  induction entries generalizing samples s t with
  | nil =>
    cases asked
    exact ⟨rfl, (noting_nil _).symm⟩
  | cons e entries ih =>
    obtain ⟨x, u, first, rest⟩ := ok_of_bind_ok asked
    obtain ⟨others, v, later, ends⟩ := ok_of_bind_ok rest
    obtain ⟨rfl, rfl⟩ := askValue_noted first
    obtain ⟨values, rfl⟩ := ih later
    cases ends
    refine ⟨congrArg ((s.nextAnswer e.2).number :: ·) values, ?_⟩
    rw [noting_noting]
    rfl

lemma inspectAll_noted {entries : List (String × CacheId)} {infos : List (String × CacheInfo)}
    (inspected : inspectAll entries s = .ok infos t) :
    t = s.noting (entries.map fun e => .inspected e.2) := by
  induction entries generalizing infos s t with
  | nil =>
    cases inspected
    exact (noting_nil _).symm
  | cons e entries ih =>
    obtain ⟨info, u, first, rest⟩ := ok_of_bind_ok inspected
    obtain ⟨others, v, later, ends⟩ := ok_of_bind_ok rest
    obtain rfl : u = s.noting [.inspected e.2] := by
      cases first
      rfl
    obtain rfl := ih later
    cases ends
    rw [noting_noting]
    rfl

/-- A collector that makes its families asks what it has to ask once. -/
lemma familiesOf_noted {x : Collector} {families : List Family}
    (gave : familiesOf x s = .ok families t) : t = s.noting x.inquiries := by
  cases x with
  | instrument i | fixed families =>
    cases gave
    exact (noting_nil _).symm
  | gauge name help i =>
    obtain ⟨x, u, asked, rest⟩ := ok_of_bind_ok gave
    obtain ⟨f, v, declared, ends⟩ := ok_of_bind_ok rest
    obtain ⟨-, rfl⟩ := ofExcept_ok declared
    cases ends
    exact (askValue_noted asked).2
  | supplied m =>
    obtain ⟨f, u, declared, rest⟩ := ok_of_bind_ok gave
    obtain ⟨-, rfl⟩ := ofExcept_ok declared
    obtain ⟨samples, v, asked, ends⟩ := ok_of_bind_ok rest
    cases ends
    exact (askAll_noted asked).2
  | summary name help i =>
    obtain ⟨samples, u, asked, rest⟩ := ok_of_bind_ok gave
    obtain ⟨f, v, declared, ends⟩ := ok_of_bind_ok rest
    obtain ⟨-, rfl⟩ := ofExcept_ok declared
    cases ends
    exact askDigest_noted asked
  | caches stem attached =>
    obtain ⟨infos, u, inspected, ends⟩ := ok_of_bind_ok gave
    cases ends
    exact inspectAll_noted inspected

lemma collect_noted {k : CollectorId} {families : List Family}
    (collected : collect k s = .ok families t) : t = s.noting (s.visit k) := by
  have begun : note (.collected k) s = .ok () (s.noting [.collected k]) := rfl
  rw [collect, bind_of_ok begun, bind_get] at collected
  rw [familiesOf_noted collected, noting_noting]
  rfl

/-- While no supplier raises, a collector that has a name can be collected, and asks what it has to
ask once. -/
lemma collect_of_calm (calm : s.Calm) {k : CollectorId} (nameable : (s.collector k).Nameable) :
    ∃ families, collect k s = .ok families (s.noting (s.visit k)) := by
  obtain ⟨families, t, collected⟩ := collect_succeeds calm nameable
  exact ⟨families, collect_noted collected ▸ collected⟩

end Site

end Metering
