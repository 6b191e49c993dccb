import Metering.Fault
import Metering.Number

/-!
# Suppliers and caches

Suppliers answer when a family is collected. A `Supplier` is a script: its answers in turn, the
last one for ever. A cache tells its numbers when it is asked.
-/

namespace Metering

/-- A value below which a share of all values lies. -/
structure Quantile where
  level : Float
  value : Number

/-- A summary that was computed elsewhere. -/
structure Digest where
  count : Int
  sum : Number
  quantiles : List Quantile

inductive Answer where
  /-- A number, or none at the moment. -/
  | value (x : Option Number)
  | digest (d : Digest)
  | raises (alarm : Alarm) (message : String)

/-- A script of answers with at least one. -/
structure Supplier where
  first : Answer
  later : List Answer

namespace Supplier

def constant (a : Answer) : Supplier := ⟨a, []⟩

/-- The answer at position `n` of `first :: later`, or the last one past the end. -/
def answerFrom (first : Answer) : List Answer → Nat → Answer
  | [], _ => first
  | _ :: _, 0 => first
  | a :: later, n + 1 => answerFrom a later n

def answer (s : Supplier) (n : Nat) : Answer := answerFrom s.first s.later n

end Supplier

/-- The numbers of a cache; one without a bound has no capacity. -/
structure CacheInfo where
  hits : Int
  misses : Int
  capacity : Option Int
  size : Int
  deriving DecidableEq, Repr

end Metering
