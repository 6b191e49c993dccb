import Metering.Data.Index
import Metering.Fault
import Metering.Number
import Metering.Text.Affix

/-!
# Families and samples

A family is what a collector shows: samples under one name, with a type. Beside its own name a
family claims the names that its type adds (`Family.claims`), so that the names of its samples
cannot be taken by another one.
-/

namespace Metering

inductive FamilyType where
  | counter
  | gauge
  | summary
  | histogram
  | gaugeHistogram
  | unknown
  | info
  | stateSet
  deriving DecidableEq, Repr

namespace FamilyType

def word : FamilyType → String
  | .counter => "counter"
  | .gauge => "gauge"
  | .summary => "summary"
  | .histogram => "histogram"
  | .gaugeHistogram => "gaugehistogram"
  | .unknown => "unknown"
  | .info => "info"
  | .stateSet => "stateset"

def all : List FamilyType :=
  [.counter, .gauge, .summary, .histogram, .gaugeHistogram, .unknown, .info, .stateSet]

/-- Reads the word for a type; `untyped` is another word for `unknown`. -/
def ofWord? (w : String) : Option FamilyType :=
  if w = "untyped" then some .unknown else all.find? fun t => t.word = w

/-- What the type appends to the name of a family to make its further names. -/
def suffixes : FamilyType → List String
  | .counter => ["_total", "_created"]
  | .summary => ["_sum", "_count", "_created"]
  | .histogram => ["_bucket", "_sum", "_count", "_created"]
  | .gaugeHistogram => ["_bucket", "_gsum", "_gcount"]
  | .info => ["_info"]
  | .gauge | .unknown | .stateSet => []

end FamilyType

abbrev Labels := Index String String

/-- One number of a family; the value may be missing. -/
structure Sample where
  name : String
  labels : Labels
  value : Option Number

structure Family where
  name : String
  type : FamilyType
  help : String
  samples : List Sample

namespace Family

/-- The ending that the name of a counter's sample has and its family has not. -/
def totalSuffix : String := "_total"

/-- What a counter's name leaves for its family: one final `_total` is taken off. -/
def counterStem (name : String) : String := (Text.before? totalSuffix name).getD name

def declare (type : FamilyType) (name help : String) (samples : List Sample) :
    Except Fault Family :=
  if name = "" then .error .emptyName else .ok ⟨name, type, help, samples⟩

/-- A family whose type is given by its word. The name is looked at first. -/
def ofWords (type name help : String) (samples : List Sample) : Except Fault Family :=
  match declare .unknown name help samples with
  | .error e => .error e
  | .ok family =>
    match FamilyType.ofWord? type with
    | none => .error (.unknownType type)
    | some t => .ok { family with type := t }

/-- The names that a family of this type and name claims: its own, then the further ones. -/
def claimsOf (type : FamilyType) (name : String) : List String :=
  name :: type.suffixes.map fun suffix => name ++ suffix

def claims (f : Family) : List String := claimsOf f.type f.name

end Family

end Metering
