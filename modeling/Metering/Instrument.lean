import Metering.Family
import Metering.Instrument.Kind
import Metering.Instrument.Tally

/-!
# Instruments

An instrument records amounts under combinations of label values, one tally for each combination in
the order of first use. An instrument without labels has its single tally from the start.
-/

namespace Metering

structure Instrument where
  kind : InstrumentKind
  name : String
  help : String
  labels : List String
  series : Index (List String) Tally

def InstrumentKind.familyType : InstrumentKind → FamilyType
  | .counter => .counter
  | .timer => .summary
  | .simpleTimer => .histogram

/-- The label that an instrument of this kind needs for itself. -/
def InstrumentKind.ownLabel? : InstrumentKind → Option String
  | .counter => none
  | .timer => some "quantile"
  | .simpleTimer => some "le"

def InstrumentKind.familyName (kind : InstrumentKind) (name : String) : String :=
  match kind with
  | .counter => Family.counterStem name
  | .timer | .simpleTimer => name

/-- Gives label names their values by position; what is left over on either side is dropped. -/
def Labels.zip (names values : List String) : Labels := .ofList (names.zip values)

namespace Instrument

/-- Labels that begin with two underscores are reserved, those aside in which a line feed stands
anywhere but at the end. -/
def isReservedLabel (label : String) : Bool :=
  match Text.following? ['_', '_'] label.toList with
  | none => false
  | some rest => (rest.dropWhile fun c => c ≠ '\n').length ≤ 1

def labelFault? (kind : InstrumentKind) (label : String) : Option Fault :=
  if isReservedLabel label then some (.reservedLabel label)
  else if kind.ownLabel? = some label then some (.ownLabel label)
  else none

/-- A new instrument. The labels are looked at from left to right, then the name. -/
def declare (kind : InstrumentKind) (name help : String) (labels : List String) (now : Float) :
    Except Fault Instrument :=
  match labels.findSome? (labelFault? kind) with
  | some fault => .error fault
  | none =>
    if kind.familyName name = "" then .error .emptyName
    else .ok ⟨kind, name, help, labels,
      if labels.isEmpty then (∅ : Index (List String) Tally).put [] (.start now) else ∅⟩

/-- Makes sure that there is a tally for a combination of label values. -/
def touch (i : Instrument) (values : List String) (now : Float) : Instrument :=
  if values ∈ i.series then i else { i with series := i.series.put values (.start now) }

def record (i : Instrument) (values : List String) (x : Float) : Instrument :=
  { i with series := i.series.adjust values fun t => t.add x }

def familyName (i : Instrument) : String := i.kind.familyName i.name

/-- The samples of one tally: the ending of the name, the label of its own and the value. -/
def readings (kind : InstrumentKind) (t : Tally) :
    List (String × Option (String × String) × Float) :=
  match kind with
  | .counter => [(Family.totalSuffix, none, t.total), ("_created", none, t.created)]
  | .timer =>
    [("_count", none, t.count.toFloat), ("_sum", none, t.total), ("_created", none, t.created)]
  | .simpleTimer =>
    [("_bucket", some ("le", "1.0"), t.brief.toFloat),
     ("_bucket", some ("le", "+Inf"), t.bounded.toFloat), ("_count", none, t.bounded.toFloat),
     ("_sum", none, t.total), ("_created", none, t.created)]

/-- A reading as a sample: the label of its own goes last. -/
def sample (i : Instrument) (values : List String)
    (r : String × Option (String × String) × Float) : Sample :=
  let labels := Labels.zip i.labels values
  ⟨i.familyName ++ r.1, match r.2.1 with
    | none => labels
    | some own => labels.put own.1 own.2, some (.float r.2.2)⟩

def samples (i : Instrument) : List Sample :=
  i.series.entries.flatMap fun e => (readings i.kind e.2).map (i.sample e.1)

def family (i : Instrument) : Family := ⟨i.familyName, i.kind.familyType, i.help, i.samples⟩

end Instrument

end Metering
