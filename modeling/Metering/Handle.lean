import Metering.Site

/-!
# Handles

A handle is what the application keeps of a metric. An active handle belongs to a collector, an
inert one records nothing; both insist on the number of label values. Label values lead from a
handle to a child, which records, or, for a supplied metric, accept a supplier.
-/

namespace Metering

/-- What the children of a handle record. -/
inductive ChildKind where
  | counter
  | timer
  deriving DecidableEq, Repr

def InstrumentKind.childKind : InstrumentKind → ChildKind
  | .counter => .counter
  | .timer | .simpleTimer => .timer

/-- A handle gives children or takes suppliers. -/
inductive HandleUse where
  | recording (kind : ChildKind)
  | supplying
  deriving DecidableEq, Repr

/-- A handle. Its serial tells it from all other handles. -/
structure Handle where
  serial : Nat
  use : HandleUse
  arity : Nat
  target : Option CollectorId
  deriving DecidableEq, Repr

/-- What records under one combination of label values; without a target it records nothing. -/
structure Child where
  kind : ChildKind
  target : Option (CollectorId × List String)
  deriving DecidableEq, Repr

namespace Handle

def inert (h : Handle) : Bool := h.target.isNone

def checkArity (h : Handle) (values : List String) : Action Unit :=
  if values.length = h.arity then return else throw (.arity h.arity values.length)

/-- Changes the instrument at a place, if there is one. -/
def onInstrument (k : CollectorId) (f : Instrument → Instrument) : Action Unit :=
  modify fun s =>
    match s.collector k with
    | .instrument i => s.withCollector k (.instrument (f i))
    | _ => s

/-- The child for label values, of the given kind. Its tally exists from now on. -/
def labels (h : Handle) (kind : ChildKind) (values : List String) : Action Child := do
  h.checkArity values
  match h.target with
  | none => return ⟨kind, none⟩
  | some k => do
    let now := (← get).clock
    onInstrument k fun i => i.touch values now
    return ⟨kind, some (k, values)⟩

def addSupplied (k : CollectorId) (values : List String) (supplier : SupplierId) :
    Action Unit := do
  let s ← get
  match s.collector k with
  | .supplied m => do
    let m ← ofExcept (m.add values supplier)
    set (s.withCollector k (.supplied m))
  | _ => return

def supply (h : Handle) (supplier : SupplierId) (values : List String) : Action Unit := do
  h.checkArity values
  match h.target with
  | none => return
  | some k => addSupplied k values supplier

end Handle

namespace Child

def inert (c : Child) : Bool := c.target.isNone

def record (c : Child) (x : Float) : Action Unit :=
  match c.target with
  | none => return
  | some (k, values) => Handle.onInstrument k fun i => i.record values x

/-- Raises a counter. An active one refuses to be lowered. -/
def increment (c : Child) (amount : Float) : Action Unit :=
  if c.inert then return
  else if amount < 0 then throw .negativeIncrement
  else c.record amount

def observe (c : Child) (seconds : Float) : Action Unit := c.record seconds

end Child

end Metering
