import Metering.Text.Quoted

/-!
# Faults

Everything that an operation on metrics can refuse or pass on, as its cause. `Fault.kind` sorts the
causes into classes, `Fault.message` words them.
-/

namespace Metering

/-- What a supplier may raise instead of an answer. A class without a constructor of its own goes by
its name; it may be a special case of a refused value. -/
inductive Alarm where
  | value
  | runtime
  | other (name : String) (refusal : Bool)
  deriving DecidableEq, Repr

def Alarm.isRefusal : Alarm → Bool
  | .value => true
  | .runtime => false
  | .other _ refusal => refusal

inductive Fault where
  | notAFlag (variableName given : String)
  | arity (expected given : Nat)
  | combinationTaken (metric : String) (values : List String)
  | cacheTaken (name : String)
  | negativeIncrement
  /-- A label name that is reserved for every kind of instrument. -/
  | reservedLabel (label : String)
  /-- A label name that the instrument needs for itself. -/
  | ownLabel (label : String)
  | emptyName
  | unknownType (given : String)
  | notSuppliable (given : String)
  | raised (alarm : Alarm) (message : String)
  /-- Names that other collectors of the registry claim. -/
  | namesTaken (names : List String)
  | notHeld
  | nameNotHeld (name : String)
  /-- A reference to an object that was never made. -/
  | unbound (id : String)
  deriving DecidableEq, Repr

namespace Fault

inductive Kind where
  | configuration
  | labelCount
  | labelValues
  | cache
  | value
  | clash
  | runtime
  | lookup
  | unbound
  deriving DecidableEq, Repr

def kind : Fault → Kind
  | .notAFlag .. => .configuration
  | .arity .. => .labelCount
  | .combinationTaken .. => .labelValues
  | .cacheTaken _ => .cache
  | .negativeIncrement | .reservedLabel _ | .ownLabel _ | .emptyName | .unknownType _
  | .notSuppliable _ => .value
  | .namesTaken _ => .clash
  -- of any other class only this much matters to a registration
  | .raised alarm _ => if alarm.isRefusal then .value else .runtime
  | .notHeld | .nameNotHeld _ => .lookup
  | .unbound _ => .unbound

/-- Whether the cause is a value that was refused. Only such a failure of a registration puts back
what the registration has displaced. -/
def isRefusal (f : Fault) : Bool :=
  match f.kind with
  | .labelCount | .labelValues | .value | .clash => true
  | .configuration | .cache | .runtime | .lookup | .unbound => false

theorem isRefusal_raised (alarm : Alarm) (message : String) :
    (raised alarm message).isRefusal = alarm.isRefusal := by
  cases h : alarm.isRefusal <;> simp [isRefusal, kind, h]

def message : Fault → Option String
  | .notAFlag name given => some (name ++ ": expected a boolean flag, got " ++ Text.quoted given)
  | .arity expected given =>
    some ("Expected " ++ toString expected ++ " label values, got " ++ toString given)
  | .combinationTaken metric values =>
    some ("A supplier is already registered for " ++ metric ++ " label values "
      ++ Text.quotedList values)
  | .cacheTaken name => some ("Cache already registered: " ++ name)
  | .negativeIncrement => some "Counters can only be incremented by non-negative amounts."
  | .reservedLabel label => some ("Reserved label metric name: " ++ label)
  | .ownLabel label => some ("Reserved label methe fric name: " ++ label)
  | .emptyName => some "metric name cannot be empty"
  | .unknownType given => some ("Invalid metric type: " ++ given)
  | .notSuppliable given => some ("unsupported supplied metric type: " ++ given)
  | .raised _ text => some text
  | .namesTaken _ => none
  | .notHeld => none
  | .nameNotHeld name => some (Text.quoted name)
  | .unbound id => some id

end Fault

end Metering
