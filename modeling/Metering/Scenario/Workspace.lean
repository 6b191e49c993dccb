import Metering.Scenario.Step
import Metering.System.Lifecycle
import Metering.System.Stream
import Metering.Timing

/-!
# Workspaces

The state of a scenario: a site, the configuration, the objects that change with time, and which
object each name stands for. Binding a name again replaces what it stood for; a step that fails
binds nothing.
-/

namespace Metering.Scenario

structure SystemId where
  index : Nat
  deriving DecidableEq, Repr

structure ManagerId where
  index : Nat
  deriving DecidableEq, Repr

structure TimingId where
  index : Nat
  deriving DecidableEq, Repr

structure StreamId where
  index : Nat
  deriving DecidableEq, Repr

/-- A stream and the system that it reads. -/
structure OpenedStream where
  system : SystemId
  stream : Stream

/-- What the names stand for, kind by kind. -/
structure Bindings where
  registries : Index String RegistryId := ∅
  systems : Index String SystemId := ∅
  handles : Index String Handle := ∅
  children : Index String Child := ∅
  timings : Index String TimingId := ∅
  streams : Index String StreamId := ∅
  suppliers : Index String SupplierId := ∅
  caches : Index String CacheId := ∅
  collectors : Index String CollectorId := ∅
  managers : Index String ManagerId := ∅

/-- The names of handles and collectors are those that they were bound to first, `isolated` are the
systems that have still to be left, and `shown` is the snapshot that was told last. -/
structure Workspace where
  site : Site := {}
  configuration : Configuration := {}
  systems : List System := []
  managers : List Roster := []
  timings : List Timing := []
  streams : List OpenedStream := []
  book : NameBook := .blank
  bound : Bindings := {}
  handleNames : Index Nat String := ∅
  collectorNames : Index CollectorId String := ∅
  isolated : List SystemId := []
  shown : Option Nat := none

abbrev Session := EStateM Fault Workspace

namespace Session

def ofAction {α : Type} (a : Action α) : Session α := fun w =>
  match a w.site with
  | .ok x site => .ok x { w with site := site }
  | .error e site => .error e { w with site := site }

instance : MonadLift Action Session := ⟨ofAction⟩

def ofConfiguration {α : Type} (a : EStateM Fault Configuration α) : Session α := fun w =>
  match a w.configuration with
  | .ok x c => .ok x { w with configuration := c }
  | .error e c => .error e { w with configuration := c }

/-- The given settings, or those of the configuration. -/
def settingsOr : Option Settings → Session Settings
  | some s => return s
  | none => do return (← ofConfiguration (Configuration.current false)).settings

def find {β : Type} (kind : Bindings → Index String β) (id : String) : Session β := do
  match (kind (← get).bound).get? id with
  | some x => return x
  | none => throw (.unbound id)

def assign (f : Bindings → Bindings) : Session Unit := modify fun w => { w with bound := f w.bound }

/-- An operation on the system at a place. -/
def onSystem {α : Type} (i : SystemId) (op : Operation α) : Session α := fun w =>
  match w.systems[i.index]? with
  | none => .error (.unbound (toString i.index)) w
  | some system =>
    match op ⟨system, w.site⟩ with
    | .ok x d => .ok x { w with site := d.site, systems := w.systems.set i.index d.system }
    | .error e d => .error e { w with site := d.site, systems := w.systems.set i.index d.system }

def addSystem (s : System) : Session SystemId := do
  let w ← get
  set { w with systems := w.systems ++ [s] }
  return ⟨w.systems.length⟩

/-- The roster at a place; where there is none, one that lists nothing. -/
def managerAt (i : ManagerId) : Session Roster := do
  return ((← get).managers[i.index]?).getD (.vacant ⟨0⟩)

def setManager (i : ManagerId) (r : Roster) : Session Unit :=
  modify fun w => { w with managers := w.managers.set i.index r }

def addManager (r : Roster) : Session ManagerId := do
  let w ← get
  set { w with managers := w.managers ++ [r] }
  return ⟨w.managers.length⟩

def addTiming (t : Timing) : Session TimingId := do
  let w ← get
  set { w with timings := w.timings ++ [t] }
  return ⟨w.timings.length⟩

def stopTiming (i : TimingId) : Session Float := do
  match (← get).timings[i.index]? with
  | none => throw (.unbound (toString i.index))
  | some t => do
    let (seconds, t) ← t.stop
    modify fun w => { w with timings := w.timings.set i.index t }
    return seconds

def addStream (s : OpenedStream) : Session StreamId := do
  let w ← get
  set { w with streams := w.streams ++ [s] }
  return ⟨w.streams.length⟩

def setStream (i : StreamId) (s : OpenedStream) : Session Unit :=
  modify fun w => { w with streams := w.streams.set i.index s }

/-- Pulls from the stream at a place. A failure ends the stream, and what was pulled is lost. -/
def pullFrom (i : StreamId) (n : Nat) : Session Stream.Page := do
  match (← get).streams[i.index]? with
  | none => throw (.unbound (toString i.index))
  | some opened =>
    let page ← tryCatch
      (onSystem opened.system do Stream.pull (← Operation.system) n opened.stream)
      fun fault => do
        setStream i { opened with stream := .finished }
        throw fault
    setStream i { opened with stream := page.rest }
    return page

/-- The supplier that a term means. -/
def supplierOf : SupplierTerm → Session SupplierId
  | .constant a => Site.addSupplier (.constant a)
  | .named id => find (·.suppliers) id

def cacheOf : CacheTerm → Session CacheId
  | .numbers info => Site.addCache info
  | .named id => find (·.caches) id

/-- A named registry, or a new one that describes. -/
def registryOr (id : Option String) : Session RegistryId :=
  match id with
  | some id => find (·.registries) id
  | none => Site.addRegistry (.vacant true)

end Session

end Metering.Scenario
