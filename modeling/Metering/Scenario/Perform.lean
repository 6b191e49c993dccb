import Metering.Scenario.Workspace

/-!
# Performing steps

`perform` carries out one step. The objects that a step names are looked up first: what the step is
about, then its supplier or cache. `run` carries out steps one after the other; a step that fails
keeps what it did before it failed, and the next one goes on from there.
-/

namespace Metering.Scenario

open Session

def buildFamilies (drafts : List FamilyDraft) : Except Fault (List Family) :=
  drafts.mapM fun d => Family.ofWords d.type d.name d.help d.samples

/-- Binds a handle, and tells under which name the very same handle was bound first. -/
def bindHandle (h : Handle) (name : String) : Session Reply := do
  let before := (← get).handleNames.get? h.serial
  modify fun w => { w with handleNames := w.handleNames.put h.serial (before.getD name) }
  assign fun b => { b with handles := b.handles.put name h }
  return .handle before h.arity h.inert

def bindChild (c : Child) (name : String) : Session Reply := do
  assign fun b => { b with children := b.children.put name c }
  return .child c.kind c.inert

def findChild (kind : ChildKind) (id : String) : Session Child := do
  let c ← find (·.children) id
  if c.kind = kind then return c else throw (.unbound id)

/-- Registers the built-in collectors of a system if this is wanted. -/
def initIf (wanted : Bool) (i : SystemId) : Session Unit :=
  if wanted then onSystem i System.init else return

/-- Shuts down an isolated system that has not been left yet. -/
def leave (i : SystemId) : Session Unit := do
  if i ∈ (← get).isolated then
    modify fun w => { w with isolated := w.isolated.erase i }
    onSystem i System.shutdown

/-- The timing that a block is timed by. -/
def timingFor : TimedBy → Session TimingId
  | .timing id => find (·.timings) id
  | .child id => do addTiming (← Timing.start (← findChild .timer id))

def makeSystem (id : String) : SystemPlan → Session Unit
  | .direct categories timers registry => do
    let r ← registryOr registry
    let i ← addSystem (.fresh (.ofList categories) timers r)
    assign fun b => { b with systems := b.systems.put id i }
  | .isolated categories timers => do
    let r ← Site.addRegistry (.vacant true)
    let i ← addSystem (.fresh (.ofList categories) timers r)
    modify fun w => { w with isolated := i :: w.isolated }
    assign fun b => { b with systems := b.systems.put id i }
  | .fromSettings categories settings registry init => do
    let r ← registryOr registry
    let settings ← settingsOr settings
    let i ← addSystem (← System.launch categories settings r)
    initIf init i
    assign fun b => { b with systems := b.systems.put id i }

def performOn (i : SystemId) : SystemStep → Session Reply
  | .labelled kind c name help labels bindAs => do
    bindHandle (← onSystem i (System.labelled kind c name help labels)) bindAs
  | .supplied kind c name help labels bindAs => do
    bindHandle (← onSystem i (System.supplied kind c name help labels)) bindAs
  | .single kind c name help bindAs => do
    bindChild (← onSystem i (System.single kind c name help)) bindAs
  | .gauge c name help supplier => do
    let s ← supplierOf supplier
    onSystem i (System.gauge c name help s)
    return .nothing
  | .summary c name help supplier => do
    let s ← supplierOf supplier
    onSystem i (System.summary c name help s)
    return .nothing
  | .attachCache c name cache => do
    let k ← cacheOf cache
    onSystem i (System.attachCache c name k)
    return .nothing
  | .observations scope => do
    return .observations (← onSystem i (System.observations scope))
  | .openStream scope bindAs => do
    let s ← addStream ⟨i, .unopened scope⟩
    assign fun b => { b with streams := b.streams.put bindAs s }
    return .nothing
  | .init => do
    onSystem i System.init
    return .nothing
  | .shutdown => do
    onSystem i System.shutdown
    return .nothing
  | .leave => do
    leave i
    return .nothing
  | .status => do
    let s ← onSystem i Operation.system
    return .status (Category.arranged s.enabled.toList) s.timers
  | .isEnabled c => do
    return .flag ((← onSystem i Operation.system).isEnabled c)

def registryOf : Holder → Session RegistryId
  | .registry id => find (·.registries) id
  | .manager id => do return (← managerAt (← find (·.managers) id)).registry
  | .system id => do return (← onSystem (← find (·.systems) id) Operation.system).roster.registry

def makeCollector : CollectorDraft → Session Collector
  | .fixed drafts => do return .fixed (← ofExcept (buildFamilies drafts))
  | .gauge name help supplier => do return .gauge name help (← supplierOf supplier)
  | .supplied type name help labels => do
    return .supplied ⟨← ofExcept (SuppliedKind.ofWord type), name, help, labels, ∅⟩
  | .summary name help supplier => do return .summary name help (← supplierOf supplier)
  | .caches stem => return .caches stem ∅

def performNaming : NamingStep → Session Reply
  | .external c name => return .text (c.external name)
  | .externalCounter c name => do
    modify fun w => { w with book := w.book.remember name }
    return .text (c.external name)
  | .logical c name => return .text (c.logical name)
  | .logicalCounter c name => return .text ((← get).book.counterName c name)
  | .clear => do
    modify fun w => { w with book := .blank }
    return .nothing

def perform : Step → Session Reply
  | .registry id describes => do
    let r ← Site.addRegistry (.vacant describes)
    assign fun b => { b with registries := b.registries.put id r }
    return .nothing
  | .system id plan => do
    makeSystem id plan
    return .nothing
  | .onSystem id step => do
    performOn (← find (·.systems) id) step
  | .supplier id script => do
    let s ← Site.addSupplier script
    assign fun b => { b with suppliers := b.suppliers.put id s }
    return .nothing
  | .calls id => do
    let s ← find (·.suppliers) id
    return .count ((← get).site.callsOf s)
  | .cache id info => do
    match (← get).bound.caches.get? id with
    | some k => Site.updateCache k info
    | none => do
      let k ← Site.addCache info
      assign fun b => { b with caches := b.caches.put id k }
    return .nothing
  | .advance seconds => do
    Site.advance seconds
    return .nothing
  | .labels handle values bindAs => do
    let h ← find (·.handles) handle
    match h.use with
    | .supplying => throw (.unbound handle)
    | .recording kind => bindChild (← h.labels kind values) bindAs
  | .supply handle supplier values => do
    let h ← find (·.handles) handle
    let s ← supplierOf supplier
    h.supply s values
    return .nothing
  | .increment child amount => do
    (← findChild .counter child).increment amount
    return .nothing
  | .observe child seconds => do
    (← findChild .timer child).observe seconds
    return .nothing
  | .start child bindAs => do
    let t ← Timing.start (← findChild .timer child)
    let i ← addTiming t
    assign fun b => { b with timings := b.timings.put bindAs i }
    return .nothing
  | .stop timing => do
    return .number (← stopTiming (← find (·.timings) timing))
  | .within timedBy seconds failure => do
    let i ← timingFor timedBy
    Site.advance seconds
    -- a block that fails is over, too
    let elapsed ← stopTiming i
    match failure with
    | some message => throw (.raised .runtime message)
    | none => return .number elapsed
  | .pull stream n => do
    let page ← pullFrom (← find (·.streams) stream) n
    return .page page.observations page.done
  | .sample holder name labels => do
    return .value (← Site.sampleValue (← registryOf holder) name labels)
  | .gather holder => do
    return .families (← Site.gather (← registryOf holder))
  | .collector id draft => do
    let k ← Site.addCollector (← makeCollector draft)
    modify fun w => { w with collectorNames := w.collectorNames.put k id }
    assign fun b => { b with collectors := b.collectors.put id k }
    return .nothing
  | .addSupplier collector values supplier => do
    let k ← find (·.collectors) collector
    let s ← supplierOf supplier
    Handle.addSupplied k values s
    return .nothing
  | .addCache collector name cache => do
    let k ← find (·.collectors) collector
    let c ← cacheOf cache
    System.attachTo k name c
    return .nothing
  | .collect collector => do
    return .families (← Site.collect (← find (·.collectors) collector))
  | .familyNames collector => do
    return .names (Text.ascending (← Site.familyNames (← find (·.collectors) collector)).toList)
  | .manager id registry => do
    let i ← addManager (.vacant (← registryOr registry))
    assign fun b => { b with managers := b.managers.put id i }
    return .nothing
  | .register manager c collector => do
    let k ← find (·.collectors) collector
    let i ← find (·.managers) manager
    setManager i (← (← managerAt i).register c k)
    return .yes
  | .collectorsOf manager c => do
    let r ← managerAt (← find (·.managers) manager)
    let names := (← get).collectorNames
    return .names ((r.ofCategory c).filterMap names.get?)
  | .categoriesOf manager => do
    return .categories (← managerAt (← find (·.managers) manager)).categories
  | .clear manager => do
    let i ← find (·.managers) manager
    let r ← managerAt i
    setManager i r.emptied
    r.dismiss
    return .nothing
  | .environment env => do
    modify fun w => { w with configuration := { w.configuration with environment := env } }
    return .nothing
  | .configuration refresh => do
    let new ← ofConfiguration (Configuration.current refresh)
    let before := (← get).shown
    modify fun w => { w with shown := some new.serial }
    return .configuration new.settings (before == some new.serial)
  | .naming step => performNaming step
  | .read c drafts => do
    let families ← ofExcept (buildFamilies drafts)
    return .observations (Observation.ofFamilies (← get).book c families)

structure Outcome where
  result : Except Fault Reply
  events : List Event

/-- Carries out a step and goes on with the state that it leaves, also when it fails. -/
def advanceBy (w : Workspace) (step : Step) : Outcome × Workspace :=
  let reported := w.site.journal.length
  match perform step w with
  | .ok reply w' => (⟨.ok reply, w'.site.journal.drop reported⟩, w')
  | .error fault w' => (⟨.error fault, w'.site.journal.drop reported⟩, w')

/-- Carries out steps from a state. -/
def runFrom (w : Workspace) : List Step → List Outcome × Workspace
  | [] => ([], w)
  | step :: steps =>
    let (outcome, w) := advanceBy w step
    let (outcomes, w) := runFrom w steps
    (outcome :: outcomes, w)

theorem runFrom_append (w : Workspace) (steps more : List Step) :
    runFrom w (steps ++ more)
      = ((runFrom w steps).1 ++ (runFrom (runFrom w steps).2 more).1,
        (runFrom (runFrom w steps).2 more).2) := by
  induction steps generalizing w with
  | nil => rfl
  | cons step steps ih => simp [runFrom, ih]

def run (steps : List Step) : List Outcome := (runFrom {} steps).1

end Metering.Scenario
