import Metering.Collector
import Metering.Configuration
import Metering.Handle
import Metering.Observation

/-!
# Steps of a scenario

A scenario drives systems, rosters and collectors step by step. Objects go by names; each kind of
object has its own names. A step either works on one system (`SystemStep`) or on other objects, and
has one `Reply`.
-/

namespace Metering.Scenario

/-- A supplier: one made on the spot that always answers the same, or a named one. -/
inductive SupplierTerm where
  | constant (a : Answer)
  | named (id : String)

inductive CacheTerm where
  | numbers (info : CacheInfo)
  | named (id : String)

/-- What a registry is looked for under. -/
inductive Holder where
  | registry (id : String)
  | manager (id : String)
  | system (id : String)

/-- What a block is timed by: a timer, or a timing that was started before. -/
inductive TimedBy where
  | child (id : String)
  | timing (id : String)

/-- A family before its name and type have been looked at. -/
structure FamilyDraft where
  name : String
  type : String
  help : String
  samples : List Sample

inductive CollectorDraft where
  | fixed (families : List FamilyDraft)
  | gauge (name help : String) (supplier : SupplierTerm)
  | supplied (type name help : String) (labels : List String)
  | summary (name help : String) (supplier : SupplierTerm)
  | caches (stem : String)

inductive SystemPlan where
  /-- With the given categories enabled, on a named registry or one of its own. -/
  | direct (categories : List Category) (timers : Bool) (registry : Option String)
  /-- The same on a registry of its own, to be left later. -/
  | isolated (categories : List Category) (timers : Bool)
  /-- From settings, given or of the environment; with its built-in collectors if `init` is set. -/
  | fromSettings (categories : List Category) (settings : Option Settings)
      (registry : Option String) (init : Bool)

inductive NamingStep where
  | external (c : Category) (name : String)
  | externalCounter (c : Category) (name : String)
  | logical (c : Category) (name : String)
  | logicalCounter (c : Category) (name : String)
  | clear

inductive SystemStep where
  | labelled (kind : InstrumentKind) (c : Category) (name help : String) (labels : List String)
      (bindAs : String)
  | supplied (kind : SuppliedKind) (c : Category) (name help : String) (labels : List String)
      (bindAs : String)
  | single (kind : InstrumentKind) (c : Category) (name help : String) (bindAs : String)
  | gauge (c : Category) (name help : String) (supplier : SupplierTerm)
  | summary (c : Category) (name help : String) (supplier : SupplierTerm)
  | attachCache (c : Category) (name : String) (cache : CacheTerm)
  | observations (scope : Option Category)
  | openStream (scope : Option Category) (bindAs : String)
  | init
  | shutdown
  | leave
  | status
  | isEnabled (c : Category)

inductive Step where
  | registry (id : String) (describes : Bool)
  | system (id : String) (plan : SystemPlan)
  | onSystem (id : String) (step : SystemStep)
  | supplier (id : String) (script : Supplier)
  | calls (supplier : String)
  | cache (id : String) (info : CacheInfo)
  | advance (seconds : Float)
  | labels (handle : String) (values : List String) (bindAs : String)
  | supply (handle : String) (supplier : SupplierTerm) (values : List String)
  | increment (child : String) (amount : Float)
  | observe (child : String) (seconds : Float)
  | start (child : String) (bindAs : String)
  | stop (timing : String)
  | within (timedBy : TimedBy) (seconds : Float) (failure : Option String)
  | pull (stream : String) (n : Nat)
  | sample (holder : Holder) (name : String) (labels : Labels)
  | gather (holder : Holder)
  | collector (id : String) (draft : CollectorDraft)
  | addSupplier (collector : String) (values : List String) (supplier : SupplierTerm)
  | addCache (collector : String) (name : String) (cache : CacheTerm)
  | collect (collector : String)
  | familyNames (collector : String)
  | manager (id : String) (registry : Option String)
  | register (manager : String) (c : Category) (collector : String)
  | collectorsOf (manager : String) (c : Category)
  | categoriesOf (manager : String)
  | clear (manager : String)
  | environment (env : Environment)
  | configuration (refresh : Bool)
  | naming (step : NamingStep)
  | read (c : Category) (families : List FamilyDraft)

inductive Reply where
  | nothing
  | yes
  | flag (b : Bool)
  | count (n : Nat)
  | number (x : Float)
  | value (x : Option Number)
  | text (s : String)
  | names (xs : List String)
  | categories (cs : List Category)
  | status (enabled : List Category) (timers : Bool)
  | handle (sameAs : Option String) (arity : Nat) (inert : Bool)
  | child (kind : ChildKind) (inert : Bool)
  | observations (os : List Observation)
  | page (os : List Observation) (done : Bool)
  | families (fs : List Family)
  | configuration (settings : Settings) (same : Bool)

end Metering.Scenario
