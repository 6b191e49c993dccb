import Metering.Handle
import Metering.NameBook
import Metering.Roster

/-!
# Systems

A system is one application's set of metrics: the enabled categories, the roster of collectors, the
book of counter names, and what has been handed out so far (the handles by external name, the cache
collector of each category and the names of the attached caches). An `Operation` works on a system
that is deployed on a site and may fail; what it did before it failed stays done.
-/

namespace Metering

structure System where
  enabled : Distinct Category
  timers : Bool
  roster : Roster
  book : NameBook
  counterHandles : Index String Handle
  timerHandles : Index String Handle
  shared : Index Category CollectorId
  cacheNames : Distinct String
  deriving DecidableEq

namespace System

/-- A system that has handed out nothing. -/
def fresh (enabled : Distinct Category) (timers : Bool) (r : RegistryId) : System :=
  ⟨enabled, timers, .vacant r, .blank, ∅, ∅, ∅, ∅⟩

def isEnabled (s : System) (c : Category) : Bool := decide (c ∈ s.enabled)

/-- Whether instruments of a kind record anything under a category. -/
def records (s : System) (kind : InstrumentKind) (c : Category) : Bool :=
  match kind with
  | .counter => s.isEnabled c
  | .timer | .simpleTimer => s.timers && s.isEnabled c

/-- The handles of a kind of instrument by external name. Both kinds of timers share theirs. -/
def handles (s : System) (kind : InstrumentKind) : Index String Handle :=
  match kind with
  | .counter => s.counterHandles
  | .timer | .simpleTimer => s.timerHandles

def keep (s : System) (kind : InstrumentKind) (external : String) (h : Handle) : System :=
  match kind with
  | .counter => { s with counterHandles := s.counterHandles.put external h }
  | .timer | .simpleTimer => { s with timerHandles := s.timerHandles.put external h }

def remember (s : System) (name : String) : System := { s with book := s.book.remember name }

end System

/-- A system on its site. -/
structure Deployment where
  system : System
  site : Site

abbrev Operation := EStateM Fault Deployment

namespace Operation

/-- An action of the site as an operation of the system. -/
def ofAction {α : Type} (a : Action α) : Operation α := fun d =>
  match a d.site with
  | .ok x site => .ok x { d with site := site }
  | .error e site => .error e { d with site := site }

instance : MonadLift Action Operation := ⟨ofAction⟩

def system : Operation System := return (← get).system

def change (f : System → System) : Operation Unit := modify fun d => { d with system := f d.system }

end Operation

end Metering
