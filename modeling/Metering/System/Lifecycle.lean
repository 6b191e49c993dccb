import Metering.Gating
import Metering.System.Builtin
import Metering.System.Creation

/-!
# Start and shutdown

A system starts with the built-in collectors of those standard categories that are enabled. Shutting
it down empties its roster first and forgets everything else only if every collector could be
released.
-/

namespace Metering.System

open Operation

def registerBuiltins (c : Category) (bs : List Collector) : Operation Unit := do
  if (← system).isEnabled c then bs.forM fun b => discard (enroll c b)

/-- Registers the built-in collectors. A failure leaves those that were registered before it. -/
def init : Operation Unit := do
  registerBuiltins .process [Builtin.process]
  registerBuiltins .runtime [Builtin.platform, Builtin.garbage]

def reset (s : System) : System := fresh s.enabled s.timers s.roster.registry

/-- Releases all collectors and resets the system. -/
def shutdown : Operation Unit := do
  let roster := (← system).roster
  -- the lists are empty even if a collector cannot be released
  change fun s => { s with roster := roster.emptied }
  roster.dismiss
  change reset
  Site.report .shutdown

def reportAll (events : List Event) : Action Unit := events.forM Site.report

/-- A system on a registry with those of the known categories that the settings enable. The
standard categories are known in any case, after those of the application. -/
def launch (categories : List Category) (settings : Settings) (registry : RegistryId) :
    Action System := do
  let (enabled, events) := Gating.resolve (categories ++ Category.standard) settings
  reportAll events
  return fresh enabled settings.timers registry

end Metering.System
