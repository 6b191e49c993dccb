import Metering.Settings

/-!
# Configuration

The settings in use are a snapshot of the environment, taken when they are first asked for or on
request. A snapshot that cannot be taken leaves the previous one in place.
-/

namespace Metering

/-- Settings as they were read once; `serial` counts the readings that succeeded. -/
structure Snapshot where
  settings : Settings
  serial : Nat

structure Configuration where
  environment : Environment := {}
  snapshot : Option Snapshot := none
  taken : Nat := 0

namespace Configuration

def takeSnapshot : EStateM Fault Configuration Snapshot := fun s =>
  match Settings.ofEnvironment s.environment with
  | .error e => .error e s
  | .ok settings =>
    let new : Snapshot := ⟨settings, s.taken⟩
    .ok new { s with snapshot := some new, taken := s.taken + 1 }

/-- The snapshot in use; a new one if there is none or a fresh one is wanted. -/
def current (refresh : Bool) : EStateM Fault Configuration Snapshot := fun s =>
  match s.snapshot, refresh with
  | some old, false => .ok old s
  | _, _ => takeSnapshot s

theorem current_of_snapshot {s : Configuration} {old : Snapshot} (h : s.snapshot = some old) :
    current false s = .ok old s := by
  simp [current, h]

end Configuration

end Metering
