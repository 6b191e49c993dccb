import Metering.Handle

/-!
# Timings

A timing measures one duration on the clock of the site. It records the duration when it is stopped
for the first time; later stops only tell it again.
-/

namespace Metering

structure Timing where
  child : Child
  started : Float
  elapsed : Option Float

namespace Timing

def start (c : Child) : Action Timing := do
  return ⟨c, (← get).clock, none⟩

/-- Stops a timing: gives its duration, and the timing as it is from then on. -/
def stop (t : Timing) : Action (Float × Timing) :=
  match t.elapsed with
  | some seconds => return (seconds, t)
  | none => do
    let seconds := (← get).clock - t.started
    t.child.observe seconds
    return (seconds, { t with elapsed := some seconds })

end Timing

end Metering
