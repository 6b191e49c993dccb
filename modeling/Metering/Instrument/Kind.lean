/-!
# Kinds of instruments
-/

namespace Metering

/-- The instruments that record what the application does. A timer keeps count and sum of its
durations, a simple timer their distribution over two buckets. -/
inductive InstrumentKind where
  | counter
  | timer
  | simpleTimer
  deriving DecidableEq, Repr

def InstrumentKind.word : InstrumentKind → String
  | .counter => "counter"
  | .timer => "timer"
  | .simpleTimer => "simple_timer"

end Metering
