import Metering.Fault
import Metering.Text.CommaList

/-!
# Settings

The settings of the metrics are read from four environment variables: a master switch, a switch for
timers, a list of the categories to allow and a list of the categories to deny. A missing allow
list allows everything; an empty one allows nothing.
-/

namespace Metering

structure Environment where
  enabled : Option String := none
  categories : Option String := none
  disabled : Option String := none
  timers : Option String := none
  deriving DecidableEq, Repr

structure Settings where
  enabled : Bool
  allowed : Option (Distinct String)
  denied : Distinct String
  timers : Bool

namespace Settings

def yesWords : List String := ["1", "true", "yes", "on"]

def noWords : List String := ["0", "false", "no", "off"]

/-- A word in lower case. Outside ASCII no letter has one of the letters of the words for yes and
no as its lower case. -/
def lowered (s : String) : String := String.ofList (s.toList.map Char.toLower)

/-- Reads a switch: unset or blank it is on, otherwise it has to be one of the words for yes and
no, white space and case aside. -/
def readFlag (variableName : String) : Option String → Except Fault Bool
  | none => .ok true
  | some given =>
    let word := lowered (Text.trim given)
    if word = "" then .ok true
    else if word ∈ yesWords then .ok true
    else if word ∈ noWords then .ok false
    else .error (.notAFlag variableName given)

/-- The settings of an environment. The master switch is looked at before the one for timers. -/
def ofEnvironment (env : Environment) : Except Fault Settings :=
  match readFlag "MB_METRICS_ENABLED" env.enabled with
  | .error e => .error e
  | .ok enabled =>
    match readFlag "MB_METRICS_TIMERS_ENABLED" env.timers with
    | .error e => .error e
    | .ok timers =>
      .ok ⟨enabled, env.categories.map Text.readNames, (env.disabled.map Text.readNames).getD ∅,
        timers⟩

end Settings

end Metering
