import Metering.Instrument.Kind
import Metering.Text.Quoted

/-!
# Events

What the metrics report about themselves: each event with its source, its level, the text of its
record and the fields that go with it.
-/

namespace Metering

/-- Something worth a record. -/
inductive Event where
  | replaced (category : String) (families : List String) (evicted : Nat)
  | cleared (categories : Nat)
  | inertHandle (kind : InstrumentKind) (name : String)
  | shutdown
  /-- The master switch is off. -/
  | filtersOff
  /-- The allow and deny lists have been applied. -/
  | filtersLoaded (allowList : Bool) (enabled disabled : Nat)
  /-- Listed names that belong to no known category. -/
  | unknownNames (names : List String)
  deriving DecidableEq, Repr

namespace Event

inductive Level where
  | debug
  | info
  | warning
  deriving DecidableEq, Repr

/-- The part of the library that reports. -/
inductive Source where
  | registration
  | system
  | gating
  deriving DecidableEq, Repr

inductive Datum where
  | text (s : String)
  | flag (b : Bool)
  | number (n : Nat)
  | texts (xs : List String)
  deriving DecidableEq, Repr

def level : Event → Level
  | .cleared _ | .inertHandle .. => .debug
  | .unknownNames _ => .warning
  | .replaced .. | .shutdown | .filtersOff | .filtersLoaded .. => .info

def source : Event → Source
  | .replaced .. | .cleared _ => .registration
  | .inertHandle .. | .shutdown => .system
  | .filtersOff | .filtersLoaded .. | .unknownNames _ => .gating

def text : Event → String
  | .replaced category families evicted =>
    "metrics.collector.replaced category=" ++ category ++ " families="
      ++ Text.quotedList families ++ " evicted=" ++ toString evicted
  | .cleared categories => "metrics.collectors.cleared categories=" ++ toString categories
  | .inertHandle kind name => "metrics.inert_handle kind=" ++ kind.word ++ " name=" ++ name
  | .shutdown => "metrics.system.shutdown"
  | .filtersOff | .filtersLoaded .. => "metrics.category_filters.loaded"
  | .unknownNames names =>
    "metrics.category_filters.unknown names=" ++ String.intercalate "," names

def fields : Event → List (String × Datum)
  | .replaced category families evicted =>
    [("event", .text "metrics.collector.replaced"), ("category", .text category),
     ("families", .texts families), ("evicted", .number evicted)]
  | .shutdown => [("event", .text "metrics.system.shutdown")]
  | .filtersOff =>
    [("event", .text "metrics.category_filters.loaded"), ("metrics_enabled", .flag false)]
  | .filtersLoaded allowList enabled disabled =>
    [("event", .text "metrics.category_filters.loaded"), ("metrics_enabled", .flag true),
     ("allow_list_active", .flag allowList), ("enabled_count", .number enabled),
     ("disabled_count", .number disabled)]
  | .cleared _ | .inertHandle .. | .unknownNames _ => []

end Event

end Metering
