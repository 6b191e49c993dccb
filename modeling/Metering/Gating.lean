import Metering.Category
import Metering.Event
import Metering.Settings
import Metering.Text.Order

/-!
# Gating of categories

Which of the known categories are enabled: none when the master switch is off; otherwise those that
the allow list names, or all without one, less those that the deny list names. A name stands for
the first known category that bears it.
-/

namespace Metering.Gating

def requested (known : Index String Category) (s : Settings) : List String :=
  match s.allowed with
  | some names => names.toList
  | none => known.keys

/-- The listed names that belong to no known category, in ascending order. -/
def unknownNames (known : Index String Category) (s : Settings) : List String :=
  Text.ascending ((Distinct.ofList (requested known s ++ s.denied.toList)).toList.filter
    fun name => decide (name ∉ known))

def passed (known : Index String Category) (s : Settings) : Distinct Category :=
  .ofList (((requested known s).filter fun name => decide (name ∉ s.denied)).filterMap known.get?)

/-- The enabled categories among the known ones, and what there is to report. -/
def resolve (known : List Category) (s : Settings) : Distinct Category × List Event :=
  if s.enabled then
    let index := Category.byName known
    let unknown := unknownNames index s
    let enabled := passed index s
    (enabled,
      (if unknown.isEmpty then [] else [.unknownNames unknown])
        ++ [.filtersLoaded s.allowed.isSome enabled.size s.denied.size])
  else (∅, [.filtersOff])

end Metering.Gating
