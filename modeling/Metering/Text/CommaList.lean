import Metering.Data.Distinct
import Metering.Text.Blank

/-!
# Comma-separated lists of names

A list of names is written with commas between the names. White space around a name does not
count, and a segment without anything else is no name. Reading gives the names in order, each once.
-/

namespace Metering.Text

def consSegment (c : Char) : List (List Char) → List (List Char)
  | [] => [[c]]
  | s :: rest => (c :: s) :: rest

/-- The segments between the occurrences of `sep`: one more than there are occurrences. -/
def segments (sep : Char) : List Char → List (List Char)
  | [] => [[]]
  | c :: s => if c = sep then [] :: segments sep s else consSegment c (segments sep s)

/-- The names of a comma-separated list, trimmed, in order. -/
def listedNames (s : String) : List String :=
  (((segments ',' s.toList).map trimList).filter fun name => !name.isEmpty).map String.ofList

def readNames (s : String) : Distinct String := .ofList (listedNames s)

end Metering.Text
