import Metering.Family
import Metering.NameBook

/-!
# Observations

An observation is a sample as the application addresses it: by category, logical name and label
values. The ending of a sample's name, which tells a sum from a count or a bucket, moves into the
label values: last in general, but before the value of the `le` or `quantile` label where that
one says which bucket or quantile is meant.
-/

namespace Metering

/-- A number under the name that the application gave. -/
structure Observation where
  category : Category
  metric : String
  value : Option Number
  labels : List String

namespace Observation

/-- Puts a word in front of the last value. -/
def beforeLast (word : String) : List String → List String
  | [] => [word]
  | [last] => [word, last]
  | x :: y :: rest => x :: beforeLast word (y :: rest)

/-- The label values of an observation of a sample that belongs to a family of the given type. -/
def labelValues (type : FamilyType) (s : Sample) : List String :=
  let values := s.labels.values
  match type with
  | .histogram =>
    if Text.endsWith "_bucket" s.name then beforeLast "bucket" values
    else values ++ [Text.lastWord s.name]
  | .summary =>
    if Text.endsWith "_sum" s.name then values ++ ["sum"]
    else if Text.endsWith "_count" s.name then values ++ ["count"]
    else if Text.endsWith "_created" s.name then values ++ ["created"]
    else beforeLast "quantile" values
  | .counter => if Text.endsWith "_created" s.name then values ++ ["created"] else values
  | _ => values

/-- The logical name of an observation: of the family for the types whose samples carry endings,
else of the sample itself. -/
def metricName (book : NameBook) (c : Category) (f : Family) (s : Sample) : String :=
  match f.type with
  | .histogram | .summary => c.logical f.name
  | .counter => book.counterName c f.name
  | _ => c.logical s.name

def ofSample (book : NameBook) (c : Category) (f : Family) (s : Sample) : Observation :=
  ⟨c, metricName book c f s, s.value, labelValues f.type s⟩

def ofFamilies (book : NameBook) (c : Category) (fs : List Family) : List Observation :=
  fs.flatMap fun f => f.samples.map (ofSample book c f)

end Observation

end Metering
