import QueryPanel.Text.Lower

/-!
# Types of metrics

The instrument that a metric comes from. Its type decides where its data is kept.
-/

namespace QueryPanel

/-- The type of a metric. -/
inductive MetricType where
  | gauge
  | sum
  | histogram
  | exponentialHistogram
  | summary
  deriving DecidableEq

namespace MetricType

/-- All types, in the order in which they are offered. -/
def all : List MetricType :=
  [.gauge, .sum, .histogram, .exponentialHistogram, .summary]

/-- The name of a type. -/
def name : MetricType → String
  | .gauge => "gauge"
  | .sum => "sum"
  | .histogram => "histogram"
  | .exponentialHistogram => "exponential_histogram"
  | .summary => "summary"

/-- The types by name. -/
def names : List (String × MetricType) :=
  all.map fun t => (t.name, t)

/-- The type of a name in any case, with blanks around it allowed. -/
def ofText? (s : String) : Option MetricType :=
  names.lookup (Text.plainName s)

end MetricType

end QueryPanel
