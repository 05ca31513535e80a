/-!
# Modes of a query

A query asks how values change over time, or how they are spread over groups.
-/

namespace QueryPanel

/-- What kind of answer a query asks for. -/
inductive Mode where
  /-- Values in buckets of time. -/
  | timeseries
  /-- The groups with the greatest values. -/
  | breakdown
  deriving DecidableEq

namespace Mode

/-- Both modes. -/
def all : List Mode := [.timeseries, .breakdown]

/-- The name of a mode. -/
def name : Mode → String
  | .timeseries => "timeseries"
  | .breakdown => "breakdown"

/-- The modes by name. -/
def names : List (String × Mode) :=
  all.map fun m => (m.name, m)

end Mode

end QueryPanel
