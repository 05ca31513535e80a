/-!
# Sources of telemetry

What a query reads: spans of traces, log records or metrics.
-/

namespace QueryPanel

/-- A source of telemetry. -/
inductive Source where
  | traces
  | logs
  | metrics
  deriving DecidableEq

namespace Source

/-- All sources. -/
def all : List Source := [.traces, .logs, .metrics]

/-- The name of a source. -/
def name : Source → String
  | .traces => "traces"
  | .logs => "logs"
  | .metrics => "metrics"

/-- The sources by name. -/
def names : List (String × Source) :=
  all.map fun s => (s.name, s)

end Source

end QueryPanel
