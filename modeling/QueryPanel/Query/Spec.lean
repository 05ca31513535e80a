import QueryPanel.Query.Logs
import QueryPanel.Query.Metrics
import QueryPanel.Query.Mode
import QueryPanel.Query.Traces

/-!
# Compiled queries

A question that its source can answer, with everything in it known: `Question.timeseries` and
`Question.breakdown` compile it in the dialect of its source. Buckets of no width and breakdowns of
no rows are refused before anything else is looked at.
-/

namespace QueryPanel

/-- A timeseries of one of the sources. -/
inductive TimeseriesSpec where
  | traces (query : Timeseries TraceMetric TraceGroup TraceFilters)
  | logs (query : Timeseries LogMetric LogGroup LogFilters)
  | metrics (query : Timeseries Aggregation MetricGroup MetricFilters)

/-- A breakdown of one of the sources. -/
inductive BreakdownSpec where
  | traces (query : Breakdown TraceMetric TraceGroup TraceFilters)
  | logs (query : Breakdown LogMetric LogGroup LogFilters)
  | metrics (query : Breakdown Aggregation MetricGroup MetricFilters)

/-- A compiled query. -/
inductive QuerySpec where
  | timeseries (spec : TimeseriesSpec)
  | breakdown (spec : BreakdownSpec)

namespace TimeseriesSpec

/-- The source that is asked. -/
def source : TimeseriesSpec → Source
  | .traces _ => .traces
  | .logs _ => .logs
  | .metrics _ => .metrics

/-- The width of the buckets. -/
def bucketSeconds : TimeseriesSpec → Nat
  | .traces q => q.bucketSeconds
  | .logs q => q.bucketSeconds
  | .metrics q => q.bucketSeconds

end TimeseriesSpec

namespace BreakdownSpec

/-- The source that is asked. -/
def source : BreakdownSpec → Source
  | .traces _ => .traces
  | .logs _ => .logs
  | .metrics _ => .metrics

/-- The number of rows wanted. -/
def limit : BreakdownSpec → Nat
  | .traces q => q.limit
  | .logs q => q.limit
  | .metrics q => q.limit

end BreakdownSpec

namespace QuerySpec

/-- The mode of a query. -/
def mode : QuerySpec → Mode
  | .timeseries _ => .timeseries
  | .breakdown _ => .breakdown

/-- The source that is asked. -/
def source : QuerySpec → Source
  | .timeseries s => s.source
  | .breakdown s => s.source

/-- The width of the buckets, if there are any. -/
def bucketSeconds? : QuerySpec → Option Nat
  | .timeseries s => some s.bucketSeconds
  | .breakdown _ => none

/-- The number of rows wanted, if there is one. -/
def limit? : QuerySpec → Option Nat
  | .timeseries _ => none
  | .breakdown s => some s.limit

end QuerySpec

namespace Question

/-- Compiles a question as a timeseries with buckets of some width. -/
def timeseries (q : Question) (bucketSeconds : Nat) : Except BuildError TimeseriesSpec :=
  if bucketSeconds = 0 then .error .zeroWidth
  else
    match q.source with
    | .traces => (Dialect.traces.timeseries q bucketSeconds).map .traces
    | .logs => (Dialect.logs.timeseries q bucketSeconds).map .logs
    | .metrics => (Dialect.metricValues.timeseries q bucketSeconds).map .metrics

/-- Compiles a question as a breakdown into at most so many rows. -/
def breakdown (q : Question) (limit : Nat) : Except BuildError BreakdownSpec :=
  if limit = 0 then .error .zeroLimit
  else
    match q.source with
    | .traces => (Dialect.traces.breakdown q limit).map .traces
    | .logs => (Dialect.logs.breakdown q limit).map .logs
    | .metrics => (Dialect.metricValues.breakdown q limit).map .metrics

end Question

end QueryPanel
