import QueryPanel.Query.Question

/-!
# Dialects

Each source has its own metrics, groups and filters. A dialect says what they are, and the two ways
to compile a question, as a timeseries and as a breakdown, are the same for every dialect.

A question is checked in a fixed order, and the first thing wrong with it is reported: the metric,
then the filters, then the grouping.
-/

namespace QueryPanel

/-- A question compiled as a timeseries. -/
structure Timeseries (Metric Group Filters : Type) where
  metric : Metric
  groupBy : Option Group
  filters : Filters
  bucketSeconds : Nat

/-- A question compiled as a breakdown, which always has groups. -/
structure Breakdown (Metric Group Filters : Type) where
  metric : Metric
  groupBy : Group
  filters : Filters
  limit : Nat

/-- What one source can be asked. -/
structure Dialect (Metric Group Filters : Type) where
  source : Source
  metrics : List (String × Metric)
  groups : List (String × Group)
  /-- The filters that the source knows, out of those of a question. -/
  filters : FilterBag → Except BuildError Filters
  /-- A metric can be broken down into groups. -/
  hasBreakdown : Metric → Bool
  /-- The group of a timeseries when nothing is said about grouping. -/
  usualGroup : Option Group

namespace Dialect

variable {Metric Group Filters : Type} (d : Dialect Metric Group Filters)

/-- The metric of a name in any case, with blanks around it allowed. -/
def metric (name : String) : Except BuildError Metric :=
  match d.metrics.lookup (Text.plainName name) with
  | some m => .ok m
  | none => .error (.unknownMetric d.source name)

/-- The metric of a name, if it can be broken down. -/
def breakdownMetric (name : String) : Except BuildError Metric := do
  let m ← d.metric name
  if d.hasBreakdown m then .ok m else .error (.noBreakdown name)

/-- The group of a name. -/
def group (name : String) : Except BuildError Group :=
  match d.groups.lookup name with
  | some g => .ok g
  | none => .error (.unsupportedGroup d.source name)

/-- The group of a timeseries, if it has groups. -/
def timeseriesGroup : Grouping → Except BuildError (Option Group)
  | .unsaid => .ok d.usualGroup
  | .off => .ok none
  | .named name => (d.group name).map some

/-- The group of a breakdown, which has to be named. -/
def breakdownGroup : Grouping → Except BuildError Group
  | .named name => d.group name
  | _ => .error (.missingGroup d.source)

/-- Compiles a question as a timeseries. -/
def timeseries (q : Question) (bucketSeconds : Nat) :
    Except BuildError (Timeseries Metric Group Filters) := do
  let metric ← d.metric q.metric
  let filters ← d.filters q.filters
  let groupBy ← d.timeseriesGroup q.grouping
  .ok { metric, groupBy, filters, bucketSeconds }

/-- Compiles a question as a breakdown. -/
def breakdown (q : Question) (limit : Nat) :
    Except BuildError (Breakdown Metric Group Filters) := do
  let metric ← d.breakdownMetric q.metric
  let filters ← d.filters q.filters
  let groupBy ← d.breakdownGroup q.grouping
  .ok { metric, groupBy, filters, limit }

end Dialect

end QueryPanel
