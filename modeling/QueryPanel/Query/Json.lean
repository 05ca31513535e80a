import QueryPanel.Filter.Json
import QueryPanel.Query.Spec

/-!
# Queries in JSON

A compiled query is one flat record: its mode and source, then what the dialect of the source says.
-/

namespace QueryPanel

/-- The filters on spans as a record. -/
def TraceFilters.toJson (f : TraceFilters) : Json :=
  .record [("service", f.service.map .string), ("spanName", f.spanName.map .string),
    ("environment", f.environment.map .string), ("commitSha", f.commitSha.map .string),
    ("httpMethod", f.httpMethod.map .string), ("httpStatusCode", f.httpStatusCode.map .string),
    ("hasError", f.hasError.map .bool), ("rootOnly", f.rootOnly.map .bool),
    ("minDurationMs", f.minDuration.map (·.toJson)),
    ("maxDurationMs", f.maxDuration.map (·.toJson)), ("attribute", f.attr.map (·.toJson)),
    ("resource", f.resource.map (·.toJson))]

/-- The filters on log records as a record. -/
def LogFilters.toJson (f : LogFilters) : Json :=
  .record [("service", f.service.map .string), ("severity", f.severity.map .string),
    ("environment", f.environment.map .string), ("commitSha", f.commitSha.map .string),
    ("search", f.search.map .string), ("attribute", f.attr.map (·.toJson)),
    ("resource", f.resource.map (·.toJson))]

/-- The filters on the values of metrics as a record. -/
def MetricFilters.toJson (f : MetricFilters) : Json :=
  .record [("metricName", some (.string f.metricName)),
    ("metricType", some (.string f.metricType.name)), ("service", f.service.map .string),
    ("environment", f.environment.map .string), ("attribute", f.attr.map (·.toJson)),
    ("resource", f.resource.map (·.toJson))]

section

variable {Metric Group Filters : Type} (metric : Metric → String) (group : Group → String)
  (filters : Filters → Json)

/-- What the dialect of its source says of a timeseries. -/
def Timeseries.members (q : Timeseries Metric Group Filters) : List (String × Option Json) :=
  [("metric", some (.string (metric q.metric))),
    ("groupBy", q.groupBy.map fun g => .string (group g)), ("filters", some (filters q.filters)),
    ("bucketSeconds", some (.nat q.bucketSeconds))]

/-- What the dialect of its source says of a breakdown. -/
def Breakdown.members (q : Breakdown Metric Group Filters) : List (String × Option Json) :=
  [("metric", some (.string (metric q.metric))), ("groupBy", some (.string (group q.groupBy))),
    ("filters", some (filters q.filters)), ("limit", some (.nat q.limit))]

end

namespace QuerySpec

/-- What the dialect of its source says of a query. -/
def members : QuerySpec → List (String × Option Json)
  | .timeseries (.traces q) => q.members TraceMetric.name TraceGroup.name TraceFilters.toJson
  | .timeseries (.logs q) => q.members LogMetric.name LogGroup.name LogFilters.toJson
  | .timeseries (.metrics q) => q.members Aggregation.name MetricGroup.name MetricFilters.toJson
  | .breakdown (.traces q) => q.members TraceMetric.name TraceGroup.name TraceFilters.toJson
  | .breakdown (.logs q) => q.members LogMetric.name LogGroup.name LogFilters.toJson
  | .breakdown (.metrics q) => q.members Aggregation.name MetricGroup.name MetricFilters.toJson

/-- A compiled query as a record. -/
def toJson (q : QuerySpec) : Json :=
  .record (("kind", some (.string q.mode.name)) :: ("source", some (.string q.source.name))
    :: q.members)

end QuerySpec

/-- Reads a question, and with it the number that is its last member: the width of the buckets or
the number of rows. -/
def Question.ofJson? (last : String) (v : Json) : Option (Question × Nat) := do
  let get ← v.members? ["source", "metric", "groupBy", "filters", last]
  let source ← Json.required (Json.asChoice? Source.names) (get "source")
  let metric ← Json.required Json.asString? (get "metric")
  let groupBy ← Json.optional Json.asString? (get "groupBy")
  let filters ← Json.withDefault {} FilterBag.ofJson? (get "filters")
  let number ← Json.required Json.asWord32? (get last)
  some ({ source, metric, groupBy, filters }, number)

end QueryPanel
