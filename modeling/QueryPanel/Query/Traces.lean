import QueryPanel.Query.Dialect

/-!
# Asking traces

Spans are counted, timed, or looked at for errors. All filters but the severity of log records apply
to them.
-/

namespace QueryPanel

/-- What is measured on spans. -/
inductive TraceMetric where
  | count
  | averageDuration
  | medianDuration
  | percentile95
  | percentile99
  | errorRate
  deriving DecidableEq

/-- What spans are grouped by. -/
inductive TraceGroup where
  | service
  | spanName
  | statusCode
  | httpMethod
  | attr
  deriving DecidableEq

/-- The filters on spans. -/
structure TraceFilters where
  service : Option String
  spanName : Option String
  environment : Option String
  commitSha : Option String
  httpMethod : Option String
  httpStatusCode : Option String
  hasError : Option Bool
  rootOnly : Option Bool
  minDuration : Option Double
  maxDuration : Option Double
  attr : Option AttributeFilter
  resource : Option AttributeFilter
  deriving DecidableEq

namespace TraceMetric

/-- All metrics of spans. -/
def all : List TraceMetric :=
  [.count, .averageDuration, .medianDuration, .percentile95, .percentile99, .errorRate]

/-- The name of a metric. -/
def name : TraceMetric → String
  | .count => "count"
  | .averageDuration => "avg_duration"
  | .medianDuration => "p50_duration"
  | .percentile95 => "p95_duration"
  | .percentile99 => "p99_duration"
  | .errorRate => "error_rate"

end TraceMetric

namespace TraceGroup

/-- All groups of spans. -/
def all : List TraceGroup :=
  [.service, .spanName, .statusCode, .httpMethod, .attr]

/-- The name of a group. -/
def name : TraceGroup → String
  | .service => "service"
  | .spanName => "span_name"
  | .statusCode => "status_code"
  | .httpMethod => "http_method"
  | .attr => "attribute"

end TraceGroup

/-- The filters of a bag that apply to spans. -/
def TraceFilters.ofBag (bag : FilterBag) : TraceFilters where
  service := bag.fields.service
  spanName := bag.fields.spanName
  environment := bag.fields.environment
  commitSha := bag.fields.commitSha
  httpMethod := bag.fields.httpMethod
  httpStatusCode := bag.fields.httpStatusCode
  hasError := bag.fields.hasError
  rootOnly := bag.fields.rootOnly
  minDuration := bag.fields.minDuration
  maxDuration := bag.fields.maxDuration
  attr := bag.fields.attr
  resource := bag.fields.resource

/-- What traces can be asked. -/
def Dialect.traces : Dialect TraceMetric TraceGroup TraceFilters where
  source := .traces
  metrics := TraceMetric.all.map fun m => (m.name, m)
  groups := TraceGroup.all.map fun g => (g.name, g)
  filters bag := .ok (.ofBag bag)
  hasBreakdown _ := true
  usualGroup := none

end QueryPanel
