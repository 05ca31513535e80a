import QueryPanel.Query.Dialect
import QueryPanel.Query.MetricType

/-!
# Asking metrics

The values of one named metric are aggregated. Its type has to be given too, because it decides
where the values are kept.
-/

namespace QueryPanel

/-- How the values of a metric are put together. -/
inductive Aggregation where
  | average
  | sum
  | minimum
  | maximum
  | count
  deriving DecidableEq

/-- What the values of a metric are grouped by. -/
inductive MetricGroup where
  | service
  deriving DecidableEq

/-- The filters on the values of metrics. -/
structure MetricFilters where
  metricName : String
  metricType : MetricType
  service : Option String
  environment : Option String
  attr : Option AttributeFilter
  resource : Option AttributeFilter
  deriving DecidableEq

namespace Aggregation

/-- All aggregations. -/
def all : List Aggregation :=
  [.average, .sum, .minimum, .maximum, .count]

/-- The name of an aggregation. -/
def name : Aggregation → String
  | .average => "avg"
  | .sum => "sum"
  | .minimum => "min"
  | .maximum => "max"
  | .count => "count"

/-- The aggregation can be broken down into groups. -/
def hasBreakdown : Aggregation → Bool
  | .average => true
  | .sum => true
  | .minimum => false
  | .maximum => false
  | .count => true

end Aggregation

namespace MetricGroup

/-- All groups of metrics. -/
def all : List MetricGroup := [.service]

/-- The name of a group. -/
def name : MetricGroup → String
  | .service => "service"

end MetricGroup

/-- The filters of a bag that apply to metrics. -/
def MetricFilters.ofBag (bag : FilterBag) : Except BuildError MetricFilters :=
  match bag.metricName.bind Text.trimmedNonempty?, bag.metricType.bind Text.trimmedNonempty? with
  | none, _ => .error .missingMetricName
  | some _, none => .error .missingMetricType
  | some metricName, some text =>
    match MetricType.ofText? text with
    | none => .error (.unknownMetricType text)
    | some metricType =>
      .ok { metricName, metricType
            service := bag.fields.service
            environment := bag.fields.environment
            attr := bag.fields.attr
            resource := bag.fields.resource }

/-- What metrics can be asked. Their timeseries are grouped unless grouping is switched off. -/
def Dialect.metricValues : Dialect Aggregation MetricGroup MetricFilters where
  source := .metrics
  metrics := Aggregation.all.map fun a => (a.name, a)
  groups := MetricGroup.all.map fun g => (g.name, g)
  filters := MetricFilters.ofBag
  hasBreakdown := Aggregation.hasBreakdown
  usualGroup := some .service

end QueryPanel
