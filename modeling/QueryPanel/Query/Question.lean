import QueryPanel.Filter.Bag
import QueryPanel.Query.Source

/-!
# Questions

What a user asks of a source, before it is known whether the source can answer: the metric and the
grouping are still texts, and the filters may be meant for another source.
-/

namespace QueryPanel

/-- What is asked of a source. -/
structure Question where
  source : Source
  metric : String
  groupBy : Option String := none
  filters : FilterBag := {}
  deriving DecidableEq

/-- What a text says about grouping. -/
inductive Grouping where
  /-- Nothing is said. -/
  | unsaid
  /-- There shall be no groups. -/
  | off
  | named (group : String)
  deriving DecidableEq

/-- What a text says about grouping, if there is one. A blank text says nothing. -/
def Grouping.ofText (text : Option String) : Grouping :=
  match text.map Text.plainName with
  | none => .unsaid
  | some name =>
    if name = "" then .unsaid
    else if name = "none" then .off
    else .named name

/-- What a question says about grouping. -/
def Question.grouping (q : Question) : Grouping :=
  .ofText q.groupBy

/-- Why a question cannot be asked of its source. -/
inductive BuildError where
  | unknownMetric (source : Source) (metric : String)
  /-- A metric of metrics that has no breakdown. -/
  | noBreakdown (metric : String)
  | unsupportedGroup (source : Source) (group : String)
  | missingGroup (source : Source)
  | missingMetricName
  | missingMetricType
  | unknownMetricType (text : String)
  | zeroWidth
  | zeroLimit
  deriving DecidableEq

/-- An error in words. -/
def BuildError.message : BuildError → String
  | .unknownMetric .traces metric => "Unknown trace metric: " ++ metric
  | .unknownMetric .logs metric => "Unknown log metric: " ++ metric
  | .unknownMetric .metrics metric => "Unknown metrics aggregation: " ++ metric
  | .noBreakdown metric => "Metrics breakdown does not support aggregation: " ++ metric
  | .unsupportedGroup source group => s!"Unsupported {source.name} groupBy: {group}"
  | .missingGroup source => source.name ++ " breakdown requires groupBy"
  | .missingMetricName => "Metrics queries require filters.metricName"
  | .missingMetricType => "Metrics queries require filters.metricType"
  | .unknownMetricType text => "Unknown metric type: " ++ text
  | .zeroWidth => "bucketSeconds must be positive"
  | .zeroLimit => "limit must be positive"

end QueryPanel
