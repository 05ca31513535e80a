import QueryPanel.Query.Dialect

/-!
# Asking logs

Log records are counted. Their filters have a severity and a term to look for in their bodies.
-/

namespace QueryPanel

/-- What is measured on log records. -/
inductive LogMetric where
  | count
  deriving DecidableEq

/-- What log records are grouped by. -/
inductive LogGroup where
  | service
  | severity
  deriving DecidableEq

/-- The filters on log records. -/
structure LogFilters where
  service : Option String
  severity : Option String
  environment : Option String
  commitSha : Option String
  search : Option String
  attr : Option AttributeFilter
  resource : Option AttributeFilter
  deriving DecidableEq

namespace LogMetric

/-- All metrics of log records. -/
def all : List LogMetric := [.count]

/-- The name of a metric. -/
def name : LogMetric → String
  | .count => "count"

end LogMetric

namespace LogGroup

/-- All groups of log records. -/
def all : List LogGroup := [.service, .severity]

/-- The name of a group. -/
def name : LogGroup → String
  | .service => "service"
  | .severity => "severity"

end LogGroup

/-- The filters of a bag that apply to log records. A blank search term looks for nothing. -/
def LogFilters.ofBag (bag : FilterBag) : LogFilters where
  service := bag.fields.service
  severity := bag.fields.severity
  environment := bag.fields.environment
  commitSha := bag.fields.commitSha
  search := bag.search.bind Text.trimmedNonempty?
  attr := bag.fields.attr
  resource := bag.fields.resource

/-- What logs can be asked. -/
def Dialect.logs : Dialect LogMetric LogGroup LogFilters where
  source := .logs
  metrics := LogMetric.all.map fun m => (m.name, m)
  groups := LogGroup.all.map fun g => (g.name, g)
  filters bag := .ok (.ofBag bag)
  hasBreakdown _ := true
  usualGroup := none

end QueryPanel
