import QueryPanel.Draft.Uuid
import QueryPanel.Filter.Bag
import QueryPanel.Query.Source

/-!
# Query drafts

A query as the panel holds it while a user edits it. Everything in it is as it was typed, and
nothing is checked before the draft is compiled.
-/

namespace QueryPanel

/-- The optional parts of a query that are switched on. -/
structure AddOns where
  groupBy : Bool := false
  having : Bool := false
  orderBy : Bool := false
  limit : Bool := false
  legend : Bool := false
  deriving DecidableEq

/-- Which end of an ordering comes first. -/
inductive OrderDirection where
  | ascending
  | descending
  deriving DecidableEq

/-- A query that is being edited. -/
structure Draft where
  id : Option Uuid := none
  name : String := ""
  source : Source
  signalSource : Option String := none
  whereText : String := ""
  aggregation : String
  step : String := "auto"
  groupBy : Option String := none
  metricName : Option String := none
  metricType : Option String := none
  addOns : AddOns := {}
  having : Option String := none
  orderBy : Option String := none
  orderDirection : OrderDirection := .descending
  limit : Option Nat := none
  legend : Option String := none
  enabled : Bool := true
  deriving DecidableEq

namespace Draft

/-- The name of the draft at a place of the panel: a letter, and from the twenty-seventh draft on a
number behind it. -/
def nameAt (index : Nat) : String :=
  let letter := Char.ofNat ('A'.toNat + index % 26)
  String.ofList (letter :: if index < 26 then [] else Nat.toDigits 10 (index / 26))

/-- The aggregation that a new draft begins with. -/
def usualAggregation : Source → String
  | .traces => "count"
  | .logs => "count"
  | .metrics => "avg"

/-- The draft that is added at a place of the panel. -/
def new (source : Source) (index : Nat) : Draft where
  name := nameAt index
  source := source
  aggregation := usualAggregation source

/-- The draft with its filter text written anew. -/
def setFilters (d : Draft) (fields : FilterFields) : Draft :=
  { d with whereText := fields.render }

/-- The filters of a draft. Clauses that are still being typed do not count. -/
def filterBag (d : Draft) : FilterBag :=
  let bag : FilterBag := { metricName := d.metricName, metricType := d.metricType }
  (bag.apply d.whereText).bag

/-- The grouping of a draft as a timeseries, for which it has to be switched on. -/
def timeseriesGroupBy (d : Draft) : Option String :=
  if d.addOns.groupBy then d.groupBy else none

end Draft

end QueryPanel
