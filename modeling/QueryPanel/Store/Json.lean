import QueryPanel.Draft.Json
import QueryPanel.Query.Json
import QueryPanel.Series.Json
import QueryPanel.Store.Session

/-!
# Requests and results in JSON

The form in which requests reach the program and the store, and in which data comes back from the
store and goes on to the chart. Data and outcomes are a record of their mode and the data itself.
-/

namespace QueryPanel

/-- The members of a window. -/
def Window.members (w : Window) : List (String × Json) :=
  [("startTime", .string w.start), ("endTime", .string w.stop)]

/-- A request to the store as a record. -/
def StoreRequest.toJson (r : StoreRequest) : Json :=
  .object (r.window.members ++ [("query", r.query.toJson)])

/-- Reads a chart request. It asks for a timeseries unless it says otherwise. -/
def ChartRequest.ofJson? (v : Json) : Option ChartRequest := do
  let get ← v.members? ["draft", "startTime", "endTime", "mode"]
  let draft ← Json.required Draft.ofJson? (get "draft")
  let start ← Json.required Json.asString? (get "startTime")
  let stop ← Json.required Json.asString? (get "endTime")
  let mode ← Json.withDefault .timeseries (Json.asChoice? Mode.names) (get "mode")
  some { draft, start, stop, mode }

namespace BreakdownRow

/-- A group of a breakdown as a record. -/
def toJson (r : BreakdownRow) : Json :=
  .object [("name", .string r.name), ("value", r.value.toJson)]

/-- Reads a group of a breakdown. -/
def ofJson? (v : Json) : Option BreakdownRow := do
  let get ← v.members? ["name", "value"]
  let name ← Json.required Json.asString? (get "name")
  let value ← Json.required Json.asDouble? (get "value")
  some ⟨name, value⟩

end BreakdownRow

/-- Reads the data of a store. -/
def StoreData.ofJson? (v : Json) : Option StoreData := do
  let get ← v.members? ["kind", "data"]
  let mode ← Json.required (Json.asChoice? Mode.names) (get "kind")
  match mode with
  | .timeseries => (Json.required (Json.asList? Point.ofJson?) (get "data")).map .timeseries
  | .breakdown => (Json.required (Json.asList? BreakdownRow.ofJson?) (get "data")).map .breakdown

/-- A timeseries that is ready to draw, as a record. -/
def TimeseriesResult.toJson (r : TimeseriesResult) : Json :=
  .object [("bucketSeconds", .nat r.bucketSeconds), ("keys", .strings r.names),
    ("rows", .array (r.rows.map (·.toJson))), ("hasIncomplete", .bool r.hasIncomplete)]

/-- Groups of a breakdown as a list of records. -/
def BreakdownRow.listJson (rows : List BreakdownRow) : Json :=
  .array (rows.map (·.toJson))

/-- What comes of a chart request, as a record. -/
def Outcome.toJson : Outcome → Json
  | .timeseries r => .object [("kind", .string Mode.timeseries.name), ("data", r.toJson)]
  | .breakdown rows =>
    .object [("kind", .string Mode.breakdown.name), ("data", BreakdownRow.listJson rows)]

end QueryPanel
