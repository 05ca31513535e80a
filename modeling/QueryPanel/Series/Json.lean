import QueryPanel.Filter.Json
import QueryPanel.Series.Marker

/-!
# Series in JSON

A point has its values in an object of their own. A chart row is flat: the bucket is one more member
beside the values, and a series of that very name takes its place.
-/

namespace QueryPanel

/-- Columns as an object. -/
def Columns.toJson {α : Type} (write : α → Json) (c : Columns α) : Json :=
  .object (c.entries.map fun e => (e.1, write e.2))

/-- Reads columns of numbers. -/
def Columns.ofJson? (v : Json) : Option (Columns Double) :=
  (v.asEntries? Json.asDouble?).map Columns.ofList

/-- A value that may be missing. -/
def ChartRow.valueJson (value : Option Double) : Json :=
  (value.map Double.toJson).getD .null

/-- A chart row as a flat object. -/
def ChartRow.toJson (r : ChartRow) : Json :=
  let values := r.columns.entries.map fun e => (e.1, valueJson e.2)
  .object (if (r.columns.get? "bucket").isSome then values
    else ("bucket", .string r.bucket) :: values)

/-- A point as a record. -/
def Point.toJson (p : Point) : Json :=
  .object [("bucket", .string p.bucket), ("series", p.columns.toJson Double.toJson)]

/-- Reads a point. One without values may leave them out. -/
def Point.ofJson? (v : Json) : Option Point := do
  let get ← v.members? ["bucket", "series"]
  let bucket ← Json.required Json.asString? (get "bucket")
  let columns ← Json.withDefault .empty Columns.ofJson? (get "series")
  some ⟨bucket, columns⟩

end QueryPanel
