import QueryPanel.Number.Double
import QueryPanel.Series.Columns
import QueryPanel.Time.Reading

/-!
# Points and rows

A store answers with points: a bucket, named by the instant it starts at, and values by the name of
their series. A chart draws rows, in which a value may be missing.
-/

namespace QueryPanel

/-- A bucket and the values in it. -/
structure Row (α : Type) where
  bucket : String
  columns : Columns α
  deriving DecidableEq

/-- A bucket as a store answers it. -/
abbrev Point := Row Double

/-- A bucket as a chart draws it. A missing value leaves a gap in its line. -/
abbrev ChartRow := Row (Option Double)

namespace Point

/-- The point as a row that misses nothing. -/
def toChartRow (p : Point) : ChartRow :=
  ⟨p.bucket, p.columns.map some⟩

/-- When the bucket starts, in milliseconds. -/
def start? (p : Point) : Option Int :=
  Instant.millisOfText? p.bucket

/-- The width of the buckets in milliseconds, taken from the first two of them. -/
def inferWidth? : List Point → Option Int
  | first :: second :: _ =>
    match first.start?, second.start? with
    | some a, some b => if a < b then some (b - a) else none
    | _, _ => none
  | _ => none

/-- The one label of a bucket, however its start is written. What is no instant stays as it is. -/
def canonicalBucket (bucket : String) : String :=
  match Instant.ofText? bucket with
  | some t => String.ofList t.label
  | none => bucket

end Point

end QueryPanel
