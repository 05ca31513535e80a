import QueryPanel.Series.Point

/-!
# Marking open buckets

A bucket that has not ended yet is still filling up, and its values say too little. `mark` moves the
values of the first such bucket and of all that follow into columns of their own, so that they can
be drawn differently. The last bucket before them, the bridge, has its values in both columns, so
that the two lines meet.
-/

namespace QueryPanel

/-- Rows with the values of open buckets moved, and whether there are any. -/
structure Marked where
  rows : List ChartRow
  hasIncomplete : Bool
  deriving DecidableEq

namespace Marker

/-- The name of the column for the values that a series has in open buckets. -/
def incompleteName (name : String) : String :=
  name ++ "_incomplete"

/-- Where a bucket stands with regard to the first open one. -/
inductive Place where
  | closed
  | bridge
  | openBucket
  deriving DecidableEq

/-- The place of bucket `index` when bucket `firstOpen` is the first open one. -/
def Place.of (firstOpen index : Nat) : Place :=
  if firstOpen ≤ index then .openBucket
  else if index + 1 = firstOpen then .bridge
  else .closed

/-- The columns of a point with those of one series set as the place of the point wants. -/
def markSeries (place : Place) (p : Point) (columns : Columns (Option Double)) (name : String) :
    Columns (Option Double) :=
  match place with
  | .openBucket =>
    -- What is moved is the value of the point, also where an earlier series has taken its column.
    (columns.insert name none).insert (incompleteName name) (p.columns.get? name)
  | .bridge => columns.insert (incompleteName name) (p.columns.get? name)
  | .closed => columns.insert (incompleteName name) none

/-- The row of a point at a place. -/
def markRow (names : List String) (place : Place) (p : Point) : ChartRow :=
  ⟨p.bucket, names.foldl (markSeries place p) p.toChartRow.columns⟩

/-- A bucket that ends after `now`. One that is no instant is not open. -/
def isOpen (width now : Int) (p : Point) : Bool :=
  p.start?.any fun start => now < start + width

/-- The first open bucket. There is none if the width of the buckets cannot be told. -/
def firstOpen? (points : List Point) (now : Int) : Option Nat :=
  (Point.inferWidth? points).bind fun width => points.findIdx? (isOpen width now)

/-- The points as rows, with the values of the named series in open buckets moved. -/
def mark (points : List Point) (names : List String) (now : Instant) : Marked :=
  match firstOpen? points now.millis with
  | none => ⟨points.map Point.toChartRow, false⟩
  | some cut => ⟨points.mapIdx fun i p => markRow names (.of cut i) p, true⟩

end Marker

end QueryPanel
