import QueryPanel.Series.Point

/-!
# Timelines

The dense grid that a chart stands on: buckets that start at the multiples of their width, from the
one that holds the start of the window to the one that holds its end. A grid that would be too long,
or that has no sense, is empty. `fill` joins the points of a store to a grid.
-/

namespace QueryPanel.Timeline

/-- The longest grid. -/
def longest : Nat := 10000

/-- The labels of the buckets that a window in milliseconds touches, for a width in seconds. -/
def ofMillis (start stop : Int) (seconds : Nat) : List String :=
  let width : Int := seconds * 1000
  let first := start / width
  let count := (stop / width - first + 1).toNat
  -- The bound is checked before any label is made.
  if longest < count then []
  else (List.range count).filterMap fun (i : Nat) =>
    Instant.labelOfMillis? ((first + (i : Int)) * width)

/-- The labels of the buckets of a window, for a width in seconds. -/
def build (start stop : String) (seconds : Nat) : List String :=
  match Instant.millisOfText? start, Instant.millisOfText? stop with
  | some a, some b => if seconds = 0 ∨ b ≤ a then [] else ofMillis a b seconds
  | _, _ => []

/-- Points by the labels of their buckets. -/
def labelled (points : List Point) : List (String × Point) :=
  points.map fun p => (Point.canonicalBucket p.bucket, p)

/-- The values of a slot of a grid: those of the first point in it, and `zero` where it has none. -/
def slotRow (points : List (String × Point)) (zero : Columns Double) (slot : String) : Point :=
  match points.lookup slot with
  | some p => ⟨slot, zero.updatedWith p.columns⟩
  | none => ⟨slot, zero⟩

/-- The points sorted by their buckets as they are written. -/
def sortedPoints (points : List Point) : List Point :=
  points.mergeSort fun a b => a.bucket ≤ b.bucket

/-- The points joined to a grid, one for every slot. Without a grid they are only sorted. -/
def fill (points : List Point) (timeline : List String) (zero : Columns Double) : List Point :=
  if timeline.isEmpty then sortedPoints points
  else timeline.map (slotRow (labelled points) zero)

end QueryPanel.Timeline
