import QueryPanel.Number.Word
import QueryPanel.Time.Reading

/-!
# Bucket widths

How wide the buckets of a chart should be when nobody has said so: wide enough that the window gets
about as many points as wanted, and no wider than the next round width. The widths are the rungs of
a ladder up to thirty days, and multiples of thirty days above it.
-/

namespace QueryPanel.Width

/-- The rungs, in seconds: seconds, minutes, hours, days. -/
def ladder : List Nat :=
  [1, 5, 10, 15, 30, 60, 5 * 60, 10 * 60, 15 * 60, 30 * 60, 3600, 3 * 3600, 6 * 3600, 12 * 3600,
    86400, 2 * 86400, 7 * 86400, 30 * 86400]

/-- The highest rung. -/
def top : Nat := 30 * 86400

/-- The greatest width there can be. -/
def greatest : Nat := Word.size32 - 1

/-- The width where the bounds of a window are no instants. -/
def fallback : Nat := 60

/-- `n / d` rounded up. -/
def ceilDiv (n d : Nat) : Nat :=
  (n + d - 1) / d

/-- The least round width that is at least `seconds`. -/
def atLeast (seconds : Nat) : Nat :=
  match ladder.find? (seconds ≤ ·) with
  | some rung => rung
  | none => min (ceilDiv seconds top * top) greatest

/-- The width for a window of so many milliseconds. -/
def ofRange (millis : Int) (targetPoints : Nat) : Nat :=
  if millis ≤ 0 then 1
  else atLeast (ceilDiv (ceilDiv millis.toNat 1000) (max targetPoints 1))

/-- The width for a window between two texts, either of which may be missing. -/
def ofBounds (start stop : Option String) (targetPoints : Nat) : Nat :=
  match start.bind Instant.millisOfText?, stop.bind Instant.millisOfText? with
  | some a, some b => ofRange (b - a) targetPoints
  | _, _ => fallback

end QueryPanel.Width
