import QueryPanel.Time.Civil

/-!
# Instants

A point in time, in seconds since the beginning of 1970 and nanoseconds. A leap second belongs to
the second before it, so an instant also says whether it lies in one. `label` writes an instant as
the start of a bucket, in milliseconds and UTC.
-/

namespace QueryPanel

/-- The nanoseconds of a second. -/
abbrev nanosPerSecond : Nat := 1000000000

/-- The nanoseconds of a millisecond. -/
def nanosPerMilli : Nat := 1000000

/-- A point in time. -/
structure Instant where
  seconds : Int
  /-- Inside the leap second that follows `seconds`. -/
  leap : Bool
  nanos : Fin nanosPerSecond
  deriving DecidableEq

namespace Instant

/-- The nanoseconds since `seconds`, which are more than a second's inside a leap second. -/
def fraction (t : Instant) : Nat :=
  (if t.leap then nanosPerSecond else 0) + t.nanos.val

/-- One instant is earlier than another. -/
def isBefore (a b : Instant) : Bool :=
  a.seconds < b.seconds || (a.seconds = b.seconds && a.fraction < b.fraction)

/-- Milliseconds since the beginning of 1970, rounded down. -/
def millis (t : Instant) : Int :=
  t.seconds * 1000 + (t.fraction / nanosPerMilli : Nat)

/-- A number of nanoseconds without the whole seconds in it. -/
def withinSecond (nanos : Nat) : Fin nanosPerSecond :=
  Fin.ofNat nanosPerSecond nanos

/-- The years that instants are counted in. -/
def hasYear (year : Int) : Bool :=
  -262143 ≤ year && year ≤ 262142

/-- The date of an instant. -/
def date (t : Instant) : Date :=
  Date.ofDay (t.seconds / 86400)

/-- The instant so many milliseconds after the beginning of 1970, if its year is in range. -/
def ofMillis? (m : Int) : Option Instant :=
  let t : Instant := ⟨m / 1000, false, withinSecond ((m % 1000).toNat * nanosPerMilli)⟩
  if hasYear t.date.year then some t else none

/-- A number in at least `width` digits. -/
def padded (width n : Nat) : List Char :=
  let digits := Nat.toDigits 10 n
  List.replicate (width - digits.length) '0' ++ digits

/-- A year: four digits from 0 to 9999, and otherwise a sign and at least four. -/
def yearText (year : Int) : List Char :=
  if 0 ≤ year ∧ year ≤ 9999 then padded 4 year.toNat
  else (if year < 0 then '-' else '+') :: padded 4 year.natAbs

/-- The label of a bucket that starts at the instant, such as `2025-01-01T00:00:00.000Z`. -/
def label (t : Instant) : List Char :=
  let d := t.date
  let time := (t.seconds % 86400).toNat
  yearText d.year ++ '-' :: padded 2 d.month ++ '-' :: padded 2 d.day ++
    'T' :: padded 2 (time / 3600) ++ ':' :: padded 2 (time / 60 % 60) ++
    ':' :: padded 2 (time % 60 + if t.leap then 1 else 0) ++
    '.' :: padded 3 (t.nanos.val / nanosPerMilli) ++ ['Z']

/-- The label of a bucket that starts so many milliseconds after the beginning of 1970. -/
def labelOfMillis? (m : Int) : Option String :=
  (ofMillis? m).map fun t => String.ofList t.label

end Instant

end QueryPanel
