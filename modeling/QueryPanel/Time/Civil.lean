/-!
# Civil dates

The Gregorian calendar, carried on in both directions without end. Days are numbered from
1970-01-01; `Date.toDay` numbers a date and `Date.ofDay` gives the date of a number. Years repeat
after 146097 days, which makes the first guess at a year at most one off.
-/

namespace QueryPanel

/-- A date. -/
structure Date where
  year : Int
  month : Nat
  day : Nat
  deriving DecidableEq

namespace Date

/-- A year with 366 days. -/
def isLeap (year : Int) : Bool :=
  year % 4 = 0 && (year % 100 ≠ 0 || year % 400 = 0)

/-- The lengths of the months of a year. -/
def monthLengths (year : Int) : List Nat :=
  [31, if isLeap year then 29 else 28, 31, 30, 31, 30, 31, 31, 30, 31, 30, 31]

/-- The month and the day of a date exist. -/
def isValid (d : Date) : Bool :=
  1 ≤ d.month && 1 ≤ d.day && (monthLengths d.year)[d.month - 1]?.any (d.day ≤ ·)

/-- The days from the first of January of year 0 to that of another year. -/
def daysBeforeYear (year : Int) : Int :=
  365 * year + (year + 3) / 4 - (year + 99) / 100 + (year + 399) / 400

/-- The day on which days are numbered from, counted from the beginning of year 0. -/
def epoch : Int := 719528

/-- The days of a year before a month. -/
def daysBeforeMonth (year : Int) (month : Nat) : Nat :=
  ((monthLengths year).take (month - 1)).foldr (· + ·) 0

/-- The number of a date. -/
def toDay (d : Date) : Int :=
  daysBeforeYear d.year + daysBeforeMonth d.year d.month + d.day - 1 - epoch

/-- The year that a day belongs to, counted from the beginning of year 0. -/
def yearOfDay (day : Int) : Int :=
  let guess := day * 400 / 146097
  if daysBeforeYear (guess + 1) ≤ day then guess + 1
  else if daysBeforeYear guess ≤ day then guess
  else guess - 1

/-- The month in which a day of the year falls, and its day of the month from zero. -/
def monthOfDay : (lengths : List Nat) → (month day : Nat) → Nat × Nat
  | [], month, day => (month, day)
  | length :: lengths, month, day =>
    if day < length then (month, day) else monthOfDay lengths (month + 1) (day - length)

/-- The date of a number. -/
def ofDay (n : Int) : Date :=
  let day := n + epoch
  let year := yearOfDay day
  let (month, rest) := monthOfDay (monthLengths year) 1 (day - daysBeforeYear year).toNat
  ⟨year, month, rest + 1⟩

end Date

end QueryPanel
