import QueryPanel.Text.Blank
import QueryPanel.Time.Instant

/-!
# Reading instants

Four ways to write an instant are understood, and tried in this order. The first has an offset from
UTC and fixed widths; the others are in UTC, and are lenient: fields may be short and have blanks
before them, and a year may have a sign and then any number of digits.

* `2025-01-01T10:00:00.5+02:00`, with `T`, `t` or a blank in the middle, and `Z` for no offset
* `2025-01-01 10:00:00`
* `2025-01-01 10:00:00.5`
* `2025-01-01T10:00:00`
-/

namespace QueryPanel.Instant

/-- The instant of civil fields at an offset from UTC in minutes, if there is one. A sixtieth second
is a leap second. -/
def ofFields? (date : Date) (hour minute second nanos : Nat) (offset : Int) : Option Instant :=
  if date.isValid ∧ hasYear date.year ∧ hour ≤ 23 ∧ minute ≤ 59 ∧ second ≤ 60 then
    -- A leap second has the number of the second before it.
    some ⟨date.toDay * 86400 + hour * 3600 + minute * 60 + (min second 59 : Nat) - offset * 60,
      second = 60, withinSecond nanos⟩
  else none

/-- A character that has to come next. -/
def literal? (c : Char) : List Char → Option (List Char)
  | [] => none
  | d :: cs => if d = c then some cs else none

/-- At least `least` digits, of which at most `most` are taken. -/
def digits? (least most : Nat) (cs : List Char) : Option (Nat × List Char) :=
  let digits := (cs.take most).takeWhile Char.isDigit
  if digits.length < least then none
  else some (Nat.ofDigitChars 10 digits 0, cs.drop digits.length)

/-- A fraction of a second: nothing, or a point and at least one digit. It is cut off behind the
ninth digit. -/
def nanos? : List Char → Option (Nat × List Char)
  | '.' :: cs =>
    let digits := cs.takeWhile Char.isDigit
    if digits.isEmpty then none
    else some (Nat.ofDigitChars 10 (digits.take 9) 0 * Nat.pow 10 (9 - digits.length),
      cs.dropWhile Char.isDigit)
  | cs => some (0, cs)

/-- An offset from UTC in minutes: `Z`, or a sign, two digits, a colon and two digits. -/
def offset? : List Char → Option (Int × List Char)
  | [] => none
  | c :: cs =>
    if c = 'Z' ∨ c = 'z' then some (0, cs)
    else if c = '+' ∨ c = '-' ∨ c = '−' then do
      let (hours, cs) ← digits? 2 2 cs
      let cs ← literal? ':' cs
      let (minutes, cs) ← digits? 2 2 cs
      if hours ≤ 23 ∧ minutes ≤ 59 then
        let n : Int := hours * 60 + minutes
        some (if c = '+' then n else -n, cs)
      else none
    else none

/-- An instant with fixed widths and an offset. -/
def zoned? (cs : List Char) : Option Instant := do
  let (year, cs) ← digits? 4 4 cs
  let cs ← literal? '-' cs
  let (month, cs) ← digits? 2 2 cs
  let cs ← literal? '-' cs
  let (day, cs) ← digits? 2 2 cs
  let cs ← (literal? 'T' cs).or ((literal? 't' cs).or (literal? ' ' cs))
  let (hour, cs) ← digits? 2 2 cs
  let cs ← literal? ':' cs
  let (minute, cs) ← digits? 2 2 cs
  let cs ← literal? ':' cs
  let (second, cs) ← digits? 2 2 cs
  let (nanos, cs) ← nanos? cs
  let (offset, cs) ← offset? cs
  if cs.isEmpty then ofFields? ⟨year, month, day⟩ hour minute second nanos offset else none

/-- A year: up to four digits, or a sign and any number of digits. Blanks may come before it. -/
def year? (cs : List Char) : Option (Int × List Char) :=
  match Text.trimStart cs with
  | '-' :: cs => (digits? 1 cs.length cs).map fun (n, cs) => (-(n : Int), cs)
  | '+' :: cs => (digits? 1 cs.length cs).map fun (n, cs) => ((n : Int), cs)
  | cs => (digits? 1 4 cs).map fun (n, cs) => ((n : Int), cs)

/-- A field of one or two digits. Blanks may come before it. -/
def field? (cs : List Char) : Option (Nat × List Char) :=
  digits? 1 2 (Text.trimStart cs)

/-- What stands between a date and a time, and whether the time may have a fraction. -/
structure Layout where
  /-- The letter in the middle; without one, blanks may stand there. -/
  middle : Option Char
  fraction : Bool

/-- An instant in UTC in one of the lenient layouts. -/
def plain? (layout : Layout) (cs : List Char) : Option Instant := do
  let (year, cs) ← year? cs
  let cs ← literal? '-' cs
  let (month, cs) ← field? cs
  let cs ← literal? '-' cs
  let (day, cs) ← field? cs
  let cs ← match layout.middle with
    | some c => literal? c cs
    | none => some cs
  let (hour, cs) ← field? cs
  let cs ← literal? ':' cs
  let (minute, cs) ← field? cs
  let cs ← literal? ':' cs
  let (second, cs) ← field? cs
  let (nanos, cs) ← if layout.fraction then nanos? cs else some (0, cs)
  if cs.isEmpty then ofFields? ⟨year, month, day⟩ hour minute second nanos 0 else none

/-- The lenient layouts, in the order in which they are tried. -/
def layouts : List Layout :=
  [⟨none, false⟩, ⟨none, true⟩, ⟨some 'T', false⟩]

/-- The instant that a text is written for. Blanks around it do not count. -/
def ofText? (s : String) : Option Instant :=
  let cs := Text.trim s.toList
  (zoned? cs).or (layouts.findSome? fun layout => plain? layout cs)

/-- The milliseconds of the instant that a text is written for. -/
def millisOfText? (s : String) : Option Int :=
  (ofText? s).map millis

end QueryPanel.Instant
