import QueryPanel.Proofs.Text.Trimming
import QueryPanel.Proofs.Time.Calendar
import QueryPanel.Time.Reading

/-!
# A civil time is read field by field

A label and the three other ways to write an instant have the same beginning: a date and a time of
the day, written in full width (`CivilTime.stamp`). Every field is padded to a number of digits
(`FixedDigits`), so a reader that takes exactly so many digits gets it back, whatever follows; and a
reader that takes at most so many stops at the mark behind it.

Each way to read an instant thus takes a stamp apart into the fields that it was made of, and what
it makes of the text depends on the end of it only:

> `zoned?_stamp`: with an offset from UTC, in the years 0 to 9999.
> `plain?_stamp`: without one, in any year.

Years other than 0 to 9999 are written with a sign in front (`PlainYear` tells the two apart), which
the first way does not understand (`zoned?_stamp_of_signed`). And the layouts without a letter in
the middle stop at one (`plain?_stamp_of_letter`).
-/

namespace QueryPanel

namespace Instant

/-! ## Fields of fixed width -/

/-- A field of so many digits with a value. -/
structure FixedDigits (ds : List Char) (width n : Nat) : Prop where
  length : ds.length = width
  digits : ∀ c ∈ ds, c.isDigit = true
  value : Nat.ofDigitChars 10 ds 0 = n

theorem isDigit_of_mem_padded {width n : Nat} : ∀ c ∈ padded width n, c.isDigit = true := by
  intro c hc
  unfold padded at hc
  rcases List.mem_append.mp hc with hc | hc
  · rw [List.eq_of_mem_replicate hc]
    rfl
  · exact Nat.isDigit_of_mem_toDigits (by decide) (by decide) hc

/-- The zeros in front of a number do not count. -/
theorem ofDigitChars_padded (width n : Nat) : Nat.ofDigitChars 10 (padded width n) 0 = n := by
  show Nat.ofDigitChars 10 (List.replicate _ '0' ++ Nat.toDigits 10 n) 0 = n
  rw [Nat.ofDigitChars_append, Nat.ofDigitChars_replicate_zero, Nat.mul_zero,
    Nat.ofDigitChars_ten_toDigits]

/-- A number that fits is padded to exactly the width. -/
theorem padded_digits {width n : Nat} (hwidth : 0 < width) (h : n < 10 ^ width) :
    FixedDigits (padded width n) width n := by
  have hlength : (Nat.toDigits 10 n).length ≤ width :=
    (Nat.length_toDigits_le_iff (by decide) hwidth).mpr h
  refine ⟨?_, isDigit_of_mem_padded, ofDigitChars_padded width n⟩
  unfold padded
  rw [List.length_append, List.length_replicate]
  omega

namespace FixedDigits

variable {ds : List Char} {width n : Nat}

/-- A reader of at most as many digits as there are gets the value, whatever follows. -/
theorem digits?_append (h : FixedDigits ds width n) {least : Nat} (hleast : least ≤ width)
    (rest : List Char) : digits? least width (ds ++ rest) = some (n, rest) := by
  have htake : (ds ++ rest).take width = ds ++ [] := by
    rw [← h.length, List.take_left, List.append_nil]
  have hdigits : ((ds ++ rest).take width).takeWhile Char.isDigit = ds := by
    rw [htake, List.takeWhile_append_of_pos h.digits, List.takeWhile_nil, List.append_nil]
  unfold digits?
  simp only [hdigits]
  rw [if_neg (by rw [h.length]; exact Nat.not_lt_of_le hleast), h.value, List.drop_left]

/-- A fraction of at most nine digits counts in nanoseconds by what is missing to nine. -/
theorem nanos?_append (h : FixedDigits ds width n) (hpos : 0 < width) (hnine : width ≤ 9)
    {c : Char} (hc : c.isDigit = false) (rest : List Char) :
    nanos? ('.' :: (ds ++ c :: rest)) = some (n * 10 ^ (9 - width), c :: rest) := by
  have htake : (ds ++ c :: rest).takeWhile Char.isDigit = ds := by
    rw [List.takeWhile_append_of_pos h.digits, List.takeWhile_cons, hc]
    exact List.append_nil ds
  have hdrop : (ds ++ c :: rest).dropWhile Char.isDigit = c :: rest := by
    rw [List.dropWhile_append_of_pos h.digits, List.dropWhile_cons, hc]
    rfl
  have hne : ds.isEmpty = false := by
    rw [List.isEmpty_eq_false_iff, ← List.length_pos_iff, h.length]
    exact hpos
  unfold nanos?
  simp only [htake, hdrop, hne]
  rw [List.take_of_length_le (by rw [h.length]; exact hnine), h.value, h.length]
  rfl

/-- A field begins with a digit. -/
theorem exists_cons (h : FixedDigits ds width n) (hpos : 0 < width) :
    ∃ c cs, ds = c :: cs ∧ c.isDigit = true := by
  obtain ⟨c, cs, hcons⟩ := List.exists_cons_of_length_pos (h.length ▸ hpos)
  exact ⟨c, cs, hcons, h.digits c (by rw [hcons]; exact List.mem_cons_self)⟩

/-- A field neither begins nor ends with a blank. -/
theorem solid (h : FixedDigits ds width n) (hpos : 0 < width) : Text.Solid ds := by
  refine Text.solid_of_no_blank (List.ne_nil_of_length_pos (h.length ▸ hpos)) ?_
  intro c hc
  apply Text.not_blank_of_alphanum
  rw [Char.isAlphanum, h.digits c hc, Bool.or_true]

end FixedDigits

/-! ## One field after the other -/

/-- A step of a reader that succeeds. -/
theorem bind_of_eq {α β : Type} {o : Option α} {a : α} (h : o = some a) (f : α → Option β) :
    (o >>= f) = f a := by
  rw [h]
  rfl

theorem literal?_cons (c : Char) (cs : List Char) : literal? c (c :: cs) = some cs :=
  if_pos rfl

theorem digits?_of_not_digit {least most : Nat} (hleast : 0 < least) {c : Char}
    (hc : c.isDigit = false) (cs : List Char) : digits? least most (c :: cs) = none := by
  have hnone : ((c :: cs).take most).takeWhile Char.isDigit = [] := by
    cases most with
    | zero => rfl
    | succ most => rw [List.take_succ_cons, List.takeWhile_cons, hc]; rfl
  unfold digits?
  simp only [hnone]
  exact if_pos hleast

section Padded

variable {n : Nat} (h : n < 100) (rest : List Char)
include h

/-- Two digits are read where two have to be. -/
theorem digits?_padded : digits? 2 2 (padded 2 n ++ rest) = some (n, rest) :=
  (padded_digits Nat.zero_lt_two h).digits?_append (Nat.le_refl 2) rest

/-- They are read as a field too, with a blank before them or without. -/
theorem field?_padded : field? (padded 2 n ++ rest) = some (n, rest) := by
  have hdigits := padded_digits Nat.zero_lt_two h
  rw [field?, (hdigits.solid Nat.zero_lt_two).trimStart_append]
  exact hdigits.digits?_append (by decide) rest

theorem field?_blank_padded : field? (' ' :: (padded 2 n ++ rest)) = some (n, rest) := by
  rw [field?, Text.trimStart_cons_blank Text.isBlank_space]
  exact field?_padded h rest

end Padded

/-! ## Years -/

/-- A year that is written in four digits. -/
def PlainYear (year : Int) : Prop :=
  0 ≤ year ∧ year ≤ 9999

instance (year : Int) : Decidable (PlainYear year) :=
  inferInstanceAs (Decidable (0 ≤ year ∧ year ≤ 9999))

theorem PlainYear.hasYear {year : Int} (h : PlainYear year) : hasYear year = true := by
  obtain ⟨hlow, hhigh⟩ := h
  simp only [Instant.hasYear, Bool.and_eq_true, decide_eq_true_eq]
  omega

theorem yearText_eq_padded {year : Int} (h : PlainYear year) :
    yearText year = padded 4 year.toNat :=
  if_pos h

theorem yearText_eq_signed {year : Int} (h : ¬ PlainYear year) :
    yearText year = (if year < 0 then '-' else '+') :: padded 4 year.natAbs :=
  if_neg h

theorem PlainYear.digits {year : Int} (h : PlainYear year) :
    FixedDigits (yearText year) 4 year.toNat := by
  obtain ⟨hlow, hhigh⟩ := h
  rw [yearText_eq_padded ⟨hlow, hhigh⟩]
  exact padded_digits (Nat.succ_pos 3) (by omega)

/-- A year of four digits is written with a digit in front. -/
theorem yearText_of_plain {year : Int} (h : PlainYear year) :
    ∃ c rest, yearText year = c :: rest ∧ c.isDigit = true :=
  h.digits.exists_cons (Nat.succ_pos 3)

/-- Any other year is written with a sign in front. -/
theorem yearText_of_not_plain {year : Int} (h : ¬ PlainYear year) :
    ∃ c rest, yearText year = c :: rest ∧ c.isDigit = false := by
  rw [yearText_eq_signed h]
  refine ⟨_, _, rfl, ?_⟩
  by_cases hneg : year < 0
  · rw [if_pos hneg]
    rfl
  · rw [if_neg hneg]
    rfl

/-- Behind a sign, digits are read to the last, however many there are. -/
theorem digits?_all {n : Nat} (rest : List Char) :
    digits? 1 (padded 4 n ++ '-' :: rest).length (padded 4 n ++ '-' :: rest)
      = some (n, '-' :: rest) := by
  have hdigits : (padded 4 n ++ '-' :: rest).takeWhile Char.isDigit = padded 4 n := by
    rw [List.takeWhile_append_of_pos isDigit_of_mem_padded]
    exact List.append_nil _
  have hlength : 4 ≤ (padded 4 n).length := by
    unfold padded
    rw [List.length_append, List.length_replicate]
    omega
  unfold digits?
  rw [List.take_length]
  simp only [hdigits]
  rw [if_neg (by omega), List.drop_left, ofDigitChars_padded]

/-- Every year is read back, with a sign or without. -/
theorem year?_yearText (year : Int) (rest : List Char) :
    year? (yearText year ++ '-' :: rest) = some (year, '-' :: rest) := by
  by_cases h : PlainYear year
  · have hread := h.digits.digits?_append (show 1 ≤ 4 by decide) ('-' :: rest)
    have htrim := (h.digits.solid (Nat.succ_pos 3)).trimStart_append ('-' :: rest)
    obtain ⟨c, cs, hcons, hdigit⟩ := yearText_of_plain h
    rw [hcons, List.cons_append] at hread htrim ⊢
    unfold year?
    rw [htrim]
    split
    · next heq => rw [(List.cons.inj heq).1] at hdigit; cases hdigit
    · next heq => rw [(List.cons.inj heq).1] at hdigit; cases hdigit
    · rw [hread, Option.map_some]
      simp only [Int.toNat_of_nonneg h.1]
  · rw [yearText_eq_signed h]
    by_cases hneg : year < 0
    · have hvalue : -(year.natAbs : Int) = year := by omega
      rw [if_pos hneg]
      refine (congrArg (Option.map _) (digits?_all rest)).trans ?_
      rw [Option.map_some]
      simp only [hvalue]
    · have hvalue : (year.natAbs : Int) = year := by omega
      rw [if_neg hneg]
      refine (congrArg (Option.map _) (digits?_all rest)).trans ?_
      rw [Option.map_some]
      simp only [hvalue]

end Instant

/-! ## Civil times -/

open Instant

/-- A date and a time of the day. A leap second is the sixtieth of its minute. -/
structure CivilTime where
  date : Date
  hour : Nat
  minute : Nat
  second : Nat

namespace CivilTime

/-- Two digits are enough for every field but the year. -/
structure Short (c : CivilTime) : Prop where
  month : c.date.month < 100
  day : c.date.day < 100
  hour : c.hour < 100
  minute : c.minute < 100
  second : c.second < 100

/-- The time of the day in full width, and something behind it. -/
def clockStamp (c : CivilTime) (rest : List Char) : List Char :=
  padded 2 c.hour ++ ':' :: (padded 2 c.minute ++ ':' :: (padded 2 c.second ++ rest))

/-- A civil time in full width, with a mark in the middle and something behind it. -/
def stamp (c : CivilTime) (middle : Char) (rest : List Char) : List Char :=
  yearText c.date.year ++ '-' :: (padded 2 c.date.month ++ '-' :: (padded 2 c.date.day ++
    middle :: c.clockStamp rest))

/-- The instant of a civil time and a fraction of its second, at an offset from UTC. -/
def instant? (c : CivilTime) (nanos : Nat) (offset : Int) : Option Instant :=
  ofFields? c.date c.hour c.minute c.second nanos offset

/-- What is read behind a civil time where it has an offset. -/
def zonedEnd? (c : CivilTime) (cs : List Char) : Option Instant := do
  let (nanos, cs) ← nanos? cs
  let (offset, cs) ← offset? cs
  if cs.isEmpty then c.instant? nanos offset else none

/-- What is read behind a civil time where it has none. -/
def plainEnd? (c : CivilTime) (fraction : Bool) (cs : List Char) : Option Instant := do
  let (nanos, cs) ← if fraction then nanos? cs else some (0, cs)
  if cs.isEmpty then c.instant? nanos 0 else none

variable {c : CivilTime} (hshort : c.Short)
include hshort

/-- With fixed widths, a stamp in a year of four digits is taken apart into its fields. -/
theorem zoned?_stamp (hyear : PlainYear c.date.year) {middle : Char}
    (hmiddle : middle = 'T' ∨ middle = ' ') (rest : List Char) :
    zoned? (c.stamp middle rest) = c.zonedEnd? rest := by
  have hdate : (⟨(c.date.year.toNat : Int), c.date.month, c.date.day⟩ : Date) = c.date := by
    rw [Int.toNat_of_nonneg hyear.1]
  unfold zoned? stamp clockStamp
  -- Each reader takes exactly the digits that were written and leaves what follows them.
  refine (bind_of_eq (hyear.digits.digits?_append (Nat.le_refl 4) _) _).trans ?_
  refine (bind_of_eq (literal?_cons '-' _) _).trans ?_
  refine (bind_of_eq (digits?_padded hshort.month _) _).trans ?_
  refine (bind_of_eq (literal?_cons '-' _) _).trans ?_
  refine (bind_of_eq (digits?_padded hshort.day _) _).trans ?_
  refine (bind_of_eq (show _ = some _ by rcases hmiddle with rfl | rfl <;> rfl) _).trans ?_
  refine (bind_of_eq (digits?_padded hshort.hour _) _).trans ?_
  refine (bind_of_eq (literal?_cons ':' _) _).trans ?_
  refine (bind_of_eq (digits?_padded hshort.minute _) _).trans ?_
  refine (bind_of_eq (literal?_cons ':' _) _).trans ?_
  refine (bind_of_eq (digits?_padded hshort.second _) _).trans ?_
  dsimp only
  rw [hdate]
  rfl

omit hshort in
/-- With fixed widths, no sign is understood. -/
theorem zoned?_stamp_of_signed (hyear : ¬ PlainYear c.date.year) (middle : Char)
    (rest : List Char) : zoned? (c.stamp middle rest) = none := by
  obtain ⟨sign, digits, hcons, hsign⟩ := yearText_of_not_plain hyear
  unfold zoned? stamp
  rw [hcons, List.cons_append, digits?_of_not_digit (by decide) hsign]
  rfl

/-- A layout without an offset takes a stamp apart too, if it has that mark in the middle. -/
theorem plain?_stamp {layout : Layout} {middle : Char}
    (hmiddle : layout.middle = some middle ∨ layout.middle = none ∧ middle = ' ')
    (rest : List Char) :
    plain? layout (c.stamp middle rest) = c.plainEnd? layout.fraction rest := by
  obtain ⟨mark, fraction⟩ := layout
  unfold plain? stamp clockStamp
  refine (bind_of_eq (year?_yearText c.date.year _) _).trans ?_
  refine (bind_of_eq (literal?_cons '-' _) _).trans ?_
  refine (bind_of_eq (field?_padded hshort.month _) _).trans ?_
  refine (bind_of_eq (literal?_cons '-' _) _).trans ?_
  refine (bind_of_eq (field?_padded hshort.day _) _).trans ?_
  rcases hmiddle with hmark | ⟨hmark, rfl⟩
  · obtain rfl : mark = some middle := hmark
    refine (bind_of_eq (literal?_cons middle _) _).trans ?_
    refine (bind_of_eq (field?_padded hshort.hour _) _).trans ?_
    refine (bind_of_eq (literal?_cons ':' _) _).trans ?_
    refine (bind_of_eq (field?_padded hshort.minute _) _).trans ?_
    refine (bind_of_eq (literal?_cons ':' _) _).trans ?_
    exact bind_of_eq (field?_padded hshort.second _) _
  · -- Without a letter the blank is taken by the reader of the hour.
    obtain rfl : mark = none := hmark
    refine (bind_of_eq (show _ = some _ from rfl) _).trans ?_
    refine (bind_of_eq (field?_blank_padded hshort.hour _) _).trans ?_
    refine (bind_of_eq (literal?_cons ':' _) _).trans ?_
    refine (bind_of_eq (field?_padded hshort.minute _) _).trans ?_
    refine (bind_of_eq (literal?_cons ':' _) _).trans ?_
    exact bind_of_eq (field?_padded hshort.second _) _

/-- A layout without a letter in the middle stops at one. -/
theorem plain?_stamp_of_letter (fraction : Bool) (rest : List Char) :
    plain? ⟨none, fraction⟩ (c.stamp 'T' rest) = none := by
  have hletter (cs : List Char) : field? ('T' :: cs) = none := by
    rw [field?, Text.trimStart_cons_of_not_blank (by decide)]
    exact digits?_of_not_digit (by decide) rfl cs
  unfold plain? stamp
  refine (bind_of_eq (year?_yearText c.date.year _) _).trans ?_
  refine (bind_of_eq (literal?_cons '-' _) _).trans ?_
  refine (bind_of_eq (field?_padded hshort.month _) _).trans ?_
  refine (bind_of_eq (literal?_cons '-' _) _).trans ?_
  refine (bind_of_eq (field?_padded hshort.day _) _).trans ?_
  refine (bind_of_eq (show _ = some _ from rfl) _).trans ?_
  show (field? ('T' :: c.clockStamp rest) >>= _) = none
  rw [hletter]
  rfl

end CivilTime

end QueryPanel
