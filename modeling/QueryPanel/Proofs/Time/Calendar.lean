import Mathlib
import QueryPanel.Time.Instant

/-!
# Every day has one date

`Date.ofDay` guesses the year of a day and then takes one month after the other off what is left of
it. What makes the guess good is `daysBeforeYear_yearOfDay`: the day lies in the year that is
returned, between its first of January and the next. From there the months are a walk along their
lengths (`MonthWalk`), which add up to the length of the year, so the walk ends inside a month.

> `toDay_ofDay`: the number of the date of a number is that number.

Years do not fall as days go on (`ofDay_year_mono`), so the instants whose year is counted form one
stretch of time (`Instant.isSome_ofMillis_between`). That is what keeps a grid free of holes.
-/

namespace QueryPanel

namespace Date

/-! ## Years -/

theorem daysBeforeYear_succ (year : Int) :
    daysBeforeYear (year + 1) = daysBeforeYear year + if isLeap year then 366 else 365 := by
  unfold daysBeforeYear isLeap
  by_cases h4 : year % 4 = 0 <;> by_cases h100 : year % 100 = 0 <;>
    by_cases h400 : year % 400 = 0 <;> simp [h4, h100, h400] <;> omega

theorem daysBeforeYear_mono {a b : Int} (h : a ≤ b) : daysBeforeYear a ≤ daysBeforeYear b := by
  unfold daysBeforeYear
  omega

/-- The guess at the year is at most one off, in either direction. -/
theorem daysBeforeYear_yearOfDay (day : Int) :
    daysBeforeYear (yearOfDay day) ≤ day ∧ day < daysBeforeYear (yearOfDay day + 1) := by
  unfold yearOfDay
  simp only
  split
  · next h =>
    refine ⟨h, ?_⟩
    unfold daysBeforeYear
    omega
  · next h =>
    split
    · next h' => exact ⟨h', by omega⟩
    · next h' =>
      rw [show day * 400 / 146097 - 1 + 1 = day * 400 / 146097 by omega]
      refine ⟨?_, by omega⟩
      unfold daysBeforeYear
      omega

theorem yearOfDay_mono {a b : Int} (h : a ≤ b) : yearOfDay a ≤ yearOfDay b := by
  obtain ⟨ha, -⟩ := daysBeforeYear_yearOfDay a
  obtain ⟨-, hb⟩ := daysBeforeYear_yearOfDay b
  -- Otherwise the whole year of `b` is over before that of `a` begins.
  rcases Int.lt_or_le (yearOfDay b) (yearOfDay a) with hlt | hle
  · have := daysBeforeYear_mono (show yearOfDay b + 1 ≤ yearOfDay a from hlt)
    omega
  · exact hle

/-! ## Months -/

theorem length_monthLengths (year : Int) : (monthLengths year).length = 12 := rfl

theorem sum_monthLengths (year : Int) :
    (monthLengths year).foldr (· + ·) 0 = if isLeap year then 366 else 365 := by
  unfold monthLengths
  cases isLeap year <;> rfl

theorem le_of_mem_monthLengths {year : Int} {n : Nat} (h : n ∈ monthLengths year) : n ≤ 31 := by
  have hall : ∀ leap : Bool, ∀ n ∈ [31, if leap then 29 else 28, 31, 30, 31, 30, 31, 31, 30, 31,
      30, 31], n ≤ 31 := by decide
  exact hall (isLeap year) n h

/-- Where a walk along the lengths of some months ends: `skipped` whole months, then `rest` days
into one that is longer than that. -/
structure MonthWalk (lengths : List Nat) (day skipped rest : Nat) : Prop where
  inside : ∃ length, lengths[skipped]? = some length ∧ rest < length
  total : (lengths.take skipped).foldr (· + ·) 0 + rest = day

/-- A day that lies within the months is found in one of them. -/
theorem monthOfDay_walk {lengths : List Nat} (month : Nat) {day : Nat}
    (h : day < lengths.foldr (· + ·) 0) :
    ∃ skipped, (monthOfDay lengths month day).1 = month + skipped ∧
      MonthWalk lengths day skipped (monthOfDay lengths month day).2 := by
  induction lengths generalizing month day with
  | nil => exact absurd h (Nat.not_lt_zero day)
  | cons length lengths ih =>
    unfold monthOfDay
    by_cases hday : day < length
    · rw [if_pos hday]
      exact ⟨0, rfl, ⟨length, rfl, hday⟩, Nat.zero_add day⟩
    · rw [if_neg hday]
      have hrest : day - length < lengths.foldr (· + ·) 0 := by
        rw [List.foldr_cons] at h
        omega
      obtain ⟨skipped, hmonth, hinside, htotal⟩ := ih (month + 1) hrest
      refine ⟨skipped + 1, by rw [hmonth]; omega, hinside, ?_⟩
      rw [List.take_succ_cons, List.foldr_cons]
      omega

/-- The days of a year that have passed before a day. -/
theorem dayOfYear_lt (day : Int) : (day - daysBeforeYear (yearOfDay day)).toNat
    < (monthLengths (yearOfDay day)).foldr (· + ·) 0 := by
  obtain ⟨hle, hlt⟩ := daysBeforeYear_yearOfDay day
  rw [daysBeforeYear_succ] at hlt
  rw [sum_monthLengths]
  by_cases h : isLeap (yearOfDay day) = true
  · rw [if_pos h] at hlt ⊢
    omega
  · rw [if_neg h] at hlt ⊢
    omega

/-- What is known of the date of a number: its year is the year of the day, its month is one of the
twelve, and the days before it in the year are those of whole months and then of its own. -/
theorem ofDay_walk (n : Int) :
    (ofDay n).year = yearOfDay (n + epoch) ∧
      ∃ skipped rest, (ofDay n).month = skipped + 1 ∧ (ofDay n).day = rest + 1 ∧
        MonthWalk (monthLengths (ofDay n).year)
          (n + epoch - daysBeforeYear (yearOfDay (n + epoch))).toNat skipped rest := by
  obtain ⟨skipped, hmonth, hwalk⟩ := monthOfDay_walk 1 (dayOfYear_lt (n + epoch))
  exact ⟨rfl, skipped, _, hmonth.trans (Nat.add_comm 1 skipped), rfl, hwalk⟩

/-- The date of a number has that number. -/
theorem toDay_ofDay (n : Int) : (ofDay n).toDay = n := by
  obtain ⟨hyear, skipped, rest, hmonth, hday, hwalk⟩ := ofDay_walk n
  have hle := (daysBeforeYear_yearOfDay (n + epoch)).1
  have htotal := hwalk.total
  unfold toDay daysBeforeMonth
  rw [hmonth, hday, Nat.add_sub_cancel, ← hyear] at *
  omega

/-- The date of a number exists. -/
theorem isValid_ofDay (n : Int) : (ofDay n).isValid = true := by
  obtain ⟨-, skipped, rest, hmonth, hday, hwalk⟩ := ofDay_walk n
  obtain ⟨length, hlength, hrest⟩ := hwalk.inside
  unfold isValid
  rw [hmonth, hday, Nat.add_sub_cancel, hlength]
  simp
  omega

theorem month_ofDay_le (n : Int) : (ofDay n).month ≤ 12 := by
  obtain ⟨-, skipped, rest, hmonth, -, hwalk⟩ := ofDay_walk n
  obtain ⟨length, hlength, -⟩ := hwalk.inside
  have hskipped := (List.getElem?_eq_some_iff.mp hlength).1
  rw [length_monthLengths] at hskipped
  omega

theorem day_ofDay_le (n : Int) : (ofDay n).day ≤ 31 := by
  obtain ⟨-, skipped, rest, -, hday, hwalk⟩ := ofDay_walk n
  obtain ⟨length, hlength, hrest⟩ := hwalk.inside
  have := le_of_mem_monthLengths (List.mem_of_getElem? hlength)
  omega

theorem ofDay_year_mono {a b : Int} (h : a ≤ b) : (ofDay a).year ≤ (ofDay b).year :=
  yearOfDay_mono (show a + epoch ≤ b + epoch by omega)

end Date

namespace Instant

/-! ## Milliseconds -/

/-- A number of nanoseconds below a second's stays as it is. -/
theorem withinSecond_val {n : Nat} (h : n < nanosPerSecond) : (withinSecond n).val = n :=
  Nat.mod_eq_of_lt h

/-- What the instant of a number of milliseconds is, where there is one. -/
theorem ofMillis?_eq_some {m : Int} {t : Instant} (h : ofMillis? m = some t) :
    t.seconds = m / 1000 ∧ t.leap = false ∧ t.nanos.val = (m % 1000).toNat * nanosPerMilli ∧
      hasYear t.date.year = true := by
  unfold ofMillis? at h
  simp only at h
  split at h
  · next hyear =>
    rw [← Option.some.inj h]
    refine ⟨rfl, rfl, withinSecond_val ?_, hyear⟩
    show (m % 1000).toNat * 1000000 < 1000000000
    omega
  · exact nomatch h

theorem millis_of_ofMillis? {m : Int} {t : Instant} (h : ofMillis? m = some t) : t.millis = m := by
  obtain ⟨hseconds, hleap, hnanos, -⟩ := ofMillis?_eq_some h
  unfold millis fraction
  rw [hseconds, hleap, hnanos]
  show m / 1000 * 1000 + ((0 + (m % 1000).toNat * 1000000) / 1000000 : Nat) = m
  omega

/-- The milliseconds of a second, or of two in a leap second. -/
theorem milli_le (t : Instant) : t.fraction / nanosPerMilli ≤ 1999 := by
  have hnanos : t.nanos.val < 1000000000 := t.nanos.isLt
  have hsecond : nanosPerSecond = 1000000000 := rfl
  unfold fraction nanosPerMilli
  split <;> omega

/-- Every number of milliseconds is that of an instant, in whatever year. -/
theorem exists_millis (m : Int) : ∃ t : Instant, t.millis = m := by
  have hnanos : (m % 1000).toNat * nanosPerMilli < nanosPerSecond := by
    show (m % 1000).toNat * 1000000 < 1000000000
    omega
  refine ⟨⟨m / 1000, false, withinSecond ((m % 1000).toNat * nanosPerMilli)⟩, ?_⟩
  unfold millis fraction
  simp only [withinSecond_val hnanos]
  show m / 1000 * 1000 + ((0 + (m % 1000).toNat * 1000000) / 1000000 : Nat) = m
  omega

/-- There is an instant exactly where the year is counted. -/
theorem isSome_ofMillis?_iff (m : Int) :
    (ofMillis? m).isSome ↔ hasYear (Date.ofDay (m / 1000 / 86400)).year = true := by
  unfold ofMillis?
  simp only
  split
  · next h => exact iff_of_true rfl h
  · next h => exact iff_of_false Bool.false_ne_true h

/-- The instants are one stretch of time. -/
theorem isSome_ofMillis_between {a b c : Int} (hab : a ≤ b) (hbc : b ≤ c)
    (ha : (ofMillis? a).isSome) (hc : (ofMillis? c).isSome) : (ofMillis? b).isSome := by
  rw [isSome_ofMillis?_iff] at *
  have hlow := Date.ofDay_year_mono (show a / 1000 / 86400 ≤ b / 1000 / 86400 by omega)
  have hhigh := Date.ofDay_year_mono (show b / 1000 / 86400 ≤ c / 1000 / 86400 by omega)
  simp only [hasYear, Bool.and_eq_true, decide_eq_true_eq] at *
  omega

end Instant

end QueryPanel
