import QueryPanel.Proofs.Time.Order

/-!
# One day after the other

Dates are computed from the numbers of days, by quotients. A calendar is kept in another way: the
next day is the next of its month, and after the last one the first of the next month, or of the
next year (`Date.next`). The two agree. Each step of the calendar adds one to the number of the date
(`toDay_next`), and a date is told by its number (`ofDay_toDay`): its year is the one that the day
lies in, and there is one walk along the months of that year over so many days.

> `ofDay_succ`: the date of the next number is the next date.
-/

namespace QueryPanel.Date

/-! ## A date is told by its number -/

/-- The year that a day lies in. -/
theorem yearOfDay_eq {year day : Int} (hbegun : daysBeforeYear year ≤ day)
    (hover : day < daysBeforeYear (year + 1)) : yearOfDay day = year := by
  obtain ⟨hbegun', hover'⟩ := daysBeforeYear_yearOfDay day
  rcases Int.lt_trichotomy (yearOfDay day) year with hless | hsame | hgreater
  · have := daysBeforeYear_mono (show yearOfDay day + 1 ≤ year from hless)
    omega
  · exact hsame
  · have := daysBeforeYear_mono (show year + 1 ≤ yearOfDay day from hgreater)
    omega

/-- What it means for a date to exist: its month is one of the twelve, and long enough. -/
theorem isValid_iff {d : Date} : d.isValid = true ↔
    1 ≤ d.month ∧ 1 ≤ d.day ∧ ∃ length, (monthLengths d.year)[d.month - 1]? = some length ∧
      d.day ≤ length := by
  unfold isValid
  rw [Bool.and_eq_true, Bool.and_eq_true, Option.any_eq_true, decide_eq_true_eq,
    decide_eq_true_eq, and_assoc]
  simp only [decide_eq_true_eq]

variable {d : Date} (hvalid : d.isValid = true)
include hvalid

/-- The days of a year before a date are those of whole months and then of its own. -/
theorem walk_of_isValid : MonthWalk (monthLengths d.year)
    (daysBeforeMonth d.year d.month + (d.day - 1)) (d.month - 1) (d.day - 1) := by
  obtain ⟨-, hday, length, hlength, hle⟩ := isValid_iff.mp hvalid
  exact ⟨⟨length, hlength, by omega⟩, rfl⟩

/-- They are fewer than the year has. -/
theorem dayOfYear_lt_of_isValid : daysBeforeMonth d.year d.month + (d.day - 1)
    < if isLeap d.year then 366 else 365 := by
  obtain ⟨-, hday, length, hlength, hle⟩ := isValid_iff.mp hvalid
  obtain ⟨hinside, hget⟩ := List.getElem?_eq_some_iff.mp hlength
  -- The year is at least as long as its months up to the one of the date.
  have htake := ((List.take_sublist (d.month - 1 + 1) (monthLengths d.year))).sum_le_sum
    fun _ _ => Nat.zero_le _
  rw [List.sum_take_succ _ _ hinside, hget] at htake
  rw [← sum_monthLengths d.year]
  change (monthLengths d.year |>.take (d.month - 1)).sum + (d.day - 1) < (monthLengths d.year).sum
  omega

theorem yearOfDay_toDay : yearOfDay (d.toDay + epoch) = d.year := by
  have hlt := dayOfYear_lt_of_isValid hvalid
  obtain ⟨-, hday, -⟩ := isValid_iff.mp hvalid
  apply yearOfDay_eq
  · unfold toDay
    omega
  · rw [daysBeforeYear_succ]
    unfold toDay
    by_cases hleap : isLeap d.year = true
    · rw [if_pos hleap] at hlt ⊢
      omega
    · rw [if_neg hleap] at hlt ⊢
      omega

/-- The date of the number of a date is that date. -/
theorem ofDay_toDay : ofDay d.toDay = d := by
  obtain ⟨hyear, skipped, rest, hmonth, hday, hwalk⟩ := ofDay_walk d.toDay
  rw [yearOfDay_toDay hvalid] at hyear hwalk
  obtain ⟨hpos, hpos', -⟩ := isValid_iff.mp hvalid
  have hdays : (d.toDay + epoch - daysBeforeYear d.year).toNat
      = daysBeforeMonth d.year d.month + (d.day - 1) := by
    unfold toDay
    omega
  rw [hyear, hdays] at hwalk
  obtain ⟨hskipped, hrest⟩ := hwalk.unique (walk_of_isValid hvalid)
  have hmonth' : (ofDay d.toDay).month = d.month := by omega
  have hday' : (ofDay d.toDay).day = d.day := by omega
  calc ofDay d.toDay
      = ⟨(ofDay d.toDay).year, (ofDay d.toDay).month, (ofDay d.toDay).day⟩ := rfl
    _ = ⟨d.year, d.month, d.day⟩ := by rw [hyear, hmonth', hday']
    _ = d := rfl

omit hvalid

/-! ## The next day -/

theorem one_le_of_mem_monthLengths {year : Int} {n : Nat} (h : n ∈ monthLengths year) : 1 ≤ n := by
  have hall : ∀ leap : Bool, ∀ n ∈ [31, if leap then 29 else 28, 31, 30, 31, 30, 31, 31, 30, 31,
      30, 31], 1 ≤ n := by decide
  exact hall (isLeap year) n h

/-- The date of the next day. -/
def next (d : Date) : Date :=
  if (monthLengths d.year)[d.month - 1]?.any (d.day < ·) then { d with day := d.day + 1 }
  else if d.month < 12 then ⟨d.year, d.month + 1, 1⟩
  else ⟨d.year + 1, 1, 1⟩

/-- The number of the first day of a month. -/
theorem toDay_first (year : Int) {month length : Nat} (hmonth : 1 ≤ month)
    (hlength : (monthLengths year)[month - 1]? = some length) :
    (⟨year, month + 1, 1⟩ : Date).toDay = (⟨year, month, length⟩ : Date).toDay + 1 := by
  obtain ⟨hinside, hget⟩ := List.getElem?_eq_some_iff.mp hlength
  have hsum : daysBeforeMonth year (month + 1) = daysBeforeMonth year month + length := by
    have htake := List.sum_take_succ (monthLengths year) (month - 1) hinside
    rw [hget, Nat.sub_add_cancel hmonth] at htake
    exact htake
  unfold toDay
  rw [hsum]
  push_cast
  omega

/-- The number of the first day of a year. -/
theorem toDay_newYear (year : Int) :
    (⟨year + 1, 1, 1⟩ : Date).toDay = (⟨year, 12, 31⟩ : Date).toDay + 1 := by
  have hlast : (monthLengths year)[12 - 1]? = some 31 := rfl
  have hfirst := toDay_first year (show 1 ≤ 12 by decide) hlast
  have hsum : daysBeforeMonth year 13 = if isLeap year then 366 else 365 := sum_monthLengths year
  rw [← hfirst]
  unfold toDay
  rw [show daysBeforeMonth (year + 1) 1 = 0 from rfl, show 12 + 1 = 13 from rfl, hsum,
    daysBeforeYear_succ]
  split <;> push_cast <;> omega

include hvalid

/-- The next day exists, and its number is one more. -/
theorem next_spec : d.next.isValid = true ∧ d.next.toDay = d.toDay + 1 := by
  obtain ⟨hmonth, hday, length, hlength, hle⟩ := isValid_iff.mp hvalid
  obtain ⟨hinside, -⟩ := List.getElem?_eq_some_iff.mp hlength
  rw [length_monthLengths] at hinside
  unfold next
  simp only [hlength, Option.any_some, decide_eq_true_eq]
  split
  · next hlt =>
    refine ⟨isValid_iff.mpr ⟨hmonth, Nat.le_add_left 1 _, length, hlength, hlt⟩, ?_⟩
    unfold toDay
    push_cast
    omega
  · next hlt =>
    -- The month is over.
    obtain rfl : length = d.day := by omega
    split
    · next hyear =>
      obtain ⟨first, hfirst⟩ : ∃ n, (monthLengths d.year)[d.month]? = some n :=
        ⟨_, List.getElem?_eq_getElem (by rw [length_monthLengths]; exact hyear)⟩
      have hpos : 1 ≤ first := one_le_of_mem_monthLengths (List.mem_of_getElem? hfirst)
      exact ⟨isValid_iff.mpr ⟨Nat.le_add_left 1 _, Nat.le_refl 1, first, hfirst, hpos⟩,
        toDay_first d.year hmonth hlength⟩
    · next hyear =>
      obtain ⟨year, month, day⟩ := d
      obtain rfl : month = 12 := by
        simp only at hinside hyear
        omega
      obtain rfl : day = 31 := (Option.some.inj hlength).symm
      refine ⟨?_, toDay_newYear year⟩
      exact isValid_iff.mpr ⟨Nat.le_refl 1, Nat.le_refl 1, 31, rfl, Nat.le_of_ble_eq_true rfl⟩

omit hvalid in
/-- The date of the next number is the next date. -/
theorem ofDay_succ (n : Int) : ofDay (n + 1) = (ofDay n).next := by
  obtain ⟨hnext, hnumber⟩ := next_spec (isValid_ofDay n)
  rw [toDay_ofDay] at hnumber
  rw [← hnumber, ofDay_toDay hnext]

example : ofDay (-25509) = ⟨1900, 2, 28⟩ ∧ (⟨1900, 2, 28⟩ : Date).next = ⟨1900, 3, 1⟩ := by
  decide +kernel

end QueryPanel.Date
