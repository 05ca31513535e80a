import QueryPanel.Proofs.Number.Natural
import QueryPanel.Proofs.Time.Label

/-!
# Labels stand in the order of time

The fields of a label stand in the order of their weight, each in a fixed number of digits and with
the same mark behind it. So two labels compare as their fields do: the first field in which they
differ decides, and in it the greater number is the greater text (`field_lt`). What is left to see
is that a later instant is ahead in the first field in which it differs. For the time of the day
that is plain arithmetic (`clock_lt`); for the date, a later day of a year is further along the
months of the year (`MonthWalk.lt`, `ofDay_lt`).

> `label_lt_label`: of two plain instants the later one has the greater label.

The years of four digits are one stretch of time (`InPlainYear.between`), and every millisecond of
it has a label that is read back (`InPlainYear.exists_label`).
-/

namespace QueryPanel

/-! ## Dates -/

namespace Date

/-- Of two walks along the same months, the one that ends in a later month is over more days. -/
theorem MonthWalk.day_lt {lengths : List Nat} {day day' skipped skipped' rest rest' : Nat}
    (h : MonthWalk lengths day skipped rest) (h' : MonthWalk lengths day' skipped' rest')
    (hlt : skipped < skipped') : day < day' := by
  have htotal := h.total
  have htotal' := h'.total
  -- The month that the first walk ends in has passed before the second one ends.
  obtain ⟨length, hlength, hrest⟩ := h.inside
  obtain ⟨hinside, rfl⟩ := List.getElem?_eq_some_iff.mp hlength
  have hpassed := ((List.take_prefix_take_left (l := lengths) hlt).sublist).sum_le_sum
    fun _ _ => Nat.zero_le _
  rw [List.sum_take_succ lengths skipped hinside] at hpassed
  change (lengths.take skipped').sum + rest' = day' at htotal'
  change (lengths.take skipped).sum + rest = day at htotal
  omega

/-- The one over more days ends in a later month or on a later day of the same month. -/
theorem MonthWalk.lt {lengths : List Nat} {day day' skipped skipped' rest rest' : Nat}
    (h : MonthWalk lengths day skipped rest) (h' : MonthWalk lengths day' skipped' rest')
    (hlt : day < day') : skipped < skipped' ∨ skipped = skipped' ∧ rest < rest' := by
  have htotal := h.total
  have htotal' := h'.total
  rcases Nat.lt_trichotomy skipped skipped' with hless | rfl | hgreater
  · exact .inl hless
  · exact .inr ⟨rfl, by omega⟩
  · exact absurd (h'.day_lt h hgreater) (by omega)

/-- Two walks over as many days end on the same day of the same month. -/
theorem MonthWalk.unique {lengths : List Nat} {day skipped skipped' rest rest' : Nat}
    (h : MonthWalk lengths day skipped rest) (h' : MonthWalk lengths day skipped' rest') :
    skipped = skipped' ∧ rest = rest' := by
  have htotal := h.total
  have htotal' := h'.total
  rcases Nat.lt_trichotomy skipped skipped' with hless | rfl | hgreater
  · exact absurd (h.day_lt h' hless) (Nat.lt_irrefl day)
  · exact ⟨rfl, by omega⟩
  · exact absurd (h'.day_lt h hgreater) (Nat.lt_irrefl day)

/-- A later day has a later date. -/
theorem ofDay_lt {a b : Int} (h : a < b) : (ofDay a).year < (ofDay b).year ∨
    (ofDay a).year = (ofDay b).year ∧ ((ofDay a).month < (ofDay b).month ∨
      (ofDay a).month = (ofDay b).month ∧ (ofDay a).day < (ofDay b).day) := by
  obtain ⟨hyear, skipped, rest, hmonth, hday, hwalk⟩ := ofDay_walk a
  obtain ⟨hyear', skipped', rest', hmonth', hday', hwalk'⟩ := ofDay_walk b
  rcases Int.lt_or_eq_of_le (ofDay_year_mono h.le) with hless | hsame
  · exact .inl hless
  · have hbegun := (daysBeforeYear_yearOfDay (a + epoch)).1
    rw [← hyear] at hwalk hbegun
    rw [← hyear', ← hsame] at hwalk'
    have hlater := hwalk.lt hwalk' (by omega)
    exact .inr ⟨hsame, by omega⟩

end Date

namespace Instant

/-! ## Fields of fixed width -/

/-- Of two texts that begin with as many digits, the one in which these have the greater value is
the greater text, whatever follows. -/
theorem append_lt_append_of_digits {cs ds : List Char} (hlength : cs.length = ds.length)
    (hds : ∀ d ∈ ds, d.isDigit = true)
    (h : Nat.ofDigitChars 10 cs 0 < Nat.ofDigitChars 10 ds 0) (rest rest' : List Char) :
    cs ++ rest < ds ++ rest' := by
  induction cs generalizing ds with
  | nil =>
    rw [List.eq_nil_of_length_eq_zero hlength.symm] at h
    exact absurd h (Nat.lt_irrefl _)
  | cons c cs ih =>
    cases ds with
    | nil => exact nomatch hlength
    | cons d ds =>
      have hrest : cs.length = ds.length := Nat.succ.inj hlength
      have htail : ∀ d ∈ ds, d.isDigit = true := fun d hd => hds d (List.mem_cons_of_mem _ hd)
      obtain ⟨hzero, -⟩ := Char.isDigit_iff_toNat.mp (hds d List.mem_cons_self)
      rw [Natural.ofDigitChars_cons_zero, Natural.ofDigitChars_cons_zero, hrest] at h
      rw [List.cons_append, List.cons_append, List.cons_lt_cons_iff]
      rcases Nat.lt_trichotomy c.toNat d.toNat with hless | hsame | hgreater
      · exact .inl hless
      · obtain rfl := Char.toNat_inj.mp hsame
        exact .inr ⟨rfl, ih hrest htail (Nat.lt_of_add_lt_add_left h)⟩
      · -- What follows a smaller digit does not make up for it.
        have hbound := Natural.ofDigitChars_lt_pow htail
        have hstep : 10 ^ ds.length * (d.toNat - '0'.toNat + 1)
            ≤ 10 ^ ds.length * (c.toNat - '0'.toNat) := Nat.mul_le_mul_left _ (by omega)
        rw [Nat.mul_add, Nat.mul_one] at hstep
        omega

/-- Two texts that begin with a field are in the order of the field, and where that is the same, in
the order of what follows it. -/
theorem field_lt {width n n' : Nat} (hwidth : 0 < width) (h : n < 10 ^ width)
    (h' : n' < 10 ^ width) (mark : Char) {rest rest' : List Char}
    (hlt : n < n' ∨ n = n' ∧ rest < rest') :
    padded width n ++ mark :: rest < padded width n' ++ mark :: rest' := by
  rcases hlt with hless | ⟨rfl, hrest⟩
  · have hdigits := padded_digits hwidth h
    have hdigits' := padded_digits hwidth h'
    refine append_lt_append_of_digits (hdigits.length.trans hdigits'.length.symm) hdigits'.digits
      ?_ _ _
    rw [hdigits.value, hdigits'.value]
    exact hless
  · exact List.append_left_lt (List.cons_lt_cons_iff.mpr (.inr ⟨rfl, hrest⟩))

/-! ## Labels -/

/-- The part of a label behind its date. -/
def clock (time milli : Nat) : List Char :=
  padded 2 (time / 3600) ++ ':' :: (padded 2 (time / 60 % 60) ++ ':' :: (padded 2 (time % 60) ++
    '.' :: (padded 3 milli ++ ['Z'])))

theorem clock_lt {time time' milli milli' : Nat} (htime : time' < 86400) (hmilli : milli < 1000)
    (hmilli' : milli' < 1000) (h : time < time' ∨ time = time' ∧ milli < milli') :
    clock time milli < clock time' milli' := by
  have hend (hsame : time = time') : padded 3 milli ++ ['Z'] < padded 3 milli' ++ ['Z'] :=
    field_lt (Nat.succ_pos _) hmilli hmilli' 'Z' (.inl (by omega))
  have hseconds (hsame : time / 60 = time' / 60) :
      padded 2 (time % 60) ++ '.' :: (padded 3 milli ++ ['Z'])
        < padded 2 (time' % 60) ++ '.' :: (padded 3 milli' ++ ['Z']) := by
    refine field_lt (Nat.succ_pos _) (by omega) (by omega) '.' ?_
    by_cases hlater : time < time'
    · exact .inl (by omega)
    · exact .inr ⟨by omega, hend (by omega)⟩
  have hminutes (hsame : time / 3600 = time' / 3600) :
      padded 2 (time / 60 % 60) ++ ':' :: (padded 2 (time % 60) ++ '.' :: (padded 3 milli ++ ['Z']))
        < padded 2 (time' / 60 % 60) ++ ':' :: (padded 2 (time' % 60) ++
          '.' :: (padded 3 milli' ++ ['Z'])) := by
    refine field_lt (Nat.succ_pos _) (by omega) (by omega) ':' ?_
    by_cases hlater : time / 60 < time' / 60
    · exact .inl (by omega)
    · exact .inr ⟨by omega, hseconds (by omega)⟩
  refine field_lt (Nat.succ_pos _) (by omega) (by omega) ':' ?_
  by_cases hlater : time / 3600 < time' / 3600
  · exact .inl hlater
  · exact .inr ⟨by omega, hminutes (by omega)⟩

theorem label_eq_clock {t : Instant} (h : t.Plain) :
    t.label = padded 4 t.date.year.toNat ++ '-' :: (padded 2 t.date.month ++ '-' ::
      (padded 2 t.date.day ++ 'T' :: clock t.timeOfDay (t.nanos.val / nanosPerMilli))) :=
  label_of_plain h

/-- The time of a day in milliseconds. -/
theorem millis_of_plain {t : Instant} (h : t.Plain) : t.millis
    = (t.seconds / 86400 * 86400 + t.timeOfDay) * 1000 + (t.nanos.val / nanosPerMilli : Nat) := by
  have hday : t.seconds = t.seconds / 86400 * 86400 + t.timeOfDay := by
    unfold timeOfDay
    omega
  unfold millis fraction
  rw [h.leap, ← hday, if_neg Bool.false_ne_true, Nat.zero_add]

/-- A later instant has a greater label. -/
theorem label_lt_label {t u : Instant} (ht : t.Plain) (hu : u.Plain) (h : t.millis < u.millis) :
    t.label < u.label := by
  obtain ⟨hlow, hhigh⟩ := ht.year
  obtain ⟨hlow', hhigh'⟩ := hu.year
  have hmonth : t.date.month ≤ 12 := Date.month_ofDay_le _
  have hmonth' : u.date.month ≤ 12 := Date.month_ofDay_le _
  have hday : t.date.day ≤ 31 := Date.day_ofDay_le _
  have hday' : u.date.day ≤ 31 := Date.day_ofDay_le _
  have htime := t.timeOfDay_lt
  have htime' := u.timeOfDay_lt
  have hmilli : t.nanos.val / nanosPerMilli < 1000 := Nat.div_lt_of_lt_mul t.nanos.isLt
  have hmilli' : u.nanos.val / nanosPerMilli < 1000 := Nat.div_lt_of_lt_mul u.nanos.isLt
  rw [millis_of_plain ht, millis_of_plain hu] at h
  rw [label_eq_clock ht, label_eq_clock hu]
  generalize t.nanos.val / nanosPerMilli = milli at *
  generalize u.nanos.val / nanosPerMilli = milli' at *
  have hfields : t.date.year.toNat < u.date.year.toNat ∨ t.date.year.toNat = u.date.year.toNat ∧
      (t.date.month < u.date.month ∨ t.date.month = u.date.month ∧
        (t.date.day < u.date.day ∨ t.date.day = u.date.day ∧
          clock t.timeOfDay milli < clock u.timeOfDay milli')) := by
    rcases Int.lt_trichotomy (t.seconds / 86400) (u.seconds / 86400) with hless | hsame | hgreater
    · have hdate : t.date.year < u.date.year ∨ t.date.year = u.date.year ∧
          (t.date.month < u.date.month ∨ t.date.month = u.date.month ∧ t.date.day < u.date.day) :=
        Date.ofDay_lt hless
      rcases hdate with hyear | ⟨hyear, hmonths | ⟨hmonths, hdays⟩⟩
      · exact .inl (by omega)
      · exact .inr ⟨by omega, .inl hmonths⟩
      · exact .inr ⟨by omega, .inr ⟨hmonths, .inl hdays⟩⟩
    · have hdate : t.date = u.date := congrArg Date.ofDay hsame
      rw [hdate]
      exact .inr ⟨rfl, .inr ⟨rfl, .inr ⟨rfl, clock_lt htime' hmilli hmilli' (by omega)⟩⟩⟩
    · omega
  refine field_lt (Nat.succ_pos _) (by omega) (by omega) '-'
    (hfields.imp_right (And.imp_right fun hmonths => ?_))
  refine field_lt (Nat.succ_pos _) (by omega) (by omega) '-'
    (hmonths.imp_right (And.imp_right fun hdays => ?_))
  exact field_lt (Nat.succ_pos _) (by omega) (by omega) 'T' hdays

/-! ## Numbers of milliseconds -/

/-- A number of milliseconds after the beginning of 1970 that lies in a year of four digits. -/
def InPlainYear (m : Int) : Prop :=
  PlainYear (Date.ofDay (m / 1000 / 86400)).year

instance (m : Int) : Decidable (InPlainYear m) :=
  inferInstanceAs (Decidable (PlainYear _))

theorem InPlainYear.between {a b c : Int} (hab : a ≤ b) (hbc : b ≤ c) (ha : InPlainYear a)
    (hc : InPlainYear c) : InPlainYear b := by
  have hlow := Date.ofDay_year_mono (show a / 1000 / 86400 ≤ b / 1000 / 86400 by omega)
  have hhigh := Date.ofDay_year_mono (show b / 1000 / 86400 ≤ c / 1000 / 86400 by omega)
  exact ⟨ha.1.trans hlow, hhigh.trans hc.2⟩

/-- Such a number has a plain instant. -/
theorem InPlainYear.exists_plain {m : Int} (h : InPlainYear m) :
    ∃ t, ofMillis? m = some t ∧ t.Plain := by
  have hyear : hasYear (Date.ofDay (m / 1000 / 86400)).year = true := by
    obtain ⟨hlow, hhigh⟩ := h
    simp only [hasYear, Bool.and_eq_true, decide_eq_true_eq]
    omega
  obtain ⟨t, ht⟩ := Option.isSome_iff_exists.mp ((isSome_ofMillis?_iff m).mpr hyear)
  refine ⟨t, ht, plain_of_ofMillis? ht ?_⟩
  have hdate : t.date = Date.ofDay (m / 1000 / 86400) := by
    rw [date, (ofMillis?_eq_some ht).1]
  rw [hdate]
  exact h

/-- It has a label, which is read as the number again. -/
theorem InPlainYear.exists_label {m : Int} (h : InPlainYear m) :
    ∃ label, labelOfMillis? m = some label ∧ millisOfText? label = some m := by
  obtain ⟨t, ht, hplain⟩ := h.exists_plain
  have hlabel : labelOfMillis? m = some (String.ofList t.label) := by
    rw [labelOfMillis?, ht, Option.map_some]
  exact ⟨_, hlabel, millisOfText?_label hlabel ⟨t, hplain.year, rfl⟩⟩

/-- Of two such numbers the greater one has the greater label. -/
theorem labelOfMillis?_lt {m n : Int} {slot slot' : String} (hm : InPlainYear m)
    (hn : InPlainYear n) (h : m < n) (hslot : labelOfMillis? m = some slot)
    (hslot' : labelOfMillis? n = some slot') : slot < slot' := by
  obtain ⟨t, ht, hplain⟩ := hm.exists_plain
  obtain ⟨u, hu, hplain'⟩ := hn.exists_plain
  rw [labelOfMillis?, ht, Option.map_some] at hslot
  rw [labelOfMillis?, hu, Option.map_some] at hslot'
  obtain rfl := Option.some.inj hslot
  obtain rfl := Option.some.inj hslot'
  rw [← millis_of_ofMillis? ht, ← millis_of_ofMillis? hu] at h
  rw [String.lt_iff_toList_lt, String.toList_ofList, String.toList_ofList]
  exact label_lt_label hplain hplain' h

end Instant

end QueryPanel
