import QueryPanel.Proofs.Time.Stamp

/-!
# A label is read back

The label of a bucket is the civil time of its instant (`civil`), then the milliseconds and `Z`. In
the years 0 to 9999 the first of the four ways to read an instant takes it apart again, and what the
fields make is the instant they were taken from, because the date of a day has the number of that
day (`instant?_civil`). Of the second the milliseconds are left (`wholeMillis`).

> `ofText?_label`: the label of an instant in whole milliseconds is read as that instant.

Other years are written with a sign in front, and no reader takes such a label: the layouts that
understand the sign have not both a letter before the time and a fraction behind it
(`ofText?_label_of_not_plain`). `HasPlainYear` is what tells the two apart.
-/

namespace QueryPanel.Instant

/-! ## Civil times of instants -/

/-- An instant in whole milliseconds, outside leap seconds and in a year of four digits. -/
structure Plain (t : Instant) : Prop where
  leap : t.leap = false
  millis : t.nanos.val = t.nanos.val / nanosPerMilli * nanosPerMilli
  year : PlainYear t.date.year

/-- A leap second follows the last second of a minute. -/
def LeapsAtMinute (t : Instant) : Prop :=
  t.leap = true → t.seconds % 60 = 59

/-- The instant without what is less than a millisecond. -/
def wholeMillis (t : Instant) : Instant :=
  { t with nanos := withinSecond (t.nanos.val / nanosPerMilli * nanosPerMilli) }

/-- The seconds of the day. -/
def timeOfDay (t : Instant) : Nat :=
  (t.seconds % 86400).toNat

theorem timeOfDay_lt (t : Instant) : t.timeOfDay < 86400 := by
  unfold timeOfDay
  omega

variable {t : Instant}

/-- The seconds of a label: a leap second is the sixtieth. -/
def labelSecond (t : Instant) : Nat :=
  t.timeOfDay % 60 + if t.leap then 1 else 0

theorem labelSecond_le (t : Instant) : t.labelSecond ≤ 60 := by
  unfold labelSecond
  split <;> omega

theorem Plain.leapsAtMinute (h : t.Plain) : t.LeapsAtMinute := by
  intro hleap
  rw [h.leap] at hleap
  exact nomatch hleap

theorem Plain.wholeMillis_eq (h : t.Plain) : t.wholeMillis = t := by
  have hnanos : withinSecond (t.nanos.val / nanosPerMilli * nanosPerMilli) = t.nanos := by
    rw [← h.millis]
    exact Fin.ext (withinSecond_val t.nanos.isLt)
  unfold wholeMillis
  rw [hnanos]

/-- The civil time of an instant in UTC. -/
def civil (t : Instant) : CivilTime :=
  ⟨t.date, t.timeOfDay / 3600, t.timeOfDay / 60 % 60, t.labelSecond⟩

/-- The civil time goes by the second. -/
theorem civil_with_nanos (t : Instant) (nanos : Fin nanosPerSecond) :
    ({ t with nanos := nanos } : Instant).civil = t.civil := rfl

theorem civil_short (t : Instant) : t.civil.Short := by
  have hmonth : t.date.month ≤ 12 := Date.month_ofDay_le _
  have hday : t.date.day ≤ 31 := Date.day_ofDay_le _
  have htime := t.timeOfDay_lt
  have hsecond := t.labelSecond_le
  refine ⟨?_, ?_, ?_, ?_, ?_⟩
  · show t.date.month < 100
    omega
  · show t.date.day < 100
    omega
  · show t.timeOfDay / 3600 < 100
    omega
  · show t.timeOfDay / 60 % 60 < 100
    omega
  · show t.labelSecond < 100
    omega

/-- A civil time makes the instant that it was taken from, earlier by its offset from UTC. -/
theorem instant?_civil (hyear : hasYear t.date.year = true) (hleap : t.LeapsAtMinute)
    (nanos : Nat) (offset : Int) : t.civil.instant? nanos offset
      = some ⟨t.seconds - offset * 60, t.leap, withinSecond nanos⟩ := by
  have htime := t.timeOfDay_lt
  have htoday : (t.timeOfDay : Int) = t.seconds % 86400 :=
    Int.toNat_of_nonneg (Int.emod_nonneg _ (by decide))
  have hday : t.date.toDay = t.seconds / 86400 := Date.toDay_ofDay _
  have hminute : t.leap = true → t.timeOfDay % 60 = 59 := by
    intro h
    have := hleap h
    omega
  have hhours : t.timeOfDay / 3600 ≤ 23 := by omega
  have hminutes : t.timeOfDay / 60 % 60 ≤ 59 := by omega
  have hcut : min t.labelSecond 59 = t.timeOfDay % 60 := by
    unfold labelSecond
    cases h : t.leap with
    | true => rw [hminute h, if_pos rfl]; rfl
    | false => rw [if_neg Bool.false_ne_true]; omega
  have hsixtieth : decide (t.labelSecond = 60) = t.leap := by
    unfold labelSecond
    cases h : t.leap with
    | true => rw [hminute h, if_pos rfl]; rfl
    | false =>
      rw [if_neg Bool.false_ne_true, decide_eq_false_iff_not]
      omega
  have hseconds : t.date.toDay * 86400 + (t.timeOfDay / 3600 : Nat) * 3600
      + (t.timeOfDay / 60 % 60 : Nat) * 60 + (min t.labelSecond 59 : Nat) - offset * 60
      = t.seconds - offset * 60 := by
    rw [hcut, hday]
    omega
  unfold CivilTime.instant? civil ofFields?
  rw [if_pos ⟨Date.isValid_ofDay _, hyear, hhours, hminutes, t.labelSecond_le⟩, hseconds, hsixtieth]

/-! ## The label -/

/-- The milliseconds at the end of a label. -/
def labelEnd (t : Instant) : List Char :=
  '.' :: (padded 3 (t.nanos.val / nanosPerMilli) ++ ['Z'])

/-- The label of an instant is its civil time and what comes behind it. -/
theorem label_eq_stamp (t : Instant) : t.label = t.civil.stamp 'T' t.labelEnd := by
  unfold label CivilTime.stamp CivilTime.clockStamp labelEnd civil labelSecond timeOfDay
  simp only [List.append_assoc, List.cons_append]

theorem label_of_plain (h : t.Plain) :
    t.label = padded 4 t.date.year.toNat ++ '-' :: (padded 2 t.date.month ++ '-' ::
      (padded 2 t.date.day ++ 'T' :: (padded 2 (t.timeOfDay / 3600) ++ ':' ::
        (padded 2 (t.timeOfDay / 60 % 60) ++ ':' :: (padded 2 (t.timeOfDay % 60) ++ '.' ::
          (padded 3 (t.nanos.val / nanosPerMilli) ++ ['Z'])))))) := by
  have hsecond : t.labelSecond = t.timeOfDay % 60 := by
    rw [labelSecond, h.leap]
    rfl
  rw [← yearText_eq_padded h.year, ← hsecond]
  exact t.label_eq_stamp

/-- A label says nothing of what is less than a millisecond. -/
theorem label_wholeMillis (t : Instant) : t.wholeMillis.label = t.label := by
  have hsame : t.wholeMillis.nanos.val / nanosPerMilli = t.nanos.val / nanosPerMilli := by
    have hle : t.nanos.val / nanosPerMilli * nanosPerMilli ≤ t.nanos.val := Nat.div_mul_le_self _ _
    rw [wholeMillis, withinSecond_val (Nat.lt_of_le_of_lt hle t.nanos.isLt),
      Nat.mul_div_cancel _ (by decide)]
  have hcivil : t.wholeMillis.civil = t.civil := civil_with_nanos t _
  rw [label_eq_stamp, label_eq_stamp, labelEnd, labelEnd, hsame, hcivil]

/-- Three digits of a fraction and the mark of UTC, read behind a civil time. -/
theorem zonedEnd?_labelEnd (c : CivilTime) (t : Instant) :
    c.zonedEnd? t.labelEnd
      = c.instant? (t.nanos.val / nanosPerMilli * nanosPerMilli) 0 := by
  have hnanos : t.nanos.val / nanosPerMilli < 10 ^ 3 := Nat.div_lt_of_lt_mul t.nanos.isLt
  have hfraction := (padded_digits (Nat.succ_pos 2) hnanos).nanos?_append (Nat.succ_pos 2)
    (by decide) (show 'Z'.isDigit = false from rfl) []
  exact bind_of_eq hfraction _

/-- The label of an instant in a year of four digits, read with fixed widths. -/
theorem zoned?_label (hyear : PlainYear t.date.year) (hleap : t.LeapsAtMinute) :
    zoned? t.label = some t.wholeMillis := by
  rw [label_eq_stamp, CivilTime.zoned?_stamp t.civil_short hyear (.inl rfl), zonedEnd?_labelEnd,
    instant?_civil hyear.hasYear hleap, Int.zero_mul, Int.sub_zero]
  rfl

/-! ## Which labels are read -/

/-- A label begins with its year. -/
theorem label_eq_yearText (t : Instant) : ∃ rest, t.label = yearText t.date.year ++ rest :=
  ⟨_, t.label_eq_stamp⟩

/-- The label of an instant in a year of four digits. -/
def HasPlainYear (label : String) : Prop :=
  ∃ t : Instant, PlainYear t.date.year ∧ label = String.ofList t.label

/-- The first character of a label tells whether its year has four digits. -/
theorem plainYear_of_hasPlainYear (h : HasPlainYear (String.ofList t.label)) :
    PlainYear t.date.year := by
  obtain ⟨u, hu, heq⟩ := h
  obtain ⟨rest, hlabel⟩ := label_eq_yearText t
  obtain ⟨rest', hlabel'⟩ := label_eq_yearText u
  obtain ⟨c, cs, hc, hdigit⟩ := yearText_of_plain hu
  by_cases hyear : PlainYear t.date.year
  · exact hyear
  · obtain ⟨d, ds, hd, hsign⟩ := yearText_of_not_plain hyear
    have hsame := String.ofList_injective heq
    rw [hlabel, hlabel', hc, hd] at hsame
    rw [(List.cons.inj hsame).1, hdigit] at hsign
    exact nomatch hsign

theorem solid_label (t : Instant) : Text.Solid t.label := by
  constructor
  · obtain ⟨rest, hlabel⟩ := label_eq_yearText t
    by_cases hyear : PlainYear t.date.year
    · obtain ⟨c, cs, hc, hblank⟩ := (hyear.digits.solid (Nat.succ_pos 3)).starts
      exact ⟨c, cs ++ rest, by rw [hlabel, hc]; rfl, hblank⟩
    · rw [hlabel, yearText_eq_signed hyear]
      refine ⟨_, _, rfl, ?_⟩
      split <;> decide
  · exact ⟨_, 'Z', rfl, by decide⟩

/-- The label of an instant in a year of four digits is read as that instant, up to the
millisecond. -/
theorem ofText?_label_of_plainYear (hyear : PlainYear t.date.year) (hleap : t.LeapsAtMinute) :
    ofText? (String.ofList t.label) = some t.wholeMillis := by
  unfold ofText?
  rw [String.toList_ofList, t.solid_label.trim_eq]
  simp only [zoned?_label hyear hleap, Option.some_or]

/-- The label of a plain instant is read as that instant. -/
theorem ofText?_label (h : t.Plain) : ofText? (String.ofList t.label) = some t := by
  rw [ofText?_label_of_plainYear h.year h.leapsAtMinute, h.wholeMillis_eq]

/-- The label of an instant in another year is not read: its year has a sign, and the layouts that
understand one have not both a letter before the time and a fraction behind it. -/
theorem ofText?_label_of_not_plain (h : ¬ PlainYear t.date.year) :
    ofText? (String.ofList t.label) = none := by
  have hzoned : zoned? (t.civil.stamp 'T' t.labelEnd) = none :=
    CivilTime.zoned?_stamp_of_signed h 'T' _
  have hletter : plain? ⟨some 'T', false⟩ (t.civil.stamp 'T' t.labelEnd) = none :=
    CivilTime.plain?_stamp t.civil_short (.inl rfl) _
  unfold ofText?
  rw [String.toList_ofList, t.solid_label.trim_eq, label_eq_stamp]
  simp only [hzoned, Option.none_or, layouts, List.findSome?_cons, List.findSome?_nil,
    CivilTime.plain?_stamp_of_letter t.civil_short, hletter]

/-- The instant of a number of milliseconds is plain, if its year has four digits. -/
theorem plain_of_ofMillis? {m : Int} (h : ofMillis? m = some t) (hyear : PlainYear t.date.year) :
    t.Plain := by
  obtain ⟨-, hleap, hnanos, -⟩ := ofMillis?_eq_some h
  refine ⟨hleap, ?_, hyear⟩
  rw [hnanos, Nat.mul_div_cancel _ (by decide)]

/-- A number of milliseconds is read back from its label, if the year of the label has four
digits. -/
theorem millisOfText?_label {m : Int} {label : String} (hlabel : labelOfMillis? m = some label)
    (hyear : HasPlainYear label) : millisOfText? label = some m := by
  obtain ⟨t, ht, rfl⟩ := Option.map_eq_some_iff.mp hlabel
  unfold millisOfText?
  rw [ofText?_label (plain_of_ofMillis? ht (plainYear_of_hasPlainYear hyear)), Option.map_some,
    millis_of_ofMillis? ht]

/-- What is read from the label of a number of milliseconds is that number, in whatever year. -/
theorem eq_of_millisOfText?_label {m n : Int} {label : String}
    (hlabel : labelOfMillis? m = some label) (hread : millisOfText? label = some n) : n = m := by
  obtain ⟨t, ht, rfl⟩ := Option.map_eq_some_iff.mp hlabel
  by_cases hyear : PlainYear t.date.year
  · have hback := millisOfText?_label hlabel ⟨t, hyear, rfl⟩
    exact Option.some.inj (hread.symm.trans hback)
  · unfold millisOfText? at hread
    rw [ofText?_label_of_not_plain hyear] at hread
    exact nomatch hread

end QueryPanel.Instant
