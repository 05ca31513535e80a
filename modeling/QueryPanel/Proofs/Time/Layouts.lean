import QueryPanel.Proofs.Time.Gregorian

/-!
# Ways to write an instant

A whole second can be written without an offset, with a blank or a letter in the middle, or with
one: `Z`, or so many hours and minutes that the civil time is ahead of UTC (`offsetText`). All of
these are read as that second. Each is a stamp, so it is taken apart field by field
(`zoned?_stamp`, `plain?_stamp`), and it only has to be seen which reader goes through: the one with
an offset needs to find one at the end, and the layout that allows a blank stops at a letter.

> `label_keeps_time`: within the years 0 to 9999 a number of milliseconds is read back from its
> label, later numbers have greater labels, and each whole second is read from every way to write
> it.

The civil times in it are those of the Gregorian calendar, kept from 1970 on day by day
(`Date.ofDay_succ`).
-/

namespace QueryPanel

open Instant

/-! ## Offsets -/

namespace Instant

/-- An offset from UTC in minutes: a sign, the hours and the minutes. -/
def offsetText (offset : Int) : List Char :=
  (if offset < 0 then '-' else '+') :: (padded 2 (offset.natAbs / 60) ++ ':' ::
    (padded 2 (offset.natAbs % 60) ++ []))

/-- Behind a sign, the hours and minutes of an offset are read back. -/
theorem offset?_sign {sign : Char} (hsign : sign = '+' ∨ sign = '-') {hours minutes : Nat}
    (hhours : hours ≤ 23) (hminutes : minutes ≤ 59) :
    offset? (sign :: (padded 2 hours ++ ':' :: (padded 2 minutes ++ [])))
      = some (if sign = '+' then (hours * 60 + minutes : Int)
          else -(hours * 60 + minutes : Int), [])
      := by
  have hread := digits?_padded (show hours < 100 by omega) (':' :: (padded 2 minutes ++ []))
  have hread' := digits?_padded (show minutes < 100 by omega) []
  have hutc : ¬ (sign = 'Z' ∨ sign = 'z') := by
    rcases hsign with rfl | rfl <;> decide
  have hmark : sign = '+' ∨ sign = '-' ∨ sign = '−' := hsign.imp_right .inl
  rw [offset?, if_neg hutc, if_pos hmark]
  refine (bind_of_eq hread _).trans ?_
  refine (bind_of_eq (literal?_cons ':' _) _).trans ?_
  refine (bind_of_eq hread' _).trans ?_
  exact if_pos ⟨hhours, hminutes⟩

/-- An offset of less than a day is read back. -/
theorem offset?_offsetText {offset : Int} (hlow : -1440 < offset) (hhigh : offset < 1440) :
    offset? (offsetText offset) = some (offset, []) := by
  have hhours : offset.natAbs / 60 ≤ 23 := by omega
  have hminutes : offset.natAbs % 60 ≤ 59 := by omega
  unfold offsetText
  by_cases hneg : offset < 0
  · have hvalue :
        -((offset.natAbs / 60 : Nat) * 60 + (offset.natAbs % 60 : Nat) : Int) = offset := by
      omega
    rw [if_pos hneg, offset?_sign (.inr rfl) hhours hminutes, if_neg (by decide), hvalue]
  · have hvalue :
        ((offset.natAbs / 60 : Nat) * 60 + (offset.natAbs % 60 : Nat) : Int) = offset := by
      omega
    rw [if_neg hneg, offset?_sign (.inl rfl) hhours hminutes, if_pos rfl, hvalue]

theorem solid_offsetText (offset : Int) : Text.Solid (offsetText offset) := by
  have hminutes := (padded_digits Nat.zero_lt_two
    (show offset.natAbs % 60 < 10 ^ 2 by omega)).solid Nat.zero_lt_two
  have hsign : Text.Solid [if offset < 0 then '-' else '+'] := by
    refine Text.solid_of_no_blank (List.cons_ne_nil _ _) ?_
    intro c hc
    rw [List.mem_singleton.mp hc]
    split <;> decide
  have hwhole := hsign.append (padded 2 (offset.natAbs / 60) ++ [':']) hminutes
  unfold offsetText
  simpa only [List.append_assoc, List.cons_append, List.nil_append, List.append_nil] using hwhole

end Instant

/-! ## What stands behind a civil time -/

namespace CivilTime

variable (c : CivilTime)

theorem zonedEnd?_utc : c.zonedEnd? ['Z'] = c.instant? 0 0 :=
  rfl

theorem zonedEnd?_offsetText {offset : Int} (hlow : -1440 < offset) (hhigh : offset < 1440) :
    c.zonedEnd? (offsetText offset) = c.instant? 0 offset := by
  have hnanos : nanos? (offsetText offset) = some (0, offsetText offset) := by
    unfold offsetText
    split <;> rfl
  refine (bind_of_eq hnanos _).trans ?_
  exact bind_of_eq (offset?_offsetText hlow hhigh) _

/-- A stamp begins and ends with a digit, or with what is put behind it. -/
theorem solid_stamp {c : CivilTime} (hshort : c.Short) (hyear : PlainYear c.date.year)
    (middle : Char) {rest : List Char} (hrest : rest = [] ∨ Text.Solid rest) :
    Text.Solid (c.stamp middle rest) := by
  have hstart : Text.Solid (yearText c.date.year) := hyear.digits.solid (Nat.succ_pos 3)
  have hend : Text.Solid (padded 2 c.second) :=
    (padded_digits Nat.zero_lt_two hshort.second).solid Nat.zero_lt_two
  unfold stamp clockStamp
  rcases hrest with rfl | hsolid
  · have hwhole := hstart.append ('-' :: (padded 2 c.date.month ++ '-' :: (padded 2 c.date.day ++
      middle :: (padded 2 c.hour ++ ':' :: (padded 2 c.minute ++ [':']))))) hend
    simpa only [List.append_assoc, List.cons_append, List.nil_append, List.append_nil] using hwhole
  · have hwhole := hstart.append ('-' :: (padded 2 c.date.month ++ '-' :: (padded 2 c.date.day ++
      middle :: (padded 2 c.hour ++ ':' :: (padded 2 c.minute ++ ':' :: padded 2 c.second)))))
      hsolid
    simpa only [List.append_assoc, List.cons_append] using hwhole

end CivilTime

/-! ## Whole seconds -/

namespace Instant

/-- A whole second, counted from the beginning of 1970. -/
def ofSeconds (n : Int) : Instant :=
  ⟨n, false, withinSecond 0⟩

variable {n : Int}

theorem instant?_ofSeconds (hyear : PlainYear (ofSeconds n).date.year) (offset : Int) :
    (ofSeconds n).civil.instant? 0 offset = some (ofSeconds (n - offset * 60)) :=
  instant?_civil hyear.hasYear nofun 0 offset

section Ways

variable (hyear : PlainYear (ofSeconds n).date.year)
include hyear

/-- With an offset, the first way to read it goes through. -/
theorem ofText?_zoned {rest : List Char} (hrest : Text.Solid rest) {offset : Int}
    (hend : (ofSeconds n).civil.zonedEnd? rest = (ofSeconds n).civil.instant? 0 offset) :
    ofText? (String.ofList ((ofSeconds n).civil.stamp 'T' rest))
      = some (ofSeconds (n - offset * 60)) := by
  have hshort := (ofSeconds n).civil_short
  unfold ofText?
  rw [String.toList_ofList, (CivilTime.solid_stamp hshort hyear 'T' (.inr hrest)).trim_eq]
  simp only [CivilTime.zoned?_stamp hshort hyear (.inl rfl), hend, instant?_ofSeconds hyear,
    Option.some_or]

/-- Without one, the layout of that mark does. -/
theorem ofText?_plain {middle : Char} (hmiddle : middle = 'T' ∨ middle = ' ') :
    ofText? (String.ofList ((ofSeconds n).civil.stamp middle [])) = some (ofSeconds n) := by
  have hshort := (ofSeconds n).civil_short
  have hend : (ofSeconds n).civil.plainEnd? false [] = some (ofSeconds n) := by
    show (ofSeconds n).civil.instant? 0 0 = _
    rw [instant?_ofSeconds hyear, Int.zero_mul, Int.sub_zero]
  have hzoned : zoned? ((ofSeconds n).civil.stamp middle []) = none :=
    CivilTime.zoned?_stamp hshort hyear hmiddle []
  unfold ofText?
  rw [String.toList_ofList, (CivilTime.solid_stamp hshort hyear middle (.inl rfl)).trim_eq]
  simp only [hzoned, Option.none_or, layouts, List.findSome?_cons]
  rcases hmiddle with rfl | rfl
  · rw [CivilTime.plain?_stamp_of_letter hshort, CivilTime.plain?_stamp_of_letter hshort,
      CivilTime.plain?_stamp hshort (.inl rfl), hend]
  · rw [CivilTime.plain?_stamp hshort (.inr ⟨rfl, rfl⟩), hend]

end Ways

/-! ## The years that are written in four digits -/

/-- Their first and their last millisecond. -/
theorem inPlainYear_of_bounds {m : Int} (hlow : -62167219200000 ≤ m) (hhigh : m ≤ 253402300799999) :
    InPlainYear m :=
  InPlainYear.between hlow hhigh (by decide +kernel) (by decide +kernel)

theorem plainYear_ofSeconds (hlow : -62167219200 ≤ n) (hhigh : n ≤ 253402300799) :
    PlainYear (ofSeconds n).date.year := by
  have hyear : PlainYear (Date.ofDay (n * 1000 / 1000 / 86400)).year :=
    inPlainYear_of_bounds (by omega) (by omega)
  rwa [Int.mul_ediv_cancel _ (by decide)] at hyear

/-- Within the years 0 to 9999, a number of milliseconds is read back from its label, and later
numbers have greater labels. A whole second is read from its civil time with a blank or a letter in
the middle, with the mark of UTC behind it, and from the civil time at any offset of less than a
day, if that is in such a year as well. The civil times are those of the Gregorian calendar. -/
theorem label_keeps_time :
    (∀ m ∈ Set.Icc (-62167219200000 : Int) 253402300799999,
      ∃ label, labelOfMillis? m = some label ∧ millisOfText? label = some m ∧
        ∀ later ∈ Set.Ioc m 253402300799999,
          ∃ label', labelOfMillis? later = some label' ∧ label < label') ∧
    (∀ n ∈ Set.Icc (-62167219200 : Int) 253402300799,
      (∀ text ∈ [(ofSeconds n).civil.stamp ' ' [], (ofSeconds n).civil.stamp 'T' [],
          (ofSeconds n).civil.stamp 'T' ['Z']],
        ofText? (String.ofList text) = some (ofSeconds n)) ∧
      ∀ offset ∈ Set.Ioo (-1440 : Int) 1440,
        PlainYear (ofSeconds (n + offset * 60)).date.year →
        ofText? (String.ofList ((ofSeconds (n + offset * 60)).civil.stamp 'T' (offsetText offset)))
          = some (ofSeconds n)) ∧
    Date.ofDay 0 = ⟨1970, 1, 1⟩ ∧ ∀ day, Date.ofDay (day + 1) = (Date.ofDay day).next := by
  refine ⟨?_, ?_, by decide +kernel, Date.ofDay_succ⟩
  · rintro m ⟨hlow, hhigh⟩
    have hyear := inPlainYear_of_bounds hlow hhigh
    obtain ⟨label, hlabel, hread⟩ := hyear.exists_label
    refine ⟨label, hlabel, hread, ?_⟩
    rintro later ⟨hlater, hhigh'⟩
    have hyear' := inPlainYear_of_bounds (hlow.trans hlater.le) hhigh'
    obtain ⟨label', hlabel', -⟩ := hyear'.exists_label
    exact ⟨label', hlabel', labelOfMillis?_lt hyear hyear' hlater hlabel hlabel'⟩
  · rintro n ⟨hlow, hhigh⟩
    have hyear := plainYear_ofSeconds hlow hhigh
    constructor
    · intro text htext
      simp only [List.mem_cons, List.not_mem_nil, or_false] at htext
      rcases htext with rfl | rfl | rfl
      · exact ofText?_plain hyear (.inr rfl)
      · exact ofText?_plain hyear (.inl rfl)
      · have hutc : Text.Solid ['Z'] := ⟨⟨'Z', [], rfl, by decide⟩, ⟨[], 'Z', rfl, by decide⟩⟩
        have hread := ofText?_zoned hyear hutc (CivilTime.zonedEnd?_utc _)
        rwa [Int.zero_mul, Int.sub_zero] at hread
    · rintro offset ⟨hless, hmore⟩ hthere
      have hread := ofText?_zoned hthere (solid_offsetText offset)
        (CivilTime.zonedEnd?_offsetText _ hless hmore)
      rwa [Int.add_sub_cancel] at hread

/-- The last millisecond before a leap day and the next one, and the last second before it, also
where it is the leap day already. -/
theorem label_keeps_time_leapDay :
    (951782399999 : Int) ∈ Set.Icc (-62167219200000 : Int) 253402300799999 ∧
    (951782400000 : Int) ∈ Set.Ioc (951782399999 : Int) 253402300799999 ∧
    labelOfMillis? 951782399999 = some "2000-02-28T23:59:59.999Z" ∧
    labelOfMillis? 951782400000 = some "2000-02-29T00:00:00.000Z" ∧
    millisOfText? "2000-02-28T23:59:59.999Z" = some 951782399999 ∧
    "2000-02-28T23:59:59.999Z" < "2000-02-29T00:00:00.000Z" ∧
    (951782399 : Int) ∈ Set.Icc (-62167219200 : Int) 253402300799 ∧
    (330 : Int) ∈ Set.Ioo (-1440 : Int) 1440 ∧
    PlainYear (ofSeconds (951782399 + 330 * 60)).date.year ∧
    ofText? "2000-02-28 23:59:59" = some (ofSeconds 951782399) ∧
    ofText? "2000-02-29T05:29:59+05:30" = some (ofSeconds 951782399) := by
  have hmilli : (951782399999 : Int) ∈ Set.Icc (-62167219200000 : Int) 253402300799999 := by
    constructor <;> decide
  have hlater : (951782400000 : Int) ∈ Set.Ioc (951782399999 : Int) 253402300799999 := by
    constructor <;> decide
  have hsecond : (951782399 : Int) ∈ Set.Icc (-62167219200 : Int) 253402300799 := by
    constructor <;> decide
  have hoffset : (330 : Int) ∈ Set.Ioo (-1440 : Int) 1440 := by
    constructor <;> decide
  have hthere : PlainYear (ofSeconds (951782399 + 330 * 60)).date.year := by
    decide +kernel
  have hbefore : labelOfMillis? 951782399999 = some "2000-02-28T23:59:59.999Z" := by
    decide +kernel
  have hleap : labelOfMillis? 951782400000 = some "2000-02-29T00:00:00.000Z" := by
    decide +kernel
  have htext : String.ofList ((ofSeconds 951782399).civil.stamp ' ' [])
      = "2000-02-28 23:59:59" := by
    decide +kernel
  have htext' : String.ofList ((ofSeconds (951782399 + 330 * 60)).civil.stamp 'T' (offsetText 330))
      = "2000-02-29T05:29:59+05:30" := by
    decide +kernel
  obtain ⟨hlabels, hseconds, -⟩ := label_keeps_time
  obtain ⟨label, hlabel, hread, horder⟩ := hlabels _ hmilli
  obtain ⟨label', hlabel', hlt⟩ := horder _ hlater
  obtain rfl := Option.some.inj (hbefore.symm.trans hlabel)
  obtain rfl := Option.some.inj (hleap.symm.trans hlabel')
  obtain ⟨hways, hoffsets⟩ := hseconds _ hsecond
  have hplain := hways _ List.mem_cons_self
  have hzoned := hoffsets _ hoffset hthere
  rw [htext] at hplain
  rw [htext'] at hzoned
  exact ⟨hmilli, hlater, hbefore, hleap, hread, hlt, hsecond, hoffset, hthere, hplain, hzoned⟩

end Instant

end QueryPanel
