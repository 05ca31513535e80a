import QueryPanel.Proofs.Time.Label
import QueryPanel.Proofs.Time.Range
import QueryPanel.Series.Point

/-!
# One name for each bucket

Points are joined by the one label of their bucket, whatever text it was written with. More texts
are read than labels are written: with fractions below a millisecond, in a leap second, at an offset
that carries the instant out of the years 0 to 9999, or in a year with a sign. So it is to be seen
that the label stays as it is when it is taken for a bucket itself. There are two cases. In a year
of four digits it is read as the instant in whole milliseconds, whose label it is; a leap second is
read as one because it follows the last second of a minute (`leapsAtMinute_of_ofText?`). In another
year no reader takes it.

> `canonicalBucket_canonicalBucket`: the one label of a bucket is its own, and it is read as the
> instant of the bucket, if its year can be written in four digits.
-/

namespace QueryPanel

open Instant

/-- An instant that is read has a leap second at the end of a minute only. -/
theorem Instant.leapsAtMinute_of_ofText? {s : String} {t : Instant} (h : ofText? s = some t) :
    t.LeapsAtMinute := by
  obtain ⟨⟨date, hour, minute, second⟩, nanos, offset, -, ht⟩ := isCivil_of_ofText? h
  unfold CivilTime.instant? ofFields? at ht
  split at ht
  · obtain rfl := Option.some.inj ht
    intro hleap
    obtain rfl : second = 60 := of_decide_eq_true hleap
    -- The sixtieth second has the number of the one before it, and an offset is in whole minutes.
    show (date.toDay * 86400 + hour * 3600 + minute * 60 + (min 60 59 : Nat) - offset * 60) % 60
      = 59
    omega
  · exact nomatch ht

namespace Point

/-- A label is its own canonical form, in whatever year it is. -/
theorem canonicalBucket_of_label {t : Instant} (h : t.LeapsAtMinute) :
    canonicalBucket (String.ofList t.label) = String.ofList t.label := by
  unfold canonicalBucket
  by_cases hyear : PlainYear t.date.year
  · rw [ofText?_label_of_plainYear hyear h]
    exact congrArg String.ofList t.label_wholeMillis
  · rw [ofText?_label_of_not_plain hyear]

/-- The label of a number of milliseconds is its own canonical form. -/
theorem canonicalBucket_label {m : Int} {label : String} (h : labelOfMillis? m = some label) :
    canonicalBucket label = label := by
  obtain ⟨t, ht, rfl⟩ := Option.map_eq_some_iff.mp h
  have hleap : t.LeapsAtMinute := by
    intro hleap
    rw [(ofMillis?_eq_some ht).2.1] at hleap
    exact nomatch hleap
  exact canonicalBucket_of_label hleap

/-- What the canonical form of a bucket is read as: the instant of the bucket without what is less
than a millisecond, unless its year has not four digits. -/
theorem ofText?_canonicalBucket (s : String) : ofText? (canonicalBucket s)
    = (ofText? s).bind fun t => if PlainYear t.date.year then some t.wholeMillis else none := by
  unfold canonicalBucket
  cases h : ofText? s with
  | none => exact h
  | some t =>
    rw [Option.bind_some]
    by_cases hyear : PlainYear t.date.year
    · rw [if_pos hyear]
      exact ofText?_label_of_plainYear hyear (leapsAtMinute_of_ofText? h)
    · rw [if_neg hyear]
      exact ofText?_label_of_not_plain hyear

/-- The canonical form of a bucket is its own, and it still names the instant of the bucket, to the
millisecond and in the years that can be written in four digits. -/
theorem canonicalBucket_canonicalBucket (s : String) :
    canonicalBucket (canonicalBucket s) = canonicalBucket s ∧
      ofText? (canonicalBucket s) = (ofText? s).bind fun t =>
        if PlainYear t.date.year then some t.wholeMillis else none := by
  refine ⟨?_, ofText?_canonicalBucket s⟩
  cases h : ofText? s with
  | none =>
    have hsame : canonicalBucket s = s := by
      unfold canonicalBucket
      rw [h]
    rw [hsame, hsame]
  | some t =>
    have hlabel : canonicalBucket s = String.ofList t.label := by
      unfold canonicalBucket
      rw [h]
    rw [hlabel]
    exact canonicalBucket_of_label (leapsAtMinute_of_ofText? h)

/-- A leap second whose offset carries it into another year, with a fraction below a millisecond. -/
example : canonicalBucket "2016-12-31T18:59:60.0009-05:00" = "2016-12-31T23:59:60.000Z" := by
  decide +kernel

end Point

end QueryPanel
