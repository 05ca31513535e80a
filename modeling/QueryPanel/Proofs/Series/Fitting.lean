import QueryPanel.Proofs.Series.Grid
import QueryPanel.Series.Width

/-!
# Widths that fit their window

A width that is chosen for a window and a number of points is rounded up three times: the window to
whole seconds, the seconds to whole points, and what comes out to a rung of the ladder or a multiple
of the highest one. Rounding up is the safe direction, so that many buckets of the width are no
shorter than the window (`Width.le_ofRange_mul`). A grid is laid over multiples of the width and not
from the start of the window on, and so it may need one bucket more, whatever is left over at both
ends (`Timeline.ediv_sub_ediv_le`).

Only the greatest width there can be is not rounded up. It takes about 136 years, and a window
within the years of four digits has fewer than a hundred of them. Within those years every bucket
has a label as well, also one that begins before the year 0, as years are counted much further than
that (`Instant.isSome_ofMillis?_of_near`).

> `build_of_chosen_width`: with a width that is chosen for it, a window gets a grid, and no more
> than one bucket more than it should have points, unless the width is the greatest.
-/

namespace QueryPanel

/-! ## Widths -/

namespace Width

theorem one_le_ceilDiv {n d : Nat} (hn : 1 ≤ n) (hd : 1 ≤ d) : 1 ≤ ceilDiv n d :=
  Nat.div_pos (by omega) hd

theorem le_ceilDiv_mul (n : Nat) {d : Nat} (hd : 1 ≤ d) : n ≤ ceilDiv n d * d := by
  have hlt := Nat.lt_div_mul_add (a := n + d - 1) hd
  unfold ceilDiv
  omega

theorem one_le_atLeast {seconds : Nat} (h : 1 ≤ seconds) : 1 ≤ atLeast seconds := by
  unfold atLeast
  split
  · next rung hrung =>
    have hpositive : ∀ rung ∈ ladder, 1 ≤ rung := by decide
    exact hpositive rung (List.mem_of_find?_eq_some hrung)
  · have htop : 1 ≤ top := by decide
    exact Nat.le_min.mpr ⟨Nat.mul_pos (one_le_ceilDiv h htop) htop, by decide⟩

/-- The greatest width is the only one that may be less than what is asked for. -/
theorem le_atLeast (seconds : Nat) (h : atLeast seconds ≠ greatest) :
    seconds ≤ atLeast seconds := by
  unfold atLeast at *
  split at h
  · next rung hrung =>
    have hle := List.find?_some hrung
    exact of_decide_eq_true hle
  · have hle : ceilDiv seconds top * top ≤ greatest := by
      by_contra hgt
      exact h (Nat.min_eq_right (by omega))
    rw [Nat.min_eq_left hle]
    exact le_ceilDiv_mul seconds (by decide)

theorem atLeast_le_greatest (seconds : Nat) : atLeast seconds ≤ greatest := by
  unfold atLeast
  split
  · next rung hrung =>
    have hrungs : ∀ rung ∈ ladder, rung ≤ greatest := by decide
    exact hrungs rung (List.mem_of_find?_eq_some hrung)
  · exact Nat.min_le_right _ _

theorem one_le_ofRange (millis : Int) (targetPoints : Nat) : 1 ≤ ofRange millis targetPoints := by
  unfold ofRange
  split
  · exact Nat.le_refl 1
  · have hseconds : 1 ≤ ceilDiv millis.toNat 1000 := one_le_ceilDiv (by omega) (by decide)
    exact one_le_atLeast (one_le_ceilDiv hseconds (Nat.le_max_right _ _))

theorem ofRange_le_greatest (millis : Int) (targetPoints : Nat) :
    ofRange millis targetPoints ≤ greatest := by
  unfold ofRange
  split
  · decide
  · exact atLeast_le_greatest _

/-- As many buckets as there should be points are no shorter than the window. -/
theorem le_ofRange_mul {millis : Int} {targetPoints : Nat} (hpos : 0 < millis)
    (h : ofRange millis targetPoints ≠ greatest) :
    millis ≤ (ofRange millis targetPoints : Int) * 1000 * (max targetPoints 1 : Nat) := by
  have hrange : ofRange millis targetPoints
      = atLeast (ceilDiv (ceilDiv millis.toNat 1000) (max targetPoints 1)) :=
    if_neg (by omega)
  rw [hrange] at h ⊢
  generalize hpoints : max targetPoints 1 = points at *
  have hone : 1 ≤ points := hpoints ▸ Nat.le_max_right _ _
  generalize hseconds : ceilDiv millis.toNat 1000 = seconds at *
  have hmillis : millis.toNat ≤ seconds * 1000 := hseconds ▸ le_ceilDiv_mul _ (by decide)
  have hnat : millis.toNat ≤ atLeast (ceilDiv seconds points) * 1000 * points :=
    calc millis.toNat
      _ ≤ seconds * 1000 := hmillis
      _ ≤ ceilDiv seconds points * points * 1000 :=
        Nat.mul_le_mul_right 1000 (le_ceilDiv_mul seconds hone)
      _ ≤ atLeast (ceilDiv seconds points) * points * 1000 :=
        Nat.mul_le_mul_right 1000 (Nat.mul_le_mul_right points (le_atLeast _ h))
      _ = atLeast (ceilDiv seconds points) * 1000 * points := Nat.mul_right_comm _ _ _
  calc millis
    _ = (millis.toNat : Int) := (Int.toNat_of_nonneg (by omega)).symm
    _ ≤ (atLeast (ceilDiv seconds points) * 1000 * points : Nat) := Int.ofNat_le.mpr hnat
    _ = _ := by rw [Int.natCast_mul, Int.natCast_mul]; rfl

theorem one_le_ofBounds (start stop : Option String) (targetPoints : Nat) :
    1 ≤ ofBounds start stop targetPoints := by
  unfold ofBounds
  split
  · exact one_le_ofRange _ targetPoints
  · decide

end Width

/-! ## Years -/

namespace Instant

/-- From the beginning of the year 0 to the end of the year 9999 and of a leap second there. -/
theorem millis_of_plainYear {t : Instant} (h : PlainYear t.date.year) :
    -62167219200000 ≤ t.millis ∧ t.millis < 253402300801000 := by
  have hyear : t.date.year = Date.yearOfDay (t.seconds / 86400 + Date.epoch) :=
    (Date.ofDay_walk (t.seconds / 86400)).1
  rw [hyear] at h
  obtain ⟨hfirst, hlast⟩ := h
  obtain ⟨hlow, hhigh⟩ := Date.daysBeforeYear_yearOfDay (t.seconds / 86400 + Date.epoch)
  generalize Date.yearOfDay (t.seconds / 86400 + Date.epoch) = year at *
  have hbegin : (0 : Int) ≤ Date.daysBeforeYear year := Date.daysBeforeYear_mono hfirst
  have hend : Date.daysBeforeYear (year + 1) ≤ 3652425 :=
    Date.daysBeforeYear_mono (show year + 1 ≤ 10000 by omega)
  have hfraction := t.milli_le
  have hepoch : Date.epoch = 719528 := rfl
  unfold millis
  generalize t.fraction / nanosPerMilli = rest at *
  omega

/-- Three thousand years before 1970 and thirty thousand years after it are counted. -/
theorem isSome_ofMillis?_of_near {m : Int} (hlow : -100000000000000 ≤ m)
    (hhigh : m ≤ 1000000000000000) : (ofMillis? m).isSome :=
  isSome_ofMillis_between hlow hhigh (by decide) (by decide)

end Instant

/-! ## Grids -/

namespace Timeline

/-- The buckets from one that holds `a` to one that holds `b` are one more than what is needed to
cover the time between. -/
theorem ediv_sub_ediv_le {a b width : Int} {n : Nat} (hwidth : 0 < width)
    (h : b - a ≤ width * n) : b / width - a / width ≤ n := by
  have hle : b / width ≤ (a + width * n) / width := Int.ediv_le_ediv hwidth (by omega)
  rw [Int.add_mul_ediv_left a (n : Int) (by omega)] at hle
  omega

/-- A window within the years of four digits gets its whole grid, if that is not too long. -/
theorem length_ofMillis_of_plainYear {a b : Instant} {seconds : Nat} (h : 1 ≤ seconds)
    (hwidth : seconds ≤ Width.greatest) (ha : Instant.PlainYear a.date.year)
    (hb : Instant.PlainYear b.date.year)
    (hcount : (b.millis / (seconds * 1000) - a.millis / (seconds * 1000) + 1).toNat ≤ longest) :
    (ofMillis a.millis b.millis seconds).length
      = (b.millis / (seconds * 1000) - a.millis / (seconds * 1000) + 1).toNat := by
  have hgreatest : Width.greatest = 4294967295 := rfl
  -- A bucket begins at most one width before what is in it.
  have hnear {t : Instant} (ht : Instant.PlainYear t.date.year) :
      (Instant.labelOfMillis? (t.millis / (seconds * 1000) * (seconds * 1000))).isSome := by
    obtain ⟨hlow, hhigh⟩ := Instant.millis_of_plainYear ht
    have hpos : (0 : Int) < seconds * 1000 := by omega
    have hle := Int.ediv_mul_le t.millis (b := seconds * 1000) (by omega)
    have hlt := Int.lt_ediv_add_one_mul_self t.millis hpos
    rw [Int.add_mul, Int.one_mul] at hlt
    rw [Instant.labelOfMillis?, Option.isSome_map]
    exact Instant.isSome_ofMillis?_of_near (by omega) (by omega)
  exact (slots_ofMillis (hnear ha) (hnear hb) hcount).1

/-- A window gets a grid at the width that is chosen for it, of one bucket more at most than it
should have points, unless no width is great enough. -/
theorem build_of_chosen_width {start stop : String} {a b : Instant} {targetPoints : Nat}
    (ha : Instant.ofText? start = some a) (hb : Instant.ofText? stop = some b)
    (hlt : a.millis < b.millis) (hyear : Instant.PlainYear a.date.year)
    (hyear' : Instant.PlainYear b.date.year) (htarget : targetPoints ≤ 9999) :
    let seconds := Width.ofBounds (some start) (some stop) targetPoints
    build start stop seconds ≠ [] ∧
      (seconds ≠ Width.greatest →
        (build start stop seconds).length ≤ max targetPoints 1 + 1) := by
  have hstart : Instant.millisOfText? start = some a.millis := by
    rw [Instant.millisOfText?, ha, Option.map_some]
  have hstop : Instant.millisOfText? stop = some b.millis := by
    rw [Instant.millisOfText?, hb, Option.map_some]
  have hseconds : Width.ofBounds (some start) (some stop) targetPoints
      = Width.ofRange (b.millis - a.millis) targetPoints := by
    rw [Width.ofBounds, Option.bind_some, Option.bind_some, hstart, hstop]
  rw [hseconds]
  intro seconds
  have hone : 1 ≤ seconds := Width.one_le_ofRange _ targetPoints
  have hgreatest : seconds ≤ Width.greatest := Width.ofRange_le_greatest _ targetPoints
  have hbuild : build start stop seconds = ofMillis a.millis b.millis seconds := by
    unfold build
    rw [hstart, hstop]
    exact if_neg (by omega)
  have hwidth : (0 : Int) < seconds * 1000 := by omega
  have hfloor : a.millis / (seconds * 1000) ≤ b.millis / (seconds * 1000) :=
    Int.ediv_le_ediv hwidth hlt.le
  have hlong : longest = 10000 := rfl
  rw [hbuild]
  by_cases hcap : seconds = Width.greatest
  · -- A hundred buckets of the greatest width are longer than all the years of four digits.
    obtain ⟨hlow, -⟩ := Instant.millis_of_plainYear hyear
    obtain ⟨-, hhigh⟩ := Instant.millis_of_plainYear hyear'
    have hnumber : Width.greatest = 4294967295 := rfl
    have hlonger : b.millis - a.millis ≤ (seconds * 1000 : Int) * (100 : Nat) := by omega
    have hfew := ediv_sub_ediv_le hwidth hlonger
    have hlength := length_ofMillis_of_plainYear hone hgreatest hyear hyear' (by omega)
    refine ⟨List.ne_nil_of_length_pos (by omega), ?_⟩
    intro hfree
    exact absurd hcap hfree
  · have hfew := ediv_sub_ediv_le hwidth (Width.le_ofRange_mul (by omega) hcap)
    have hlength := length_ofMillis_of_plainYear hone hgreatest hyear hyear' (by omega)
    refine ⟨List.ne_nil_of_length_pos (by omega), ?_⟩
    intro _
    omega

/-- Ten minutes around the beginning of 1970, which need the bucket more. -/
theorem build_of_chosen_width_newYear :
    let seconds := Width.ofBounds (some "1969-12-31T23:55:30Z") (some "1970-01-01T00:05:30Z") 10
    seconds = 60 ∧ (build "1969-12-31T23:55:30Z" "1970-01-01T00:05:30Z" seconds).length = 11 ∧
      build "1969-12-31T23:55:30Z" "1970-01-01T00:05:30Z" seconds ≠ [] ∧
      (build "1969-12-31T23:55:30Z" "1970-01-01T00:05:30Z" seconds).length ≤ max 10 1 + 1 := by
  have ha : Instant.ofText? "1969-12-31T23:55:30Z" = some ⟨-270, false, 0⟩ := by decide +kernel
  have hb : Instant.ofText? "1970-01-01T00:05:30Z" = some ⟨330, false, 0⟩ := by decide +kernel
  obtain ⟨hsome, hfew⟩ := build_of_chosen_width ha hb (by decide) (by decide)
    (by decide) (show 10 ≤ 9999 by decide)
  have hseconds : Width.ofBounds (some "1969-12-31T23:55:30Z") (some "1970-01-01T00:05:30Z") 10
      = 60 := by
    decide +kernel
  intro seconds
  refine ⟨hseconds, by decide +kernel, hsome, hfew ?_⟩
  rw [hseconds]
  decide

end Timeline

end QueryPanel
