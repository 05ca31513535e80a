import Mathlib
import QueryPanel.Number.Nearest

/-!
# Reading gives the nearest double

`units` is strictly increasing: between two neighbouring codes lies one step of their exponent, and
at the end of an exponent the step doubles without a gap. `floorCode` tries the bits of a code from
the highest down, so what it returns has the next magnitude above the fraction. From the two,
`nearestCode` returns the code whose rounding interval holds the fraction:

> `codeOfDecimal_eq`: a decimal in the rounding interval of a finite code other than zero is read as
> that code.

The interval, `Rounds`, is closed for an even code and open for an odd one. It is the one notion
that the writing and the reading of a double share.
-/

namespace QueryPanel.Double

/-! ## Magnitudes grow with their codes -/

theorem fractions_pos : 0 < fractions := Nat.two_pow_pos 52

/-- The magnitude of a code by its exponent `q` and fraction `r`. The formula still holds where the
fraction has just run over into the next exponent. -/
theorem units_of_parts {q r : Nat} (hq : 0 < q) (hr : r ≤ fractions) :
    units (q * fractions + r) = (fractions + r) * 2 ^ (q - 1) := by
  obtain ⟨k, rfl⟩ : ∃ k, q = k + 1 := ⟨q - 1, by omega⟩
  rcases Nat.lt_or_eq_of_le hr with hlt | rfl
  · have hdiv : ((k + 1) * fractions + r) / fractions = k + 1 := by
      rw [Nat.mul_comm, Nat.mul_add_div fractions_pos, Nat.div_eq_of_lt hlt, Nat.add_zero]
    have hmod : ((k + 1) * fractions + r) % fractions = r := by
      rw [Nat.mul_comm, Nat.mul_add_mod, Nat.mod_eq_of_lt hlt]
    unfold units
    split
    · next hsmall =>
      have : k = 0 := by unfold fractions at hsmall; omega
      subst this
      simp
    · rw [hdiv, hmod, Nat.pow_eq]
  · -- The code is already the first one of the next exponent, where the step is twice as wide.
    have hdiv : ((k + 1) * fractions + fractions) / fractions = k + 2 := by
      rw [← Nat.succ_mul, Nat.mul_div_cancel _ fractions_pos]
    have hmod : ((k + 1) * fractions + fractions) % fractions = 0 := by
      rw [← Nat.succ_mul, Nat.mul_mod_left]
    unfold units
    split
    · next hsmall => unfold fractions at hsmall; omega
    · rw [hdiv, hmod, Nat.pow_eq, Nat.add_zero, ← Nat.two_mul,
        show k + 2 - 1 = (k + 1 - 1) + 1 from by omega, Nat.pow_succ]
      rw [Nat.mul_comm 2, Nat.mul_assoc, Nat.mul_comm 2]

theorem units_lt_succ (code : Nat) : units code < units (code + 1) := by
  by_cases hsmall : code + 1 < 2 * fractions
  · unfold units
    rw [if_pos (by omega), if_pos hsmall]
    exact Nat.lt_succ_self code
  · have hr : code % fractions < fractions := Nat.mod_lt _ fractions_pos
    have hq : 0 < code / fractions := Nat.div_pos (by unfold fractions at *; omega) fractions_pos
    have hparts : code = code / fractions * fractions + code % fractions := by
      rw [Nat.mul_comm]; exact (Nat.div_add_mod code fractions).symm
    have hlow := units_of_parts hq (Nat.le_of_lt hr)
    have hhigh := units_of_parts hq (Nat.succ_le_of_lt hr)
    rw [← hparts] at hlow
    rw [Nat.succ_eq_add_one, ← Nat.add_assoc, ← hparts] at hhigh
    rw [hlow, hhigh]
    exact Nat.mul_lt_mul_of_pos_right (by omega) (Nat.two_pow_pos _)

theorem units_lt_units {a b : Nat} (h : a < b) : units a < units b := by
  induction h with
  | refl => exact units_lt_succ a
  | step _ ih => exact Nat.lt_trans ih (units_lt_succ _)

theorem units_le_units {a b : Nat} (h : a ≤ b) : units a ≤ units b := by
  rcases Nat.lt_or_eq_of_le h with hlt | rfl
  · exact Nat.le_of_lt (units_lt_units hlt)
  · exact Nat.le_refl _

theorem units_zero : units 0 = 0 := by
  rfl

theorem units_infinityCode : units infinityCode = fractions * 2 ^ (2047 - 1) := by
  have h := units_of_parts (q := 2047) (r := 0) (by decide) (Nat.zero_le _)
  rw [Nat.add_zero, Nat.add_zero] at h
  exact h

/-! ## The greatest code at or below a fraction -/

/-- What the search for a code keeps: it stays among the finite codes and at or below the fraction,
and every finite code in reach beyond the result is above the fraction. -/
theorem floorCode_spec (num den bits base : Nat) (finite : base < infinityCode)
    (below : units base * den ≤ num) :
    floorCode num den bits base < infinityCode ∧
      units (floorCode num den bits base) * den ≤ num ∧
      ∀ c, floorCode num den bits base < c → c < base + 2 ^ bits → c < infinityCode →
        num < units c * den := by
  induction bits generalizing base with
  | zero =>
    refine ⟨finite, below, ?_⟩
    intro c hlow hhigh _
    simp only [floorCode, Nat.pow_zero] at hlow hhigh
    omega
  | succ bits ih =>
    unfold floorCode
    simp only [Nat.pow_eq]
    split
    · next h =>
      obtain ⟨hfin, hle, hnext⟩ := ih (base + 2 ^ bits) h.1 h.2
      refine ⟨hfin, hle, ?_⟩
      intro c hlow hhigh
      rw [Nat.pow_succ] at hhigh
      exact hnext c hlow (by omega)
    · next h =>
      obtain ⟨hfin, hle, hnext⟩ := ih base finite below
      refine ⟨hfin, hle, ?_⟩
      intro c hlow hhigh hinf
      by_cases hreach : c < base + 2 ^ bits
      · exact hnext c hlow hreach hinf
      · -- The bit was refused, so already the code that has it alone is above the fraction.
        have hge : base + 2 ^ bits ≤ c := Nat.le_of_not_lt hreach
        have hover : num < units (base + 2 ^ bits) * den :=
          Nat.lt_of_not_le fun hle => h ⟨Nat.lt_of_le_of_lt hge hinf, hle⟩
        exact Nat.lt_of_lt_of_le hover (Nat.mul_le_mul_right den (units_le_units hge))

/-- The code that `nearestCode` starts from, the greatest one at or below the fraction. -/
theorem floorCode_eq {num den code : Nat} (finite : code < infinityCode)
    (below : units code * den ≤ num) (above : num < units (code + 1) * den) :
    floorCode num den 63 0 = code := by
  obtain ⟨_, hle, hnext⟩ := floorCode_spec num den 63 0 (by decide) (by rw [units_zero]; omega)
  rcases Nat.lt_trichotomy (floorCode num den 63 0) code with hlt | heq | hgt
  · have hreach : infinityCode < 0 + 2 ^ 63 := by decide
    have := hnext code hlt (by omega) finite
    omega
  · exact heq
  · have := Nat.mul_le_mul_right den (units_le_units (Nat.succ_le_of_lt hgt))
    rw [Nat.succ_eq_add_one] at this
    omega

/-! ## The rounding interval of a code -/

/-- The fraction `num / den` of units lies between half-way to the neighbour below and half-way to
the neighbour above, and on neither end if the code is odd. -/
structure Rounds (code num den : Nat) : Prop where
  lower : (units (code - 1) + units code) * den ≤ 2 * num
  upper : 2 * num ≤ (units code + units (code + 1)) * den
  lower_odd : code % 2 = 1 → (units (code - 1) + units code) * den < 2 * num
  upper_odd : code % 2 = 1 → 2 * num < (units code + units (code + 1)) * den

/-- The interval is one of fractions: an equal fraction lies in it too. -/
theorem Rounds.congr {code num den num' den' : Nat} (h : Rounds code num den) (hden : 0 < den)
    (hden' : 0 < den') (heq : num * den' = num' * den) : Rounds code num' den' := by
  have bound : ∀ a : Nat, a * den' * den = a * den * den' := fun a => Nat.mul_right_comm a den' den
  have twice : 2 * num' * den = 2 * num * den' := by
    rw [Nat.mul_assoc, Nat.mul_assoc, heq]
  constructor
  · refine Nat.le_of_mul_le_mul_right ?_ hden
    rw [bound, twice]
    exact Nat.mul_le_mul_right _ h.lower
  · refine Nat.le_of_mul_le_mul_right ?_ hden
    rw [bound, twice]
    exact Nat.mul_le_mul_right _ h.upper
  · intro hodd
    refine Nat.lt_of_mul_lt_mul_right (a := den) ?_
    rw [bound, twice]
    exact Nat.mul_lt_mul_of_pos_right (h.lower_odd hodd) hden'
  · intro hodd
    refine Nat.lt_of_mul_lt_mul_right (a := den) ?_
    rw [bound, twice]
    exact Nat.mul_lt_mul_of_pos_right (h.upper_odd hodd) hden'

/-- A magnitude lies in the interval of its own code. -/
theorem rounds_units (code den : Nat) (hden : 0 < den) (hpos : 0 < code) :
    Rounds code (units code * den) den := by
  have hprev : code - 1 < code := Nat.sub_one_lt (Nat.ne_of_gt hpos)
  have hlow := Nat.mul_lt_mul_of_pos_right (units_lt_units hprev) hden
  have hhigh := Nat.mul_lt_mul_of_pos_right (units_lt_succ code) hden
  constructor <;> simp only [Nat.add_mul] <;> omega

/-- Of the codes whose interval holds the fraction, `nearestCode` finds the one there is. -/
theorem nearestCode_eq {code num den : Nat} (hden : 0 < den) (hpos : 0 < code)
    (finite : code < infinityCode) (h : Rounds code num den) : nearestCode num den = code := by
  obtain ⟨hlower, hupper, hlowerOdd, hupperOdd⟩ := h
  simp only [Nat.add_mul] at hlower hupper hlowerOdd hupperOdd
  have hprev := Nat.mul_lt_mul_of_pos_right (units_lt_units (by omega : code - 1 < code)) hden
  have hnext := Nat.mul_lt_mul_of_pos_right (units_lt_succ code) hden
  unfold nearestCode
  -- The search ends on the code or on the one before it, by the side the fraction is on.
  by_cases hbelow : units code * den ≤ num
  · rw [floorCode_eq finite hbelow (by omega)]
    simp only [Nat.add_mul]
    split
    · rfl
    · next hmiddle =>
      rw [if_neg (by omega), if_pos]
      rcases Nat.mod_two_eq_zero_or_one code with heven | hodd
      · exact heven
      · exact absurd (hupperOdd hodd) hmiddle
  · have hstep : code - 1 + 1 = code := by omega
    have hfloor : floorCode num den 63 0 = code - 1 :=
      floorCode_eq (by omega) (by omega) (by rw [hstep]; omega)
    rw [hfloor]
    simp only [Nat.add_mul, hstep]
    rw [if_neg (by omega)]
    split
    · rfl
    · next hmiddle =>
      rcases Nat.mod_two_eq_zero_or_one code with heven | hodd
      · rw [if_neg (by omega)]
      · exact absurd (hlowerOdd hodd) hmiddle

/-! ## Decimals of any length -/

theorem denominator_pos (d : Decimal) : 0 < d.denominator :=
  Nat.pow_pos (by decide)

theorem length_digits_pos (d : Decimal) : 0 < d.digits.length :=
  Nat.length_toDigits_pos

theorem coefficient_lt (d : Decimal) : d.coefficient < 10 ^ d.digits.length :=
  (Nat.length_toDigits_le_iff (by decide) (length_digits_pos d)).mp (Nat.le_refl _)

theorem le_coefficient {d : Decimal} (hne : d.coefficient ≠ 0) :
    10 ^ (d.digits.length - 1) ≤ d.coefficient := by
  have hpos := length_digits_pos d
  apply Nat.le_of_not_lt
  intro hlt
  by_cases hone : d.digits.length = 1
  · rw [hone] at hlt
    omega
  · have := (Nat.length_toDigits_le_iff (n := d.coefficient) (k := d.digits.length - 1)
      (by decide : 1 < 10) (by omega)).mpr hlt
    unfold Decimal.digits at *
    omega

/-- A decimal with a digit at `10 ^ k` or above is at least that power. -/
theorem pow_mul_denominator_le {d : Decimal} (hne : d.coefficient ≠ 0) {k : Nat}
    (hk : k < (d.digits.length : Int) + d.exponent) : 10 ^ k * d.denominator ≤ d.numerator := by
  have hpos := length_digits_pos d
  calc 10 ^ k * d.denominator
      = 10 ^ (k + (-d.exponent).toNat) := (Nat.pow_add 10 k _).symm
    _ ≤ 10 ^ (d.digits.length - 1 + d.exponent.toNat) :=
        Nat.pow_le_pow_right (by decide) (by omega)
    _ = 10 ^ (d.digits.length - 1) * 10 ^ d.exponent.toNat := Nat.pow_add 10 _ _
    _ ≤ d.numerator := Nat.mul_le_mul_right _ (le_coefficient hne)

/-- A decimal all of whose digits are behind the `k`-th place after the point is below `10 ^ -k`. -/
theorem numerator_mul_pow_lt {d : Decimal} {k : Nat}
    (hk : (d.digits.length : Int) + d.exponent + k ≤ 0) :
    d.numerator * 10 ^ k < d.denominator := by
  calc d.numerator * 10 ^ k
      < 10 ^ d.digits.length * 10 ^ d.exponent.toNat * 10 ^ k :=
        Nat.mul_lt_mul_of_pos_right
          (Nat.mul_lt_mul_of_pos_right (coefficient_lt d) (Nat.pow_pos (by decide)))
          (Nat.pow_pos (by decide))
    _ = 10 ^ (d.digits.length + d.exponent.toNat + k) := by rw [Nat.pow_add, Nat.pow_add]
    _ ≤ d.denominator := Nat.pow_le_pow_right (by decide) (by omega)

/-- A decimal in an interval of finite numbers has no digit at 10³¹⁰ or above. -/
theorem length_add_exponent_le {d : Decimal} {code : Nat} (hne : d.coefficient ≠ 0)
    (finite : code < infinityCode) (h : Rounds code (d.numerator * unitsPerOne) d.denominator) :
    (d.digits.length : Int) + d.exponent ≤ 310 := by
  apply Int.not_lt.mp
  intro hlong
  have hlarge := Nat.mul_le_mul_right unitsPerOne (pow_mul_denominator_le hne (k := 310) hlong)
  have hbound : units code + units (code + 1) ≤ 2 * units infinityCode := by
    have hcode := units_le_units (Nat.le_of_lt finite)
    have hnext := units_le_units (show code + 1 ≤ infinityCode from finite)
    omega
  have hsmall : 2 * (d.numerator * unitsPerOne) ≤ 2 * (units infinityCode * d.denominator) := by
    rw [← Nat.mul_assoc 2 (units infinityCode)]
    exact Nat.le_trans h.upper (Nat.mul_le_mul_right _ hbound)
  have hscaled : 10 ^ 310 * unitsPerOne * d.denominator ≤ units infinityCode * d.denominator := by
    rw [Nat.mul_right_comm]
    exact Nat.le_trans hlarge (Nat.le_of_mul_le_mul_left hsmall (by decide))
  -- Without the denominator it is a comparison of two numbers.
  have hpower := Nat.le_of_mul_le_mul_right hscaled (denominator_pos d)
  rw [units_infinityCode] at hpower
  exact absurd hpower (by decide +kernel)

/-- A decimal in the interval of a number other than zero has a digit at 10⁻³³¹ or above: it is at
least half a unit. -/
theorem le_length_add_exponent {d : Decimal} {code : Nat} (hpos : 0 < code)
    (h : Rounds code (d.numerator * unitsPerOne) d.denominator) :
    -330 ≤ (d.digits.length : Int) + d.exponent := by
  apply Int.not_lt.mp
  intro hshort
  have hsmall : d.numerator * 10 ^ 331 < d.denominator := numerator_mul_pow_lt (by omega)
  have hone : 1 ≤ units (code - 1) + units code := by
    have := units_lt_units hpos
    omega
  have hunit : d.denominator ≤ 2 * unitsPerOne * d.numerator := by
    calc d.denominator = 1 * d.denominator := (Nat.one_mul _).symm
      _ ≤ (units (code - 1) + units code) * d.denominator := Nat.mul_le_mul_right _ hone
      _ ≤ 2 * (d.numerator * unitsPerOne) := h.lower
      _ = 2 * unitsPerOne * d.numerator := by rw [Nat.mul_assoc, Nat.mul_comm d.numerator]
  have hlt : d.numerator * 10 ^ 331 < d.numerator * (2 * unitsPerOne) := by
    rw [Nat.mul_comm d.numerator (2 * unitsPerOne)]
    exact Nat.lt_of_lt_of_le hsmall hunit
  exact absurd (Nat.lt_of_mul_lt_mul_left hlt) (by decide +kernel)

/-- A decimal in the interval of a number other than zero is not zero. -/
theorem Rounds.coefficient_ne_zero {d : Decimal} {code : Nat} (hpos : 0 < code)
    (h : Rounds code (d.numerator * unitsPerOne) d.denominator) : d.coefficient ≠ 0 := by
  intro hzero
  have hlower := h.lower
  have hunits := units_lt_units hpos
  rw [show d.numerator = 0 from by rw [Decimal.numerator, hzero, Nat.zero_mul]] at hlower
  have := Nat.mul_pos (show 0 < units (code - 1) + units code by omega) (denominator_pos d)
  omega

/-- A decimal in the rounding interval of a finite code other than zero is read as that code. -/
theorem codeOfDecimal_eq {d : Decimal} {code : Nat} (hpos : 0 < code) (finite : code < infinityCode)
    (h : Rounds code (d.numerator * unitsPerOne) d.denominator) : codeOfDecimal d = code := by
  have hne := h.coefficient_ne_zero hpos
  unfold codeOfDecimal
  rw [if_neg hne]
  have := length_add_exponent_le hne finite h
  have := le_length_add_exponent hpos h
  rw [if_neg (by omega), if_neg (by omega)]
  exact nearestCode_eq (denominator_pos d) hpos finite h

end QueryPanel.Double
