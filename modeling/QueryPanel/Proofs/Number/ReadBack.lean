import QueryPanel.Number.Notation
import QueryPanel.Proofs.Number.Nearest

/-!
# A written double is read back

`plain` writes the shortest decimal in the rounding interval of a double, and a decimal in that
interval is read as that double. In between stand the notation, which is positional and may move the
zeros of a decimal from its exponent into its digits, and the zeros that `reduce` moved the other
way; neither changes the value:

> `ofText?_plain`: the text of a finite double reads as that double, sign of zero included.
-/

namespace QueryPanel.Double

/-! ## The shortest decimal lies in the interval -/

theorem rounds_of_readsAs {code : Nat} {d : Decimal} (h : readsAs code d = true) :
    Rounds code (d.numerator * unitsPerOne) d.denominator := by
  unfold readsAs at h
  simp only [Nat.mul_assoc 2] at h
  split at h
  · next heven =>
    rw [Bool.and_eq_true, decide_eq_true_eq, decide_eq_true_eq] at h
    exact ⟨h.1, h.2, fun hodd => by omega, fun hodd => by omega⟩
  · rw [Bool.and_eq_true, decide_eq_true_eq, decide_eq_true_eq] at h
    exact ⟨Nat.le_of_lt h.1, Nat.le_of_lt h.2, fun _ => h.1, fun _ => h.2⟩

/-- Only decimals that read back are ever chosen for a number of digits. -/
theorem readsAs_of_ofLength? {tie : Tie} {code digits : Nat} {d : Decimal}
    (h : ofLength? tie code digits = some d) : readsAs code d = true := by
  unfold ofLength? at h
  dsimp only at h
  split at h
  · cases h
  · next hbelow _ => rw [← Option.some.inj h]; exact hbelow
  · next _ habove => rw [← Option.some.inj h]; exact habove
  · next hbelow habove =>
    split at h
    · rw [← Option.some.inj h]; exact hbelow
    · split at h
      · rw [← Option.some.inj h]; exact habove
      · cases tie with
        | up => rw [← Option.some.inj h]; exact habove
        | toEven =>
          dsimp only at h
          split at h
          · rw [← Option.some.inj h]; exact hbelow
          · rw [← Option.some.inj h]; exact habove

theorem numerator_of_neg (c k : Nat) : (Decimal.mk c (-(k : Int))).numerator = c := by
  have hzero : (-(k : Int)).toNat = 0 := by omega
  simp only [Decimal.numerator, hzero, Nat.pow_eq, Nat.pow_zero, Nat.mul_one]

theorem denominator_of_neg (c k : Nat) : (Decimal.mk c (-(k : Int))).denominator = 10 ^ k := by
  have hk : (- -(k : Int)).toNat = k := by omega
  simp only [Decimal.denominator, hk, Nat.pow_eq]

/-- A multiple of `2 ^ -k` written out in decimals is that multiple. -/
theorem rounds_expansion {code k : Nat} (hpos : 0 < code) :
    Rounds code ((Decimal.mk (units code * 5 ^ k) (-(k : Int))).numerator * 2 ^ k)
      (Decimal.mk (units code * 5 ^ k) (-(k : Int))).denominator := by
  refine (rounds_units code 1 (by decide) hpos).congr (by decide) (denominator_pos _) ?_
  rw [numerator_of_neg, denominator_of_neg, show (10 : Nat) = 5 * 2 from rfl, Nat.mul_pow,
    Nat.mul_one, Nat.mul_one, Nat.mul_assoc]

/-- The full decimal expansion of a magnitude is that magnitude. -/
theorem rounds_exactDecimal {code : Nat} (hpos : 0 < code) :
    Rounds code ((exactDecimal code).numerator * unitsPerOne) (exactDecimal code).denominator := by
  -- The exponent has a name, so that its powers are not evaluated.
  obtain ⟨k, hk⟩ : ∃ k, 1074 = k := ⟨1074, rfl⟩
  have hexponent : (-1074 : Int) = -(k : Int) := by rw [← hk]; rfl
  have hdecimal : exactDecimal code = ⟨units code * Nat.pow 5 k, -(k : Int)⟩ := by
    rw [exactDecimal, hexponent, hk]
  have hunits : unitsPerOne = Nat.pow 2 k := by
    delta unitsPerOne
    rw [hk]
  rw [hdecimal, hunits, Nat.pow_eq, Nat.pow_eq]
  exact rounds_expansion hpos

/-- Moving a zero from the coefficient to the exponent does not change the value. -/
theorem reduce_step {d : Decimal} (h : d.coefficient % 10 = 0) :
    d.numerator * (Decimal.mk (d.coefficient / 10) (d.exponent + 1)).denominator
      = (Decimal.mk (d.coefficient / 10) (d.exponent + 1)).numerator * d.denominator := by
  obtain ⟨c, e⟩ := d
  obtain ⟨k, rfl⟩ : ∃ k, c = k * 10 := ⟨c / 10, by dsimp only at h; omega⟩
  simp only [Decimal.numerator, Decimal.denominator, Nat.pow_eq,
    Nat.mul_div_cancel k (by decide : 0 < 10)]
  rcases Int.lt_or_le e 0 with hneg | hpos
  · have hcoef : e.toNat = 0 ∧ (e + 1).toNat = 0 := by omega
    have hexp : (-e).toNat = (-(e + 1)).toNat + 1 := by omega
    rw [hcoef.1, hcoef.2, hexp, Nat.pow_succ]
    rw [Nat.pow_zero, Nat.mul_one, Nat.mul_one, Nat.mul_assoc, Nat.mul_comm 10]
  · have hcoef : (-e).toNat = 0 ∧ (-(e + 1)).toNat = 0 := by omega
    have hexp : (e + 1).toNat = e.toNat + 1 := by omega
    rw [hcoef.1, hcoef.2, hexp, Nat.pow_succ]
    rw [Nat.mul_assoc k 10, Nat.mul_comm 10]

theorem Rounds.reduce {code : Nat} {d : Decimal}
    (h : Rounds code (d.numerator * unitsPerOne) d.denominator) :
    Rounds code (d.reduce.numerator * unitsPerOne) d.reduce.denominator := by
  induction d using Decimal.reduce.induct with
  | case1 d hzero =>
    have hvalue : d.numerator = 0 := by rw [Decimal.numerator, hzero, Nat.zero_mul]
    rw [Decimal.reduce, if_pos hzero]
    refine h.congr (denominator_pos d) (denominator_pos _) ?_
    rw [hvalue, show (Decimal.mk 0 0).numerator = 0 from rfl]
    simp only [Nat.zero_mul]
  | case2 d hne hten ih =>
    rw [Decimal.reduce, if_neg hne, if_pos hten]
    refine ih (h.congr (denominator_pos d) (denominator_pos _) ?_)
    rw [Nat.mul_right_comm, reduce_step hten, Nat.mul_right_comm]
  | case3 d hne hten =>
    rw [Decimal.reduce, if_neg hne, if_neg hten]
    exact h

theorem rounds_shortest {code : Nat} (tie : Tie) (hpos : 0 < code) :
    Rounds code ((shortest tie code).numerator * unitsPerOne) (shortest tie code).denominator := by
  unfold shortest
  rw [if_neg (Nat.ne_of_gt hpos)]
  refine Rounds.reduce ?_
  cases hfound : (List.range 17).findSome? fun n => ofLength? tie code (n + 1) with
  | none => exact rounds_exactDecimal hpos
  | some d =>
    obtain ⟨n, _, hn⟩ := List.exists_of_findSome?_eq_some hfound
    exact rounds_of_readsAs (readsAs_of_ofLength? hn)

/-! ## Positional notation -/

theorem isDigit_of_mem_digits {d : Decimal} {c : Char} (h : c ∈ d.digits) : c.isDigit = true :=
  Nat.isDigit_of_mem_toDigits (by decide) (by decide) h

theorem isDigit_of_mem_zeros {n : Nat} {c : Char} (h : c ∈ zeros n) : c.isDigit = true := by
  rw [List.eq_of_mem_replicate h]
  rfl

theorem spanDigits_append {digits rest : List Char} (h : ∀ c ∈ digits, c.isDigit = true) :
    spanDigits (digits ++ rest) = (digits ++ (spanDigits rest).1, (spanDigits rest).2) := by
  unfold spanDigits
  rw [List.takeWhile_append_of_pos h, List.dropWhile_append_of_pos h]

theorem spanDigits_all {digits : List Char} (h : ∀ c ∈ digits, c.isDigit = true) :
    spanDigits digits = (digits, []) := by
  have happend : spanDigits (digits ++ []) = _ := spanDigits_append h
  rwa [List.append_nil, show spanDigits [] = ([], []) from rfl, List.append_nil] at happend

/-- Digits alone are a whole number. -/
theorem decimalOfText?_digits {digits : List Char} (hne : digits ≠ [])
    (h : ∀ c ∈ digits, c.isDigit = true) :
    decimalOfText? digits = some ⟨Nat.ofDigitChars 10 digits 0, 0⟩ := by
  unfold decimalOfText?
  simp [spanDigits_all h, exponentOfText?, hne]

/-- Digits around a point are a fraction. -/
theorem decimalOfText?_point {whole fraction : List Char} (hne : whole ≠ [])
    (hw : ∀ c ∈ whole, c.isDigit = true) (hf : ∀ c ∈ fraction, c.isDigit = true) :
    decimalOfText? (whole ++ '.' :: fraction)
      = some ⟨Nat.ofDigitChars 10 (whole ++ fraction) 0, -(fraction.length : Int)⟩ := by
  have point : spanDigits ('.' :: fraction) = ([], '.' :: fraction) := rfl
  unfold decimalOfText?
  rw [spanDigits_append hw, point]
  simp [spanDigits_all hf, exponentOfText?, hne]

theorem ofDigitChars_digits (d : Decimal) : Nat.ofDigitChars 10 d.digits 0 = d.coefficient :=
  Nat.ofDigitChars_ten_toDigits

theorem ofDigitChars_zeros_append (n : Nat) (d : Decimal) :
    Nat.ofDigitChars 10 (zeros n ++ d.digits) 0 = d.coefficient := by
  rw [Nat.ofDigitChars_append, zeros, Nat.ofDigitChars_replicate_zero, Nat.mul_zero]
  exact ofDigitChars_digits d

/-- The digits of a decimal in front of a point and behind it. In front stand digits of the decimal,
or a zero where there are none. -/
structure AroundPoint (d : Decimal) (whole fraction : List Char) : Prop where
  whole_ne_nil : whole ≠ []
  fraction_ne_nil : fraction ≠ []
  isDigit_whole : ∀ c ∈ whole, c.isDigit = true
  isDigit_fraction : ∀ c ∈ fraction, c.isDigit = true
  head_whole : whole = ['0'] ∨ whole.head? = d.digits.head?
  decimal_eq : Decimal.mk (Nat.ofDigitChars 10 (whole ++ fraction) 0) (-(fraction.length : Int)) = d

/-- A decimal with a negative exponent is written with a point. -/
theorem positional_point {d : Decimal} (hexp : d.exponent < 0) :
    ∃ whole fraction, positional d = whole ++ '.' :: fraction ∧ AroundPoint d whole fraction := by
  have hlen := length_digits_pos d
  unfold positional
  dsimp only
  rw [if_neg (by omega)]
  split
  · next hpoint =>
    -- The point is among the digits, with some of them on either side.
    refine ⟨_, _, rfl, ?_, ?_, fun c hc => isDigit_of_mem_digits (List.mem_of_mem_take hc),
      fun c hc => isDigit_of_mem_digits (List.mem_of_mem_drop hc), .inr ?_, ?_⟩
    · rw [← List.length_pos_iff, List.length_take]
      omega
    · rw [← List.length_pos_iff, List.length_drop]
      omega
    · rw [List.head?_take, if_neg (by omega)]
    · rw [List.take_append_drop, ofDigitChars_digits, List.length_drop]
      congr 1
      omega
  · next hpoint =>
    refine ⟨['0'], zeros (-(↑d.digits.length + d.exponent)).toNat ++ d.digits, rfl,
      List.cons_ne_nil _ _, ?_, List.all_eq_true.mp rfl, ?_, .inl rfl, ?_⟩
    · exact List.append_ne_nil_of_right_ne_nil _ (List.ne_nil_of_length_pos hlen)
    · intro c hc
      rcases List.mem_append.mp hc with hz | hd
      · exact isDigit_of_mem_zeros hz
      · exact isDigit_of_mem_digits hd
    · rw [List.singleton_append, Nat.ofDigitChars_cons,
        show 10 * 0 + ('0'.toNat - '0'.toNat) = 0 from rfl, ofDigitChars_zeros_append,
        List.length_append, zeros, List.length_replicate]
      congr 1
      omega

/-- A decimal with an exponent that is not negative is written with as many zeros behind it. -/
theorem ofDigitChars_digits_zeros {d : Decimal} (hexp : 0 ≤ d.exponent) :
    Nat.ofDigitChars 10 (d.digits ++ zeros d.exponent.toNat) 0 = d.numerator ∧
      d.denominator = 1 := by
  constructor
  · rw [Nat.ofDigitChars_append, ofDigitChars_digits, zeros, Nat.ofDigitChars_replicate_zero,
      Nat.mul_comm]
    rfl
  · rw [Decimal.denominator, show (-d.exponent).toNat = 0 by omega, Nat.pow_eq, Nat.pow_zero]

/-- A decimal written positionally is read as a decimal of the same value: the same one, unless its
exponent was positive and became zeros. -/
theorem decimalOfText?_positional (d : Decimal) :
    ∃ d', decimalOfText? (positional d) = some d' ∧
      d.numerator * d'.denominator = d'.numerator * d.denominator := by
  rcases Int.lt_or_le d.exponent 0 with hneg | hexp
  · obtain ⟨whole, fraction, htext, h⟩ := positional_point hneg
    refine ⟨d, ?_, rfl⟩
    rw [htext, decimalOfText?_point h.whole_ne_nil h.isDigit_whole h.isDigit_fraction, h.decimal_eq]
  · -- A positive exponent is written as zeros, so the decimal that is read is another one.
    obtain ⟨hdigits, hone⟩ := ofDigitChars_digits_zeros hexp
    have hne : d.digits ≠ [] := List.ne_nil_of_length_pos (length_digits_pos d)
    refine ⟨⟨d.numerator, 0⟩, ?_, ?_⟩
    · rw [positional, if_pos hexp, ← hdigits]
      refine decimalOfText?_digits (by simp [hne]) fun c hc => ?_
      rcases List.mem_append.mp hc with hd | hz
      · exact isDigit_of_mem_digits hd
      · exact isDigit_of_mem_zeros hz
    · show d.numerator * Nat.pow 10 0 = d.numerator * Nat.pow 10 0 * d.denominator
      rw [hone]
      exact (Nat.mul_one _).symm

/-- What a positional text is made of: a digit, then digits and points. -/
theorem positional_eq_cons (d : Decimal) :
    ∃ c cs, positional d = c :: cs ∧ c.isDigit = true ∧ ∀ x ∈ cs, x.isDigit = true ∨ x = '.' := by
  have hlen := length_digits_pos d
  obtain ⟨c, cs, hcs⟩ := List.exists_cons_of_length_pos hlen
  have hdigit : ∀ x ∈ c :: cs, x.isDigit = true := by
    rw [← hcs]
    intro x hx
    exact isDigit_of_mem_digits hx
  have htail : ∀ x ∈ cs, x.isDigit = true := fun x hx => hdigit x (List.mem_cons_of_mem _ hx)
  unfold positional
  dsimp only
  split
  · refine ⟨c, cs ++ zeros d.exponent.toNat, by rw [hcs]; rfl, hdigit c List.mem_cons_self, ?_⟩
    intro x hx
    rcases List.mem_append.mp hx with hd | hz
    · exact .inl (htail x hd)
    · exact .inl (isDigit_of_mem_zeros hz)
  · split
    · next hpoint =>
      obtain ⟨n, hn⟩ : ∃ n, (d.digits.length + d.exponent).toNat = n + 1 :=
        ⟨(d.digits.length + d.exponent).toNat - 1, by omega⟩
      refine ⟨c, cs.take n ++ '.' :: cs.drop n, by rw [hn, hcs]; rfl,
        hdigit c List.mem_cons_self, ?_⟩
      intro x hx
      rcases List.mem_append.mp hx with ht | hd
      · exact .inl (htail x (List.mem_of_mem_take ht))
      · rcases List.mem_cons.mp hd with hp | hd
        · exact .inr hp
        · exact .inl (htail x (List.mem_of_mem_drop hd))
    · refine ⟨'0', '.' :: (zeros (-(↑d.digits.length + d.exponent)).toNat ++ d.digits), rfl, rfl,
        ?_⟩
      intro x hx
      rcases List.mem_cons.mp hx with hp | hx
      · exact .inr hp
      · rcases List.mem_append.mp hx with hz | hd
        · exact .inl (isDigit_of_mem_zeros hz)
        · exact .inl (isDigit_of_mem_digits hd)

/-! ## Doubles -/

theorem toLower_of_isDigit {c : Char} (h : c.isDigit = true) : c.toLower = c := by
  unfold Char.toLower
  split
  next upper =>
    simp [Char.isDigit, UInt32.le_iff_toNat_le] at h
    obtain ⟨low, high⟩ := upper
    have low : 65 ≤ c.toNat := UInt32.le_iff_toNat_le.mp low
    omega
  next => rfl

/-- A text that begins with a digit is none of the words for infinities and NaNs. -/
theorem eqIgnoreCase_of_isDigit {c k : Char} {cs ks : List Char} (hc : c.isDigit = true)
    (hk : k.toLower.isDigit = false) : Text.eqIgnoreCase (c :: cs) (k :: ks) = false := by
  rw [Text.eqIgnoreCase, beq_eq_false_iff_ne]
  intro heq
  have hhead : c.toLower = k.toLower := (List.cons.inj heq).1
  rw [toLower_of_isDigit hc] at hhead
  rw [← hhead, hc] at hk
  cases hk

/-- A decimal of the same value as the shortest one of a code is read as that code. -/
theorem codeOfDecimal_of_value {code : Nat} (tie : Tie) (finite : code < infinityCode) {d : Decimal}
    (hvalue : (shortest tie code).numerator * d.denominator
      = d.numerator * (shortest tie code).denominator) : codeOfDecimal d = code := by
  rcases Nat.eq_zero_or_pos code with rfl | hpos
  · -- Zero is the one number that no other magnitude is near to.
    have hzero : (shortest tie 0).numerator = 0 ∧ (shortest tie 0).denominator = 1 := ⟨rfl, rfl⟩
    rw [hzero.1, hzero.2, Nat.zero_mul, Nat.mul_one] at hvalue
    have hcoefficient : d.coefficient = 0 :=
      (Nat.mul_eq_zero.mp hvalue.symm).resolve_right (Nat.ne_of_gt (Nat.pow_pos (by decide)))
    rw [codeOfDecimal, if_pos hcoefficient]
  · refine codeOfDecimal_eq hpos finite ?_
    refine (rounds_shortest tie hpos).congr (denominator_pos _) (denominator_pos _) ?_
    rw [Nat.mul_right_comm, hvalue, Nat.mul_right_comm]

/-- The magnitude of a finite double is read back. -/
theorem magnitudeOfText?_positional (negative : Bool) {code : Nat} (tie : Tie)
    (finite : code < infinityCode) :
    magnitudeOfText? negative (positional (shortest tie code)) = some (ofCode negative code) := by
  obtain ⟨c, cs, hcs, hdigit, _⟩ := positional_eq_cons (shortest tie code)
  obtain ⟨d, hread, hvalue⟩ := decimalOfText?_positional (shortest tie code)
  have hcode := codeOfDecimal_of_value tie finite hvalue
  have hinf : Text.eqIgnoreCase (c :: cs) "inf".toList = false :=
    eqIgnoreCase_of_isDigit hdigit rfl
  have hinfinity : Text.eqIgnoreCase (c :: cs) "infinity".toList = false :=
    eqIgnoreCase_of_isDigit hdigit rfl
  have hnan : Text.eqIgnoreCase (c :: cs) "nan".toList = false :=
    eqIgnoreCase_of_isDigit hdigit rfl
  rw [hcs] at hread ⊢
  unfold magnitudeOfText?
  rw [hinf, hinfinity, hnan, hread]
  simp [ofDecimal, hcode]

theorem ofCode_code (d : Double) : ofCode d.negative d.code = d := by
  rw [ofCode, dif_pos d.code_lt]

theorem isNaN_of_isFinite {d : Double} (h : d.isFinite = true) : d.isNaN = false := by
  simp only [isFinite, isNaN, decide_eq_true_eq, decide_eq_false_iff_not] at *
  omega

theorem plain_of_isFinite {d : Double} (h : d.isFinite = true) :
    d.plain = sign d.negative ++ positional (shortest .up d.code) := by
  rw [plain, isNaN_of_isFinite h, h]
  rfl

/-- The text of a finite double reads as that double. -/
theorem ofText?_plain {d : Double} (h : d.isFinite = true) : ofText? d.plain = some d := by
  have hread := magnitudeOfText?_positional d.negative .up (of_decide_eq_true h)
  rw [ofCode_code] at hread
  rw [plain_of_isFinite h]
  cases hsign : d.negative with
  | true => rw [hsign] at hread; exact hread
  | false =>
    obtain ⟨c, cs, hcs, hdigit, _⟩ := positional_eq_cons (shortest .up d.code)
    rw [hsign, hcs] at hread
    rw [show sign false = [] from rfl, List.nil_append, hcs]
    unfold ofText?
    -- A digit is no sign, so the text is read as a magnitude.
    split
    · next heq => rw [(List.cons.inj heq).1] at hdigit; cases hdigit
    · next heq => rw [(List.cons.inj heq).1] at hdigit; cases hdigit
    · exact hread

/-- What the text of a finite double is made of. -/
theorem plain_chars {d : Double} (h : d.isFinite = true) :
    d.plain ≠ [] ∧ ∀ c ∈ d.plain, c.isDigit = true ∨ c = '.' ∨ c = '-' := by
  obtain ⟨c, cs, hcs, hdigit, hrest⟩ := positional_eq_cons (shortest .up d.code)
  rw [plain_of_isFinite h, hcs]
  refine ⟨by simp, ?_⟩
  intro x hx
  rcases List.mem_append.mp hx with hs | hp
  · cases hsign : d.negative with
    | true => rw [hsign] at hs; exact .inr (.inr (List.mem_singleton.mp hs))
    | false => rw [hsign] at hs; cases hs
  · rcases List.mem_cons.mp hp with rfl | hp
    · exact .inl hdigit
    · rcases hrest x hp with hd | hd
      · exact .inl hd
      · exact .inr (.inl hd)

end QueryPanel.Double
