import QueryPanel.Json.Token
import QueryPanel.Json.Writer
import QueryPanel.Proofs.Number.Natural
import QueryPanel.Proofs.Number.ReadBack

/-!
# Numbers in JSON

A number in a document is a sign, digits, perhaps a fraction and perhaps an exponent (`Numeral`).
The reader takes these parts one after the other, and stops at what continues none of them.

> `number?_text`: a numeral is read as its value, up to whatever ends it.

Both kinds of numbers are written as numerals: a whole number without a fraction and an exponent, so
it is read as the whole number it is, and a double always with one of the two, so it is never taken
for a whole number.

> `exists_numeral_scientific`: the text of a finite double is a numeral whose value is that double.
-/

namespace QueryPanel.Json

/-! ## Numerals -/

/-- The text of the digits behind a point, and no point where there are none. -/
def fractionText (digits : List Char) : List Char :=
  if digits.isEmpty then [] else '.' :: digits

/-- The text of an exponent that may be missing. -/
def exponentText (exponent : Option Int) : List Char :=
  exponent.elim [] Double.exponentText

/-- A number by the parts that it is written in. -/
structure Numeral where
  negative : Bool
  whole : List Char
  fraction : List Char
  exponent : Option Int
  whole_ne_nil : whole ≠ []
  isDigit_whole : ∀ c ∈ whole, c.isDigit = true
  head_whole : 1 < whole.length → whole.head? ≠ some '0'
  isDigit_fraction : ∀ c ∈ fraction, c.isDigit = true

/-- A text that does not continue a number in front of it. -/
def EndsNumber (rest : List Char) : Prop :=
  ∀ c ∈ rest.head?, c.isDigit = false ∧ c ≠ '.' ∧ c ≠ 'e' ∧ c ≠ 'E'

namespace Numeral

/-- The text of a numeral. -/
def text (n : Numeral) : List Char :=
  Double.sign n.negative ++ (n.whole ++ (fractionText n.fraction ++ exponentText n.exponent))

/-- What a numeral is written for. -/
def value (n : Numeral) : Json :=
  numberValue n.negative n.whole n.fraction n.exponent

end Numeral

/-! ## Reading a numeral -/

theorem spanDigits_append_of_head {digits rest : List Char}
    (hdigits : ∀ c ∈ digits, c.isDigit = true) (hrest : ∀ c ∈ rest.head?, c.isDigit = false) :
    Double.spanDigits (digits ++ rest) = (digits, rest) := by
  have hspan : Double.spanDigits rest = ([], rest) := by
    cases rest with
    | nil => rfl
    | cons c cs => simp [Double.spanDigits, hrest c rfl]
  rw [Double.spanDigits_append hdigits, hspan, List.append_nil]

/-- Neither an exponent nor the end of a number is a digit or a point. -/
theorem head_exponentText (exponent : Option Int) {rest : List Char} (hrest : EndsNumber rest) :
    ∀ c ∈ (exponentText exponent ++ rest).head?, c.isDigit = false ∧ c ≠ '.' := by
  cases exponent with
  | none => exact fun c hc => ⟨(hrest c hc).1, (hrest c hc).2.1⟩
  | some e =>
    rintro c ⟨⟩
    exact ⟨rfl, by decide⟩

theorem fraction?_fractionText {digits rest : List Char} (hdigits : ∀ c ∈ digits, c.isDigit = true)
    (hrest : ∀ c ∈ rest.head?, c.isDigit = false ∧ c ≠ '.') :
    fraction? (fractionText digits ++ rest) = some (digits, rest) := by
  cases digits with
  | nil =>
    show fraction? rest = _
    unfold fraction?
    split
    · exact absurd rfl (hrest '.' rfl).2
    · rfl
  | cons d ds =>
    have hspan := spanDigits_append_of_head hdigits fun c hc => (hrest c hc).1
    show fraction? ('.' :: (d :: ds ++ rest)) = _
    simp only [fraction?, hspan, List.isEmpty_cons, Bool.false_eq_true, if_false]

theorem exponent?_exponentText {exponent : Option Int} {rest : List Char}
    (hrest : EndsNumber rest) :
    exponent? (exponentText exponent ++ rest) = some (exponent, rest) := by
  cases exponent with
  | none =>
    cases rest with
    | nil => rfl
    | cons c cs =>
      obtain ⟨-, -, hlower, hupper⟩ := hrest c rfl
      show exponent? (c :: cs) = _
      simp only [exponent?, hlower, hupper, or_self, if_false]
  | some e =>
    have hdigits : ∀ c ∈ Nat.toDigits 10 e.natAbs, c.isDigit = true :=
      fun c hc => Nat.isDigit_of_mem_toDigits (by decide) (by decide) hc
    have hspan := spanDigits_append_of_head hdigits fun c hc => (hrest c hc).1
    have hne : (Nat.toDigits 10 e.natAbs).isEmpty = false :=
      List.isEmpty_eq_false_iff_exists_mem.mpr ⟨_, List.getElem_mem Nat.length_toDigits_pos⟩
    show exponent? ('e' :: (if e < 0 then '-' else '+') :: (Nat.toDigits 10 e.natAbs ++ rest)) = _
    by_cases hneg : e < 0
    · have hvalue : -(e.natAbs : Int) = e := by omega
      simp only [exponent?, true_or, if_true, if_pos hneg, hspan, hne, Bool.false_eq_true, if_false,
        Nat.ofDigitChars_ten_toDigits, hvalue]
    · have hvalue : (e.natAbs : Int) = e := by omega
      simp only [exponent?, true_or, if_true, if_neg hneg, hspan, hne, Bool.false_eq_true, if_false,
        Nat.ofDigitChars_ten_toDigits, hvalue]

/-- The reader after the sign. -/
theorem number?_sign {negative : Bool} {c : Char} {cs : List Char} (hc : c.isDigit = true) :
    number? (Double.sign negative ++ c :: cs) = (do
      let (whole, rest) := Double.spanDigits (c :: cs)
      if whole.isEmpty ∨ (1 < whole.length ∧ whole.head? = some '0') then none
      else
        let (fraction, rest) ← fraction? rest
        let (exponent, rest) ← exponent? rest
        some (numberValue negative whole fraction exponent, rest)) := by
  cases negative with
  | true => rfl
  | false =>
    show number? (c :: cs) = _
    unfold number?
    split
    next h =>
      split at h
      · next heq => rw [(List.cons.inj heq).1] at hc; cases hc
      · cases h
        rfl

/-- A numeral is read as its value, up to whatever ends it. -/
theorem Numeral.number?_text (n : Numeral) {rest : List Char} (hrest : EndsNumber rest) :
    number? (n.text ++ rest) = some (n.value, rest) := by
  have hexponent := head_exponentText n.exponent hrest
  have hspan : Double.spanDigits
      (n.whole ++ (fractionText n.fraction ++ (exponentText n.exponent ++ rest)))
      = (n.whole, fractionText n.fraction ++ (exponentText n.exponent ++ rest)) := by
    refine spanDigits_append_of_head n.isDigit_whole ?_
    intro c hc
    unfold fractionText at hc
    split at hc
    · exact (hexponent c hc).1
    · cases hc
      rfl
  have hwhole : ¬(n.whole.isEmpty = true ∨ (1 < n.whole.length ∧ n.whole.head? = some '0')) := by
    rintro (hnil | ⟨hlong, hzero⟩)
    · exact n.whole_ne_nil (List.isEmpty_iff.mp hnil)
    · exact n.head_whole hlong hzero
  obtain ⟨c, cs, hcs⟩ := List.exists_cons_of_ne_nil n.whole_ne_nil
  have hdigit : c.isDigit = true := n.isDigit_whole c (hcs ▸ List.mem_cons_self)
  rw [text, List.append_assoc, List.append_assoc, List.append_assoc, hcs, List.cons_append,
    number?_sign hdigit, ← List.cons_append, ← hcs, hspan]
  dsimp only
  rw [if_neg hwhole, fraction?_fractionText n.isDigit_fraction hexponent, Option.bind_eq_bind,
    Option.bind_some, exponent?_exponentText hrest]
  rfl

/-! ## Whole numbers -/

namespace Numeral

/-- A whole number as a numeral. -/
def ofInt (n : Int) : Numeral where
  negative := n < 0
  whole := Nat.toDigits 10 n.natAbs
  fraction := []
  exponent := none
  whole_ne_nil := Nat.toDigits_ne_nil
  isDigit_whole := fun c hc => Nat.isDigit_of_mem_toDigits (by decide) (by decide) hc
  head_whole := by
    intro hlong
    rcases Nat.eq_zero_or_pos n.natAbs with hzero | hpos
    · rw [hzero] at hlong
      exact absurd hlong (by decide)
    · exact Natural.head?_toDigits hpos
  isDigit_fraction := by simp

theorem text_ofInt (n : Int) : (ofInt n).text = scalarText (.integer n) := by
  show Double.sign (n < 0) ++ (Nat.toDigits 10 n.natAbs ++ []) = _
  rw [List.append_nil]
  rfl

/-- A whole number of sixty-four bits, with a sign or without, is read as one. -/
theorem value_ofInt {n : Int} (hlow : -(Word.size63 : Int) ≤ n) (hhigh : n < Word.size64) :
    (ofInt n).value = .integer n := by
  show numberValue (n < 0) (Nat.toDigits 10 n.natAbs) [] none = _
  unfold numberValue
  rw [Nat.ofDigitChars_ten_toDigits]
  dsimp only
  rcases Int.lt_or_le n 0 with hneg | hpos
  · have hsign : decide (n < 0) = true := decide_eq_true hneg
    rw [hsign, if_neg (by simp), if_pos ⟨rfl, rfl, rfl, by omega, by omega⟩]
    congr 1
    omega
  · have hsign : decide (n < 0) = false := decide_eq_false (Int.not_lt.mpr hpos)
    rw [hsign, if_pos ⟨rfl, rfl, rfl, by omega⟩]
    congr 1
    omega

end Numeral

/-! ## Doubles -/

namespace Numeral

/-- The decimal that a numeral writes, without its sign. -/
def magnitude (n : Numeral) : Decimal :=
  ⟨Nat.ofDigitChars 10 (n.whole ++ n.fraction) 0, n.exponent.getD 0 - n.fraction.length⟩

/-- A numeral writes a decimal behind a sign, and not as a whole number. -/
structure Writes (n : Numeral) (negative : Bool) (d : Decimal) (cs : List Char) : Prop where
  negative_eq : n.negative = negative
  text_eq : n.text = Double.sign negative ++ cs
  not_whole : n.fraction ≠ [] ∨ n.exponent ≠ none
  value_eq : d.numerator * n.magnitude.denominator = n.magnitude.numerator * d.denominator

/-- A numeral that writes the shortest decimal of a double is read as that double. -/
theorem Writes.value_real {n : Numeral} {d : Double} {cs : List Char} (finite : d.isFinite = true)
    (h : n.Writes d.negative (Double.shortest .toEven d.code) cs) : n.value = .real d := by
  have hcode := Double.codeOfDecimal_of_value .toEven (of_decide_eq_true finite) h.value_eq
  have hread : Double.ofDecimal n.negative n.magnitude = d := by
    rw [Double.ofDecimal, hcode, h.negative_eq, Double.ofCode_code]
  have hwhole (p : Prop) : ¬(n.fraction.isEmpty = true ∧ n.exponent.isNone = true ∧ p) := by
    rintro ⟨hfraction, hexponent, -⟩
    rcases h.not_whole with hne | hne
    · exact hne (List.isEmpty_iff.mp hfraction)
    · exact hne (Option.isNone_iff_eq_none.mp hexponent)
  show numberValue n.negative n.whole n.fraction n.exponent = _
  unfold numberValue
  dsimp only
  rw [if_neg (hwhole _), if_neg (hwhole _)]
  change (if (Double.ofDecimal n.negative n.magnitude).isFinite = true then
    Json.real (Double.ofDecimal n.negative n.magnitude) else _) = _
  rw [hread, if_pos finite]

variable {d : Decimal}

theorem value_eq_of_magnitude {n : Numeral} (h : n.magnitude = d) :
    d.numerator * n.magnitude.denominator = n.magnitude.numerator * d.denominator := by
  rw [h]

/-- Digits and zeros, with a zero behind the point. -/
theorem exists_writes_whole (negative : Bool) (hhead : d.digits.head? ≠ some '0')
    (hexp : 0 ≤ d.exponent) :
    ∃ n : Numeral, n.Writes negative d (Double.positional d ++ ".0".toList) := by
  obtain ⟨hvalue, hone⟩ := Double.ofDigitChars_digits_zeros hexp
  have hne : d.digits ≠ [] := List.ne_nil_of_length_pos (Double.length_digits_pos d)
  refine ⟨⟨negative, d.digits ++ Double.zeros d.exponent.toNat, ['0'], none,
    List.append_ne_nil_of_left_ne_nil hne _, ?_, ?_, List.all_eq_true.mp rfl⟩,
    rfl, ?_, .inl (List.cons_ne_nil _ _), ?_⟩
  · intro c hc
    rcases List.mem_append.mp hc with hc | hc
    · exact Double.isDigit_of_mem_digits hc
    · exact Double.isDigit_of_mem_zeros hc
  · rw [List.head?_append_of_ne_nil _ hne]
    exact fun _ => hhead
  · rw [Double.positional, if_pos hexp]
    rfl
  · -- The zero behind the point is a digit too, which the exponent takes back.
    show d.numerator * 10 ^ 1 = Nat.ofDigitChars 10 (_ ++ ['0']) 0 * 10 ^ 0 * d.denominator
    rw [Nat.ofDigitChars_append, hvalue, hone]
    show d.numerator * 10 ^ 1 = (10 * d.numerator + 0) * 10 ^ 0 * 1
    omega

/-- Digits around a point. -/
theorem exists_writes_point (negative : Bool) (hhead : d.digits.head? ≠ some '0')
    (hexp : d.exponent < 0) : ∃ n : Numeral, n.Writes negative d (Double.positional d) := by
  obtain ⟨whole, fraction, htext, h⟩ := Double.positional_point hexp
  have hpoint : fractionText fraction = '.' :: fraction := by
    rw [fractionText, if_neg (by simpa using h.fraction_ne_nil)]
  refine ⟨⟨negative, whole, fraction, none, h.whole_ne_nil, h.isDigit_whole, ?_,
    h.isDigit_fraction⟩, rfl, ?_, .inl h.fraction_ne_nil, ?_⟩
  · intro hlong
    rcases h.head_whole with hzero | hsame
    · rw [hzero] at hlong
      exact absurd hlong (Nat.lt_irrefl 1)
    · rw [hsame]
      exact hhead
  · show Double.sign negative ++ (whole ++ (fractionText fraction ++ [])) = _
    rw [htext, hpoint, List.append_nil]
  · refine value_eq_of_magnitude ?_
    show Decimal.mk _ (0 - (fraction.length : Int)) = d
    rw [Int.zero_sub]
    exact h.decimal_eq

/-- One digit in front of the point, and an exponent. -/
theorem exists_writes_exponential (negative : Bool) :
    ∃ n : Numeral, n.Writes negative d (Double.exponential d) := by
  have hlen := Double.length_digits_pos d
  have hdigits : ∀ c ∈ d.digits, c.isDigit = true := fun c hc => Double.isDigit_of_mem_digits hc
  have hone : (d.digits.take 1).length = 1 := by rw [List.length_take]; omega
  refine ⟨⟨negative, d.digits.take 1, d.digits.drop 1,
    some (d.digits.length + d.exponent - 1), List.ne_nil_of_length_pos (by omega),
    fun c hc => hdigits c (List.mem_of_mem_take hc), fun hlong => by omega,
    fun c hc => hdigits c (List.mem_of_mem_drop hc)⟩, rfl, ?_, .inr nofun, ?_⟩
  · have hfraction : fractionText (d.digits.drop 1)
        = if d.digits.length = 1 then [] else '.' :: d.digits.drop 1 := by
      refine if_congr ?_ rfl rfl
      rw [List.isEmpty_iff, List.drop_eq_nil_iff]
      omega
    show Double.sign negative ++ (d.digits.take 1 ++ (fractionText (d.digits.drop 1) ++ _)) = _
    rw [hfraction, Double.exponential, List.append_assoc]
    rfl
  · refine value_eq_of_magnitude ?_
    show Decimal.mk (Nat.ofDigitChars 10 (d.digits.take 1 ++ d.digits.drop 1) 0)
      (d.digits.length + d.exponent - 1 - ((d.digits.drop 1).length : Int)) = d
    rw [List.take_append_drop, Double.ofDigitChars_digits, List.length_drop]
    congr 1
    omega

end Numeral

/-- The digits of the shortest decimal of a number other than zero do not begin with a zero. -/
theorem head?_digits_shortest {code : Nat} (hpos : 0 < code) :
    (Double.shortest .toEven code).digits.head? ≠ some '0' :=
  Natural.head?_toDigits
    (Nat.pos_of_ne_zero ((Double.rounds_shortest .toEven hpos).coefficient_ne_zero hpos))

/-- The text of a finite double is a numeral whose value is that double. -/
theorem exists_numeral_scientific {d : Double} (finite : d.isFinite = true) :
    ∃ n : Numeral, n.text = Double.scientific d ∧ n.value = .real d := by
  suffices h : ∃ (n : Numeral) (cs : List Char),
      Double.scientific d = Double.sign d.negative ++ cs ∧
        n.Writes d.negative (Double.shortest .toEven d.code) cs by
    obtain ⟨n, cs, htext, hn⟩ := h
    exact ⟨n, hn.text_eq.trans htext.symm, hn.value_real finite⟩
  by_cases hzero : d.code = 0
  · refine ⟨⟨d.negative, ['0'], ['0'], none, List.cons_ne_nil _ _, List.all_eq_true.mp rfl,
      fun h => absurd h (Nat.lt_irrefl 1), List.all_eq_true.mp rfl⟩, "0.0".toList, ?_, rfl, rfl,
      .inl (List.cons_ne_nil _ _), ?_⟩
    · rw [Double.scientific, if_pos hzero]
    · rw [hzero]
      rfl
  · have hhead := head?_digits_shortest (Nat.pos_of_ne_zero hzero)
    unfold Double.scientific
    dsimp only
    rw [if_neg hzero]
    split
    · next hwhole =>
      obtain ⟨n, hn⟩ := Numeral.exists_writes_whole d.negative hhead hwhole.1
      exact ⟨n, _, rfl, hn⟩
    · split
      · next hpoint =>
        obtain ⟨n, hn⟩ := Numeral.exists_writes_point d.negative hhead (by omega)
        exact ⟨n, _, rfl, hn⟩
      · obtain ⟨n, hn⟩ := Numeral.exists_writes_exponential d.negative
        exact ⟨n, _, rfl, hn⟩

end QueryPanel.Json
