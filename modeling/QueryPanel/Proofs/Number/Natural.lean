import Mathlib
import QueryPanel.Number.Natural

/-!
# Which texts are natural numbers

A number is written with a plus sign or without, and with as many zeros in front as one likes
(`Spells`). The reader stops at the first digit that takes it to the bound. It is right to: a number
does not fall as digits are added to it (`le_ofDigitChars`), so what has come to the bound stays
there.

> `ofText_eq_ok_iff`: a text is read as a number if it spells that number and the number is below
> the bound, however many digits there are.

What `k` digits write is below `10 ^ k` (`ofDigitChars_lt_pow`). So a number other than zero, which
is written with no more digits than it needs, has no zero in front (`head?_toDigits`).
-/

namespace QueryPanel.Natural

/-! ## Digits -/

theorem le_ofDigitChars (cs : List Char) (acc : Nat) : acc ≤ Nat.ofDigitChars 10 cs acc := by
  induction cs generalizing acc with
  | nil => exact Nat.le_refl acc
  | cons c cs ih =>
    rw [Nat.ofDigitChars_cons]
    exact Nat.le_trans (by omega) (ih _)

theorem ofDigitChars_cons_zero (c : Char) (cs : List Char) :
    Nat.ofDigitChars 10 (c :: cs) 0
      = 10 ^ cs.length * (c.toNat - '0'.toNat) + Nat.ofDigitChars 10 cs 0 := by
  rw [Nat.ofDigitChars_cons, Nat.ofDigitChars_eq_ofDigitChars_zero, Nat.mul_zero, Nat.zero_add]

theorem ofDigitChars_lt_pow {ds : List Char} (h : ∀ c ∈ ds, c.isDigit = true) :
    Nat.ofDigitChars 10 ds 0 < 10 ^ ds.length := by
  induction ds with
  | nil => decide
  | cons d ds ih =>
    have hrest := ih fun c hc => h c (List.mem_cons_of_mem d hc)
    obtain ⟨-, hnine⟩ := Char.isDigit_iff_toNat.mp (h d List.mem_cons_self)
    have hdigit : d.toNat - '0'.toNat ≤ 9 := Nat.sub_le_sub_right hnine _
    rw [ofDigitChars_cons_zero, List.length_cons, Nat.pow_succ]
    have hhead : 10 ^ ds.length * (d.toNat - '0'.toNat) ≤ 10 ^ ds.length * 9 :=
      Nat.mul_le_mul_left _ hdigit
    omega

/-- A number is not written with a zero in front. -/
theorem head?_toDigits {n : Nat} (hpos : 0 < n) : (Nat.toDigits 10 n).head? ≠ some '0' := by
  intro hzero
  obtain ⟨cs, hcs⟩ := List.head?_eq_some_iff.mp hzero
  have hvalue : Nat.ofDigitChars 10 cs 0 = n := by
    have h := ofDigitChars_cons_zero '0' cs
    rwa [← hcs, Nat.ofDigitChars_ten_toDigits, Nat.sub_self, Nat.mul_zero, Nat.zero_add,
      eq_comm] at h
  have hlt : n < 10 ^ cs.length := by
    rw [← hvalue]
    refine ofDigitChars_lt_pow fun c hc => ?_
    exact Nat.isDigit_of_mem_toDigits (by decide) (by decide) (hcs ▸ List.mem_cons_of_mem _ hc)
  -- The digits behind the zero are enough for the number, so there is none in front of them.
  rcases Nat.eq_zero_or_pos cs.length with hnil | hlong
  · rw [hnil] at hlt
    omega
  · have hlength := (Nat.length_toDigits_le_iff (by decide : 1 < 10) hlong).mpr hlt
    rw [hcs, List.length_cons] at hlength
    omega

/-! ## Spelled numbers -/

/-- Digits that write a number in the decimal system. -/
structure Decimal (cs : List Char) (n : Nat) : Prop where
  nonempty : cs ≠ []
  isDigit : ∀ c ∈ cs, c.isDigit = true
  value : Nat.ofDigitChars 10 cs 0 = n

/-- How a number may be spelled. -/
inductive Spells : List Char → Nat → Prop
  | digits {cs : List Char} {n : Nat} (h : Decimal cs n) : Spells cs n
  | plus {cs : List Char} {n : Nat} (h : Decimal cs n) : Spells ('+' :: cs) n

theorem Decimal.head_ne_plus {c : Char} {cs : List Char} {n : Nat} (h : Decimal (c :: cs) n) :
    c ≠ '+' := by
  rintro rfl
  exact absurd (h.isDigit '+' List.mem_cons_self) (by decide)

variable {bound : Nat}

theorem addDigit_eq_ok_iff {acc n : Nat} {c : Char} : addDigit bound acc c = .ok n ↔
    c.isDigit = true ∧ 10 * acc + (c.toNat - '0'.toNat) = n ∧ n < bound := by
  unfold addDigit
  cases c.isDigit with
  | false => simp
  | true =>
    simp only [Bool.not_true, Bool.false_eq_true, if_false, true_and]
    split
    · next h =>
      rw [Except.ok.injEq]
      exact ⟨fun hn => ⟨hn, hn ▸ h⟩, And.left⟩
    · next h =>
      simp only [reduceCtorEq, false_iff]
      rintro ⟨rfl, hn⟩
      exact h hn

/-- Digits behind a number that is below the bound. -/
theorem foldlM_addDigit_eq_ok_iff {acc n : Nat} {cs : List Char} (hacc : acc < bound) :
    cs.foldlM (addDigit bound) acc = .ok n ↔
      (∀ c ∈ cs, c.isDigit = true) ∧ Nat.ofDigitChars 10 cs acc = n ∧ n < bound := by
  induction cs generalizing acc with
  | nil =>
    rw [List.foldlM_nil, Nat.ofDigitChars_nil]
    constructor
    · intro h
      cases h
      exact ⟨by simp, rfl, hacc⟩
    · rintro ⟨-, rfl, -⟩
      rfl
  | cons c cs ih =>
    rw [List.foldlM_cons, Nat.ofDigitChars_cons, List.forall_mem_cons]
    cases hdigit : addDigit bound acc c with
    | ok m =>
      obtain ⟨hc, rfl, hm⟩ := addDigit_eq_ok_iff.mp hdigit
      rw [and_iff_right hc]
      exact ih hm
    | error fault =>
      constructor
      · intro h
        cases h
      · -- The number is below the bound only where it was so before the other digits.
        rintro ⟨⟨hc, -⟩, rfl, hn⟩
        have hm := addDigit_eq_ok_iff.mpr ⟨hc, rfl, Nat.lt_of_le_of_lt (le_ofDigitChars cs _) hn⟩
        rw [hdigit] at hm
        cases hm

theorem ofDigits_eq_ok_iff {cs : List Char} {n : Nat} (hbound : 0 < bound) :
    ofDigits bound cs = .ok n ↔ Decimal cs n ∧ n < bound := by
  unfold ofDigits
  cases cs with
  | nil =>
    constructor
    · intro h
      cases h
    · rintro ⟨h, -⟩
      exact absurd rfl h.nonempty
  | cons c cs =>
    rw [List.isEmpty_cons, if_neg Bool.false_ne_true, foldlM_addDigit_eq_ok_iff hbound]
    constructor
    · rintro ⟨hdigit, hvalue, hn⟩
      exact ⟨⟨List.cons_ne_nil c cs, hdigit, hvalue⟩, hn⟩
    · rintro ⟨⟨-, hdigit, hvalue⟩, hn⟩
      exact ⟨hdigit, hvalue, hn⟩

/-- A text is read as a number below the bound if that is what it spells. -/
theorem ofText_eq_ok_iff {cs : List Char} {n : Nat} (hbound : 0 < bound) :
    ofText bound cs = .ok n ↔ Spells cs n ∧ n < bound := by
  unfold ofText
  split
  · constructor
    · intro h
      cases h
    · rintro ⟨hspells, -⟩
      cases hspells with
      | digits h => exact absurd rfl h.nonempty
  · next cs =>
    rw [ofDigits_eq_ok_iff hbound]
    refine and_congr_left fun _ => ⟨.plus, fun hspells => ?_⟩
    cases hspells with
    | digits h => exact absurd rfl h.head_ne_plus
    | plus h => exact h
  · next hplus =>
    rw [ofDigits_eq_ok_iff hbound]
    refine and_congr_left fun _ => ⟨.digits, fun hspells => ?_⟩
    cases hspells with
    | digits h => exact h
    | plus h => exact absurd rfl (hplus _)

end QueryPanel.Natural
