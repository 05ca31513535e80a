import Mathlib
import QueryPanel.Text.Blank
import QueryPanel.Text.Bytes

/-!
# Trimmed texts and texts cut in two

`trim` looks at the two ends of a text only. Here is what it does to a text with a blank more at one
end, and when it does nothing: to a text that is trimmed already, and to one that begins and ends
with characters other than blanks, which is `Solid` and stays so inside any other trimming.

The second half is about cutting a text at the byte offset where a first part of it ends: the cut
gives back that part and the rest.
-/

namespace QueryPanel.Text

/-! ## Which characters are blanks -/

theorem isBlank_space : isBlank ' ' = true := rfl

theorem ne_of_blank {c d : Char} (h : isBlank c = true) (hd : isBlank d = false) : c ≠ d := by
  intro heq
  rw [heq, hd] at h
  exact Bool.false_ne_true h

/-- No upper-case letter is a blank. -/
theorem toLower_of_blank {c : Char} (h : isBlank c = true) : c.toLower = c := by
  unfold Char.toLower
  split
  next upper =>
    obtain ⟨low, high⟩ := upper
    have low : 65 ≤ c.toNat := UInt32.le_iff_toNat_le.mp low
    have high : c.toNat ≤ 90 := UInt32.le_iff_toNat_le.mp high
    simp [isBlank, inRanges, blankRanges] at h
    omega
  next => rfl

theorem not_blank_of_alphanum {c : Char} (h : c.isAlphanum = true) : isBlank c = false := by
  rw [Bool.eq_false_iff]
  intro blank
  simp [isBlank, inRanges, blankRanges] at blank
  simp [Char.isAlphanum, Char.isAlpha, Char.isUpper, Char.isLower, Char.isDigit,
    UInt32.le_iff_toNat_le] at h
  have : c.toNat = c.val.toNat := rfl
  omega

/-! ## Blanks at one end -/

theorem trimStart_cons_blank {c : Char} (h : isBlank c = true) (cs : List Char) :
    trimStart (c :: cs) = trimStart cs := by
  rw [trimStart, List.dropWhile_cons, if_pos h]
  rfl

theorem trimStart_cons_of_not_blank {c : Char} (h : isBlank c = false) (cs : List Char) :
    trimStart (c :: cs) = c :: cs := by
  rw [trimStart, List.dropWhile_cons, h]
  rfl

theorem trimStart_eq_nil_iff {cs : List Char} :
    trimStart cs = [] ↔ cs.all isBlank = true := by
  induction cs with
  | nil => simp [trimStart]
  | cons c cs ih =>
    cases h : isBlank c with
    | true => rw [trimStart_cons_blank h, ih, List.all_cons, h, Bool.true_and]
    | false => simp [trimStart_cons_of_not_blank h, h]

/-- Trimming at the start leaves what follows the first character that is no blank. -/
theorem trimStart_append {xs : List Char} (h : xs.all isBlank = false) (ys : List Char) :
    trimStart (xs ++ ys) = trimStart xs ++ ys := by
  induction xs with
  | nil => simp at h
  | cons c cs ih =>
    cases hc : isBlank c with
    | true =>
      rw [List.all_cons, hc, Bool.true_and] at h
      rw [List.cons_append, trimStart_cons_blank hc, trimStart_cons_blank hc, ih h]
    | false =>
      rw [List.cons_append, trimStart_cons_of_not_blank hc, trimStart_cons_of_not_blank hc,
        List.cons_append]

/-- Nothing behind a character that is no blank matters to it. -/
theorem trimStart_append_cons (xs : List Char) {c : Char} (h : isBlank c = false)
    (rest : List Char) : trimStart (xs ++ c :: rest) = trimStart xs ++ c :: rest := by
  cases hxs : xs.all isBlank with
  | true =>
    rw [trimStart_eq_nil_iff.mpr hxs, trimStart, List.nil_append,
      List.dropWhile_append_of_pos (List.all_eq_true.mp hxs)]
    exact trimStart_cons_of_not_blank h rest
  | false => exact trimStart_append hxs (c :: rest)

theorem trimStart_blanks_append {bs : List Char} (h : ∀ b ∈ bs, isBlank b = true) (cs : List Char) :
    trimStart (bs ++ cs) = trimStart cs :=
  List.dropWhile_append_of_pos h

theorem trimStart_blanks {bs : List Char} (h : ∀ b ∈ bs, isBlank b = true) : trimStart bs = [] := by
  rwa [trimStart_eq_nil_iff, List.all_eq_true]

/-- What trimming at the start takes away. -/
theorem exists_blanks_append_trimStart (cs : List Char) :
    ∃ bs, cs = bs ++ trimStart cs ∧ ∀ b ∈ bs, isBlank b = true :=
  ⟨cs.takeWhile isBlank, List.takeWhile_append_dropWhile.symm,
    List.all_eq_true.mp List.all_takeWhile⟩

theorem trimEnd_append_blank {c : Char} (h : isBlank c = true) (cs : List Char) :
    trimEnd (cs ++ [c]) = trimEnd cs := by
  rw [trimEnd, List.reverse_concat, List.dropWhile_cons, if_pos h]
  rfl

theorem trimEnd_append_of_not_blank {c : Char} (h : isBlank c = false) (cs : List Char) :
    trimEnd (cs ++ [c]) = cs ++ [c] := by
  rw [trimEnd, List.reverse_concat, List.dropWhile_cons, h]
  simp

/-- What trimming at the end takes away. -/
theorem exists_trimEnd_append_blanks (cs : List Char) :
    ∃ bs, cs = trimEnd cs ++ bs ∧ ∀ b ∈ bs, isBlank b = true := by
  refine ⟨(cs.reverse.takeWhile isBlank).reverse, ?_, ?_⟩
  · rw [trimEnd, ← List.reverse_append, List.takeWhile_append_dropWhile, List.reverse_reverse]
  · intro b hb
    exact List.all_eq_true.mp List.all_takeWhile b (List.mem_reverse.mp hb)

theorem trimEnd_append_blanks (cs : List Char) {bs : List Char} (h : ∀ b ∈ bs, isBlank b = true) :
    trimEnd (cs ++ bs) = trimEnd cs := by
  rw [trimEnd, List.reverse_append, List.dropWhile_append_of_pos, trimEnd]
  intro b hb
  exact h b (List.mem_reverse.mp hb)

theorem trim_cons_blank {c : Char} (h : isBlank c = true) (cs : List Char) :
    trim (c :: cs) = trim cs := by
  rw [trim, trimStart_cons_blank h, trim]

theorem trim_append_blank {c : Char} (h : isBlank c = true) (cs : List Char) :
    trim (cs ++ [c]) = trim cs := by
  cases hcs : cs.all isBlank with
  | true =>
    have both : trimStart (cs ++ [c]) = trimStart cs := by
      rw [trimStart_eq_nil_iff.mpr hcs, trimStart_eq_nil_iff, List.all_append, hcs]
      simp [h]
    rw [trim, both, trim]
  | false => rw [trim, trimStart_append hcs, trimEnd_append_blank h, trim]

/-! ## Trimming twice -/

theorem trimStart_trimStart (cs : List Char) : trimStart (trimStart cs) = trimStart cs :=
  List.dropWhile_idempotent isBlank cs

theorem trimEnd_trimEnd (cs : List Char) : trimEnd (trimEnd cs) = trimEnd cs := by
  obtain ⟨bs, hcs, hbs⟩ := exists_trimEnd_append_blanks cs
  have h := trimEnd_append_blanks (trimEnd cs) hbs
  rw [← hcs] at h
  exact h.symm

/-- A beginning of a text that begins with no blank does not either. -/
theorem trimStart_of_append {xs ys : List Char} (h : trimStart (xs ++ ys) = xs ++ ys) :
    trimStart xs = xs := by
  cases xs with
  | nil => rfl
  | cons c cs =>
    cases hc : isBlank c with
    | false => exact trimStart_cons_of_not_blank hc cs
    | true =>
      -- The blank would be trimmed away.
      have hlength : (trimStart (cs ++ ys)).length ≤ (cs ++ ys).length :=
        (List.dropWhile_suffix _).length_le
      rw [List.cons_append, trimStart_cons_blank hc] at h
      rw [h, List.length_cons] at hlength
      omega

/-- Trimming at the end leaves a start that is trimmed as it is. -/
theorem trimStart_trimEnd {cs : List Char} (h : trimStart cs = cs) :
    trimStart (trimEnd cs) = trimEnd cs := by
  obtain ⟨bs, hcs, -⟩ := exists_trimEnd_append_blanks cs
  rw [hcs] at h
  exact trimStart_of_append h

theorem trim_trim (cs : List Char) : trim (trim cs) = trim cs := by
  have h : trimStart (trim cs) = trim cs := trimStart_trimEnd (trimStart_trimStart cs)
  rw [trim, h]
  exact trimEnd_trimEnd (trimStart cs)

/-- What trimming takes away at the two ends. -/
theorem exists_trim (cs : List Char) :
    ∃ before behind, cs = before ++ (trim cs ++ behind) ∧ (∀ b ∈ before, isBlank b = true) ∧
      ∀ b ∈ behind, isBlank b = true := by
  obtain ⟨before, hbefore, hblank⟩ := exists_blanks_append_trimStart cs
  obtain ⟨behind, hbehind, hblank'⟩ := exists_trimEnd_append_blanks (trimStart cs)
  refine ⟨before, behind, ?_, hblank, hblank'⟩
  rw [trim, ← hbehind, ← hbefore]

theorem length_trim_le (cs : List Char) : (trim cs).length ≤ cs.length := by
  obtain ⟨before, behind, hcs, -, -⟩ := exists_trim cs
  have hlength := congrArg List.length hcs
  rw [List.length_append, List.length_append] at hlength
  omega

theorem toList_trimmed (s : String) : (trimmed s).toList = trim s.toList :=
  String.toList_ofList

theorem trimmed_trimmed (s : String) : trimmed (trimmed s) = trimmed s := by
  rw [trimmed, toList_trimmed, trim_trim]
  rfl

/-- A blank text counts as none. -/
theorem bind_trimmedNonempty? (text : Option String) :
    text.bind trimmedNonempty?
      = if trimmed (text.getD "") = "" then none else some (trimmed (text.getD "")) := by
  cases text with
  | none => rfl
  | some s =>
    simp only [Option.bind_some, trimmedNonempty?, String.isEmpty_iff, Option.getD_some]

/-! ## Texts without blanks at their ends -/

/-- A text that is not empty and neither begins nor ends with a blank. -/
structure Solid (cs : List Char) : Prop where
  starts : ∃ c rest, cs = c :: rest ∧ isBlank c = false
  ends : ∃ front c, cs = front ++ [c] ∧ isBlank c = false

namespace Solid

variable {cs : List Char}

theorem ne_nil (h : Solid cs) : cs ≠ [] := by
  obtain ⟨c, rest, rfl, -⟩ := h.starts
  exact List.cons_ne_nil c rest

theorem trimStart_append (h : Solid cs) (rest : List Char) :
    trimStart (cs ++ rest) = cs ++ rest := by
  obtain ⟨c, tail, rfl, hc⟩ := h.starts
  exact trimStart_cons_of_not_blank hc (tail ++ rest)

theorem trimStart_eq (h : Solid cs) : trimStart cs = cs := by
  simpa using h.trimStart_append []

theorem trimEnd_append (h : Solid cs) (before : List Char) :
    trimEnd (before ++ cs) = before ++ cs := by
  obtain ⟨front, c, rfl, hc⟩ := h.ends
  rw [← List.append_assoc]
  exact trimEnd_append_of_not_blank hc (before ++ front)

theorem trim_eq (h : Solid cs) : trim cs = cs := by
  rw [trim, h.trimStart_eq]
  simpa using h.trimEnd_append []

theorem not_all_blank (h : Solid cs) (rest : List Char) : (cs ++ rest).all isBlank = false := by
  obtain ⟨c, tail, rfl, hc⟩ := h.starts
  simp [hc]

theorem getLast?_append (h : Solid cs) (before : List Char) :
    (before ++ cs).getLast?.any isBlank = false := by
  obtain ⟨front, c, rfl, hc⟩ := h.ends
  rw [← List.append_assoc, List.getLast?_concat]
  exact hc

/-- Solid texts at the two ends make a solid text. -/
theorem append {ys : List Char} (h : Solid cs) (middle : List Char) (h' : Solid ys) :
    Solid (cs ++ middle ++ ys) := by
  obtain ⟨c, tail, rfl, hc⟩ := h.starts
  obtain ⟨front, d, rfl, hd⟩ := h'.ends
  exact ⟨⟨c, tail ++ middle ++ (front ++ [d]), by simp, hc⟩,
    ⟨c :: tail ++ middle ++ front, d, by simp, hd⟩⟩

end Solid

/-- A text without any blank is solid unless it is empty. -/
theorem solid_of_no_blank {cs : List Char} (hne : cs ≠ []) (h : ∀ c ∈ cs, isBlank c = false) :
    Solid cs := by
  refine ⟨?_, ?_⟩
  · obtain ⟨c, rest, rfl⟩ := List.exists_cons_of_ne_nil hne
    exact ⟨c, rest, rfl, h c List.mem_cons_self⟩
  · refine ⟨cs.dropLast, cs.getLast hne, (List.dropLast_concat_getLast hne).symm, ?_⟩
    exact h _ (List.getLast_mem hne)

/-- A trimmed text is solid unless it is empty. -/
theorem solid_of_trim_eq {cs : List Char} (hne : cs ≠ []) (h : trim cs = cs) : Solid cs := by
  constructor
  · obtain ⟨c, rest, rfl⟩ := List.exists_cons_of_ne_nil hne
    refine ⟨c, rest, rfl, ?_⟩
    rw [Bool.eq_false_iff]
    intro hc
    have hlength := length_trim_le rest
    rw [← trim_cons_blank hc, h, List.length_cons] at hlength
    omega
  · obtain ⟨front, c, rfl⟩ : ∃ front c, cs = front ++ [c] :=
      ⟨_, _, (List.dropLast_concat_getLast hne).symm⟩
    refine ⟨front, c, rfl, ?_⟩
    rw [Bool.eq_false_iff]
    intro hc
    have hlength := length_trim_le front
    rw [← trim_append_blank hc, h, List.length_append, List.length_singleton] at hlength
    omega

/-- A solid text may take the place of what a trimmed text begins with. -/
theorem Solid.append_of_trim_eq {xs ys zs : List Char} (h : Solid xs)
    (htrim : trim (ys ++ zs) = ys ++ zs) : Solid (xs ++ zs) := by
  rcases List.eq_nil_or_concat zs with rfl | ⟨init, last, rfl⟩
  · rwa [List.append_nil]
  rw [List.concat_eq_append] at htrim ⊢
  rw [← List.append_assoc] at htrim ⊢
  constructor
  case starts =>
    obtain ⟨c, rest, rfl, hc⟩ := h.starts
    exact ⟨c, rest ++ init ++ [last], rfl, hc⟩
  case ends =>
    obtain ⟨front, c, heq, hc⟩ := (solid_of_trim_eq (by simp) htrim).ends
    obtain ⟨-, hlast⟩ := List.append_inj' heq rfl
    exact ⟨xs ++ init, last, rfl, (List.cons.inj hlast).1 ▸ hc⟩

/-! ## Cutting at a byte offset -/

theorem takeBytes_zero (cs : List Char) : takeBytes 0 cs = [] := by
  cases cs with
  | nil => rfl
  | cons c cs => rw [takeBytes, if_neg (Nat.not_le.mpr c.utf8Size_pos)]

/-- An offset behind a first part cuts the rest. -/
theorem takeBytes_append (xs ys : List Char) (n : Nat) :
    takeBytes (byteLength xs + n) (xs ++ ys) = xs ++ takeBytes n ys := by
  induction xs with
  | nil => rw [byteLength, Nat.zero_add, List.nil_append, List.nil_append]
  | cons c cs ih =>
    have hsize : c.utf8Size ≤ byteLength (c :: cs) + n :=
      Nat.le_trans (Nat.le_add_right _ _) (Nat.le_add_right _ _)
    have hrest : byteLength (c :: cs) + n - c.utf8Size = byteLength cs + n := by
      rw [byteLength]
      omega
    rw [List.cons_append, takeBytes, if_pos hsize, hrest, ih, List.cons_append]

theorem takeBytes_byteLength (xs ys : List Char) : takeBytes (byteLength xs) (xs ++ ys) = xs := by
  have h := takeBytes_append xs ys 0
  rwa [takeBytes_zero, Nat.add_zero, List.append_nil] at h

theorem byteLength_le_of_suffix {xs ys : List Char} (h : xs <:+ ys) :
    byteLength xs ≤ byteLength ys := by
  obtain ⟨before, rfl⟩ := h
  rw [byteLength_append]
  exact Nat.le_add_left _ _

theorem byteLength_trimStart_le (cs : List Char) : byteLength (trimStart cs) ≤ byteLength cs :=
  byteLength_le_of_suffix (List.dropWhile_suffix _)

theorem dropBytes_byteLength (xs ys : List Char) : dropBytes (byteLength xs) (xs ++ ys) = ys := by
  have h := takeBytes_append_dropBytes (byteLength xs) (xs ++ ys)
  rw [takeBytes_byteLength] at h
  exact List.append_cancel_left h

/-- The end of a first part is a boundary between two characters. -/
theorem clampOffset_byteLength (xs ys : List Char) :
    clampOffset (xs ++ ys) (byteLength xs) = byteLength xs := by
  rw [clampOffset, takeBytes_byteLength]

end QueryPanel.Text
