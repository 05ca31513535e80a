import QueryPanel.Proofs.Clause.Written

/-!
# Clauses with a value in quotes

A value in double quotes makes one clause with what stands before its equals sign, whatever it is
made of, if that is `Closed`. The text of a key is, also where it is still missing; the name of an
attribute in a filter need not be.

> `pieces_quoted_of_closed`: no conjunction begins in such a clause.

> `sealed_quoted`: it leaves no literal open and makes no conjunction with its neighbours.
-/

namespace QueryPanel.Clause

/-- A text that leaves no literal open and has no conjunction in it or at its end. -/
structure Closed (cs : List Char) : Prop where
  bare : (Scan.start.run cs).isBare = true
  uncut : pieces .start cs = (cs, [])
  ends : endsWithConjunction cs = false

instance (cs : List Char) : Decidable (Closed cs) :=
  decidable_of_iff ((Scan.start.run cs).isBare = true ∧ pieces .start cs = (cs, []) ∧
      endsWithConjunction cs = false)
    ⟨fun ⟨hbare, huncut, hends⟩ => ⟨hbare, huncut, hends⟩,
      fun h => ⟨h.bare, h.uncut, h.ends⟩⟩

section Quoted

variable {key : List Char}

/-- Outside every literal, behind the equals sign and a blank, a quote opens one. -/
theorem isFresh_run_sign {s : Scan} (h : s.isBare = true) :
    (s.run [' ', '=', ' ']).isFresh = true := by
  show (((s.step ' ').step '=').step ' ').isFresh = true
  rw [step_of_blank h Text.isBlank_space]
  rfl

/-- No conjunction begins in a clause with a value in quotes. -/
theorem pieces_quoted_of_closed (h : Closed key) (value : List Char) :
    pieces .start (textOf key (Quote.quoteDouble value))
      = (textOf key (Quote.quoteDouble value), []) := by
  have hspells := (Written.quoted value).spells
  have hblank : ' '.toLower ≠ 'a' := toLower_ne_of_blank Text.isBlank_space
  have hsign : ∀ c ∈ [' ', '=', ' '], c.toLower ≠ 'a' := by
    intro c hc
    simp only [List.mem_cons, List.not_mem_nil, or_false] at hc
    rcases hc with rfl | rfl | rfl
    · exact hblank
    · decide
    · exact hblank
  rw [textOf_eq, pieces_append _ _ _ (seam_of_blank h.ends Text.isBlank_space _), h.uncut,
    show ' ' :: '=' :: ' ' :: Quote.quoteDouble value
      = [' ', '=', ' '] ++ Quote.quoteDouble value from rfl,
    pieces_append_of_no_first_letter _ hsign, pieces_spelled (isFresh_run_sign h.bare) hspells]
  rfl

/-- Behind a text that leaves no literal open, the clause leaves none open either, and the mark at
its end makes no conjunction with what follows. -/
theorem sealed_quoted (hbare : (Scan.start.run key).isBare = true) {value : List Char}
    (hbegins : beginsWithConjunction (textOf key (Quote.quoteDouble value)) = false) :
    Sealed (textOf key (Quote.quoteDouble value)) where
  full := by
    rw [textOf_eq, List.all_append]
    simp [show Text.isBlank '=' = false from rfl]
  bare := by
    rw [textOf, Scan.run_append, Scan.run_append]
    apply isBare_run_spelled (isFresh_run_sign hbare) (Written.quoted value).spells
    intro text htext
    cases htext
  begins := hbegins
  ends := by
    have hquote : Quote.quoteDouble value = ('"' :: Quote.escape value) ++ ['"'] := rfl
    rw [textOf, hquote, ← List.append_assoc]
    exact endsWithConjunction_append_of_ne _ (by decide)
  long := by
    rw [textOf_eq, Quote.quoteDouble]
    simp only [List.length_append, List.length_cons]
    omega

end Quoted

/-! ## Behind the text of a key -/

namespace IsKey

variable {key : List Char}

theorem no_blank (h : IsKey key) : ∀ c ∈ key, Text.isBlank c = false := by
  intro c hc
  exact not_blank_of_isKeyChar (h.chars c hc)

theorem closed (h : IsKey key) : Closed key where
  bare := Scan.isBare_run_of_plain rfl fun c hc => isPlain_of_isKeyChar (h.chars c hc)
  uncut := pieces_of_no_blank h.no_blank
  ends := by
    rw [Bool.eq_false_iff]
    intro hends
    obtain ⟨front, b, word, rfl, hb, -⟩ := exists_word_of_ends hends
    have hb' := h.no_blank b (by simp)
    rw [hb] at hb'
    cases hb'

theorem sealed_quoted (h : IsKey key) (value : List Char) :
    Sealed (textOf key (Quote.quoteDouble value)) :=
  Clause.sealed_quoted h.closed.bare (beginsWithConjunction_textOf h _)

/-- The clause of a key and a value in quotes is the only one in its text. -/
theorem split_quoted (h : IsKey key) (value : List Char) :
    split (textOf key (Quote.quoteDouble value))
      = [Text.trim (textOf key (Quote.quoteDouble value))] := by
  rw [(h.sealed_quoted value).split_eq, segments, pieces_quoted_of_closed h.closed]
  rfl

end IsKey

end QueryPanel.Clause
