import QueryPanel.Clause.Slot
import QueryPanel.Proofs.Clause.LastClause

/-!
# The slot at the end of a text

The last clause of a text decides the slot at its end. Without an equals sign that is a key or an
operator. With one, the text is `Compared`, and the slot is what `Slot.afterEquals` makes of the
text behind the sign: a value as long as its literal goes on, a conjunction once that is over.
-/

namespace QueryPanel.Slot

open Clause (Compared Head Spells lastSegment)

/-- The slot behind all of an expression. -/
def atEnd (expression : String) : Slot :=
  ofCursor expression (Text.byteLength expression.toList)

theorem atEnd_eq (expression : String) : atEnd expression = ofText expression.toList := by
  have htake := Text.takeBytes_byteLength expression.toList []
  rw [List.append_nil] at htake
  rw [atEnd, ofCursor, htake]

/-- The clause before the cursor is over, and nothing of a conjunction has been typed. -/
def IsFinished (s : Slot) : Prop :=
  s.kind = .conjunction ∧ s.query = ""

instance (s : Slot) : Decidable s.IsFinished :=
  inferInstanceAs (Decidable (_ ∧ _))

theorem isFinished_typed (key : Option String) (stop : Nat) :
    (typed .conjunction key [] stop).IsFinished :=
  ⟨rfl, rfl⟩

/-! ## Words -/

theorem spanWord_of_no_blank {cs : List Char} (h : ∀ c ∈ cs, Text.isBlank c = false) :
    spanWord cs = (cs, []) := by
  have hword : ∀ c ∈ cs, (!Text.isBlank c) = true := fun c hc => by rw [h c hc]; rfl
  have htake : (cs ++ []).takeWhile (fun c => !Text.isBlank c) = _ :=
    List.takeWhile_append_of_pos hword
  have hdrop : (cs ++ []).dropWhile (fun c => !Text.isBlank c) = _ :=
    List.dropWhile_append_of_pos hword
  rw [List.append_nil] at htake hdrop
  rw [spanWord, htake, hdrop, List.takeWhile_nil, List.dropWhile_nil, List.append_nil]

theorem spanWord_append_blank {cs : List Char} (h : ∀ c ∈ cs, Text.isBlank c = false) {b : Char}
    (hb : Text.isBlank b = true) (rest : List Char) :
    spanWord (cs ++ b :: rest) = (cs, b :: rest) := by
  have hword : ∀ c ∈ cs, (!Text.isBlank c) = true := fun c hc => by rw [h c hc]; rfl
  have hblank : ¬ (!Text.isBlank b) = true := by rw [hb]; decide
  rw [spanWord, List.takeWhile_append_of_pos hword, List.dropWhile_append_of_pos hword,
    List.takeWhile_cons, List.dropWhile_cons, if_neg hblank, if_neg hblank, List.append_nil]

/-- A text is its first word and what follows it. -/
theorem spanWord_append (cs : List Char) : (spanWord cs).1 ++ (spanWord cs).2 = cs :=
  List.takeWhile_append_dropWhile

/-! ## The last clause of the text -/

section LastClause

variable {text body : List Char}

theorem ofText_of_none (hbody : Text.trimStart (lastSegment text) = body) (hne : body ≠ [])
    (h : Scan.start.splitAtEquals? body = none) :
    ofText text = beforeEquals body (Text.byteLength text) := by
  unfold ofText
  dsimp only
  rw [hbody, h, if_neg (by rwa [List.isEmpty_iff])]

theorem ofText_of_some (hbody : Text.trimStart (lastSegment text) = body) (hne : body ≠ [])
    {key tail : List Char} (h : Scan.start.splitAtEquals? body = some (key, tail)) :
    ofText text = afterEquals (String.ofList (Text.trim key)) tail (Text.byteLength text) := by
  unfold ofText
  dsimp only
  rw [hbody, h, if_neg (by rwa [List.isEmpty_iff])]

theorem ofText_compared {front key tail : List Char} (h : Compared front key tail) :
    ofText (front ++ (key ++ '=' :: tail))
      = afterEquals (String.ofList (Text.trim key)) tail
          (Text.byteLength (front ++ (key ++ '=' :: tail))) :=
  ofText_of_some h.clause (by simp) h.sign

theorem ofText_head (head : Head) {rest : List Char}
    (h : Text.trimStart (lastSegment text) = head.text ++ rest) :
    ofText text
      = afterEquals (String.ofList head.key) (head.behind ++ rest) (Text.byteLength text) := by
  have hne : head.text ++ rest ≠ [] := by simp [Head.text]
  rw [ofText_of_some h hne (head.splitAtEquals?_text rest), head.trim_key_before]

/-- Only behind an equals sign there is a value or a conjunction. -/
theorem exists_compared_of_kind
    (h : (ofText text).kind = .value ∨ (ofText text).kind = .conjunction) :
    ∃ front key tail, text = front ++ (key ++ '=' :: tail) ∧ Compared front key tail := by
  cases hsplit : Scan.start.splitAtEquals? (Text.trimStart (lastSegment text)) with
  | some parts =>
    obtain ⟨front, htext, hcompared⟩ := Clause.exists_compared hsplit
    exact ⟨front, parts.1, parts.2, htext, hcompared⟩
  | none =>
    have hkind : (ofText text).kind = .key ∨ (ofText text).kind = .operator := by
      unfold ofText
      dsimp only
      rw [hsplit]
      split
      · exact .inl rfl
      · dsimp only
        unfold beforeEquals
        split
        · exact .inl rfl
        · exact .inr rfl
    rcases hkind with hkind | hkind
    · rw [hkind] at h
      rcases h with h | h <;> cases h
    · rw [hkind] at h
      rcases h with h | h <;> cases h

end LastClause

/-! ## Behind the equals sign -/

section AfterEquals

variable {key : String} {behind : List Char} {stop : Nat}

theorem afterEquals_nil (hbehind : ∀ c ∈ behind, Text.isBlank c = true) :
    afterEquals key behind stop = typed .value (some key) [] stop := by
  rw [afterEquals, Text.trimStart_blanks hbehind]

/-- Behind an opening mark it matters whether the literal is closed. -/
theorem afterEquals_quote (hbehind : ∀ c ∈ behind, Text.isBlank c = true) (quote : Quote)
    (cs : List Char) :
    afterEquals key (behind ++ quote.char :: cs) stop
      = match quote.split? cs with
        | none => ⟨.value, String.ofList (quote.value cs), some key,
            stop - Text.byteLength (quote.char :: cs), stop⟩
        | some (_, rest) => typed .conjunction (some key) (Text.trimStart rest) stop := by
  have htrim : Text.trimStart (behind ++ quote.char :: cs) = quote.char :: cs := by
    rw [Text.trimStart_blanks_append hbehind,
      Text.trimStart_cons_of_not_blank quote.not_blank_char]
  cases hsplit : quote.split? cs with
  | none => simp only [afterEquals, htrim, Quote.ofChar?_char, hsplit]
  | some parts => simp only [afterEquals, htrim, Quote.ofChar?_char, hsplit]

theorem afterEquals_quoted (hbehind : ∀ c ∈ behind, Text.isBlank c = true) {quote : Quote}
    {body : List Char} (h : quote.Encloses body) (rest : List Char) :
    afterEquals key (behind ++ quote.char :: (body ++ quote.char :: rest)) stop
      = typed .conjunction (some key) (Text.trimStart rest) stop := by
  rw [afterEquals_quote hbehind, Quote.split?_eq_some_iff.mpr ⟨h, rfl⟩]

section Bare

variable {c : Char} {cs : List Char}

theorem afterEquals_bare (hbehind : ∀ c ∈ behind, Text.isBlank c = true)
    (hquote : Quote.ofChar? c = none) (h : ∀ d ∈ c :: cs, Text.isBlank d = false) :
    afterEquals key (behind ++ c :: cs) stop = typed .value (some key) (c :: cs) stop := by
  rw [afterEquals, Text.trimStart_blanks_append hbehind,
    Text.trimStart_cons_of_not_blank (h c List.mem_cons_self)]
  dsimp only
  rw [hquote, spanWord_of_no_blank h]

theorem afterEquals_bare_blank (hbehind : ∀ c ∈ behind, Text.isBlank c = true)
    (hquote : Quote.ofChar? c = none) (h : ∀ d ∈ c :: cs, Text.isBlank d = false) {b : Char}
    (hb : Text.isBlank b = true) (rest : List Char) :
    afterEquals key (behind ++ (c :: cs ++ b :: rest)) stop
      = typed .conjunction (some key) (Text.trimStart rest) stop := by
  have hspan : spanWord (c :: (cs ++ b :: rest)) = (c :: cs, b :: rest) :=
    spanWord_append_blank h hb rest
  rw [afterEquals, Text.trimStart_blanks_append hbehind, List.cons_append,
    Text.trimStart_cons_of_not_blank (h c List.mem_cons_self)]
  dsimp only
  rw [hquote]
  dsimp only
  rw [hspan]
  dsimp only
  rw [Text.trimStart_cons_blank hb]

end Bare

/-- Behind a whole literal and a blank stands a conjunction, whatever the literal says. -/
theorem afterEquals_spelled (hbehind : ∀ c ∈ behind, Text.isBlank c = true) {text : List Char}
    {literal : Literal} (h : Spells text literal) {b : Char} (hb : Text.isBlank b = true)
    (rest : List Char) :
    afterEquals key (behind ++ (text ++ b :: rest)) stop
      = typed .conjunction (some key) (Text.trimStart rest) stop := by
  cases h with
  | @quoted quote body hencloses _ =>
    have hshape : quote.char :: (body ++ [quote.char]) ++ b :: rest
        = quote.char :: (body ++ quote.char :: (b :: rest)) := by simp
    rw [hshape, afterEquals_quoted hbehind hencloses, Text.trimStart_cons_blank hb]
  | bare hquote hword => exact afterEquals_bare_blank hbehind hquote hword hb rest

/-- Behind an equals sign stands a value, which is replaced from its first character on, or a
conjunction, of which the end of the text has been typed. -/
theorem afterEquals_cases (key : String) (tail : List Char) (stop : Nat) :
    (∃ query, afterEquals key tail stop
      = ⟨.value, query, some key, stop - Text.byteLength (Text.trimStart tail), stop⟩) ∨
    ∃ done begun, tail = done ++ begun ∧
      afterEquals key tail stop = typed .conjunction (some key) begun stop := by
  -- Trimming takes away a beginning, and so does finding the end of the literal.
  have hsuffix {rest : List Char} (hrest : rest <:+ Text.trimStart tail) :
      ∃ done, tail = done ++ Text.trimStart rest := by
    obtain ⟨done, hdone⟩ :=
      ((List.dropWhile_suffix Text.isBlank).trans hrest).trans (List.dropWhile_suffix Text.isBlank)
    exact ⟨done, hdone.symm⟩
  unfold afterEquals
  split
  · next hnil =>
    rw [hnil]
    exact .inl ⟨_, rfl⟩
  · next c cs hcons =>
    rw [hcons] at hsuffix ⊢
    split
    · next quote hquote =>
      split
      · exact .inl ⟨_, rfl⟩
      · next body rest hsplit =>
        obtain ⟨-, rfl⟩ := Quote.split?_eq_some_iff.mp hsplit
        have hrest : rest <:+ c :: (body ++ quote.char :: rest) :=
          ⟨c :: (body ++ [quote.char]), by simp⟩
        obtain ⟨done, hdone⟩ := hsuffix hrest
        exact .inr ⟨done, _, hdone, rfl⟩
    · next hquote =>
      split
      · exact .inl ⟨_, rfl⟩
      · next word rest hne hspan =>
        have hword := spanWord_append (c :: cs)
        rw [hspan] at hword
        obtain ⟨done, hdone⟩ := hsuffix ⟨word, hword⟩
        exact .inr ⟨done, _, hdone, rfl⟩

end AfterEquals

end QueryPanel.Slot
