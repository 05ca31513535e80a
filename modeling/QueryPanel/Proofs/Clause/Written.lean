import QueryPanel.Filter.Text
import QueryPanel.Proofs.Clause.Scanning

/-!
# Clauses as they are written

A written clause is a key, ` = ` and a literal: any value at all in double quotes, or a word over
the characters that keys are made of. Reading gives back its two parts (`ofText?_written`), and the
text of it is `Whole`: nothing that a value may contain, be it quotes, backslashes, line feeds,
equals signs or the conjunction itself, is taken for more than a part of it.

Whole texts joined by conjunctions fall apart into exactly those texts
(`map_trim_segments_joinClauses`), whatever the last of them is still growing into. For texts that
may have conjunctions in them it is enough to be `Sealed`: they are cut where each is cut alone.
-/

namespace QueryPanel.Clause

/-! ## Words -/

/-- A text over the characters of keys, other than the conjunction. A key that is still missing is
one as well. -/
structure IsKey (cs : List Char) : Prop where
  chars : ∀ c ∈ cs, isKeyChar c = true
  notConjunction : Text.eqIgnoreCase cs ['a', 'n', 'd'] = false

instance (cs : List Char) : Decidable (IsKey cs) :=
  decidable_of_iff (cs.all isKeyChar = true ∧ Text.eqIgnoreCase cs ['a', 'n', 'd'] = false)
    ⟨fun ⟨hall, hand⟩ => ⟨List.all_eq_true.mp hall, hand⟩,
      fun h => ⟨List.all_eq_true.mpr h.chars, h.notConjunction⟩⟩

/-- A word over the characters of keys, other than the conjunction. -/
structure IsWord (cs : List Char) : Prop where
  nonempty : cs ≠ []
  chars : ∀ c ∈ cs, isKeyChar c = true
  notConjunction : Text.eqIgnoreCase cs ['a', 'n', 'd'] = false

instance (cs : List Char) : Decidable (IsWord cs) :=
  decidable_of_iff (cs ≠ [] ∧ cs.all isKeyChar = true ∧
      Text.eqIgnoreCase cs ['a', 'n', 'd'] = false)
    ⟨fun ⟨hne, hall, hand⟩ => ⟨hne, List.all_eq_true.mp hall, hand⟩,
      fun h => ⟨h.nonempty, List.all_eq_true.mpr h.chars, h.notConjunction⟩⟩

namespace IsWord

variable {cs : List Char}

theorem no_blank (h : IsWord cs) : ∀ c ∈ cs, Text.isBlank c = false := by
  intro c hc
  exact not_blank_of_isKeyChar (h.chars c hc)

theorem solid (h : IsWord cs) : Text.Solid cs :=
  Text.solid_of_no_blank h.nonempty h.no_blank

theorem isKey (h : IsWord cs) : IsKey cs :=
  ⟨h.chars, h.notConjunction⟩

end IsWord

/-! ## Literals -/

/-- A literal as it is written: a value in double quotes, or a word. -/
inductive Written : List Char → Literal → Prop
  | quoted (value : List Char) :
    Written (Quote.quoteDouble value) (.quoted .double (Quote.escape value))
  | word {text : List Char} (h : IsWord text) : Written text (.bare text)

/-- The text of a clause. -/
def textOf (key literal : List Char) : List Char :=
  key ++ " = ".toList ++ literal

theorem textOf_eq (key text : List Char) : textOf key text = key ++ ' ' :: '=' :: ' ' :: text := by
  rw [textOf, List.append_assoc]
  rfl

/-- Escaping puts a backslash before backslashes and double quotes only. -/
theorem escapesLineFeed_escape (cs : List Char) :
    escapesLineFeed (Quote.escape cs) = false := by
  induction cs with
  | nil => rfl
  | cons c cs ih =>
    by_cases h : c = '\\' ∨ c = '"'
    · have notLineFeed : (c == '\n') = false := by rcases h with rfl | rfl <;> decide
      rw [Quote.escape, if_pos h, escapesLineFeed, notLineFeed, ih]
      rfl
    · have notBackslash : c ≠ '\\' := fun hc => h (.inl hc)
      rw [Quote.escape, if_neg h]
      unfold escapesLineFeed
      split
      · rfl
      · next heq =>
        exact absurd (List.cons.inj heq).1 notBackslash
      · next heq =>
        rw [← (List.cons.inj heq).2]
        exact ih

theorem Written.spells {text : List Char} {literal : Literal} (h : Written text literal) :
    Spells text literal := by
  cases h with
  | quoted value =>
    have hencloses : Quote.double.Encloses (Quote.escape value) := Quote.escaped_escape value
    refine .quoted hencloses ?_
    rw [escapesLineFeed_escape]
    exact fun hfeed => Bool.false_ne_true hfeed.2
  | word h =>
    obtain ⟨c, cs, rfl⟩ := List.exists_cons_of_ne_nil h.nonempty
    have hkey : isKeyChar c = true := h.chars c List.mem_cons_self
    refine .bare ?_ h.no_blank
    rw [Quote.ofChar?, if_neg (ne_of_isKeyChar hkey rfl), if_neg (ne_of_isKeyChar hkey rfl)]

theorem Written.solid {text : List Char} {literal : Literal} (h : Written text literal) :
    Text.Solid text :=
  h.spells.solid

/-- No quote stands in a written word. -/
theorem Written.no_opening {text : List Char} {literal : Literal} (h : Written text literal)
    (value : List Char) (hvalue : literal = .bare value) (quote : Quote) :
    ¬ ['=', quote.char] <:+: value := by
  cases h with
  | quoted value => cases hvalue
  | word h =>
    cases hvalue
    intro hpart
    have hsign : isKeyChar '=' = true := h.chars '=' (hpart.subset List.mem_cons_self)
    cases hsign

/-- The head of a written clause. -/
def IsWord.head {key : List Char} (h : IsWord key) : Head where
  key := key
  before := [' ']
  behind := [' ']
  key_ne_nil := h.nonempty
  isKeyChar_key := h.chars
  isBlank_before := List.all_eq_true.mp rfl
  isBlank_behind := List.all_eq_true.mp rfl

theorem IsWord.head_text_append {key : List Char} (h : IsWord key) (text : List Char) :
    h.head.text ++ text = textOf key text := by
  simp [head, Head.text, textOf_eq]

/-- Reading a written clause gives back its key and its literal. -/
theorem ofText?_written {key text : List Char} {literal : Literal} (hk : IsWord key)
    (h : Written text literal) : ofText? (textOf key text) = some ⟨key, literal⟩ :=
  ofText?_eq_some_iff.mpr ⟨hk.head, text, rfl, h.spells, (hk.head_text_append text).symm⟩

/-! ## Conjunctions around a written clause -/

/-- A key with a blank behind it is no conjunction, as it is another word. -/
theorem beginsWithConjunction_key {key : List Char} (hk : IsKey key) (rest : List Char) :
    beginsWithConjunction (key ++ ' ' :: rest) = false := by
  match key, hk with
  | [], _ => exact beginsWithConjunction_blank_within Text.isBlank_space _ (by simp) _
  | [_], _ => exact beginsWithConjunction_blank_within Text.isBlank_space _ (by simp) _
  | [_, _], _ => exact beginsWithConjunction_blank_within Text.isBlank_space _ (by simp) _
  | [a, n, d], hk =>
    change (Text.eqIgnoreCase [a, n, d] ['a', 'n', 'd'] && _) = false
    rw [hk.notConjunction, Bool.false_and]
  | a :: n :: d :: b :: key, hk =>
    change (_ && Text.isBlank b) = false
    rw [not_blank_of_isKeyChar (hk.chars b (by simp)), Bool.and_false]

theorem beginsWithConjunction_textOf {key : List Char} (hk : IsKey key) (text : List Char) :
    beginsWithConjunction (textOf key text) = false := by
  rw [textOf_eq]
  exact beginsWithConjunction_key hk _

/-- A key that is no conjunction, with a blank before the sign, begins none. -/
theorem Head.beginsWithConjunction_text (head : Head) (hkey : IsKey head.key)
    (hbefore : head.before ≠ []) (rest : List Char) :
    beginsWithConjunction (head.text ++ rest) = false := by
  obtain ⟨b, bs, hbs⟩ := List.exists_cons_of_ne_nil hbefore
  have hb : Text.isBlank b = true := head.isBlank_before b (hbs ▸ List.mem_cons_self)
  rw [head.text_append, hbs, List.append_assoc, List.cons_append,
    beginsWithConjunction_blank hb Text.isBlank_space _ _ []]
  exact beginsWithConjunction_key hkey []

/-- A word with blanks around it, the sign and a blank are blanks and a head. -/
theorem exists_head_of_trim {key : List Char} (h : IsWord (Text.trim key)) :
    ∃ (lead : List Char) (head : Head), (∀ c ∈ lead, Text.isBlank c = true) ∧
      head.key = Text.trim key ∧ head.before ≠ [] ∧ head.behind = [' '] ∧
      ∀ literal, textOf key literal = lead ++ (head.text ++ literal) := by
  have hspace : ∀ c ∈ [' '], Text.isBlank c = true := List.all_eq_true.mp rfl
  obtain ⟨lead, before, htext, hlead, hbefore⟩ := Text.exists_trim key
  have hblank : ∀ c ∈ before ++ [' '], Text.isBlank c = true := fun c hc =>
    (List.mem_append.mp hc).elim (hbefore c) (hspace c)
  refine ⟨lead, ⟨Text.trim key, before ++ [' '], [' '], h.nonempty, h.chars, hblank, hspace⟩,
    hlead, rfl, List.concat_ne_nil _ _, rfl, ?_⟩
  intro literal
  rw [textOf_eq]
  conv_lhs => rw [htext]
  simp [Head.text]

theorem eqIgnoreCase_of_length_ne {xs ys : List Char} (h : xs.length ≠ ys.length) :
    Text.eqIgnoreCase xs ys = false := by
  rw [Text.eqIgnoreCase, beq_eq_false_iff_ne]
  intro heq
  have := congrArg List.length heq
  rw [List.length_map, List.length_map] at this
  exact h this

/-- What stands behind the last blank of a text decides whether the text ends with the word. -/
theorem endsWithConjunction_append_blank {front word : List Char}
    (h : ∀ c ∈ word, Text.isBlank c = false) :
    endsWithConjunction (front ++ ' ' :: word) = Text.eqIgnoreCase word ['a', 'n', 'd'] := by
  obtain ⟨back, rfl⟩ : ∃ back : List Char, word = back.reverse := ⟨word.reverse, by simp⟩
  rw [endsWithConjunction, List.reverse_append, List.reverse_cons, List.reverse_reverse]
  -- A word of another length leaves a blank among the last three characters, or none before them.
  rcases back with _ | ⟨d, _ | ⟨n, _ | ⟨a, _ | ⟨b, back⟩⟩⟩⟩
  · rw [eqIgnoreCase_of_length_ne (by simp)]
    rcases front.reverse with _ | ⟨n, _ | ⟨a, _ | ⟨b, rest⟩⟩⟩
    · rfl
    · rfl
    · rfl
    · simp [Text.eqIgnoreCase]
  · rw [eqIgnoreCase_of_length_ne (by simp)]
    rcases front.reverse with _ | ⟨a, _ | ⟨b, rest⟩⟩
    · rfl
    · rfl
    · simp [Text.eqIgnoreCase]
  · rw [eqIgnoreCase_of_length_ne (by simp)]
    rcases front.reverse with _ | ⟨b, rest⟩
    · rfl
    · simp [Text.eqIgnoreCase]
  · simp [Text.isBlank_space]
  · have hb : Text.isBlank b = false := h b (by simp)
    rw [eqIgnoreCase_of_length_ne (by simp)]
    simp [hb]

/-- The word ends with its own last letter. -/
theorem endsWithConjunction_append_of_ne (front : List Char) {c : Char} (h : c.toLower ≠ 'd') :
    endsWithConjunction (front ++ [c]) = false := by
  rw [endsWithConjunction, List.reverse_concat]
  rcases front.reverse with _ | ⟨n, _ | ⟨a, _ | ⟨b, rest⟩⟩⟩
  · rfl
  · rfl
  · rfl
  · simp [Text.eqIgnoreCase, h]

/-! ## Whole texts -/

/-- A text that stays one clause wherever it stands between conjunctions. -/
structure Whole (cs : List Char) : Prop where
  solid : Text.Solid cs
  bare : (Scan.start.run cs).isBare = true
  uncut : pieces .start cs = (cs, [])
  begins : beginsWithConjunction cs = false
  ends : endsWithConjunction cs = false
  long : 4 ≤ cs.length

/-- A written clause is whole. -/
theorem whole_textOf {key text : List Char} {literal : Literal} (hk : IsWord key)
    (h : Written text literal) : Whole (textOf key text) where
  solid := hk.solid.append " = ".toList h.solid
  bare := by
    rw [← hk.head_text_append, Scan.run_append]
    exact isBare_run_spelled hk.head.isFresh_run_text h.spells h.no_opening
  uncut := by
    rw [← hk.head_text_append]
    exact pieces_clause hk.head h.spells
  begins := beginsWithConjunction_textOf hk.isKey text
  ends := by
    cases h with
    | quoted value =>
      rw [textOf, show Quote.quoteDouble value = ('"' :: Quote.escape value) ++ ['"'] from rfl,
        ← List.append_assoc]
      exact endsWithConjunction_append_of_ne _ (by decide)
    | word h =>
      have blank : textOf key text = (key ++ [' ', '=']) ++ ' ' :: text := by simp [textOf]
      rw [blank, endsWithConjunction_append_blank h.no_blank]
      exact h.notConjunction
  long := by
    have hkey := List.length_pos_iff.mpr hk.nonempty
    rw [textOf, List.length_append, List.length_append]
    change 4 ≤ key.length + 3 + text.length
    omega

open FilterFields (joinClauses)

theorem joinClauses_cons (c : List Char) {cs : List (List Char)} (h : cs ≠ []) :
    joinClauses (c :: cs) = c ++ " AND ".toList ++ joinClauses cs := by
  obtain ⟨d, ds, rfl⟩ := List.exists_cons_of_ne_nil h
  rfl

/-- A text that leaves no literal open and makes no conjunction with what stands around it. There
may be conjunctions in it. -/
structure Sealed (cs : List Char) : Prop where
  full : cs.all Text.isBlank = false
  bare : (Scan.start.run cs).isBare = true
  begins : beginsWithConjunction cs = false
  ends : endsWithConjunction cs = false
  long : 4 ≤ cs.length

namespace Whole

variable {c : List Char}

theorem isSealed (h : Whole c) : Sealed c where
  full := by
    have hfull := h.solid.not_all_blank []
    rwa [List.append_nil] at hfull
  bare := h.bare
  begins := h.begins
  ends := h.ends
  long := h.long

theorem split_eq (h : Whole c) : split c = [c] := by
  rw [split, h.isSealed.full, segments, h.uncut]
  simp [h.solid.trim_eq]

end Whole

theorem Sealed.split_eq {c : List Char} (h : Sealed c) : split c = (segments c).map Text.trim :=
  split_of_not_blank h.full

section Joined

variable {cs : List (List Char)} {last : List Char}

theorem beginsWithConjunction_joinClauses (h : ∀ c ∈ cs, Sealed c)
    (begins : beginsWithConjunction last = false) :
    beginsWithConjunction (joinClauses (cs ++ [last])) = false := by
  cases cs with
  | nil => exact begins
  | cons c cs =>
    have hsealed := h c List.mem_cons_self
    rw [List.cons_append, joinClauses_cons c (by simp), List.append_assoc,
      beginsWithConjunction_append hsealed.long]
    exact hsealed.begins

/-- Sealed texts joined by conjunctions, with any text behind the last conjunction, are cut where
each of them is cut alone. -/
theorem map_trim_segments_of_sealed (h : ∀ c ∈ cs, Sealed c)
    (begins : beginsWithConjunction last = false) :
    (segments (joinClauses (cs ++ [last]))).map Text.trim
      = cs.flatMap split ++ (segments last).map Text.trim := by
  induction cs with
  | nil => rfl
  | cons c cs ih =>
    have hsealed := h c List.mem_cons_self
    have others : ∀ d ∈ cs, Sealed d := fun d hd => h d (List.mem_cons_of_mem c hd)
    rw [List.cons_append, joinClauses_cons c (by simp),
      map_trim_segments_join hsealed.bare hsealed.ends
        (beginsWithConjunction_joinClauses others begins), ih others, List.flatMap_cons,
      hsealed.split_eq, List.append_assoc]

/-- Whole texts are not cut at all. -/
theorem flatMap_split_of_whole (h : ∀ c ∈ cs, Whole c) : cs.flatMap split = cs := by
  induction cs with
  | nil => rfl
  | cons c cs ih =>
    rw [List.flatMap_cons, (h c List.mem_cons_self).split_eq,
      ih fun d hd => h d (List.mem_cons_of_mem c hd)]
    rfl

/-- Whole texts joined by conjunctions, with any text behind the last conjunction, are cut into
those texts and the segments of the last. -/
theorem map_trim_segments_joinClauses (h : ∀ c ∈ cs, Whole c)
    (begins : beginsWithConjunction last = false) :
    (segments (joinClauses (cs ++ [last]))).map Text.trim
      = cs ++ (segments last).map Text.trim := by
  rw [map_trim_segments_of_sealed (fun c hc => (h c hc).isSealed) begins, flatMap_split_of_whole h]

/-- A cursor at the end of such a text stands where it does in the last text alone. -/
theorem trimStart_lastSegment_joinClauses (h : ∀ c ∈ cs, Whole c)
    (begins : beginsWithConjunction last = false) :
    Text.trimStart (lastSegment (joinClauses (cs ++ [last])))
      = Text.trimStart (lastSegment last) := by
  induction cs with
  | nil => rfl
  | cons c cs ih =>
    have whole := h c List.mem_cons_self
    have others : ∀ d ∈ cs, Whole d := fun d hd => h d (List.mem_cons_of_mem c hd)
    rw [List.cons_append, joinClauses_cons c (by simp),
      trimStart_lastSegment_join whole.bare
        (beginsWithConjunction_joinClauses (fun d hd => (others d hd).isSealed) begins), ih others]

/-- Sealed texts joined by conjunctions are split where each of them is split alone. -/
theorem split_joinClauses_of_sealed (h : ∀ c ∈ cs, Sealed c) :
    split (joinClauses cs) = cs.flatMap split := by
  rcases List.eq_nil_or_concat cs with rfl | ⟨init, c, rfl⟩
  · rfl
  · rw [List.concat_eq_append] at h ⊢
    have hlast : Sealed c := h c (by simp)
    have others : ∀ d ∈ init, Sealed d := fun d hd => h d (by simp [hd])
    have notBlank : (joinClauses (init ++ [c])).all Text.isBlank = false := by
      cases init with
      | nil => exact hlast.full
      | cons d ds =>
        rw [List.cons_append, joinClauses_cons d (by simp), List.append_assoc, List.all_append,
          (others d List.mem_cons_self).full, Bool.false_and]
    rw [split, notBlank, List.flatMap_append, List.flatMap_singleton, hlast.split_eq]
    exact map_trim_segments_of_sealed others hlast.begins

/-- Whole texts joined by conjunctions are split into those texts. -/
theorem split_joinClauses (h : ∀ c ∈ cs, Whole c) : split (joinClauses cs) = cs := by
  rw [split_joinClauses_of_sealed fun c hc => (h c hc).isSealed, flatMap_split_of_whole h]

end Joined

end QueryPanel.Clause
