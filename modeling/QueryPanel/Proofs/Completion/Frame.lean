import QueryPanel.Proofs.Completion.Splicing
import QueryPanel.Proofs.Text.Slicing

/-!
# Accepting touches only the range

The range of a slot is given in offsets, and nothing says that these belong to the expression: they
may lie behind its end, inside a character or in the wrong order. They are moved onto boundaries of
the expression first, and then it falls into three parts, of which the middle one is replaced
(`exists_parts`). What becomes of the other two depends on the kind of the suggestion, and `Joined`
says it without looking at how it is done: a key or value leaves both as they are and is kept apart
from them; an operator or conjunction takes the blanks around it for its own.

> `accept_replaces_range`: whatever the offsets, the expression becomes what `Joined` says of its
> parts, and the cursor stands between two characters, in front of the part behind the range.
-/

namespace QueryPanel

namespace Text

/-! ## Blanks at the ends of a text -/

/-- The text begins with a blank. -/
def BeginsBlank (cs : List Char) : Prop :=
  ∃ b rest, cs = b :: rest ∧ isBlank b = true

/-- The text ends with a blank. -/
def EndsBlank (cs : List Char) : Prop :=
  ∃ front b, cs = front ++ [b] ∧ isBlank b = true

theorem beginsBlank_iff {cs : List Char} : BeginsBlank cs ↔ cs.head?.any isBlank = true := by
  cases cs with
  | nil => simp [BeginsBlank]
  | cons c cs => simp [BeginsBlank]

theorem endsBlank_iff {cs : List Char} : EndsBlank cs ↔ cs.getLast?.any isBlank = true := by
  rcases List.eq_nil_or_concat cs with rfl | ⟨front, c, rfl⟩
  · simp [EndsBlank]
  · simp [EndsBlank]

/-- A text and what is left of it without the blanks it begins with. -/
structure StartTrimmed (cs kept : List Char) : Prop where
  split : ∃ blanks, cs = blanks ++ kept ∧ ∀ b ∈ blanks, isBlank b = true
  solid : ¬ BeginsBlank kept

/-- A text and what is left of it without the blanks it ends with. -/
structure EndTrimmed (cs kept : List Char) : Prop where
  split : ∃ blanks, cs = kept ++ blanks ∧ ∀ b ∈ blanks, isBlank b = true
  solid : ¬ EndsBlank kept

theorem startTrimmed_trimStart (cs : List Char) : StartTrimmed cs (trimStart cs) := by
  refine ⟨exists_blanks_append_trimStart cs, ?_⟩
  rintro ⟨b, rest, hcons, hb⟩
  -- The blank would be trimmed away.
  have hagain := trimStart_trimStart cs
  have hlength := (List.dropWhile_suffix (l := rest) isBlank).length_le
  rw [hcons, trimStart_cons_blank hb] at hagain
  rw [show rest.dropWhile isBlank = trimStart rest from rfl, hagain, List.length_cons] at hlength
  omega

theorem endTrimmed_trimEnd (cs : List Char) : EndTrimmed cs (trimEnd cs) := by
  refine ⟨exists_trimEnd_append_blanks cs, ?_⟩
  rintro ⟨front, b, hconcat, hb⟩
  have hagain := trimEnd_trimEnd cs
  have hlength : (trimEnd front).length ≤ front.length := by
    obtain ⟨blanks, hfront, -⟩ := exists_trimEnd_append_blanks front
    have := congrArg List.length hfront
    rw [List.length_append] at this
    omega
  rw [hconcat, trimEnd_append_blank hb] at hagain
  rw [hagain, List.length_append, List.length_singleton] at hlength
  omega

/-! ## Two boundaries -/

theorem IsBoundary.max {cs : List Char} {m n : Nat} (hm : IsBoundary cs m) (hn : IsBoundary cs n) :
    IsBoundary cs (max m n) := by
  rcases max_choice m n with h | h
  · rwa [h]
  · rwa [h]

theorem eq_nil_of_byteLength {cs : List Char} (h : byteLength cs = 0) : cs = [] := by
  cases cs with
  | nil => rfl
  | cons c cs =>
    have := c.utf8Size_pos
    rw [byteLength] at h
    omega

/-- Two boundaries cut a text into three parts. -/
theorem exists_parts {cs : List Char} {start stop : Nat} (hstart : IsBoundary cs start)
    (hstop : IsBoundary cs stop) (hle : start ≤ stop) : ∃ before middle after,
      cs = before ++ (middle ++ after) ∧ byteLength before = start ∧
        byteLength (before ++ middle) = stop := by
  obtain ⟨before, rest, rfl, rfl⟩ := hstart
  obtain ⟨front, after, heq, rfl⟩ := hstop
  rcases List.append_eq_append_iff.mp heq with ⟨middle, rfl, rfl⟩ | ⟨middle, rfl, rfl⟩
  · exact ⟨before, middle, after, rfl, rfl, rfl⟩
  · -- The second boundary is not before the first, so there is nothing between them.
    rw [byteLength_append] at hle
    obtain rfl := eq_nil_of_byteLength (show byteLength middle = 0 by omega)
    exact ⟨front, [], rest, by simp, by simp, by simp⟩

end Text

/-! ## What becomes of the parts -/

/-- A blank, in case there has to be one. -/
def IsGap (wanted : Prop) (gap : List Char) : Prop :=
  wanted ∧ gap = [' '] ∨ ¬ wanted ∧ gap = []

/-- What becomes of two parts of a text when a token of a kind is put between them: the text up to
the cursor, and the text behind it. -/
inductive Joined (token before after : List Char) : SlotKind → List Char → List Char → Prop
  /-- A key or value. A blank is put before it unless the text begins there or has one, and behind
  it unless the text goes on with one or the token does not end there. -/
  | term {kind : SlotKind} {gap gap' : List Char} (hkind : kind = .key ∨ kind = .value)
      (hgap : IsGap (before ≠ [] ∧ ¬ Text.EndsBlank before) gap)
      (hgap' : IsGap (token.getLast? ≠ some '.' ∧ ¬ Text.BeginsBlank after) gap') :
      Joined token before after kind (before ++ gap ++ token ++ gap') after
  /-- An operator or conjunction. It has one blank on each side, if there is something before it. -/
  | word {kind : SlotKind} {kept rest gap : List Char}
      (hkind : kind = .operator ∨ kind = .conjunction)
      (hkept : Text.EndTrimmed before kept) (hrest : Text.StartTrimmed after rest)
      (hgap : IsGap (kept ≠ []) gap) :
      Joined token before after kind (kept ++ gap ++ token ++ [' ']) rest

namespace Editor

theorem isGap_gap {wanted : Prop} {b : Bool} (h : b = true ↔ wanted) : IsGap wanted (gap b) := by
  cases b with
  | true => exact .inl ⟨h.mp rfl, rfl⟩
  | false => exact .inr ⟨fun hwanted => Bool.false_ne_true (h.mpr hwanted), rfl⟩

theorem joined_spliceTerm {kind : SlotKind} (hkind : kind = .key ∨ kind = .value)
    (before token after : List Char) :
    Joined token before after kind (spliceTerm before token after) after := by
  unfold spliceTerm
  refine .term hkind (isGap_gap ?_) (isGap_gap ?_)
  · rw [Text.endsBlank_iff]
    rcases List.eq_nil_or_concat before with rfl | ⟨front, c, rfl⟩
    · simp
    · simp
  · rw [Text.beginsBlank_iff]
    simp

theorem joined_spliceWord {kind : SlotKind} (hkind : kind = .operator ∨ kind = .conjunction)
    (before token after : List Char) :
    Joined token before after kind (spliceWord before token) (Text.trimStart after) := by
  unfold spliceWord
  refine .word hkind (Text.endTrimmed_trimEnd before) (Text.startTrimmed_trimStart after)
    (isGap_gap ?_)
  simp

/-! ## Accepting -/

/-- Offsets that have been moved into the expression are not moved again. -/
theorem splice_clamped (expression : String) (start stop : Nat) (kind : SlotKind) (token : String) :
    let first := Text.clampOffset expression.toList start
    let last := max (Text.clampOffset expression.toList stop) first
    splice expression start stop kind token = splice expression first last kind token := by
  intro first last
  have hfirst := Text.isBoundary_clampOffset expression.toList start
  have hlast := (Text.isBoundary_clampOffset expression.toList stop).max hfirst
  unfold splice
  simp only [first, last, Text.isBoundary_iff.mp hfirst, Text.isBoundary_iff.mp hlast,
    max_eq_left (le_max_right _ _)]

/-- What `Joined` says of two parts is what accepting makes of them. -/
theorem exists_joined_accept {expression : String} {before middle after : List Char}
    (hexpression : expression.toList = before ++ (middle ++ after)) {slot : Slot}
    (hbefore : Text.byteLength before = Text.clampOffset expression.toList slot.start)
    (hmiddle : Text.byteLength (before ++ middle)
      = max (Text.clampOffset expression.toList slot.stop)
          (Text.clampOffset expression.toList slot.start)) (s : Suggestion) :
    ∃ front behind, accept expression slot s = ofParts front behind ∧
      Joined s.insertText.toList before after s.kind front behind := by
  have htext : expression = String.ofList (before ++ (middle ++ after)) := by
    rw [← hexpression, String.ofList_toList]
  have hsplice : accept expression slot s = splice expression (Text.byteLength before)
      (Text.byteLength (before ++ middle)) s.kind s.insertText := by
    rw [hbefore, hmiddle]
    exact splice_clamped expression slot.start slot.stop s.kind s.insertText
  rw [hsplice, htext, splice_parts]
  cases hkind : s.kind with
  | key => exact ⟨_, _, rfl, joined_spliceTerm (.inl rfl) before s.insertText.toList after⟩
  | value => exact ⟨_, _, rfl, joined_spliceTerm (.inr rfl) before s.insertText.toList after⟩
  | operator => exact ⟨_, _, rfl, joined_spliceWord (.inl rfl) before s.insertText.toList after⟩
  | conjunction => exact ⟨_, _, rfl, joined_spliceWord (.inr rfl) before s.insertText.toList after⟩

/-- The offsets of the range are moved back onto boundaries of the expression. Between these the
expression is cut, and of the parts outside becomes what `Joined` says, whatever stood between them.
The cursor is at the boundary in front of the second part. -/
theorem accept_replaces_range (expression : String) (slot : Slot) (s : Suggestion) :
    let cs := expression.toList
    let start := Text.floorBoundary cs (min slot.start (Text.byteLength cs))
    let stop := max (Text.floorBoundary cs (min slot.stop (Text.byteLength cs))) start
    let result := accept expression slot s
    ∃ before middle after front behind,
      Text.upTo? cs start = some before ∧ Text.slice? cs start stop = some middle ∧
      Text.from? cs stop = some after ∧ cs = before ++ middle ++ after ∧
      Joined s.insertText.toList before after s.kind front behind ∧
      result.expression.toList = front ++ behind ∧
      Text.upTo? result.expression.toList result.cursor = some front ∧
      Text.from? result.expression.toList result.cursor = some behind := by
  intro cs start stop result
  have hstart : start = Text.clampOffset cs slot.start := Text.floorBoundary_eq cs slot.start
  have hstop : stop = max (Text.clampOffset cs slot.stop) (Text.clampOffset cs slot.start) := by
    rw [← hstart, ← Text.floorBoundary_eq]
  have hfirst := Text.isBoundary_clampOffset cs slot.start
  have hlast := (Text.isBoundary_clampOffset cs slot.stop).max hfirst
  obtain ⟨before, middle, after, hcs, hbefore, hmiddle⟩ :=
    Text.exists_parts hfirst hlast (le_max_right _ _)
  obtain ⟨front, behind, hresult, hjoined⟩ := exists_joined_accept hcs hbefore hmiddle s
  have hcut : cs = before ++ middle ++ after := by rw [hcs, List.append_assoc]
  have htext : result.expression.toList = front ++ behind := by
    rw [show result = ofParts front behind from hresult]
    exact String.toList_ofList
  have hcursor : result.cursor = Text.byteLength front := by
    rw [show result = ofParts front behind from hresult]
    rfl
  rw [hstop, ← hmiddle, hstart, ← hbefore, htext, hcursor]
  refine ⟨before, middle, after, front, behind, ?_, ?_, ?_, hcut, hjoined, rfl, ?_, ?_⟩
  · rw [hcs]
    exact Text.upTo?_append before (middle ++ after)
  · rw [hcut]
    exact Text.slice?_append before middle after
  · rw [hcut]
    exact Text.from?_append (before ++ middle) after
  · exact Text.upTo?_append front behind
  · exact Text.from?_append front behind

/-- A range whose end is inside a character and before its beginning: nothing is replaced. -/
example : accept "é  x" ⟨.key, "", none, 4, 1⟩ ⟨.operator, "=", "=", none⟩ = ⟨"é = x", 5⟩ := by
  decide +kernel

end Editor

end QueryPanel
