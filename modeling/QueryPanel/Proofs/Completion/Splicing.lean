import QueryPanel.Completion.Editor
import QueryPanel.Proofs.Completion.Slots

/-!
# Splicing

What accepting a suggestion does to an expression, in terms of the parts that the range of the slot
cuts it into: `splice_parts`. The cursor ends up between what has been put in and what stands behind
the range, so the next slot depends on the former only (`slot_ofParts`).
-/

namespace QueryPanel.Editor

/-- An editor with its cursor behind all of its text. -/
def atEnd (text : List Char) : Editor :=
  ofParts text []

theorem slot_ofParts (before after : List Char) :
    (ofParts before after).slot = Slot.ofText before := by
  rw [slot, ofParts, Slot.ofCursor, String.toList_ofList, Text.takeBytes_byteLength]

theorem slot_atEnd (text : List Char) : (atEnd text).slot = Slot.ofText text :=
  slot_ofParts text []

theorem toList_expression_atEnd (text : List Char) : (atEnd text).expression.toList = text := by
  rw [atEnd, ofParts, String.toList_ofList, List.append_nil]

theorem cursor_atEnd (text : List Char) :
    (atEnd text).cursor = Text.byteLength (atEnd text).expression.toList := by
  rw [toList_expression_atEnd]
  rfl

/-- Splicing replaces what stands between the two offsets. -/
theorem splice_parts (front middle after : List Char) (kind : SlotKind) (token : String) :
    splice (String.ofList (front ++ (middle ++ after))) (Text.byteLength front)
        (Text.byteLength (front ++ middle)) kind token
      = match kind with
        | .operator | .conjunction => ofParts (spliceWord front token.toList) (Text.trimStart after)
        | .key | .value => ofParts (spliceTerm front token.toList after) after := by
  have hstop : Text.clampOffset (front ++ (middle ++ after)) (Text.byteLength (front ++ middle))
      = Text.byteLength (front ++ middle) := by
    rw [← List.append_assoc, Text.clampOffset_byteLength]
  have hmax : max (Text.byteLength (front ++ middle)) (Text.byteLength front)
      = Text.byteLength (front ++ middle) := by
    rw [Text.byteLength_append]
    omega
  have hafter : Text.dropBytes (Text.byteLength (front ++ middle)) (front ++ (middle ++ after))
      = after := by
    rw [← List.append_assoc, Text.dropBytes_byteLength]
  unfold splice
  cases kind <;> dsimp only <;> rw [String.toList_ofList, Text.clampOffset_byteLength, hstop, hmax,
    Text.takeBytes_byteLength, hafter]

/-- Accepting a suggestion replaces the range of the slot. -/
theorem accept_parts {slot : Slot} {front middle : List Char}
    (hstart : slot.start = Text.byteLength front)
    (hstop : slot.stop = Text.byteLength (front ++ middle)) (after : List Char) (s : Suggestion) :
    accept (String.ofList (front ++ (middle ++ after))) slot s
      = match s.kind with
        | .operator | .conjunction =>
          ofParts (spliceWord front s.insertText.toList) (Text.trimStart after)
        | .key | .value => ofParts (spliceTerm front s.insertText.toList after) after := by
  rw [accept, hstart, hstop]
  exact splice_parts front middle after s.kind s.insertText

/-- The range of a slot for what has been typed of it begins where that does. -/
theorem start_typed (kind : SlotKind) (key : Option String) (front typed : List Char) :
    (Slot.typed kind key typed (Text.byteLength (front ++ typed))).start
      = Text.byteLength front := by
  rw [Slot.typed, Text.byteLength_append, Nat.add_sub_cancel]

theorem accept_typed (front typed : List Char) (kind : SlotKind) (key : Option String)
    (s : Suggestion) :
    accept (atEnd (front ++ typed)).expression
        (Slot.typed kind key typed (Text.byteLength (front ++ typed))) s
      = match s.kind with
        | .operator | .conjunction => atEnd (spliceWord front s.insertText.toList)
        | .key | .value => atEnd (spliceTerm front s.insertText.toList []) := by
  rw [atEnd, ofParts, List.append_assoc, accept_parts (start_typed kind key front typed) rfl]
  cases s.kind <;> rfl

/-- An operator or conjunction behind a word and a blank gets that blank and one more. -/
theorem spliceWord_append_blank (front : List Char) {word : List Char} (h : Text.Solid word)
    (token : List Char) :
    spliceWord (front ++ (word ++ [' '])) token = front ++ (word ++ ' ' :: (token ++ [' '])) := by
  have htrim : Text.trimEnd (front ++ (word ++ [' '])) = front ++ word := by
    rw [← List.append_assoc, Text.trimEnd_append_blank Text.isBlank_space, h.trimEnd_append]
  have hne : (front ++ word).isEmpty = false := by
    rw [List.isEmpty_eq_false_iff]
    exact List.append_ne_nil_of_right_ne_nil front h.ne_nil
  rw [spliceWord, htrim, hne]
  simp [gap]

end QueryPanel.Editor
