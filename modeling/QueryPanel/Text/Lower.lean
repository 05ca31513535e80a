import QueryPanel.Text.Blank
import QueryPanel.Text.LowerTable
import QueryPanel.Text.CaseClass

/-!
# Lower case

Full Unicode lower-casing of a text. Every character is mapped on its own, with two exceptions to
the simple mapping: U+0130 becomes two characters, and a capital sigma takes its final form at the
end of a word.
-/

namespace QueryPanel.Text

/-- A letter of some case. -/
def isCased (c : Char) : Bool :=
  inRanges casedRanges c.toNat

/-- A character that is looked through when the neighbours of a letter are wanted. -/
def isCaseIgnorable (c : Char) : Bool :=
  inRanges caseIgnorableRanges c.toNat

/-- The lower case of one character, whatever stands around it. -/
def lowerChar (c : Char) : List Char :=
  if c.toNat < 0x80 then [c.toLower]
  else if c.toNat = 0x130 then ['i', '\u0307']
  else [Char.ofNat ((lowerRuns.findSome? (·.map? c.toNat)).getD c.toNat)]

/-- A letter comes first once the case-ignorable characters are skipped. -/
def meetsLetter (cs : List Char) : Bool :=
  match cs.dropWhile isCaseIgnorable with
  | [] => false
  | c :: _ => isCased c

/-- A word ends between the characters `before` (nearest first) and `after`: there is a letter on
the left and none on the right. -/
def isWordEnd (before after : List Char) : Bool :=
  meetsLetter before && !meetsLetter after

/-- Lower case of a text that follows the characters `before`, nearest first. -/
def lowerAfter : (before : List Char) → List Char → List Char
  | _, [] => []
  | before, c :: rest =>
    (if c = 'Σ' then [if isWordEnd before rest then 'ς' else 'σ'] else lowerChar c)
      ++ lowerAfter (c :: before) rest

/-- The text in lower case. -/
def lower (cs : List Char) : List Char :=
  lowerAfter [] cs

/-- `lower` on strings. -/
def lowered (s : String) : String :=
  String.ofList (lower s.toList)

/-- The form in which a name is looked up: without the blanks around it, and in lower case. -/
def plainName (s : String) : String :=
  lowered (trimmed s)

/-- Only the empty text is empty in lower case. -/
theorem lower_eq_nil_iff {cs : List Char} : lower cs = [] ↔ cs = [] := by
  cases cs with
  | nil => simp [lower, lowerAfter]
  | cons c cs =>
    have h : lowerChar c ≠ [] := by
      unfold lowerChar
      split
      · simp
      · split <;> simp
    unfold lower lowerAfter
    split <;> simp [h]

theorem lowered_eq_empty_iff {s : String} : lowered s = "" ↔ s = "" := by
  unfold lowered
  rw [String.ofList_eq_empty_iff, lower_eq_nil_iff, String.toList_eq_nil_iff]

end QueryPanel.Text
