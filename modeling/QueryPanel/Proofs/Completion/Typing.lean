import QueryPanel.Proofs.Clause.Quoted
import QueryPanel.Proofs.Completion.Ranges

/-!
# A literal that is being typed

A value in double quotes is typed character by character, each with the backslash it needs. All the
way the text ends inside the literal, and the slot there knows the characters typed so far; with the
closing mark the clause is over.

> `atEnd_typing`: the slot behind any beginning of a value, and the one behind the whole literal.

Nothing is asked of the value. An open literal is a beginning of the closed one, and where a whole
text has no conjunction, a beginning of it has none (`no_others_of_append`).
-/

namespace QueryPanel.Slot

open Clause (IsKey textOf pieces lastSegment)

section Typing

variable {key literal : List Char}

theorem isBlank_of_mem_space : ∀ c ∈ [' '], Text.isBlank c = true :=
  List.all_eq_true.mp rfl

/-- The equals sign behind a key is found, and the key before it, be it missing or not. -/
theorem ofText_textOf (hkey : IsKey key) (h : (pieces .start (textOf key literal)).2 = []) :
    ofText (textOf key literal)
      = afterEquals (String.ofList key) (' ' :: literal)
          (Text.byteLength (textOf key literal)) := by
  have hbody : Text.trimStart (lastSegment (textOf key literal))
      = Text.trimStart (key ++ [' ']) ++ '=' :: ' ' :: literal := by
    rw [Clause.lastSegment_of_no_others h, Clause.textOf_eq, ← Text.trimStart_append_cons _ rfl]
    simp
  have hplain : ∀ c ∈ Text.trimStart (key ++ [' ']), Scan.IsPlain c := by
    intro c hc
    rcases List.mem_append.mp ((List.dropWhile_suffix _).subset hc) with hc | hc
    · exact Clause.isPlain_of_isKeyChar (hkey.chars c hc)
    · rw [List.mem_singleton.mp hc]
      exact Clause.isPlain_of_isBlank Text.isBlank_space
  have htrim : Text.trim (Text.trimStart (key ++ [' '])) = key := by
    rw [Text.trim, Text.trimStart_trimStart, ← Text.trim, Text.trim_append_blank Text.isBlank_space]
    by_cases hne : key = []
    · rw [hne]
      rfl
    · exact (Text.solid_of_no_blank hne hkey.no_blank).trim_eq
  rw [ofText_of_some hbody (by simp) (Scan.splitAtEquals?_plain hplain _), htrim]

/-- Before the closing mark the slot is a value, and its query what has been typed. -/
theorem ofText_open (hkey : IsKey key) (value : List Char) :
    ofText (textOf key ('"' :: Quote.escape value))
      = ⟨.value, String.ofList value, some (String.ofList key),
          Text.byteLength (key ++ " = ".toList),
          Text.byteLength (textOf key ('"' :: Quote.escape value))⟩ := by
  have hclosed : textOf key ('"' :: Quote.escape value) ++ ['"']
      = textOf key (Quote.quoteDouble value) := by
    simp [textOf, Quote.quoteDouble]
  have hlonger : (pieces .start (textOf key ('"' :: Quote.escape value) ++ ['"'])).2 = [] := by
    rw [hclosed, Clause.pieces_quoted_of_closed hkey.closed]
  have hopen : Quote.double.split? (Quote.escape value) = none :=
    Quote.open_iff.mp (Quote.open_of_encloses (Quote.escaped_escape value))
  have hvalue : Quote.double.value (Quote.escape value) = value := Quote.unescape_escape value
  rw [ofText_textOf hkey (Clause.no_others_of_append hlonger), textOf, ← onRange_append]
  refine (afterEquals_quote isBlank_of_mem_space .double (Quote.escape value)).trans ?_
  rw [hopen, hvalue]
  rfl

/-- Behind it the clause is over. -/
theorem ofText_closed (hkey : IsKey key) (value : List Char) :
    ofText (textOf key (Quote.quoteDouble value))
      = ⟨.conjunction, "", some (String.ofList key),
          Text.byteLength (textOf key (Quote.quoteDouble value)),
          Text.byteLength (textOf key (Quote.quoteDouble value))⟩ := by
  have hno : (pieces .start (textOf key (Quote.quoteDouble value))).2 = [] := by
    rw [Clause.pieces_quoted_of_closed hkey.closed]
  have hencloses : Quote.double.Encloses (Quote.escape value) := Quote.escaped_escape value
  exact (ofText_textOf hkey hno).trans (afterEquals_quoted isBlank_of_mem_space hencloses [])

end Typing

/-- An expression that ends with a literal, or with the beginning of one, behind a key. -/
def withLiteral (front key : String) (literal : List Char) : String :=
  front ++ key ++ " = " ++ String.ofList literal

theorem toList_withLiteral (front key : String) (literal : List Char) :
    (withLiteral front key literal).toList = front.toList ++ textOf key.toList literal := by
  simp [withLiteral, textOf]

/-- At every character of a value the slot is that value as far as it has come, on the range from
the opening mark on; behind the closing mark it is a conjunction. -/
theorem atEnd_typing (front key value : String) (n : Nat) (hfront : ClosedPrefix front.toList)
    (hkey : IsKey key.toList) :
    atEnd (withLiteral front key (Quote.quoteDouble (value.toList.take n)).dropLast)
      = ⟨.value, String.ofList (value.toList.take n), some key,
          Text.byteLength (front ++ key ++ " = ").toList,
          Text.byteLength
            (withLiteral front key (Quote.quoteDouble (value.toList.take n)).dropLast).toList⟩ ∧
    atEnd (withLiteral front key (Quote.quoteDouble value.toList))
      = ⟨.conjunction, "", some key,
          Text.byteLength (withLiteral front key (Quote.quoteDouble value.toList)).toList,
          Text.byteLength (withLiteral front key (Quote.quoteDouble value.toList)).toList⟩ := by
  have hhead : Text.byteLength (front ++ key ++ " = ").toList
      = Text.byteLength (key.toList ++ " = ".toList) + Text.byteLength front.toList := by
    rw [String.toList_append, String.toList_append, List.append_assoc, Text.byteLength_append,
      Nat.add_comm]
  have hlength (literal : List Char) : Text.byteLength (withLiteral front key literal).toList
      = Text.byteLength (textOf key.toList literal) + Text.byteLength front.toList := by
    rw [toList_withLiteral, Text.byteLength_append, Nat.add_comm]
  have hslot (literal : List Char) : atEnd (withLiteral front key literal)
      = (ofText (textOf key.toList literal)).shift (Text.byteLength front.toList) := by
    rw [atEnd_eq, toList_withLiteral,
      ofText_behind hfront (Clause.beginsWithConjunction_textOf hkey literal)]
  have hopened : (Quote.quoteDouble (value.toList.take n)).dropLast
      = '"' :: Quote.escape (value.toList.take n) := by
    rw [Quote.quoteDouble, List.dropLast_concat]
  constructor
  · rw [hslot, hlength, hhead, hopened, ofText_open hkey, String.ofList_toList, shift]
  · rw [hslot, hlength, ofText_closed hkey, String.ofList_toList, shift]

/-- A value with a quote, a backslash, an equals sign and a conjunction in it, typed up to its
backslash behind a text that ends with the word of a conjunction. -/
theorem atEnd_typing_backslash :
    (ClosedPrefix "env = \"a b\" and AND ".toList ∧ IsKey "service.name".toList) ∧
    atEnd "env = \"a b\" and AND service.name = \"x = \\\" AND \\\\"
      = ⟨.value, "x = \" AND \\", some "service.name", 35, 49⟩ ∧
    atEnd "env = \"a b\" and AND service.name = \"x = \\\" AND \\\\y\""
      = ⟨.conjunction, "", some "service.name", 51, 51⟩ := by
  have hfront : ClosedPrefix "env = \"a b\" and AND ".toList :=
    have bare : (Scan.start.run "env = \"a b\" and".toList).isBare = true := by decide
    .conjunction bare
  have hkey : IsKey "service.name".toList := by decide
  obtain ⟨hopen, hclosed⟩ :=
    atEnd_typing "env = \"a b\" and AND " "service.name" "x = \" AND \\y" 11 hfront hkey
  exact ⟨⟨hfront, hkey⟩, hopen, hclosed⟩

end QueryPanel.Slot
