import QueryPanel.Proofs.Completion.Offers
import QueryPanel.Proofs.Completion.Splicing

/-!
# The clause behind an accepted conjunction

Behind a finished literal the conjunction is offered, and it is put there with a blank on each side.
The cutting takes it for one if the scan of the text before it is outside every literal, and only
then does the cursor come to the beginning of a new clause:

> `conjunction_begins_clause_iff`: accepting the conjunction leads to an empty key slot exactly
> where the scan of the text before what has been typed of it is outside every literal.

Behind a clause that is read that is so (`isBare_run_of_ofText?`), with one exception, about which
the slot and the scan differ. To the slot a bare value goes on to the next blank, whatever it is
made of. To the scan a quote behind an equals sign opens a literal, also where the equals sign is a
part of such a value: `conjunction_within_literal`.
-/

namespace QueryPanel

/-! ## A conjunction at the end of a text -/

namespace Clause

variable {front : List Char}

theorem lastSegment_conjunction (h : (Scan.start.run front).isBare = true) :
    lastSegment (front ++ " AND ".toList) = [' '] := by
  have hrun : Scan.start.run (front ++ [' ']) = .bare (some ' ') := by
    rw [Scan.run_append]
    exact step_of_blank h Text.isBlank_space
  have hseam := seam_of_not_letter (toLower_not_mem_of_blank Text.isBlank_space) .start front
    "AND ".toList
  have hlast : (pieces (Scan.start.run (front ++ [' '])) "AND ".toList).2.getLast?
      = some "AND ".toList := by
    rw [hrun]
    rfl
  have hsegment := lastSegment_append hseam hlast
  rwa [List.append_assoc] at hsegment

/-- A word of three letters with nothing but blanks behind it is the one that the text ends with. -/
theorem eq_of_word_at_end {before word blanks : List Char} (hword : Text.Solid word)
    (hlength : word.length = 3) (hblanks : ∀ c ∈ blanks, Text.isBlank c = true)
    (h : front ++ " AND ".toList = before ++ word ++ blanks) : front ++ [' '] = before := by
  have hAND : Text.Solid "AND".toList := ⟨⟨'A', _, rfl, rfl⟩, ⟨['A', 'N'], 'D', rfl, rfl⟩⟩
  -- Both words end where the blanks at the end of the text begin.
  have hends : front ++ [' '] ++ "AND".toList = before ++ word := by
    calc front ++ [' '] ++ "AND".toList
        = Text.trimEnd (front ++ [' '] ++ "AND".toList ++ [' ']) := by
          rw [Text.trimEnd_append_blank Text.isBlank_space, hAND.trimEnd_append]
      _ = Text.trimEnd (before ++ word ++ blanks) := by
          rw [← h]
          simp
      _ = before ++ word := by
          rw [Text.trimEnd_append_blanks _ hblanks, hword.trimEnd_append]
  exact (List.append_inj' hends hlength.symm).1

/-- Nothing but blanks stands in the last segment of a text that ends with the word exactly if the
word is a conjunction there. -/
theorem trimStart_lastSegment_conjunction_iff :
    Text.trimStart (lastSegment (front ++ " AND ".toList)) = []
      ↔ (Scan.start.run front).isBare = true := by
  constructor
  · intro hempty
    cases hlast : (pieces .start (front ++ " AND ".toList)).2.getLast? with
    | none =>
      -- Without a conjunction, all of the text is in the last segment.
      have hflat := flatten_pieces .start (front ++ " AND ".toList)
      rw [List.getLast?_eq_none_iff.mp hlast, List.flatten_nil, List.append_nil] at hflat
      rw [lastSegment, hlast] at hempty
      dsimp only at hempty
      rw [hflat, Text.trimStart_eq_nil_iff, List.all_append, Bool.and_eq_true] at hempty
      cases hempty.2
    | some last =>
      obtain ⟨before, htext, hstarts⟩ := exists_front_of_last_piece hlast
      rw [startsConjunction_eq, Bool.and_eq_true_iff] at hstarts
      obtain ⟨hafter, hbegins⟩ := hstarts
      obtain ⟨a, n, d, b, rest, rfl, hletters, hb⟩ := letters_of_beginsWithConjunction hbegins
      rw [lastSegment, hlast] at hempty
      have hblanks : ∀ c ∈ b :: rest, Text.isBlank c = true := by
        rwa [← List.all_eq_true, ← Text.trimStart_eq_nil_iff]
      have hword : Text.Solid [a, n, d] :=
        Text.solid_of_no_blank (List.cons_ne_nil a _) hletters
      have hends : front ++ " AND ".toList = before ++ [a, n, d] ++ b :: rest := by
        rw [htext]
        simp
      have hfront := eq_of_word_at_end hword rfl hblanks hends
      have hbare := Scan.isBare_of_isAfterBlank hafter
      rw [← hfront, Scan.run_append] at hbare
      rwa [Scan.isBare_run_of_blanks _ (by simp [Text.isBlank_space])] at hbare
  · intro hbare
    rw [lastSegment_conjunction hbare]
    rfl

/-- Behind a clause that is read the scan is outside every literal, unless the value is a bare one
in which a quote stands behind an equals sign. -/
theorem isBare_run_of_ofText? {text clause key : List Char} {literal : Literal}
    (hlast : (split text).getLast? = some clause)
    (hread : ofText? clause = some ⟨key, literal⟩)
    (hopen : ∀ value, literal = .bare value →
      ∀ quote : Quote, ¬ ['=', quote.char] <:+: value) :
    (Scan.start.run text).isBare = true := by
  obtain ⟨head, body, -, hspells, rfl⟩ := ofText?_eq_some_iff.mp hread
  obtain ⟨-, blanks, hclause, hblanks⟩ := exists_blanks_of_getLast?_split hlast
  obtain ⟨before, htext, hfresh⟩ := exists_front text
  have hne : head.text ≠ [] := by simp [Head.text]
  rw [hclause] at htext
  rw [htext, Scan.run_append, Scan.run_append, Scan.isBare_run_of_blanks _ hblanks,
    Scan.run_append, Scan.run_of_isFresh hfresh hne]
  exact isBare_run_spelled head.isFresh_run_text hspells hopen

end Clause

/-! ## The slots before and after -/

namespace Slot

variable {text : List Char}

/-- The slot of a clause of which nothing stands there. -/
theorem ofText_eq_empty_key_iff :
    ofText text = typed .key none [] (Text.byteLength text)
      ↔ Text.trimStart (Clause.lastSegment text) = [] := by
  constructor
  · intro h
    by_contra hne
    cases hsplit : Scan.start.splitAtEquals? (Text.trimStart (Clause.lastSegment text)) with
    | some parts =>
      rw [ofText_of_some rfl hne hsplit] at h
      rcases afterEquals_cases (String.ofList (Text.trim parts.1)) parts.2 (Text.byteLength text)
        with ⟨query, heq⟩ | ⟨done, begun, -, heq⟩
      · rw [heq] at h
        cases congrArg Slot.kind h
      · rw [heq] at h
        cases congrArg Slot.kind h
    | none =>
      rw [ofText_of_none rfl hne hsplit] at h
      unfold beforeEquals at h
      split at h
      · exact hne (String.ofList_injective (congrArg Slot.query h))
      · cases congrArg Slot.kind h
  · intro h
    unfold ofText
    dsimp only
    rw [h]
    rfl

end Slot

namespace Editor

variable {e : Editor} {c : Completer} {scope : Scope} {catalogs : Catalogs} {s : Suggestion}

/-- Where a conjunction may stand, a clause with an equals sign stands before what has been typed of
the conjunction. -/
theorem exists_parts_of_conjunction (h : e.slot.kind = .conjunction) :
    ∃ (before begun after : List Char) (key : Option String),
      e.expression = String.ofList (before ++ (begun ++ after)) ∧ '=' ∈ before ∧
      e.slot = Slot.typed .conjunction key begun (Text.byteLength (before ++ begun)) := by
  have hparts := Text.takeBytes_append_dropBytes e.cursor e.expression.toList
  obtain ⟨front, key, tail, htext, hcompared⟩ := Slot.exists_compared_of_kind (.inr h)
  have hslot : e.slot = Slot.ofText (Text.takeBytes e.cursor e.expression.toList) := rfl
  rw [htext, Slot.ofText_compared hcompared] at hslot
  rcases Slot.afterEquals_cases (String.ofList (Text.trim key)) tail
    (Text.byteLength (front ++ (key ++ '=' :: tail))) with ⟨query, heq⟩ | ⟨done, begun, rfl, heq⟩
  · rw [hslot, heq] at h
    cases h
  · have hbefore : front ++ (key ++ '=' :: (done ++ begun))
        = front ++ (key ++ '=' :: done) ++ begun := by simp
    rw [heq, hbefore] at hslot
    refine ⟨front ++ (key ++ '=' :: done), begun, Text.dropBytes e.cursor e.expression.toList, _,
      ?_, by simp, hslot⟩
    rw [← List.append_assoc, ← hbefore, ← htext, hparts, String.ofList_toList]

/-- Where a conjunction may stand and is accepted, the cursor comes to the beginning of a new clause
if and only if the scan of the text before the conjunction ends outside every literal. -/
theorem conjunction_begins_clause_iff (hkind : e.slot.kind = .conjunction)
    (hs : s ∈ e.suggestions c scope catalogs) :
    (accept e.expression e.slot s).slot
        = ⟨.key, "", none, (accept e.expression e.slot s).cursor,
            (accept e.expression e.slot s).cursor⟩
      ↔ (Scan.start.run (Text.takeBytes e.slot.start e.expression.toList)).isBare = true := by
  obtain ⟨before, begun, after, key, hexpression, hsign, hslot⟩ := exists_parts_of_conjunction hkind
  obtain ⟨blanks, hbefore, hblanks⟩ := Text.exists_trimEnd_append_blanks before
  -- With the equals sign in it, the text before the conjunction is not all blank.
  have hne : (Text.trimEnd before).isEmpty = false := by
    rw [List.isEmpty_eq_false_iff]
    intro hnil
    rw [hnil, List.nil_append] at hbefore
    rw [hbefore] at hsign
    cases hblanks '=' hsign
  have hword : spliceWord before "AND".toList = Text.trimEnd before ++ " AND ".toList := by
    rw [spliceWord, hne]
    simp [gap]
  have hstart : e.slot.start = Text.byteLength before := by rw [hslot, start_typed]
  have hstop : e.slot.stop = Text.byteLength (before ++ begun) := by rw [hslot, Slot.typed]
  have hnext : accept e.expression e.slot s
      = ofParts (Text.trimEnd before ++ " AND ".toList) (Text.trimStart after) := by
    rw [Completer.eq_conjunction_of_mem hkind hs, hexpression, accept_parts hstart hstop, ← hword]
    rfl
  have htake : Text.takeBytes e.slot.start e.expression.toList = before := by
    rw [hstart, hexpression, String.toList_ofList, Text.takeBytes_byteLength]
  calc (accept e.expression e.slot s).slot
        = ⟨.key, "", none, (accept e.expression e.slot s).cursor,
            (accept e.expression e.slot s).cursor⟩
      ↔ Slot.ofText (Text.trimEnd before ++ " AND ".toList)
          = Slot.typed .key none []
              (Text.byteLength (Text.trimEnd before ++ " AND ".toList)) := by
        rw [hnext, slot_ofParts]
        rfl
    _ ↔ (Scan.start.run (Text.trimEnd before)).isBare = true := by
        rw [Slot.ofText_eq_empty_key_iff, Clause.trimStart_lastSegment_conjunction_iff]
    _ ↔ (Scan.start.run (Text.takeBytes e.slot.start e.expression.toList)).isBare = true := by
        rw [htake, hbefore, Scan.run_append, Scan.isBare_run_of_blanks _ hblanks, ← hbefore]

/-- Half a conjunction behind a quoted value, with another clause behind the cursor. -/
def halfTyped : Editor :=
  ⟨"service.name = \"a AND b\" an  severity = error", 27⟩

theorem conjunction_begins_clause_half_typed :
    halfTyped.slot.kind = .conjunction ∧
      Completer.conjunction ∈ halfTyped.suggestions ⟨8, []⟩ .logs {} ∧
      (accept halfTyped.expression halfTyped.slot Completer.conjunction).expression
        = "service.name = \"a AND b\" AND severity = error" ∧
      (accept halfTyped.expression halfTyped.slot Completer.conjunction).slot
        = ⟨.key, "", none, 29, 29⟩ := by
  have hkind : halfTyped.slot.kind = .conjunction := by decide +kernel
  have hs : Completer.conjunction ∈ halfTyped.suggestions ⟨8, []⟩ .logs {} := by
    rw [suggestions, Completer.suggest_of_ordered (by decide +kernel)]
    decide +kernel
  have hnext := (conjunction_begins_clause_iff hkind hs).mpr (by decide +kernel)
  have haccept : accept halfTyped.expression halfTyped.slot Completer.conjunction
      = ⟨"service.name = \"a AND b\" AND severity = error", 29⟩ := by decide +kernel
  rw [haccept] at hnext ⊢
  exact ⟨hkind, hs, rfl, hnext⟩

/-- A bare value with an equals sign and a quote in it, and a blank behind it. -/
def quoteInValue : Editor :=
  ⟨"service.name = a=\"b ", 20⟩

/-- The conjunction is offered behind that value, and accepted it stands inside a literal that the
scan sees there. -/
theorem conjunction_within_literal :
    quoteInValue.slot = ⟨.conjunction, "", some "service.name", 20, 20⟩ ∧
      Completer.conjunction ∈ quoteInValue.suggestions ⟨8, []⟩ .traces {} ∧
      accept quoteInValue.expression quoteInValue.slot Completer.conjunction
        = ⟨"service.name = a=\"b AND ", 24⟩ ∧
      (accept quoteInValue.expression quoteInValue.slot Completer.conjunction).slot
        = ⟨.conjunction, "AND ", some "service.name", 20, 24⟩ := by
  have hs : Completer.conjunction ∈ quoteInValue.suggestions ⟨8, []⟩ .traces {} := by
    rw [suggestions, Completer.suggest_of_ordered (by decide +kernel)]
    decide +kernel
  exact ⟨by decide +kernel, hs, by decide +kernel, by decide +kernel⟩

end Editor

end QueryPanel
