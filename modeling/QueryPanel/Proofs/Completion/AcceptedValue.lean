import QueryPanel.Proofs.Completion.Offers
import QueryPanel.Proofs.Completion.Splicing

/-!
# Accepting a value of a catalog

A value of a catalog is inserted in quotes, in place of all that stands behind the equals sign: a
word, a literal that is not closed, conjunctions in it, or nothing. The clause before the sign and
all the clauses before that one are whatever has been typed.

> `accepted_value_is_exact`: behind the value the clause is finished and has the same key, the
> clauses before it are the same, and read on its own it asks for exactly that value.

The literal in quotes has no conjunction in it for a scan that comes from the equals sign
(`no_conjunction_quoted`), so `Compared.exchange` applies.
-/

namespace QueryPanel

open Clause (Compared isKeyChar)

variable {front key behind : List Char}

/-- Behind the equals sign, a value in quotes and a blank hold no conjunction. -/
theorem no_conjunction_quoted (hbehind : ∀ c ∈ behind, Text.isBlank c = true)
    (value : List Char) :
    (Clause.pieces (.bare (some '=')) (behind ++ (Quote.quoteDouble value ++ [' ']))).2 = [] := by
  have hfresh : (Scan.run (.bare (some '=')) behind).isFresh = true :=
    Scan.isFresh_run_of_blanks rfl hbehind
  have hencloses : Quote.double.Encloses (Quote.escape value) := Quote.escaped_escape value
  have hshape : Quote.quoteDouble value ++ [' ']
      = Quote.double.char :: (Quote.escape value ++ Quote.double.char :: [' ']) := by
    simp [Quote.quoteDouble, Quote.char]
  rw [hshape, Clause.pieces_append_of_no_first_letter _ fun c hc =>
    Clause.toLower_ne_of_blank (hbehind c hc), Clause.pieces_quoted hfresh hencloses]
  rfl

/-! ## The slot of a value -/

/-- The range of a value's slot is what stands behind the equals sign, without the blanks there. -/
theorem Slot.exists_parts_of_value {text : List Char} (h : (ofText text).kind = .value) :
    ∃ front key behind typed, text = front ++ (key ++ '=' :: behind) ++ typed ∧
      (∀ c ∈ behind, Text.isBlank c = true) ∧ Compared front key (behind ++ typed) ∧
      (ofText text).key = some (String.ofList (Text.trim key)) ∧
      (ofText text).start = Text.byteLength (front ++ (key ++ '=' :: behind)) ∧
      (ofText text).stop = Text.byteLength (front ++ (key ++ '=' :: behind) ++ typed) := by
  obtain ⟨front, key, tail, rfl, hcompared⟩ := exists_compared_of_kind (.inl h)
  have hslot := ofText_compared hcompared
  rcases afterEquals_cases (String.ofList (Text.trim key)) tail
    (Text.byteLength (front ++ (key ++ '=' :: tail))) with ⟨query, heq⟩ | ⟨done, begun, -, heq⟩
  · obtain ⟨behind, htail, hbehind⟩ := Text.exists_blanks_append_trimStart tail
    have hshape : front ++ (key ++ '=' :: tail)
        = front ++ (key ++ '=' :: behind) ++ Text.trimStart tail := by
      rw [List.append_assoc, List.append_assoc, List.cons_append, ← htail]
    rw [heq] at hslot
    rw [hslot]
    refine ⟨front, key, behind, Text.trimStart tail, hshape, hbehind, ?_, rfl, ?_, ?_⟩
    · rwa [← htail]
    · dsimp only
      rw [hshape, Text.byteLength_append, Nat.add_sub_cancel]
    · rw [← hshape]
  · rw [hslot, heq] at h
    cases h

/-! ## The text with the value -/

/-- A value in quotes is put behind the blanks at the equals sign, of which there is one more if
there was none, and gets a blank behind it. -/
theorem Editor.exists_spliceTerm_value (front key : List Char)
    (hbehind : ∀ c ∈ behind, Text.isBlank c = true) (value : List Char) :
    ∃ behind', (∀ c ∈ behind', Text.isBlank c = true) ∧
      spliceTerm (front ++ (key ++ '=' :: behind)) (Quote.quoteDouble value) []
        = front ++ (key ++ '=' :: (behind' ++ (Quote.quoteDouble value ++ [' ']))) := by
  have hgap (wanted : Bool) : ∀ c ∈ gap wanted, Text.isBlank c = true := by
    cases wanted <;> simp [gap, Text.isBlank_space]
  have hlast : (Quote.quoteDouble value).getLast? = some '"' := by
    rw [Quote.quoteDouble, List.getLast?_concat]
  refine ⟨behind ++ gap ((front ++ (key ++ '=' :: behind)).getLast?.any fun c => !Text.isBlank c),
    ?_, ?_⟩
  · intro c hc
    exact (List.mem_append.mp hc).elim (hbehind c) (hgap _ c)
  · have hend : gap ((Quote.quoteDouble value).getLast? != some '.'
        && !([] : List Char).head?.any Text.isBlank) = [' '] := by
      rw [hlast]
      rfl
    rw [spliceTerm, hend]
    simp

/-- With a value in quotes behind the equals sign and a blank, the clause is finished, and it is the
only one that has changed. -/
theorem Clause.Compared.finished {tail : List Char} (h : Compared front key tail)
    (hbehind : ∀ c ∈ behind, Text.isBlank c = true) (value : List Char) :
    Slot.ofText (front ++ (key ++ '=' :: (behind ++ (Quote.quoteDouble value ++ [' ']))))
        = Slot.typed .conjunction (some (String.ofList (Text.trim key))) []
            (Text.byteLength
              (front ++ (key ++ '=' :: (behind ++ (Quote.quoteDouble value ++ [' ']))))) ∧
      ∃ earlier,
        split (front ++ (key ++ '=' :: tail)) = earlier ++ [Text.trimEnd (key ++ '=' :: tail)] ∧
        split (front ++ (key ++ '=' :: (behind ++ (Quote.quoteDouble value ++ [' ']))))
          = earlier ++ [key ++ '=' :: behind ++ Quote.quoteDouble value] := by
  have hwritten : Written (Quote.quoteDouble value) (.quoted .double (Quote.escape value)) :=
    .quoted value
  obtain ⟨hcompared, earlier, hold, hnew⟩ := h.exchange (no_conjunction_quoted hbehind value)
  have hend : Text.trimEnd (key ++ '=' :: (behind ++ (Quote.quoteDouble value ++ [' '])))
      = key ++ '=' :: behind ++ Quote.quoteDouble value := by
    rw [show key ++ '=' :: (behind ++ (Quote.quoteDouble value ++ [' ']))
      = key ++ '=' :: behind ++ Quote.quoteDouble value ++ [' '] by simp,
      Text.trimEnd_append_blank Text.isBlank_space, hwritten.solid.trimEnd_append]
  refine ⟨?_, earlier, hold, ?_⟩
  · rw [Slot.ofText_compared hcompared,
      Slot.afterEquals_spelled hbehind hwritten.spells Text.isBlank_space]
    rfl
  · rw [hnew, hend]

/-! ## The value that is read -/

/-- The clause of a quoted offer asks for exactly the value, if its key is made of the characters of
keys and names an attribute by more than the head. -/
theorem read_quotedOffer {tail : List Char} (h : Compared front key tail)
    (hbehind : ∀ c ∈ behind, Text.isBlank c = true) {s : Suggestion}
    (hs : Completer.QuotedOffer (String.ofList (Text.trim key)) s)
    (hchars : ∀ c ∈ Text.trim key, isKeyChar c = true)
    (hattr : FilterKey.normalize (String.ofList (Text.trim key)) ≠ FilterKey.attributeHead)
    (hresource : FilterKey.normalize (String.ofList (Text.trim key)) ≠ FilterKey.resourceHead) :
    ∃ k fields, FilterKey.classify (String.ofList (Text.trim key)) = some k ∧
      FilterFields.holding? s.label k = some fields ∧
      FilterFields.read (String.ofList (key ++ '=' :: behind ++ Quote.quoteDouble s.label.toList))
        = ⟨fields, false⟩ := by
  obtain ⟨k, fields, hclassify, hfields⟩ := hs.holds
  -- The empty key is none, so there is a key before the equals sign.
  have hne : Text.trim key ≠ [] := by
    intro hnil
    have hnone : FilterKey.classify (String.ofList []) = none := by decide +kernel
    rw [hnil, hnone] at hclassify
    cases hclassify
  obtain ⟨head, hkey, htext⟩ := h.exists_head hne hchars hbehind
  refine ⟨k, fields, hclassify, hfields, ?_⟩
  rw [← htext]
  refine FilterFields.read_head_quoteDouble head hs.nonempty (hkey ▸ hclassify) ?_ ?_ hfields
  · rintro rfl
    exact hattr (FilterKey.ofNormal?_eq_attr_iff.mp hclassify)
  · rintro rfl
    exact hresource (FilterKey.ofNormal?_eq_resource_iff.mp hclassify)

namespace Editor

variable {expression k : String} {c : Completer} {scope : Scope} {catalogs : Catalogs}
  {s : Suggestion}

/-- At the end of any expression, accepting a catalog's value in quotes finishes the clause under
the cursor and leaves the clauses before it as they were; and read on its own, the clause asks for
exactly that value, at the field that its key names. -/
theorem accepted_value_is_exact (hkind : (Slot.atEnd expression).kind = .value)
    (hkey : (Slot.atEnd expression).key = some k)
    (hs : s ∈ c.suggest scope (Slot.atEnd expression) catalogs)
    (hquoted : s.insertText = String.ofList (Quote.quoteDouble s.label.toList)) :
    (accept expression (Slot.atEnd expression) s).slot.IsFinished ∧
      (accept expression (Slot.atEnd expression) s).slot.key = some k ∧
      ∃ earlier last clause,
        Clause.split expression.toList = earlier ++ [last] ∧
        Clause.split (accept expression (Slot.atEnd expression) s).expression.toList
          = earlier ++ [clause] ∧
        ((∀ ch ∈ k.toList, isKeyChar ch = true) →
          FilterKey.normalize k ≠ FilterKey.attributeHead →
          FilterKey.normalize k ≠ FilterKey.resourceHead →
          ∃ target fields, FilterKey.classify k = some target ∧
            FilterFields.holding? s.label target = some fields ∧
            FilterFields.read (String.ofList clause) = ⟨fields, false⟩) := by
  have hoffer := Completer.quotedOffer_of_mem hkind hkey hs hquoted
  have hparts := Slot.exists_parts_of_value (Slot.atEnd_eq expression ▸ hkind)
  rw [← Slot.atEnd_eq] at hparts
  obtain ⟨front, key, behind, typed, htext, hbehind, hcompared, hslot, hstart, hstop⟩ := hparts
  obtain rfl : String.ofList (Text.trim key) = k := Option.some.inj (hslot.symm.trans hkey)
  obtain ⟨behind', hbehind', hsplice⟩ := exists_spliceTerm_value front key hbehind s.label.toList
  have hexpression : String.ofList (front ++ (key ++ '=' :: behind) ++ (typed ++ []))
      = expression := by
    rw [List.append_nil, ← htext, String.ofList_toList]
  have hnext : accept expression (Slot.atEnd expression) s = atEnd
      (front ++ (key ++ '=' :: (behind' ++ (Quote.quoteDouble s.label.toList ++ [' '])))) := by
    have haccept := accept_parts hstart hstop [] s
    rw [hexpression, hoffer.kind] at haccept
    dsimp only at haccept
    rw [haccept, hquoted, String.toList_ofList, hsplice, atEnd]
  obtain ⟨hfinished, earlier, hold, hnew⟩ := hcompared.finished hbehind' s.label.toList
  have htext' : expression.toList = front ++ (key ++ '=' :: (behind ++ typed)) := by
    rw [htext]
    simp
  rw [hnext, slot_atEnd, hfinished, toList_expression_atEnd, htext']
  refine ⟨Slot.isFinished_typed _ _, rfl, earlier, _, _, hold, hnew, ?_⟩
  intro hchars hattr hresource
  rw [String.toList_ofList] at hchars
  exact read_quotedOffer hcompared hbehind' hoffer hchars hattr hresource

/-- One half of a value behind its mark, with a conjunction and an escaped quote in it. -/
def halfQuoted : String :=
  "severity = error AND Service =\"a AND \\\"b"

/-- The service with that name. -/
def halfQuotedService : Suggestion :=
  ⟨.value, "A and \"B\" c", "\"A and \\\"B\\\" c\"", none⟩

theorem half_quoted_value_is_exact :
    (Slot.atEnd halfQuoted).kind = .value ∧ (Slot.atEnd halfQuoted).key = some "Service" ∧
      halfQuotedService ∈ Completer.suggest ⟨8, []⟩ .logs (Slot.atEnd halfQuoted)
        { services := ["other", halfQuotedService.label] } ∧
      (accept halfQuoted (Slot.atEnd halfQuoted) halfQuotedService).slot.IsFinished ∧
      ∃ clause, Clause.split (accept halfQuoted (Slot.atEnd halfQuoted)
          halfQuotedService).expression.toList = ["severity = error".toList, clause] ∧
        FilterFields.read (String.ofList clause)
          = ⟨{ service := some halfQuotedService.label }, false⟩ := by
  have hkind : (Slot.atEnd halfQuoted).kind = .value := by decide +kernel
  have hkey : (Slot.atEnd halfQuoted).key = some "Service" := by decide +kernel
  have hs : halfQuotedService ∈ Completer.suggest ⟨8, []⟩ .logs (Slot.atEnd halfQuoted)
      { services := ["other", halfQuotedService.label] } := by
    rw [Completer.suggest_of_ordered (by decide +kernel)]
    decide +kernel
  have hquoted : halfQuotedService.insertText
      = String.ofList (Quote.quoteDouble halfQuotedService.label.toList) := by decide +kernel
  obtain ⟨hfinished, -, earlier, last, clause, hold, hnew, hread⟩ :=
    accepted_value_is_exact hkind hkey hs hquoted
  have hearlier : earlier = ["severity = error".toList] := by
    have hsplit : Clause.split halfQuoted.toList
        = ["severity = error".toList] ++ ["Service =\"a AND \\\"b".toList] := by decide +kernel
    exact (List.append_inj' (hold.symm.trans hsplit) rfl).1
  obtain ⟨target, fields, hclassify, hfields, hclause⟩ :=
    hread (List.all_eq_true.mp (by decide +kernel)) (by decide +kernel) (by decide +kernel)
  have hservice : FilterKey.classify "Service" = some (.text .service) := by decide +kernel
  obtain rfl : FilterKey.text .service = target := Option.some.inj (hservice.symm.trans hclassify)
  rw [hearlier] at hnew
  rw [← Option.some.inj hfields] at hclause
  exact ⟨hkind, hkey, hs, hfinished, clause, hnew, hclause⟩

end Editor

end QueryPanel
