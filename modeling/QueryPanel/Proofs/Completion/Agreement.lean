import QueryPanel.Proofs.Clause.Written
import QueryPanel.Proofs.Completion.Slots

/-!
# The slot at the end of a text and the reader of its last clause

Two recognizers look at the end of a filter text. The slot tells the editor what the cursor is in
the middle of; the reader of clauses says whether the last clause is a whole one, and what it
compares with what. They share no code but the cutting into segments, and nearly agree:

> `slot_follows_reading`: where the reader finds a clause, the slot has its key, and stands behind
> its literal or, if that is a bare one that could go on, on it.

> `reading_follows_slot`: where the slot is behind a literal in quotes, the reader finds that
> literal, unless a backslash in double quotes escapes a line feed.

The exception is real: `escaped_line_feed_is_not_read`. To the slot a backslash takes any character
behind it, to the reader any but a line feed.
-/

namespace QueryPanel

open Clause (Head Spells)

/-- The slot at the end of an expression whose last clause has a head. -/
theorem Slot.atEnd_head {expression : String} {head : Head} {text : List Char}
    (hlast : (Clause.split expression.toList).getLast? = some (head.text ++ text)) :
    ∃ front bs, expression.toList = front ++ (head.text ++ text ++ bs) ∧
      (∀ b ∈ bs, Text.isBlank b = true) ∧
      Slot.atEnd expression = Slot.afterEquals (String.ofList head.key)
        (head.behind ++ (text ++ bs)) (Text.byteLength expression.toList) := by
  obtain ⟨-, bs, hbody, hblank⟩ := Clause.exists_blanks_of_getLast?_split hlast
  obtain ⟨front, hfront, -⟩ := Clause.exists_front expression.toList
  rw [hbody] at hfront
  refine ⟨front, bs, hfront, hblank, ?_⟩
  rw [List.append_assoc] at hbody
  rw [Slot.atEnd_eq, Slot.ofText_head head hbody]

/-! ## From the reader to the slot -/

/-- Where the last clause is read, the slot at the end has its key. Behind a quoted literal the
clause is finished. Behind a bare one it is, once a blank follows; until then the slot is the value,
which is replaced from its first character to its last. -/
theorem slot_follows_reading {expression : String} {clause key : List Char} {literal : Literal}
    (hlast : (Clause.split expression.toList).getLast? = some clause)
    (hread : Clause.ofText? clause = some ⟨key, literal⟩) :
    (Slot.atEnd expression).key = some (String.ofList key) ∧
      match literal with
      | .quoted _ _ => (Slot.atEnd expression).IsFinished
      | .bare value =>
        if expression.toList.getLast?.any Text.isBlank then (Slot.atEnd expression).IsFinished
        else
          (Slot.atEnd expression).kind = .value ∧
          (Slot.atEnd expression).query = String.ofList value ∧
          ∃ front, expression.toList = front ++ value ∧
            (Slot.atEnd expression).start = Text.byteLength front ∧
            (Slot.atEnd expression).stop = Text.byteLength (front ++ value) := by
  obtain ⟨head, text, rfl, hspells, rfl⟩ := Clause.ofText?_eq_some_iff.mp hread
  obtain ⟨front, bs, hexpression, hblank, hslot⟩ := Slot.atEnd_head hlast
  cases hspells with
  | @quoted quote body hencloses _ =>
    have hshape : quote.char :: (body ++ [quote.char]) ++ bs
        = quote.char :: (body ++ quote.char :: bs) := by simp
    rw [hshape, Slot.afterEquals_quoted head.isBlank_behind hencloses, Text.trimStart_blanks hblank]
      at hslot
    rw [hslot]
    exact ⟨rfl, Slot.isFinished_typed _ _⟩
  | @bare c cs hquote hword =>
    dsimp only
    cases bs with
    | nil =>
      have hend : expression.toList.getLast?.any Text.isBlank = false := by
        have hsolid := Text.solid_of_no_blank (List.cons_ne_nil c cs) hword
        rw [hexpression, List.append_nil, ← List.append_assoc]
        exact hsolid.getLast?_append _
      rw [List.append_nil, Slot.afterEquals_bare head.isBlank_behind hquote hword] at hslot
      rw [List.append_nil, ← List.append_assoc] at hexpression
      rw [hslot, hend]
      refine ⟨rfl, rfl, rfl, front ++ head.text, hexpression, ?_, ?_⟩
      · rw [Slot.typed, hexpression, Text.byteLength_append, Nat.add_sub_cancel]
      · rw [Slot.typed, hexpression]
    | cons b bs =>
      have hb := hblank b List.mem_cons_self
      have hbs : ∀ d ∈ bs, Text.isBlank d = true := fun d hd => hblank d (List.mem_cons_of_mem b hd)
      have hend : expression.toList.getLast?.any Text.isBlank = true := by
        rw [hexpression, ← List.append_assoc, List.getLast?_append_of_ne_nil _ (by simp),
          List.getLast?_eq_some_getLast (by simp)]
        exact hblank _ (List.getLast_mem _)
      rw [Slot.afterEquals_bare_blank head.isBlank_behind hquote hword hb,
        Text.trimStart_blanks hbs] at hslot
      rw [hslot, hend]
      exact ⟨rfl, Slot.isFinished_typed _ _⟩

/-- A bare value with a quote in it, behind a value with a conjunction in it. -/
theorem apostrophe_slot_follows_reading :
    (Clause.split "service.name='a AND b' AND attr.user = O'Brien".toList).getLast?
        = some "attr.user = O'Brien".toList ∧
      Clause.ofText? "attr.user = O'Brien".toList
        = some ⟨"attr.user".toList, .bare "O'Brien".toList⟩ ∧
      (Slot.atEnd "service.name='a AND b' AND attr.user = O'Brien").key = some "attr.user" ∧
      (Slot.atEnd "service.name='a AND b' AND attr.user = O'Brien").kind = .value ∧
      (Slot.atEnd "service.name='a AND b' AND attr.user = O'Brien").query = "O'Brien" := by
  have hlast : (Clause.split "service.name='a AND b' AND attr.user = O'Brien".toList).getLast?
      = some "attr.user = O'Brien".toList := by decide +kernel
  have hread : Clause.ofText? "attr.user = O'Brien".toList
      = some ⟨"attr.user".toList, .bare "O'Brien".toList⟩ := by decide +kernel
  have hend : ¬ ("service.name='a AND b' AND attr.user = O'Brien".toList.getLast?.any
      Text.isBlank = true) := by decide +kernel
  obtain ⟨hkey, hslot⟩ := slot_follows_reading hlast hread
  dsimp only at hslot
  rw [if_neg hend] at hslot
  exact ⟨hlast, hread, hkey, hslot.1, hslot.2.1⟩

/-! ## From the slot to the reader -/

/-- Where the last clause has a literal in quotes and the slot says that the clause is finished, the
literal takes up the rest of the clause, and the reader finds it, but for an escaped line feed. -/
theorem reading_follows_slot {expression : String} {head : Head} {quote : Quote} {rest : List Char}
    (hlast : (Clause.split expression.toList).getLast? = some (head.text ++ quote.char :: rest))
    (hslot : (Slot.atEnd expression).IsFinished) :
    ∃ body, rest = body ++ [quote.char] ∧ quote.Encloses body ∧
      Clause.ofText? (head.text ++ quote.char :: rest)
        = if quote = .double ∧ Clause.escapesLineFeed body = true then none
          else some ⟨head.key, .quoted quote body⟩ := by
  obtain ⟨hend, bs', hbs', hblank'⟩ := Clause.exists_blanks_of_getLast?_split hlast
  obtain ⟨front, bs, -, hblank, heq⟩ := Slot.atEnd_head hlast
  rw [List.cons_append, Slot.afterEquals_quote head.isBlank_behind] at heq
  rw [heq] at hslot
  cases hsplit : quote.split? (rest ++ bs) with
  | none =>
    rw [hsplit] at hslot
    cases hslot.1
  | some parts =>
    obtain ⟨body, behind⟩ := parts
    rw [hsplit] at hslot
    obtain ⟨hencloses, hrest⟩ := Quote.split?_eq_some_iff.mp hsplit
    have hbehind : ∀ b ∈ behind, Text.isBlank b = true := by
      have hquery : Text.trimStart behind = [] := String.ofList_injective hslot.2
      rwa [Text.trimStart_eq_nil_iff, List.all_eq_true] at hquery
    -- Trimming takes away what follows the closing mark, and the clause is trimmed.
    have hsolid := quote.solid_literal body
    have hclause : head.text ++ quote.char :: rest
        = head.text ++ quote.char :: (body ++ [quote.char]) := by
      calc head.text ++ quote.char :: rest
          = Text.trimEnd (head.text ++ quote.char :: rest ++ bs) := by
            rw [Text.trimEnd_append_blanks _ hblank, ← hend]
        _ = Text.trimEnd (head.text ++ quote.char :: (body ++ [quote.char]) ++ behind) := by
            rw [List.append_assoc, List.cons_append, hrest]
            simp
        _ = head.text ++ quote.char :: (body ++ [quote.char]) := by
            rw [Text.trimEnd_append_blanks _ hbehind, hsolid.trimEnd_append]
    obtain ⟨-, rfl⟩ := List.cons.inj (List.append_cancel_left hclause)
    refine ⟨body, rfl, hencloses, ?_⟩
    rw [Clause.ofText?_head head hsolid.trimStart_eq, Clause.literalOfText?_quoted hencloses]
    split <;> rfl

theorem isWord_spanName : Clause.IsWord "span.name".toList := by decide

/-- The head of a clause on the name of a span. -/
def spanHead : Head :=
  isWord_spanName.head

/-- A literal with escaped quotes and a conjunction in it. -/
theorem escaped_quotes_are_read :
    (Clause.split "a = b AND span.name = \"say \\\"hi\\\" AND go\"  ".toList).getLast?
        = some (spanHead.text ++ '"' :: "say \\\"hi\\\" AND go\"".toList) ∧
      (Slot.atEnd "a = b AND span.name = \"say \\\"hi\\\" AND go\"  ").IsFinished ∧
      Clause.ofText? (spanHead.text ++ '"' :: "say \\\"hi\\\" AND go\"".toList)
        = some ⟨spanHead.key, .quoted .double "say \\\"hi\\\" AND go".toList⟩ := by
  have hlast : (Clause.split "a = b AND span.name = \"say \\\"hi\\\" AND go\"  ".toList).getLast?
      = some (spanHead.text ++ Quote.double.char :: "say \\\"hi\\\" AND go\"".toList) := by
    decide +kernel
  have hslot : (Slot.atEnd "a = b AND span.name = \"say \\\"hi\\\" AND go\"  ").IsFinished := by
    decide +kernel
  obtain ⟨body, hbody, -, hread⟩ := reading_follows_slot hlast hslot
  have hbody' : body = "say \\\"hi\\\" AND go".toList :=
    (List.append_cancel_right (hbody.symm.trans (by decide :
      "say \\\"hi\\\" AND go\"".toList = "say \\\"hi\\\" AND go".toList ++ [Quote.double.char])))
  subst hbody'
  rw [if_neg (by decide)] at hread
  exact ⟨hlast, hslot, hread⟩

/-- The slot takes a literal for closed in which a backslash stands before a line feed, and the
reader finds no clause there. -/
theorem escaped_line_feed_is_not_read :
    (Clause.split "span.name = \"a\\\nb\"".toList).getLast?
        = some (spanHead.text ++ Quote.double.char :: "a\\\nb\"".toList) ∧
      (Slot.atEnd "span.name = \"a\\\nb\"").IsFinished ∧
      Clause.ofText? (spanHead.text ++ Quote.double.char :: "a\\\nb\"".toList) = none := by
  decide +kernel

end QueryPanel
