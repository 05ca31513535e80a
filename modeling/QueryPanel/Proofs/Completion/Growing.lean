import QueryPanel.Proofs.Clause.Written
import QueryPanel.Proofs.Completion.Slots

/-!
# The clause that is being put together

A text that is made of accepted suggestions alone consists of whole clauses and, behind the last
conjunction, of a clause in one of four stages: `Growing`. The slot at the end of the text is the
one that its stage names (`ofText_growing`): the quotes, equals signs and conjunctions in the values
of the clauses before it, or in its own, mislead neither the cutting of the text nor the look for an
equals sign.
-/

namespace QueryPanel

open Clause (IsWord Written Whole textOf isKeyChar pieces lastSegment)
open FilterFields (joinClauses)

/-! ## Joined texts by their last one -/

/-- The text that stands before the last clause: the others, each with a conjunction behind it. -/
def beforeLast (done : List (List Char)) : List Char :=
  joinClauses (done ++ [[]])

theorem beforeLast_cons (c : List Char) (done : List (List Char)) :
    beforeLast (c :: done) = c ++ " AND ".toList ++ beforeLast done := by
  rw [beforeLast, List.cons_append, Clause.joinClauses_cons c (by simp), beforeLast]

theorem joinClauses_concat (done : List (List Char)) (last : List Char) :
    joinClauses (done ++ [last]) = beforeLast done ++ last := by
  induction done with
  | nil => rfl
  | cons c done ih =>
    rw [List.cons_append, Clause.joinClauses_cons c (by simp), ih, beforeLast_cons,
      List.append_assoc (c ++ _)]

theorem beforeLast_concat (done : List (List Char)) (c : List Char) :
    beforeLast (done ++ [c]) = beforeLast done ++ c ++ " AND ".toList := by
  induction done with
  | nil => exact List.append_nil _
  | cons d done ih =>
    rw [List.cons_append, beforeLast_cons, ih, beforeLast_cons]
    simp only [List.append_assoc]

/-- It is empty or ends with the blank behind a conjunction. -/
theorem getLast?_beforeLast (done : List (List Char)) :
    (beforeLast done).getLast? = none ∨ (beforeLast done).getLast? = some ' ' := by
  rcases List.eq_nil_or_concat done with rfl | ⟨init, c, rfl⟩
  · exact .inl rfl
  · refine .inr ?_
    rw [List.concat_eq_append, beforeLast_concat,
      show " AND ".toList = " AND".toList ++ [' '] from rfl, ← List.append_assoc,
      List.getLast?_concat]

/-! ## Looking for the equals sign -/

theorem splitAtEquals?_key {key : List Char} (h : ∀ c ∈ key, isKeyChar c = true) :
    Scan.start.splitAtEquals? key = none := by
  have happend := Scan.splitAtEquals?_append (s := .start) rfl
    (fun c hc => Clause.isPlain_of_isKeyChar (h c hc)) []
  rw [List.append_nil] at happend
  rw [happend]
  rfl

theorem splitAtEquals?_blank {key : List Char} (h : ∀ c ∈ key, isKeyChar c = true) :
    Scan.start.splitAtEquals? (key ++ [' ']) = none := by
  rw [Scan.splitAtEquals?_append rfl fun c hc => Clause.isPlain_of_isKeyChar (h c hc),
    Scan.splitAtEquals?, if_neg (by simp)]
  rfl

/-! ## Stages of a clause -/

/-- The clause that is being put together, by how much of it has been accepted. -/
inductive Growing where
  | key (typed : List Char)
  | operator (key : List Char)
  | value (key : List Char)
  | finished (key literal : List Char)

namespace Growing

/-- What stands there of the clause. -/
def text : Growing → List Char
  | .key typed => typed
  | .operator k => k ++ [' ']
  | .value k => textOf k []
  | .finished k literal => textOf k literal ++ [' ']

/-- The kind of slot behind it. -/
def kind : Growing → SlotKind
  | .key _ => .key
  | .operator _ => .operator
  | .value _ => .value
  | .finished _ _ => .conjunction

/-- The key that the slot belongs to, once it is chosen. -/
def chosen : Growing → Option String
  | .key _ => none
  | .operator k => some (String.ofList k)
  | .value k => some (String.ofList k)
  | .finished k _ => some (String.ofList k)

/-- What the slot holds already. Only a key can be there in part, up to a point. -/
def typed : Growing → List Char
  | .key typed => typed
  | _ => []

/-- The parts of the clause are a key and a literal as they are written. -/
inductive Sound : Growing → Prop
  | key {typed : List Char} (h : ∀ c ∈ typed, isKeyChar c = true) : Sound (.key typed)
  | operator {k : List Char} (h : IsWord k) : Sound (.operator k)
  | value {k : List Char} (h : IsWord k) : Sound (.value k)
  | finished {k text : List Char} {literal : Literal} (h : IsWord k)
    (hl : Written text literal) : Sound (.finished k text)

theorem pieces_concat_blank {cs : List Char} (h : pieces .start cs = (cs, []))
    (ends : Clause.endsWithConjunction cs = false) :
    pieces .start (cs ++ [' ']) = (cs ++ [' '], []) := by
  have hseam := Clause.seam_of_blank ends (b := ' ') Text.isBlank_space []
  rw [Clause.pieces_append .start cs [' '] hseam, h]
  rfl

variable {g : Growing}

/-- No conjunction begins the clause. -/
theorem begins_text (h : g.Sound) : Clause.beginsWithConjunction g.text = false := by
  cases h with
  | key h =>
    apply Clause.beginsWithConjunction_of_no_blank
    intro c hc
    exact Clause.not_blank_of_isKeyChar (h c hc)
  | operator h => exact Clause.beginsWithConjunction_key h.isKey []
  | value h => exact Clause.beginsWithConjunction_textOf h.isKey []
  | finished h hl =>
    have whole := Clause.whole_textOf h hl
    rw [text, Clause.beginsWithConjunction_append whole.long]
    exact whole.begins

/-- Nor does one stand in it. -/
theorem pieces_text (h : g.Sound) : pieces .start g.text = (g.text, []) := by
  cases h with
  | key h =>
    apply Clause.pieces_of_no_blank
    intro c hc
    exact Clause.not_blank_of_isKeyChar (h c hc)
  | operator h =>
    have hblank (s : Scan) : pieces s [' '] = ([' '], []) := by
      rw [Clause.pieces_of_not_starts]
      · rfl
      · rw [Clause.startsConjunction_eq]
        exact Bool.and_false _
    rw [text, Clause.pieces_append_of_no_blank rfl h.no_blank, hblank]
  | value h =>
    rw [text, ← h.head_text_append, h.head.pieces_text_append]
    rfl
  | finished h hl =>
    have whole := Clause.whole_textOf h hl
    exact pieces_concat_blank whole.uncut whole.ends

theorem trimStart_text (h : g.Sound) : Text.trimStart g.text = g.text := by
  cases h with
  | @key typed h =>
    cases typed with
    | nil => rfl
    | cons c cs =>
      have hc := Clause.not_blank_of_isKeyChar (h c List.mem_cons_self)
      exact Text.trimStart_cons_of_not_blank hc cs
  | operator h => exact h.solid.trimStart_append _
  | value h =>
    rw [text, Clause.textOf_eq]
    exact h.solid.trimStart_append _
  | finished h hl => exact (Clause.whole_textOf h hl).solid.trimStart_append _

end Growing

/-! ## The slot behind a growing clause -/

/-- The slot at the end of accepted text is the one that the stage of its last clause names. -/
theorem ofText_growing {done : List (List Char)} {g : Growing} (hdone : ∀ c ∈ done, Whole c)
    (h : g.Sound) :
    Slot.ofText (joinClauses (done ++ [g.text]))
      = Slot.typed g.kind g.chosen g.typed
          (Text.byteLength (joinClauses (done ++ [g.text]))) := by
  have hsegment : lastSegment g.text = g.text := by
    rw [lastSegment, Growing.pieces_text h]
    rfl
  have hbody : Text.trimStart (lastSegment (joinClauses (done ++ [g.text]))) = g.text := by
    rw [Clause.trimStart_lastSegment_joinClauses hdone (Growing.begins_text h), hsegment,
      Growing.trimStart_text h]
  -- The clauses before the last one count for nothing but the length of the text from here on.
  generalize joinClauses (done ++ [g.text]) = text at hbody
  cases h with
  | @key typed h =>
    by_cases hnil : typed = []
    · subst hnil
      rw [Slot.ofText, hbody]
      rfl
    · have hspan : Slot.spanWord typed = (typed, []) :=
        Slot.spanWord_of_no_blank fun c hc => Clause.not_blank_of_isKeyChar (h c hc)
      rw [Slot.ofText_of_none hbody hnil (splitAtEquals?_key h), Growing.text, Slot.beforeEquals,
        hspan]
      rfl
  | operator hk =>
    have hrest : Text.trimStart [' '] = [] := rfl
    rw [Slot.ofText_of_none hbody (List.concat_ne_nil _ _) (splitAtEquals?_blank hk.chars),
      Growing.text, Slot.beforeEquals, Slot.spanWord_append_blank hk.no_blank Text.isBlank_space]
    dsimp only
    rw [hrest]
    rfl
  | value hk =>
    rw [Growing.text, ← hk.head_text_append] at hbody
    rw [Slot.ofText_head hk.head hbody, List.append_nil,
      Slot.afterEquals_nil hk.head.isBlank_behind]
    rfl
  | @finished k text literal hk hl =>
    have hshape : textOf k text ++ [' '] = textOf k (text ++ [' ']) := by simp [textOf]
    rw [Growing.text, hshape, ← hk.head_text_append] at hbody
    rw [Slot.ofText_head hk.head hbody,
      Slot.afterEquals_spelled hk.head.isBlank_behind hl.spells Text.isBlank_space]
    rfl

end QueryPanel
