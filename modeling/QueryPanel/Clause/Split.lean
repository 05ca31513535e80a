import QueryPanel.Clause.Scan

/-!
# Splitting a filter text into clauses

Clauses are joined by the word `and` in any case, outside every literal and with a blank on both
sides. `pieces` cuts a text in front of each such word without losing a character
(`flatten_pieces`); dropping the words and trimming what remains gives the clauses.
-/

namespace QueryPanel.Clause

/-- A conjunction begins here: the scan is behind a blank, and the text goes on with the word and
another blank. -/
def startsConjunction (s : Scan) : List Char → Bool
  | a :: n :: d :: b :: _ =>
    s.isAfterBlank && Text.eqIgnoreCase [a, n, d] ['a', 'n', 'd'] && Text.isBlank b
  | _ => false

/-- The part of a text before its first conjunction, and the parts that begin with one each. -/
def pieces : Scan → List Char → List Char × List (List Char)
  | _, [] => ([], [])
  | s, c :: cs =>
    -- The scan goes through the word as well, so it stands behind it for the blank that follows.
    let (first, others) := pieces (s.step c) cs
    if startsConjunction s (c :: cs) then ([], (c :: first) :: others) else (c :: first, others)

/-- The segments of a text: what stands before, between and behind its conjunctions. -/
def segments (cs : List Char) : List (List Char) :=
  (pieces .start cs).1 :: (pieces .start cs).2.map (·.drop 3)

/-- The segment that a text ends with. -/
def lastSegment (cs : List Char) : List Char :=
  match (pieces .start cs).2.getLast? with
  | none => (pieces .start cs).1
  | some piece => piece.drop 3

/-- The clauses of a text, trimmed. A blank text has none. -/
def split (cs : List Char) : List (List Char) :=
  if cs.all Text.isBlank then [] else (segments cs).map Text.trim

/-- Cutting loses nothing. -/
theorem flatten_pieces (s : Scan) (cs : List Char) :
    (pieces s cs).1 ++ (pieces s cs).2.flatten = cs := by
  induction cs generalizing s with
  | nil => rfl
  | cons c cs ih =>
    simp only [pieces]
    split <;> simp [ih]

end QueryPanel.Clause
