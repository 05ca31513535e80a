import QueryPanel.Text.Blank

/-!
# Quotes

Two marks enclose a literal. Inside double quotes a backslash takes the character behind it
literally; inside single quotes nothing is special but the closing mark. `Quote.split?` finds where
a literal ends, `unescape` resolves the backslashes of its body, and `quoteDouble` writes a literal
that says exactly a given text.
-/

namespace QueryPanel

/-- The mark around a literal. -/
inductive Quote where
  | single
  | double
  deriving DecidableEq

namespace Quote

/-- The character of a mark. -/
def char : Quote → Char
  | .single => '\''
  | .double => '"'

/-- The mark that a character is, if it is one. -/
def ofChar? (c : Char) : Option Quote :=
  if c = '"' then some .double else if c = '\'' then some .single else none

/-- The text up to the first single quote, and the text behind it. -/
def splitSingle? : List Char → Option (List Char × List Char)
  | [] => none
  | c :: cs =>
    if c = '\'' then some ([], cs) else (splitSingle? cs).map fun (body, rest) => (c :: body, rest)

/-- The text up to the first double quote that no backslash escapes, and the text behind it. -/
def splitDouble? : List Char → Option (List Char × List Char)
  | [] => none
  | '"' :: cs => some ([], cs)
  | '\\' :: c :: cs => (splitDouble? cs).map fun (body, rest) => ('\\' :: c :: body, rest)
  | c :: cs => (splitDouble? cs).map fun (body, rest) => (c :: body, rest)

/-- The body of a literal behind its opening mark, and the text behind its closing one. -/
def split? : Quote → List Char → Option (List Char × List Char)
  | .single => splitSingle?
  | .double => splitDouble?

/-- A text without its escaping backslashes. One at the very end escapes nothing and stays. -/
def unescape : List Char → List Char
  | [] => []
  | '\\' :: c :: cs => c :: unescape cs
  | c :: cs => c :: unescape cs

/-- What a body between two marks says. -/
def value : Quote → List Char → List Char
  | .single, body => body
  | .double, body => unescape body

/-- A text with a backslash before each backslash and double quote. -/
def escape : List Char → List Char
  | [] => []
  | c :: cs => if c = '\\' ∨ c = '"' then '\\' :: c :: escape cs else c :: escape cs

/-- The literal in double quotes that says the given text. -/
def quoteDouble (cs : List Char) : List Char :=
  '"' :: escape cs ++ ['"']

/-- What is written is read back, whatever follows the literal. -/
theorem splitDouble?_escape (cs rest : List Char) :
    splitDouble? (escape cs ++ '"' :: rest) = some (escape cs, rest) := by
  induction cs with
  | nil => simp [escape, splitDouble?]
  | cons c cs ih =>
    by_cases h : c = '\\' ∨ c = '"'
    · simp [escape, h, splitDouble?, ih]
    · obtain ⟨h₁, h₂⟩ := not_or.mp h
      simp [escape, splitDouble?, h₁, h₂, ih]

/-- Escaping adds nothing to what a text says. -/
theorem unescape_escape (cs : List Char) : unescape (escape cs) = cs := by
  induction cs with
  | nil => rfl
  | cons c cs ih =>
    by_cases h : c = '\\' ∨ c = '"'
    · simp [escape, h, unescape, ih]
    · obtain ⟨h₁, h₂⟩ := not_or.mp h
      simp [escape, unescape, h₁, h₂, ih]

end Quote

end QueryPanel
