import QueryPanel.Clause.Split

/-!
# Reading one clause

A clause is a key, an equals sign and a literal, with blanks allowed around the sign. The key is
made of ASCII letters, digits, underscores, points and hyphens. The literal is a quoted one that
ends with the clause, or a run of characters without blanks. Text that opens a quote and goes wrong
is no clause, and neither is a quoted one with a backslash before a line feed.
-/

namespace QueryPanel

/-- What a clause compares its key with, as it is written. -/
inductive Literal where
  | quoted (quote : Quote) (body : List Char)
  | bare (text : List Char)
  deriving DecidableEq

/-- What a literal says. -/
def Literal.value : Literal → List Char
  | .quoted quote body => quote.value body
  | .bare text => text

/-- A key and what it is compared with. -/
structure Clause where
  key : List Char
  literal : Literal
  deriving DecidableEq

namespace Clause

/-- A character that keys are made of. -/
def isKeyChar (c : Char) : Bool :=
  c.isAlphanum || c == '_' || c == '.' || c == '-'

/-- Some backslash of the body escapes a line feed. -/
def escapesLineFeed : List Char → Bool
  | [] => false
  | '\\' :: c :: cs => c == '\n' || escapesLineFeed cs
  | _ :: cs => escapesLineFeed cs

/-- A literal that takes up the whole of a text. -/
def literalOfText? : List Char → Option Literal
  | [] => none
  | c :: cs =>
    match Quote.ofChar? c with
    | some quote =>
      match quote.split? cs with
      | some (body, []) =>
        if quote = .double ∧ escapesLineFeed body then none else some (.quoted quote body)
      | _ => none
    | none => if (c :: cs).any Text.isBlank then none else some (.bare (c :: cs))

/-- The clause that a trimmed text is, if it is a whole one. -/
def ofText? (cs : List Char) : Option Clause :=
  let key := cs.takeWhile isKeyChar
  match Text.trimStart (cs.dropWhile isKeyChar) with
  | '=' :: rest =>
    if key.isEmpty then none else (literalOfText? (Text.trimStart rest)).map (⟨key, ·⟩)
  | _ => none

end Clause

end QueryPanel
