import QueryPanel.Completion.Completer

/-!
# The editor

An expression with a cursor in it, and what can be done to it. Accepting a suggestion splices it
into the range of the slot that was completed. Operators and conjunctions get one blank on each
side, keys and values at least one, except that nothing separates the head of an attribute key from
the name to come.
-/

namespace QueryPanel

/-- An expression being edited, with the byte offset of its cursor. -/
structure Editor where
  expression : String
  cursor : Nat
  deriving DecidableEq

namespace Editor

/-- The editor on a text with the cursor behind the first part of it. -/
def ofParts (before after : List Char) : Editor :=
  ⟨String.ofList (before ++ after), Text.byteLength before⟩

/-- A blank, if one is wanted. -/
def gap (wanted : Bool) : List Char :=
  if wanted then [' '] else []

/-- The text with which an operator or conjunction ends once it stands behind `before`. -/
def spliceWord (before token : List Char) : List Char :=
  let before := Text.trimEnd before
  before ++ gap (!before.isEmpty) ++ token ++ [' ']

/-- The text with which a key or value ends once it stands between `before` and `after`. -/
def spliceTerm (before token after : List Char) : List Char :=
  before ++ gap (before.getLast?.any fun c => !Text.isBlank c) ++ token
    ++ gap (token.getLast? != some '.' && !after.head?.any Text.isBlank)

/-- Replaces a range of bytes by an accepted token, and puts the cursor behind it. Offsets are moved
into the expression, and the range does not end before it begins. -/
def splice (expression : String) (start stop : Nat) (kind : SlotKind) (token : String) : Editor :=
  let cs := expression.toList
  let start := Text.clampOffset cs start
  let stop := max (Text.clampOffset cs stop) start
  let before := Text.takeBytes start cs
  let after := Text.dropBytes stop cs
  match kind with
  | .operator | .conjunction => ofParts (spliceWord before token.toList) (Text.trimStart after)
  | .key | .value => ofParts (spliceTerm before token.toList after) after

/-- The expression after a suggestion for a slot has been accepted. -/
def accept (expression : String) (slot : Slot) (s : Suggestion) : Editor :=
  splice expression slot.start slot.stop s.kind s.insertText

/-- The slot at the cursor. -/
def slot (e : Editor) : Slot :=
  Slot.ofCursor e.expression e.cursor

/-- The suggestions at the cursor. -/
def suggestions (e : Editor) (c : Completer) (scope : Scope) (catalogs : Catalogs) :
    List Suggestion :=
  c.suggest scope e.slot catalogs

/-- Something done to the expression. -/
inductive Step where
  | type (text : String)
  | moveTo (cursor : Nat)
  | backspace (count : Nat)
  | accept (index : Nat)

/-- The editor after a step, and the suggestion that was accepted. Accepting a suggestion that is
not there changes nothing. -/
def step (c : Completer) (scope : Scope) (catalogs : Catalogs) (e : Editor) :
    Step → Editor × Option Suggestion
  | .type text =>
    (ofParts (Text.takeBytes e.cursor e.expression.toList ++ text.toList)
      (Text.dropBytes e.cursor e.expression.toList), none)
  | .moveTo cursor => ({ e with cursor := Text.clampOffset e.expression.toList cursor }, none)
  | .backspace count =>
    let before := Text.takeBytes e.cursor e.expression.toList
    (ofParts (before.take (before.length - count))
      (Text.dropBytes e.cursor e.expression.toList), none)
  | .accept index =>
    match (e.suggestions c scope catalogs)[index]? with
    | none => (e, none)
    | some s => (Editor.accept e.expression e.slot s, some s)

end Editor

end QueryPanel
