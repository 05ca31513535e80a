import QueryPanel.Json.Value
import QueryPanel.Number.Hex
import QueryPanel.Number.Notation

/-!
# Writing JSON

`pretty` puts every member and item on a line of its own, two blanks deeper than what holds it, and
leaves an empty array or object on one line. `compact` writes no blanks at all.
-/

namespace QueryPanel.Json

/-- A byte in two hexadecimal digits. -/
def hexByte (n : Nat) : List Char :=
  [Hex.char (Hex.last (n / 16)), Hex.char (Hex.last n)]

/-- A character inside a string literal. -/
def escape (c : Char) : List Char :=
  match c with
  | '"' => ['\\', '"']
  | '\\' => ['\\', '\\']
  | '\x08' => ['\\', 'b']
  | '\x0c' => ['\\', 'f']
  | '\n' => ['\\', 'n']
  | '\r' => ['\\', 'r']
  | '\t' => ['\\', 't']
  | c => if c.toNat < 0x20 then '\\' :: 'u' :: '0' :: '0' :: hexByte c.toNat else [c]

/-- A string literal. Characters outside ASCII are written as they are. -/
def quoted (s : String) : List Char :=
  '"' :: s.toList.flatMap escape ++ ['"']

/-- The text of a value that is neither an array nor an object. -/
def scalarText : Json → List Char
  | .bool true => "true".toList
  | .bool false => "false".toList
  | .integer n => Double.sign (n < 0) ++ Nat.toDigits 10 n.natAbs
  | .real d => if d.isFinite then Double.scientific d else "null".toList
  | .string s => quoted s
  | _ => "null".toList

/-- A line break and the blanks of `depth` levels. -/
def newLine (depth : Nat) : List Char :=
  '\n' :: List.replicate (2 * depth) ' '

/-- Texts one after the other, each but the first behind a separator. -/
def joined (separator : List Char) : List (List Char) → List Char
  | [] => []
  | [t] => t
  | t :: ts => t ++ separator ++ joined separator ts

/-- The text between two brackets: nothing, or the parts on lines of their own. -/
def bracketed (opening closing : Char) (depth : Nat) (parts : List (List Char)) : List Char :=
  if parts.isEmpty then [opening, closing]
  else opening :: newLine (depth + 1) ++ joined (',' :: newLine (depth + 1)) parts
    ++ newLine depth ++ [closing]

mutual

/-- The text of a value that stands `depth` levels deep, one member or item a line. -/
def prettyAt (depth : Nat) : Json → List Char
  | .array items => bracketed '[' ']' depth (prettyItems (depth + 1) items)
  | .object members => bracketed '\x7b' '\x7d' depth (prettyMembers (depth + 1) members)
  | v => scalarText v

/-- The texts of the items of an array. -/
def prettyItems (depth : Nat) : List Json → List (List Char)
  | [] => []
  | v :: vs => prettyAt depth v :: prettyItems depth vs

/-- The texts of the members of an object. -/
def prettyMembers (depth : Nat) : List (String × Json) → List (List Char)
  | [] => []
  | (name, v) :: ms =>
    (quoted name ++ ':' :: ' ' :: prettyAt depth v) :: prettyMembers depth ms

end

/-- A document with one member or item a line. -/
def pretty (v : Json) : List Char :=
  prettyAt 0 v

mutual

/-- A document without blanks. -/
def compact : Json → List Char
  | .array items => '[' :: joined [','] (compactItems items) ++ [']']
  | .object members => '\x7b' :: joined [','] (compactMembers members) ++ ['\x7d']
  | v => scalarText v

/-- The texts of the items of an array. -/
def compactItems : List Json → List (List Char)
  | [] => []
  | v :: vs => compact v :: compactItems vs

/-- The texts of the members of an object. -/
def compactMembers : List (String × Json) → List (List Char)
  | [] => []
  | (name, v) :: ms => (quoted name ++ ':' :: compact v) :: compactMembers ms

end

end QueryPanel.Json
