import QueryPanel.Number.Hex
import QueryPanel.Text.Search

/-!
# Identifiers of drafts

A UUID: thirty-two hexadecimal digits. It is written in lower case with hyphens. It is read in
either case, with or without them, and with hyphens also in braces or behind the head `urn:uuid:`,
whose letters may be of either case too.
-/

namespace QueryPanel

/-- Thirty-two hexadecimal digits. -/
@[ext]
structure Uuid where
  digits : List (Fin 16)
  length_eq : digits.length = 32
  deriving DecidableEq

namespace Uuid

/-- The lengths of the groups between hyphens. -/
def groups : List Nat := [8, 4, 4, 4, 12]

/-- A text cut into groups, with a hyphen between each and the next. -/
def hyphenated (cs : List Char) : List Nat → List Char
  | [] => cs
  | [_] => cs
  | n :: ns => cs.take n ++ '-' :: hyphenated (cs.drop n) ns

/-- A hyphenated text without the hyphens behind its groups, if they are there. -/
def unhyphenated? (cs : List Char) : List Nat → Option (List Char)
  | [] => some cs
  | [_] => some cs
  | n :: ns =>
    match cs.drop n with
    | '-' :: rest => (unhyphenated? rest ns).map (cs.take n ++ ·)
    | _ => none

/-- An identifier in its written form. -/
def toText (u : Uuid) : String :=
  String.ofList (hyphenated (u.digits.map Hex.char) groups)

/-- The identifier of digits without hyphens. -/
def ofDigits? (cs : List Char) : Option Uuid :=
  (cs.mapM Hex.digit?).bind fun ds => if h : ds.length = 32 then some ⟨ds, h⟩ else none

/-- The identifier of digits with hyphens. -/
def ofHyphenated? (cs : List Char) : Option Uuid :=
  (unhyphenated? cs groups).bind ofDigits?

/-- The head of an identifier that is written as a resource name. -/
def resourceHead : List Char := "urn:uuid:".toList

/-- A text without what may stand around digits with hyphens: two braces, or a head in any case. -/
def unwrapped (cs : List Char) : List Char :=
  match cs with
  | '\x7b' :: inner => if inner.getLast? = some '\x7d' then inner.dropLast else cs
  | _ =>
    let (head, inner) := cs.splitAt resourceHead.length
    if Text.eqIgnoreCase head resourceHead then inner else cs

/-- Reads an identifier. -/
def ofText? (s : String) : Option Uuid :=
  (ofDigits? s.toList).or (ofHyphenated? (unwrapped s.toList))

end Uuid

end QueryPanel
