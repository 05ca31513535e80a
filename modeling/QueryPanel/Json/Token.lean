import QueryPanel.Json.Value
import QueryPanel.Number.Hex
import QueryPanel.Number.Notation

/-!
# The tokens of a JSON text

A text is cut into brackets, separators, strings and the other scalars. Strings are read in two
steps: first into the pieces they are written as, then the pieces into characters, where two escaped
halves of a surrogate pair become one character.
-/

namespace QueryPanel.Json

/-- A token. A string without a value is one that holds half of a surrogate pair. -/
inductive Token where
  | arrayOpen
  | arrayClose
  | objectOpen
  | objectClose
  | comma
  | colon
  | string (s : Option String)
  | scalar (value : Json)

/-- A piece of a string literal: a character, or a code unit written with `u` and four digits. -/
inductive Piece where
  | char (c : Char)
  | unit (n : Nat)

/-- The character that a backslash and `c` stand for. -/
def escaped? (c : Char) : Option Char :=
  match c with
  | '"' => some '"'
  | '\\' => some '\\'
  | '/' => some '/'
  | 'b' => some '\x08'
  | 'f' => some '\x0c'
  | 'n' => some '\n'
  | 'r' => some '\r'
  | 't' => some '\t'
  | _ => none

/-- The pieces of a string literal behind its opening quote, and what follows the closing one.
Control characters have to be escaped. -/
def pieces? : List Char → Option (List Piece × List Char)
  | [] => none
  | '"' :: rest => some ([], rest)
  | '\\' :: 'u' :: a :: b :: c :: d :: rest => do
    let n ← Hex.number? [a, b, c, d]
    let (ps, rest) ← pieces? rest
    some (.unit n :: ps, rest)
  | '\\' :: c :: rest => do
    let e ← escaped? c
    let (ps, rest) ← pieces? rest
    some (.char e :: ps, rest)
  | c :: rest =>
    if c.toNat < 0x20 then none
    else do
      let (ps, rest) ← pieces? rest
      some (.char c :: ps, rest)

/-- The characters that pieces stand for, unless a half of a surrogate pair is alone. -/
def characters? : List Piece → Option (List Char)
  | [] => some []
  | .char c :: ps => (characters? ps).map (c :: ·)
  | .unit hi :: .unit lo :: ps =>
    if 0xD800 ≤ hi ∧ hi < 0xDC00 then
      if 0xDC00 ≤ lo ∧ lo < 0xE000 then
        (characters? ps).map
          (Char.ofNat (0x10000 + (hi - 0xD800) * 0x400 + (lo - 0xDC00)) :: ·)
      else none
    else if 0xDC00 ≤ hi ∧ hi < 0xE000 then none
    else (characters? (.unit lo :: ps)).map (Char.ofNat hi :: ·)
  | .unit n :: ps =>
    if 0xD800 ≤ n ∧ n < 0xE000 then none else (characters? ps).map (Char.ofNat n :: ·)

/-- The value of a number: an integer if it is written as one and fits sixty-four bits. Minus zero
is a real. -/
def numberValue (negative : Bool) (whole fraction : List Char) (exponent : Option Int) : Json :=
  let digits := Nat.ofDigitChars 10 whole 0
  if fraction.isEmpty ∧ exponent.isNone ∧ !negative ∧ digits < Word.size64 then .integer digits
  else if fraction.isEmpty ∧ exponent.isNone ∧ negative ∧ 0 < digits ∧ digits ≤ Word.size63 then
    .integer (-(digits : Int))
  else
    let d := Double.ofDecimal negative
      ⟨Nat.ofDigitChars 10 (whole ++ fraction) 0, exponent.getD 0 - fraction.length⟩
    if d.isFinite then .real d else .unreadable

/-- The fraction of a number: nothing, or a point and at least one digit. -/
def fraction? : List Char → Option (List Char × List Char)
  | '.' :: cs =>
    let (digits, rest) := Double.spanDigits cs
    if digits.isEmpty then none else some (digits, rest)
  | cs => some ([], cs)

/-- The exponent of a number: nothing, or `e`, perhaps a sign, and at least one digit. -/
def exponent? : List Char → Option (Option Int × List Char)
  | [] => some (none, [])
  | c :: cs =>
    if c = 'e' ∨ c = 'E' then
      let (negative, cs) : Bool × List Char := match cs with
        | '-' :: r => (true, r)
        | '+' :: r => (false, r)
        | r => (false, r)
      let (digits, rest) := Double.spanDigits cs
      let n : Int := Nat.ofDigitChars 10 digits 0
      if digits.isEmpty then none else some (some (if negative then -n else n), rest)
    else some (none, c :: cs)

/-- A number at the beginning of a text. Only the number zero begins with a zero. -/
def number? (cs : List Char) : Option (Json × List Char) := do
  let (negative, cs) : Bool × List Char := match cs with
    | '-' :: r => (true, r)
    | r => (false, r)
  let (whole, rest) := Double.spanDigits cs
  if whole.isEmpty ∨ (1 < whole.length ∧ whole.head? = some '0') then none
  else
    let (fraction, rest) ← fraction? rest
    let (exponent, rest) ← exponent? rest
    some (numberValue negative whole fraction exponent, rest)

/-- One of the words `true`, `false` and `null` at the beginning of a text. -/
def word? (cs : List Char) : Option (Json × List Char) :=
  match Text.after? "true".toList cs, Text.after? "false".toList cs,
      Text.after? "null".toList cs with
  | some rest, _, _ => some (.bool true, rest)
  | _, some rest, _ => some (.bool false, rest)
  | _, _, some rest => some (.null, rest)
  | none, none, none => none

/-- The four blanks of the format. -/
def isSpace (c : Char) : Bool :=
  c = ' ' || c = '\t' || c = '\n' || c = '\r'

/-- The token at the beginning of a text that begins with no blank. -/
def token? : List Char → Option (Token × List Char)
  | [] => none
  | '[' :: rest => some (.arrayOpen, rest)
  | ']' :: rest => some (.arrayClose, rest)
  | '\x7b' :: rest => some (.objectOpen, rest)
  | '\x7d' :: rest => some (.objectClose, rest)
  | ',' :: rest => some (.comma, rest)
  | ':' :: rest => some (.colon, rest)
  | '"' :: rest => do
    let (ps, rest) ← pieces? rest
    some (.string ((characters? ps).map String.ofList), rest)
  | cs => ((number? cs).or (word? cs)).map fun (v, rest) => (.scalar v, rest)

/-- The tokens of a text. Each takes at least one character, so a text has no more tokens than
characters. -/
def tokens? (cs : List Char) : Option (List Token) :=
  go cs.length cs
where
  /-- At most `limit` tokens. -/
  go : Nat → List Char → Option (List Token)
    | limit, cs =>
      match cs.dropWhile isSpace with
      | [] => some []
      | cs =>
        match limit with
        | 0 => none
        | limit + 1 => do
          let (t, rest) ← token? cs
          let ts ← go limit rest
          some (t :: ts)

end QueryPanel.Json
