import QueryPanel.Text.Bytes
import QueryPanel.Clause.Split

/-!
# The slot at the cursor

While a filter text is being typed, the editor wants to know what the cursor is in the middle of: a
key, an operator, a value, or the conjunction behind a finished clause. A slot says so, together
with what has been typed of it and the range of bytes that a completion replaces. Every text has a
slot; only the text before the cursor counts.
-/

namespace QueryPanel

/-- A place in the grammar of filter texts. -/
inductive SlotKind where
  | key
  | operator
  | value
  | conjunction
  deriving DecidableEq

/-- The slot at a cursor. -/
structure Slot where
  kind : SlotKind
  /-- What has been typed of it so far. -/
  query : String
  /-- The key of the clause, once there is one. -/
  key : Option String
  /-- Where the range to replace begins, in bytes. -/
  start : Nat
  /-- Where that range ends. -/
  stop : Nat
  deriving DecidableEq

namespace SlotKind

/-- The name of a kind of slot. -/
def name : SlotKind → String
  | .key => "key"
  | .operator => "operator"
  | .value => "value"
  | .conjunction => "conjunction"

/-- All kinds with their names. -/
def names : List (String × SlotKind) :=
  [SlotKind.key, .operator, .value, .conjunction].map fun k => (k.name, k)

end SlotKind

namespace Slot

/-- A slot whose range is just what has been typed of it. -/
def typed (kind : SlotKind) (key : Option String) (query : List Char) (stop : Nat) : Slot :=
  ⟨kind, String.ofList query, key, stop - Text.byteLength query, stop⟩

/-- The first word of a text and what follows it. -/
def spanWord (cs : List Char) : List Char × List Char :=
  (cs.takeWhile fun c => !Text.isBlank c, cs.dropWhile fun c => !Text.isBlank c)

/-- The slot of a clause with no equals sign: its key as long as there is one word, and the operator
after that. -/
def beforeEquals (body : List Char) (stop : Nat) : Slot :=
  match spanWord body with
  | (_, []) => typed .key none body stop
  | (key, rest) => typed .operator (some (String.ofList key)) (Text.trimStart rest) stop

/-- The slot of a clause with text behind its equals sign. A literal that is not closed is a value
still being typed, and its query is what it says so far. -/
def afterEquals (key : String) (tail : List Char) (stop : Nat) : Slot :=
  match Text.trimStart tail with
  | [] => typed .value (some key) [] stop
  | c :: cs =>
    match Quote.ofChar? c with
    | some quote =>
      match quote.split? cs with
      | none =>
        ⟨.value, String.ofList (quote.value cs), some key, stop - Text.byteLength (c :: cs), stop⟩
      | some (_, rest) => typed .conjunction (some key) (Text.trimStart rest) stop
    | none =>
      -- A bare value goes on until the first blank.
      match spanWord (c :: cs) with
      | (_, []) => typed .value (some key) (c :: cs) stop
      | (_, rest) => typed .conjunction (some key) (Text.trimStart rest) stop

/-- The slot at the end of a text. -/
def ofText (text : List Char) : Slot :=
  let stop := Text.byteLength text
  let body := Text.trimStart (Clause.lastSegment text)
  if body.isEmpty then typed .key none [] stop
  else
    match Scan.start.splitAtEquals? body with
    | none => beforeEquals body stop
    | some (key, tail) => afterEquals (String.ofList (Text.trim key)) tail stop

/-- The slot at a byte offset of an expression. -/
def ofCursor (expression : String) (cursor : Nat) : Slot :=
  ofText (Text.takeBytes cursor expression.toList)

end Slot

end QueryPanel
