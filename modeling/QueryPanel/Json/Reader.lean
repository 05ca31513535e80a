import QueryPanel.Json.Token

/-!
# Reading JSON

A machine that takes the tokens of a text one by one. It keeps the arrays and objects that are still
open, innermost first, and what may come next. A text is a document when the machine has seen one
whole value and nothing after it.
-/

namespace QueryPanel.Json

/-- An array or object that is still open, with what it holds so far in reverse, or the name of a
member whose value is still to come. -/
inductive Frame where
  | array (items : List Json)
  | object (members : List (Option String × Json))
  | member (name : Option String)

/-- What may come next. -/
inductive Expected where
  | value
  | itemOrClose
  | nameOrClose
  | name
  | colon (name : Option String)
  | separator
  | finished (value : Json)

/-- The state of the machine. -/
structure Reader where
  frames : List Frame
  expected : Expected

namespace Reader

/-- Nothing read yet. -/
def start : Reader := ⟨[], .value⟩

/-- An object of its members, unless one of the names has no value. -/
def closeObject (members : List (Option String × Json)) : Json :=
  match members.reverse.mapM fun m => m.1.map (·, m.2) with
  | some ms => .object ms
  | none => .unreadable

/-- A value is complete and goes into the innermost open frame. -/
def complete (v : Json) : List Frame → Option Reader
  | [] => some ⟨[], .finished v⟩
  | .array items :: fs => some ⟨.array (v :: items) :: fs, .separator⟩
  | .member name :: .object ms :: fs => some ⟨.object ((name, v) :: ms) :: fs, .separator⟩
  | _ => none

/-- A token where a value may begin. -/
def beginValue (frames : List Frame) : Token → Option Reader
  | .arrayOpen => some ⟨.array [] :: frames, .itemOrClose⟩
  | .objectOpen => some ⟨.object [] :: frames, .nameOrClose⟩
  | .string (some s) => complete (.string s) frames
  | .string none => complete .unreadable frames
  | .scalar v => complete v frames
  | _ => none

/-- A closing bracket of the innermost frame. -/
def close : Token → List Frame → Option Reader
  | .arrayClose, .array items :: fs => complete (.array items.reverse) fs
  | .objectClose, .object ms :: fs => complete (closeObject ms) fs
  | _, _ => none

/-- Takes one token. -/
def step (r : Reader) (t : Token) : Option Reader :=
  match r.expected, t with
  | .value, t => beginValue r.frames t
  | .itemOrClose, .arrayClose => close .arrayClose r.frames
  | .itemOrClose, t => beginValue r.frames t
  | .nameOrClose, .objectClose => close .objectClose r.frames
  | .nameOrClose, .string s => some ⟨r.frames, .colon s⟩
  | .name, .string s => some ⟨r.frames, .colon s⟩
  | .colon name, .colon => some ⟨.member name :: r.frames, .value⟩
  | .separator, .comma =>
    match r.frames with
    | .array _ :: _ => some ⟨r.frames, .value⟩
    | _ => some ⟨r.frames, .name⟩
  | .separator, t => close t r.frames
  | _, _ => none

end Reader

/-- The value that a text is written for, if the text is one JSON document and no more. -/
def ofText? (cs : List Char) : Option Json := do
  let ts ← tokens? cs
  let r ← ts.foldlM Reader.step Reader.start
  match r.expected with
  | .finished v => some v
  | _ => none

end QueryPanel.Json
