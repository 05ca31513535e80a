import QueryPanel.Number.Double

/-!
# JSON values

A document as a tree. Objects keep their members in the order they are written, a name written
twice included, because what reads a document decides what that means. Whole numbers that fit
sixty-four bits are kept apart from all other numbers, which are doubles.
-/

namespace QueryPanel

/-- A JSON value. `unreadable` stands for a piece of a document that is well formed and yet has no
value: a string with half of a surrogate pair in it, or a number beyond the doubles. -/
inductive Json where
  | null
  | bool (b : Bool)
  | integer (n : Int)
  | real (d : Double)
  | string (s : String)
  | array (items : List Json)
  | object (members : List (String × Json))
  | unreadable

namespace Json

/-- The members of an object that are there: each optional one is left out when it has no value. -/
def record (members : List (String × Option Json)) : Json :=
  .object (members.filterMap fun m => m.2.map (m.1, ·))

/-- A natural number as a value. -/
def nat (n : Nat) : Json :=
  .integer n

/-- A list of strings as a value. -/
def strings (ss : List String) : Json :=
  .array (ss.map .string)

end Json

end QueryPanel
