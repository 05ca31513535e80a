import QueryPanel.Json.Value
import QueryPanel.Number.Nearest

/-!
# Records in JSON

How a value is read as a domain type. A record is an object whose members are looked up by name,
members of other names being ignored, or an array that holds the members in their declared order and
may stop early. A member that a record knows may not be given twice. A choice among names is a
string, or an object with that one member, whose value is null.
-/

namespace QueryPanel.Json

/-- The members of a record that has the given names in the declared order. -/
def members? (names : List String) : Json → Option (String → Option Json)
  | .object ms =>
    -- Only the names that the record knows have to be unique.
    if names.all fun n => ms.countP (·.1 == n) ≤ 1 then some fun n => ms.lookup n else none
  | .array items =>
    if items.length ≤ names.length then some fun n => (names.zip items).lookup n else none
  | _ => none

/-- The value of a member that has to be there. -/
def required {α : Type} (read : Json → Option α) (member : Option Json) : Option α :=
  member.bind read

/-- The value of a member that may be absent or null. -/
def optional {α : Type} (read : Json → Option α) : Option Json → Option (Option α)
  | none => some none
  | some .null => some none
  | some v => (read v).map some

/-- The value of a member that may be absent, but not null. -/
def withDefault {α : Type} (default : α) (read : Json → Option α) : Option Json → Option α
  | none => some default
  | some v => read v

/-- A string. -/
def asString? : Json → Option String
  | .string s => some s
  | _ => none

/-- A truth value. -/
def asBool? : Json → Option Bool
  | .bool b => some b
  | _ => none

/-- An integer from zero up to `bound`, exclusive. -/
def asNatBelow? (bound : Nat) : Json → Option Nat
  | .integer n => if 0 ≤ n ∧ n < bound then some n.toNat else none
  | _ => none

/-- A whole number of thirty-two bits. -/
def asWord32? : Json → Option Nat :=
  asNatBelow? Word.size32

/-- Any number. -/
def asDouble? : Json → Option Double
  | .integer n => some (Double.ofInt n)
  | .real d => some d
  | _ => none

/-- An array, each of its items read. -/
def asList? {α : Type} (read : Json → Option α) : Json → Option (List α)
  | .array items => items.mapM read
  | _ => none

/-- The members of an object, each value read. -/
def asEntries? {α : Type} (read : Json → Option α) : Json → Option (List (String × α))
  | .object ms => ms.mapM fun m => (read m.2).map (m.1, ·)
  | _ => none

/-- One of several names. -/
def asChoice? {α : Type} (choices : List (String × α)) : Json → Option α
  | .string s => choices.lookup s
  | .object [(s, .null)] => choices.lookup s
  | _ => none

end QueryPanel.Json
