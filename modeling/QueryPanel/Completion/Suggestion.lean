import QueryPanel.Text.Lower
import QueryPanel.Text.Search
import QueryPanel.Clause.Slot

/-!
# Suggestions and their ranking

A suggestion is shown by its label and inserts its text. `rank` keeps the candidates that have the
typed text in one of the two, without regard to case: first those that begin with it, then the
others, and in each of these groups the demoted ones last. Otherwise their order stays.
-/

namespace QueryPanel

/-- Something to insert into a slot. -/
structure Suggestion where
  kind : SlotKind
  label : String
  insertText : String
  description : Option String := none
  deriving DecidableEq

/-- What tells suggestions apart. -/
def Suggestion.id (s : Suggestion) : String :=
  s.kind.name ++ ":" ++ s.insertText

/-- A suggestion that may be offered, after all others like it if it is demoted. -/
structure Candidate where
  suggestion : Suggestion
  demoted : Bool := false
  deriving DecidableEq

/-- How well a suggestion fits what has been typed. -/
inductive Tier where
  | beginning
  | part
  deriving DecidableEq

namespace Tier

/-- The number by which tiers are ordered. -/
def order : Tier → Nat
  | .beginning => 0
  | .part => 1

/-- The tier of a suggestion for a text in lower case, unless it has that text nowhere. -/
def of? (needle : List Char) (s : Suggestion) : Option Tier :=
  let label := Text.lower s.label.toList
  let insert := Text.lower s.insertText.toList
  if needle.isEmpty then some .beginning
  else if Text.beginsWith needle label || Text.beginsWith needle insert then some .beginning
  else if Text.contains needle label || Text.contains needle insert then some .part
  else none

end Tier

namespace Candidate

/-- The candidate with the place its tier gives it, unless it does not match. -/
def placed? (needle : List Char) (c : Candidate) : Option (Nat × Suggestion) :=
  (Tier.of? needle c.suggestion).map fun t =>
    (2 * t.order + if c.demoted then 1 else 0, c.suggestion)

/-- The suggestions that match what has been typed, the best first. -/
def rank (candidates : List Candidate) (query : String) : List Suggestion :=
  let needle := Text.lower (Text.trim query.toList)
  ((candidates.filterMap (placed? needle)).mergeSort fun a b => a.1 ≤ b.1).map (·.2)

end Candidate

end QueryPanel
