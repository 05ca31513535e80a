import QueryPanel.Number.Notation
import QueryPanel.Clause.Reading
import QueryPanel.Filter.Fields

/-!
# Filters as text

`read` turns a filter text into fields, clause by clause, and says whether some clause is
incomplete: still being typed, or with a value that its key cannot take. A clause with an unknown
key is whole and asks for nothing. Of two clauses on a text field the later one counts; of two
attribute clauses, the earlier one. `render` writes fields as a text, in a fixed order.
-/

namespace QueryPanel

/-- What a filter text says. -/
structure ParsedFilter where
  fields : FilterFields
  incomplete : Bool
  deriving DecidableEq

namespace FilterFields

/-- A truth value, in any case. -/
def boolOfText? (cs : List Char) : Option Bool :=
  if Text.eqIgnoreCase cs "true".toList then some true
  else if Text.eqIgnoreCase cs "false".toList then some false
  else none

/-- A finite number, with blanks around it allowed. -/
def durationOfText? (cs : List Char) : Option Double :=
  (Double.ofText? (Text.trim cs)).filter (·.isFinite)

/-- An attribute field after a clause on it: the first attribute stays, and an empty value sets
nothing. An attribute has to have a name. -/
def recordAttribute (slot : Option AttributeFilter) (name value : String) :
    Option (Option AttributeFilter) :=
  if name = "" then none
  else if slot.isNone ∧ value ≠ "" then some (some ⟨name, value⟩)
  else some slot

/-- The fields after a clause on a known key, unless the key cannot take the value. -/
def recordValue (fields : FilterFields) (value : List Char) : FilterKey → Option FilterFields
  | .text f =>
    some (if value.isEmpty then fields else fields.setText (some (String.ofList value)) f)
  | .hasError =>
    (boolOfText? value).map fun b => if b then { fields with hasError := some true } else fields
  | .rootOnly =>
    (boolOfText? value).map fun b => if b then fields else { fields with rootOnly := some false }
  | .minDuration => (durationOfText? value).map fun d => { fields with minDuration := some d }
  | .maxDuration => (durationOfText? value).map fun d => { fields with maxDuration := some d }
  | .attr name =>
    (recordAttribute fields.attr name (String.ofList value)).map
      fun a => { fields with attr := a }
  | .resource name =>
    (recordAttribute fields.resource name (String.ofList value)).map
      fun a => { fields with resource := a }

/-- The fields after a clause, unless it is incomplete. -/
def record (fields : FilterFields) (clause : List Char) : Option FilterFields :=
  (Clause.ofText? clause).bind fun c =>
    match FilterKey.classify (String.ofList c.key) with
    | none => some fields
    | some key => fields.recordValue c.literal.value key

end FilterFields

namespace ParsedFilter

/-- What a text says after one more clause. -/
def addClause (p : ParsedFilter) (clause : List Char) : ParsedFilter :=
  match p.fields.record clause with
  | some fields => { p with fields }
  | none => { p with incomplete := true }

/-- What a list of clauses says. -/
def ofClauses (clauses : List (List Char)) : ParsedFilter :=
  clauses.foldl addClause ⟨.empty, false⟩

end ParsedFilter

namespace FilterFields

/-- What a filter text says. -/
def read (expression : String) : ParsedFilter :=
  .ofClauses (Clause.split expression.toList)

/-- A clause of a key and a literal. -/
def clauseText (key : String) (literal : List Char) : List Char :=
  key.toList ++ " = ".toList ++ literal

/-- The clause of a text field, unless it is empty. -/
def textClause? (fields : FilterFields) (f : TextField) : Option (List Char) :=
  ((fields.text f).filter (· ≠ "")).map fun v => clauseText f.key (Quote.quoteDouble v.toList)

/-- The clause of a duration, if it is a finite one. -/
def durationClause? (key : String) (duration : Option Double) : Option (List Char) :=
  (duration.filter (·.isFinite)).map fun d => clauseText key d.plain

/-- The clause of an attribute. -/
def attributeClause? (head : String) (attr : Option AttributeFilter) : Option (List Char) :=
  attr.map fun a => clauseText (head ++ a.key) (Quote.quoteDouble a.value.toList)

/-- The clauses of a filter, in the order in which they are written. -/
def clauses (fields : FilterFields) : List (List Char) :=
  TextField.all.filterMap fields.textClause? ++
    [if fields.hasError = some true then some "has_error = true".toList else none,
      if fields.rootOnly = some false then some "root_only = false".toList else none,
      durationClause? "min_duration_ms" fields.minDuration,
      durationClause? "max_duration_ms" fields.maxDuration,
      attributeClause? FilterKey.attributeHead fields.attr,
      attributeClause? FilterKey.resourceHead fields.resource].filterMap id

/-- Clauses joined by conjunctions. -/
def joinClauses : List (List Char) → List Char
  | [] => []
  | [c] => c
  | c :: cs => c ++ " AND ".toList ++ joinClauses cs

/-- The text of a filter, unless it asks for nothing that a text can say. -/
def render? (fields : FilterFields) : Option String :=
  if fields.clauses.isEmpty then none else some (String.ofList (joinClauses fields.clauses))

/-- The text of a filter, empty for one that asks for nothing. -/
def render (fields : FilterFields) : String :=
  fields.render?.getD ""

end FilterFields

end QueryPanel
