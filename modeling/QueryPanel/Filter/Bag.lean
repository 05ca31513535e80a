import QueryPanel.Filter.Text

/-!
# The filter bag of a query

The filters of a query are the fields that a filter text can say, and three members that it cannot.
Applying an edited text merges what it says into the fields; a blank text clears them. The other
members are never touched.
-/

namespace QueryPanel

/-- The filters of a query. -/
structure FilterBag where
  fields : FilterFields := .empty
  metricName : Option String := none
  metricType : Option String := none
  /-- A term to look for in the bodies of log records. -/
  search : Option String := none
  deriving DecidableEq

/-- A filter bag after an edit, and whether the edited text has an incomplete clause. -/
structure AppliedFilter where
  bag : FilterBag
  incomplete : Bool
  deriving DecidableEq

namespace FilterBag

/-- Applies an edited filter text. -/
def apply (bag : FilterBag) (expression : String) : AppliedFilter :=
  if expression.toList.all Text.isBlank then ⟨{ bag with fields := .empty }, false⟩
  else
    let parsed := FilterFields.read expression
    ⟨{ bag with fields := bag.fields.mergedWith parsed.fields }, parsed.incomplete⟩

/-- A change of a filter bag: an edited text, a patch of the fields, or writing the fields as text
and reading them again. -/
inductive Step where
  | apply (expression : String)
  | merge (patch : FilterFields)
  | reread

/-- The bag after a change, and whether a text read for it has an incomplete clause. -/
def step (bag : FilterBag) : Step → FilterBag × Option Bool
  | .apply expression =>
    let applied := bag.apply expression
    (applied.bag, some applied.incomplete)
  | .merge patch => ({ bag with fields := bag.fields.mergedWith patch }, none)
  | .reread =>
    let parsed := FilterFields.read bag.fields.render
    ({ bag with fields := parsed.fields }, some parsed.incomplete)

/-- The bag after a list of changes. -/
def run (bag : FilterBag) (steps : List Step) : FilterBag :=
  steps.foldl (fun b s => (b.step s).1) bag

end FilterBag

end QueryPanel
