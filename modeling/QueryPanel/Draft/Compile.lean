import QueryPanel.Draft.Basic
import QueryPanel.Failure
import QueryPanel.Query.Spec
import QueryPanel.Series.Width

/-!
# Compiling drafts

From a draft and a window to the request that goes to the store, or to the failure that a user is
told of. A draft that is switched off is refused first; then the step interval of a timeseries is
read, and last its source is asked whether it knows what the draft wants.
-/

namespace QueryPanel

/-- A compiled query and the window it runs over. -/
structure StoreRequest where
  window : Window
  query : QuerySpec

/-- A draft to compile, and how. The bounds of the window are as they were typed. -/
structure ChartRequest where
  draft : Draft
  start : String
  stop : String
  mode : Mode := .timeseries
  deriving DecidableEq

namespace Draft

/-- A draft has to be switched on. -/
def checkEnabled (d : Draft) : Except Failure Unit :=
  if d.enabled then .ok () else .error (.disabled d.name)

/-- The width of the buckets: the step interval, or if that is left open a width that suits the
window. -/
def bucketSeconds (d : Draft) (w : Window) (s : Settings) : Except Failure Nat := do
  -- A step interval that cannot be read is an error, not an open choice.
  let step ← (Step.read d.step).mapError .step
  .ok (step.getD (Width.ofBounds (some w.start) (some w.stop) s.targetPoints))

/-- The number of rows of a breakdown: the limit of the draft where one is switched on, within what
is allowed. -/
def rowLimit (d : Draft) (s : Settings) : Nat :=
  if d.addOns.limit then s.clampLimit d.limit else s.defaultLimit

/-- What a draft asks as a timeseries. -/
def timeseriesQuestion (d : Draft) : Question where
  source := d.source
  metric := d.aggregation
  groupBy := d.timeseriesGroupBy
  filters := d.filterBag

/-- What a draft asks as a breakdown. -/
def breakdownQuestion (d : Draft) : Question where
  source := d.source
  metric := d.aggregation
  groupBy := d.groupBy
  filters := d.filterBag

/-- The request of a draft as a timeseries. -/
def timeseriesRequest (d : Draft) (w : Window) (s : Settings) : Except Failure StoreRequest := do
  d.checkEnabled
  let seconds ← d.bucketSeconds w s
  let spec ← (d.timeseriesQuestion.timeseries seconds).mapError .build
  .ok ⟨w, .timeseries spec⟩

/-- The request of a draft as a breakdown. -/
def breakdownRequest (d : Draft) (w : Window) (s : Settings) : Except Failure StoreRequest := do
  d.checkEnabled
  let spec ← (d.breakdownQuestion.breakdown (d.rowLimit s)).mapError .build
  .ok ⟨w, .breakdown spec⟩

end Draft

/-- Compiles a chart request. The window is read before the draft is looked at. -/
def ChartRequest.compile (r : ChartRequest) (s : Settings) : Except Failure StoreRequest := do
  let w ← (Window.read r.start r.stop).mapError .window
  match r.mode with
  | .timeseries => r.draft.timeseriesRequest w s
  | .breakdown => r.draft.breakdownRequest w s

end QueryPanel
