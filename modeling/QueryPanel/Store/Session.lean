import QueryPanel.Store.Basic
import QueryPanel.Series.Marker
import QueryPanel.Series.Timeline

/-!
# Running requests

A session compiles a chart request, sends it to a store and makes what comes back ready to draw. A
timeseries gets a row for every bucket of its window, with zeros where the store has nothing, and
open buckets marked. A breakdown is sorted by falling value and cut off at its limit.
-/

namespace QueryPanel

/-- A timeseries that is ready to draw. -/
structure TimeseriesResult where
  bucketSeconds : Nat
  /-- The names of the series, ascending. -/
  names : List String
  rows : List ChartRow
  hasIncomplete : Bool
  deriving DecidableEq

/-- What comes of a chart request. -/
inductive Outcome where
  | timeseries (result : TimeseriesResult)
  | breakdown (rows : List BreakdownRow)
  deriving DecidableEq

/-- The names of all series of some points, ascending. -/
def Point.seriesNames (points : List Point) : List String :=
  (Columns.constant (points.flatMap fun p => p.columns.names) ()).names

/-- The points of a store on the grid of a window, marked at the time `now`. -/
def TimeseriesResult.ofPoints (w : Window) (bucketSeconds : Nat) (points : List Point)
    (now : Instant) : TimeseriesResult :=
  let names := Point.seriesNames points
  let grid := Timeline.build w.start w.stop bucketSeconds
  let marked := Marker.mark (Timeline.fill points grid (.constant names .zero)) names now
  { bucketSeconds, names, rows := marked.rows, hasIncomplete := marked.hasIncomplete }

/-- The rows of a breakdown sorted by falling value, and at most `limit` of them. Rows of the same
value stay in their order. -/
def BreakdownRow.top (rows : List BreakdownRow) (limit : Nat) : List BreakdownRow :=
  (rows.mergeSort fun a b => b.value.orderKey ≤ a.value.orderKey).take limit

/-- Work that may fail and that calls a store. The calls made before a failure count. -/
abbrev Session := ExceptT Failure (StateM Store)

namespace Session

/-- Sends a request to the store. -/
def call (r : StoreRequest) : Session StoreData := do
  match ← modifyGet fun s => s.call r with
  | .data d => pure d
  | .failure reasons => throw (.store reasons)

/-- Runs the request of a timeseries. -/
def timeseries (r : StoreRequest) (now : Instant) : Session TimeseriesResult :=
  match r.query.bucketSeconds? with
  | none => throw (.wrongMode .timeseries)
  | some seconds => do
    -- The request counts as sent even if the reply turns out to be of the wrong mode.
    match ← call r with
    | .timeseries points => pure (.ofPoints r.window seconds points now)
    | .breakdown _ => throw (.wrongReply .timeseries .breakdown)

/-- Runs the request of a breakdown. -/
def breakdown (r : StoreRequest) : Session (List BreakdownRow) :=
  match r.query.limit? with
  | none => throw (.wrongMode .breakdown)
  | some limit => do
    match ← call r with
    | .breakdown rows => pure (BreakdownRow.top rows limit)
    | .timeseries _ => throw (.wrongReply .breakdown .timeseries)

/-- Compiles a chart request. -/
def compile (s : Settings) (r : ChartRequest) : Session StoreRequest :=
  liftExcept (r.compile s)
where
  /-- A result that needs no store. -/
  liftExcept {α : Type} : Except Failure α → Session α
    | .ok a => pure a
    | .error e => throw e

/-- Compiles a chart request and runs it. -/
def run (s : Settings) (r : ChartRequest) (now : Instant) : Session Outcome := do
  let request ← compile s r
  match r.mode with
  | .timeseries => Outcome.timeseries <$> timeseries request now
  | .breakdown => Outcome.breakdown <$> breakdown request

/-- What comes of a session with a store, and the store after it. -/
def runWith {α : Type} (session : Session α) (store : Store) : Except Failure α × Store :=
  (ExceptT.run session).run store

end Session

end QueryPanel
