import QueryPanel.Proofs.Store.Running

/-!
# What of a draft counts

A draft holds everything that the panel shows, and much of that is there to be shown only: where the
panel stands, how it orders its rows, what stands in a part that has been switched off. What counts
depends on the mode. A timeseries goes by the grouping only while that is switched on, and by the
step interval; a breakdown goes by the grouping always, and by the limit only while that is switched
on. `AgreeAsTimeseries` and `AgreeAsBreakdown` say of two drafts that they have in common what
counts, errors included: the name of a draft is told when it is switched off.

> `Draft.compiled_from_what_counts`: drafts that have in common what counts in a mode compile to the
> same request in that mode, or fail with the same failure, whatever else is in them.

So nothing else of a draft reaches the store, and nothing else shows in a chart: turns whose drafts
have in common what counts are not told apart by a session of any length
(`Session.runAll_of_alike`).
-/

namespace QueryPanel

namespace Draft

/-! ## Drafts that have in common what counts -/

/-- Two drafts have in common what counts in both modes. -/
structure Agree (d e : Draft) : Prop where
  enabled : d.enabled = e.enabled
  name : d.name = e.name
  source : d.source = e.source
  whereText : d.whereText = e.whereText
  aggregation : d.aggregation = e.aggregation
  metricName : d.metricName = e.metricName
  metricType : d.metricType = e.metricType

/-- Two drafts have in common what counts in a timeseries. -/
structure AgreeAsTimeseries (d e : Draft) : Prop extends Agree d e where
  step : d.step = e.step
  groupByOn : d.addOns.groupBy = e.addOns.groupBy
  groupBy : d.addOns.groupBy = true → d.groupBy = e.groupBy

/-- Two drafts have in common what counts in a breakdown. -/
structure AgreeAsBreakdown (d e : Draft) : Prop extends Agree d e where
  groupBy : d.groupBy = e.groupBy
  limitOn : d.addOns.limit = e.addOns.limit
  limit : d.addOns.limit = true → d.limit = e.limit

variable {d e : Draft}

namespace Agree

theorem checkEnabled_eq (h : Agree d e) : d.checkEnabled = e.checkEnabled := by
  rw [checkEnabled, checkEnabled, h.enabled, h.name]

theorem filterBag_eq (h : Agree d e) : d.filterBag = e.filterBag := by
  rw [filterBag, filterBag, h.metricName, h.metricType, h.whereText]

end Agree

namespace AgreeAsTimeseries

theorem bucketSeconds_eq (h : AgreeAsTimeseries d e) (w : Window) (s : Settings) :
    d.bucketSeconds w s = e.bucketSeconds w s := by
  rw [bucketSeconds, bucketSeconds, h.step]

/-- A grouping that is switched off is not there. -/
theorem timeseriesGroupBy_eq (h : AgreeAsTimeseries d e) :
    d.timeseriesGroupBy = e.timeseriesGroupBy := by
  unfold timeseriesGroupBy
  by_cases hon : d.addOns.groupBy = true
  · rw [if_pos hon, if_pos (h.groupByOn ▸ hon), h.groupBy hon]
  · rw [if_neg hon, if_neg (h.groupByOn ▸ hon)]

theorem question_eq (h : AgreeAsTimeseries d e) :
    d.timeseriesQuestion = e.timeseriesQuestion := by
  rw [timeseriesQuestion, timeseriesQuestion, h.source, h.aggregation, h.timeseriesGroupBy_eq,
    h.filterBag_eq]

theorem request_eq (h : AgreeAsTimeseries d e) (w : Window) (s : Settings) :
    d.timeseriesRequest w s = e.timeseriesRequest w s := by
  rw [timeseriesRequest, timeseriesRequest, h.checkEnabled_eq, h.bucketSeconds_eq, h.question_eq]

end AgreeAsTimeseries

namespace AgreeAsBreakdown

/-- A limit that is switched off is the one of the settings. -/
theorem rowLimit_eq (h : AgreeAsBreakdown d e) (s : Settings) : d.rowLimit s = e.rowLimit s := by
  unfold rowLimit
  by_cases hon : d.addOns.limit = true
  · rw [if_pos hon, if_pos (h.limitOn ▸ hon), h.limit hon]
  · rw [if_neg hon, if_neg (h.limitOn ▸ hon)]

theorem question_eq (h : AgreeAsBreakdown d e) : d.breakdownQuestion = e.breakdownQuestion := by
  rw [breakdownQuestion, breakdownQuestion, h.source, h.aggregation, h.groupBy, h.filterBag_eq]

theorem request_eq (h : AgreeAsBreakdown d e) (w : Window) (s : Settings) :
    d.breakdownRequest w s = e.breakdownRequest w s := by
  rw [breakdownRequest, breakdownRequest, h.checkEnabled_eq, h.question_eq, h.rowLimit_eq]

end AgreeAsBreakdown

/-- What does not count in a mode makes no difference to the request in that mode, or to the failure
where there is none. -/
theorem compiled_from_what_counts (d e : Draft) (w : Window) (s : Settings) :
    (d.AgreeAsTimeseries e → d.timeseriesRequest w s = e.timeseriesRequest w s) ∧
      (d.AgreeAsBreakdown e → d.breakdownRequest w s = e.breakdownRequest w s) :=
  ⟨fun h => h.request_eq w s, fun h => h.request_eq w s⟩

/-- The errors of a service, five minutes a bucket. -/
def errorsOfService : Draft where
  name := "B"
  source := .traces
  whereText := "service.name = cart AND has_error = true"
  aggregation := "count"
  step := "5m"
  groupBy := some "service"

/-- The same draft with every part filled in that does not count in either mode. -/
def cluttered : Draft :=
  { errorsOfService with
    signalSource := some "spans"
    addOns := { having := true, orderBy := true, legend := true }
    having := some "> 10"
    orderBy := some "nonsense"
    orderDirection := .ascending
    limit := some 0
    legend := some "errors" }

/-- Neither a grouping that is unknown but switched off, nor a step interval that cannot be read but
is not for a breakdown, does any harm. -/
theorem cluttered_is_compiled :
    let w : Window := ⟨"2025-01-01T10:00:00Z", "2025-01-01T11:00:00Z"⟩
    { cluttered with groupBy := some "nonsense" }.timeseriesRequest w .embedded
        = errorsOfService.timeseriesRequest w .embedded ∧
      { cluttered with step := "never" }.breakdownRequest w .embedded
        = errorsOfService.breakdownRequest w .embedded ∧
      (errorsOfService.timeseriesRequest w .embedded).toOption.isSome = true ∧
      (errorsOfService.breakdownRequest w .embedded).toOption.isSome = true := by
  intro w
  have htimeseries :
      { cluttered with groupBy := some "nonsense" }.AgreeAsTimeseries errorsOfService :=
    { enabled := rfl, name := rfl, source := rfl, whereText := rfl, aggregation := rfl,
      metricName := rfl, metricType := rfl, step := rfl, groupByOn := rfl, groupBy := nofun }
  have hbreakdown : { cluttered with step := "never" }.AgreeAsBreakdown errorsOfService :=
    { enabled := rfl, name := rfl, source := rfl, whereText := rfl, aggregation := rfl,
      metricName := rfl, metricType := rfl, groupBy := rfl, limitOn := rfl, limit := nofun }
  exact ⟨(compiled_from_what_counts _ _ w .embedded).1 htimeseries,
    (compiled_from_what_counts _ _ w .embedded).2 hbreakdown, by decide +kernel, by decide +kernel⟩

end Draft

/-! ## Sessions -/

/-- Two turns that are alike in all but what does not count in their drafts. -/
structure Turn.Alike (t u : Turn) : Prop where
  now : t.now = u.now
  start : t.request.start = u.request.start
  stop : t.request.stop = u.request.stop
  mode : t.request.mode = u.request.mode
  timeseries : t.request.mode = .timeseries → t.request.draft.AgreeAsTimeseries u.request.draft
  breakdown : t.request.mode = .breakdown → t.request.draft.AgreeAsBreakdown u.request.draft

namespace Turn.Alike

variable {t u : Turn}

theorem compile_eq (h : t.Alike u) (s : Settings) : t.request.compile s = u.request.compile s := by
  unfold ChartRequest.compile
  rw [← h.start, ← h.stop, ← h.mode]
  cases hmode : t.request.mode with
  | timeseries =>
    simp only [(h.timeseries hmode).request_eq]
  | breakdown =>
    simp only [(h.breakdown hmode).request_eq]

/-- With the same store, alike turns come out the same and leave the same store. -/
theorem run_eq (h : t.Alike u) (s : Settings) (store : Store) :
    (Session.run s t.request t.now).runWith store
      = (Session.run s u.request u.now).runWith store := by
  cases hcompile : u.request.compile s with
  | error e =>
    rw [Session.runWith_run_of_error hcompile,
      Session.runWith_run_of_error ((h.compile_eq s).trans hcompile)]
  | ok request =>
    rw [Session.runWith_run_of_ok hcompile,
      Session.runWith_run_of_ok ((h.compile_eq s).trans hcompile), h.now]

end Turn.Alike

/-- Turns that are alike one by one come out the same one by one, and leave the same store. -/
theorem Session.runAll_of_alike (s : Settings) {ts us : List Turn}
    (h : List.Forall₂ Turn.Alike ts us) (store : Store) :
    runAll s ts store = runAll s us store := by
  induction h generalizing store with
  | nil => rfl
  | cons hturn _ ih => rw [runAll_cons, runAll_cons, hturn.run_eq, ih]

end QueryPanel
