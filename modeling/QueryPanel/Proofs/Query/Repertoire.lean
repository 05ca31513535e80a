import QueryPanel.Proofs.Query.Checks
import QueryPanel.Proofs.Text.Trimming
import QueryPanel.Query.Spec

/-!
# What a source can be asked

The repertoire of the sources is a table of names: which metrics and groups each of them has, which
metrics it breaks down, and how it groups a timeseries when nothing is said. From the table a
question gets its list of checks, in the order in which they are made: the number behind the
question, the metric, for metrics their name and their type, and the grouping.

The builders know the table as dialects, with a value behind each name. `Dialect.HasRepertoire` is
what ties the two together, and the rest is proved once for all dialects.

> `answered_by_repertoire`: a timeseries and a breakdown are built exactly if all checks pass, they
> are of the source, metric, grouping and number that the question has, and otherwise the error is
> that of the first check that fails.
-/

namespace QueryPanel

/-! ## The table -/

/-- What a source can be asked, by name. -/
structure Repertoire where
  metrics : List String
  /-- The metrics that can be broken down into groups. -/
  breakdownMetrics : List String
  groups : List String
  /-- The group of a timeseries when nothing is said about grouping. -/
  usualGroup : Option String

/-- What each source can be asked. -/
def Source.repertoire : Source → Repertoire
  | .traces =>
    { metrics := ["count", "avg_duration", "p50_duration", "p95_duration", "p99_duration",
        "error_rate"]
      breakdownMetrics := ["count", "avg_duration", "p50_duration", "p95_duration", "p99_duration",
        "error_rate"]
      groups := ["service", "span_name", "status_code", "http_method", "attribute"]
      usualGroup := none }
  | .logs =>
    { metrics := ["count"]
      breakdownMetrics := ["count"]
      groups := ["service", "severity"]
      usualGroup := none }
  | .metrics =>
    { metrics := ["avg", "sum", "min", "max", "count"]
      breakdownMetrics := ["avg", "sum", "count"]
      groups := ["service"]
      usualGroup := some "service" }

/-- The types that a metric can have, by name. -/
def MetricType.known : List String :=
  ["gauge", "sum", "histogram", "exponential_histogram", "summary"]

/-! ## The checks of a question -/

/-- The checks of the filters on metrics, which have to say the name of a metric and its type. -/
def FilterBag.metricChecks (bag : FilterBag) : List Check :=
  let type := Text.trimmed (bag.metricType.getD "")
  [⟨decide (¬Text.trimmed (bag.metricName.getD "") = ""), .missingMetricName⟩,
    ⟨decide (¬type = ""), .missingMetricType⟩,
    ⟨decide (Text.lowered type ∈ MetricType.known), .unknownMetricType type⟩]

namespace Question

/-- The text about grouping without the blanks around it. No text is a blank one. -/
def groupText (q : Question) : String :=
  Text.trimmed (q.groupBy.getD "")

/-- The metric has to be one of the source. -/
def metricCheck (q : Question) : Check :=
  ⟨decide (Text.plainName q.metric ∈ q.source.repertoire.metrics), .unknownMetric q.source q.metric⟩

/-- The metric of a breakdown has to be one that can be broken down. -/
def breakdownMetricCheck (q : Question) : Check :=
  ⟨decide (Text.plainName q.metric ∈ q.source.repertoire.breakdownMetrics), .noBreakdown q.metric⟩

/-- Only metrics ask anything of the filters. -/
def filterChecks (q : Question) : List Check :=
  match q.source with
  | .traces => []
  | .logs => []
  | .metrics => q.filters.metricChecks

/-- A timeseries may have no groups, or those of one name. -/
def timeseriesGroupCheck (q : Question) : Check :=
  ⟨decide (q.groupText = "" ∨ Text.lowered q.groupText = "none" ∨
      Text.lowered q.groupText ∈ q.source.repertoire.groups),
    .unsupportedGroup q.source (Text.lowered q.groupText)⟩

/-- A breakdown needs groups, and those of a name that the source knows. -/
def breakdownGroupChecks (q : Question) : List Check :=
  [⟨decide (¬(q.groupText = "" ∨ Text.lowered q.groupText = "none")), .missingGroup q.source⟩,
    ⟨decide (Text.lowered q.groupText ∈ q.source.repertoire.groups),
      .unsupportedGroup q.source (Text.lowered q.groupText)⟩]

/-- The checks of a question as a timeseries. -/
def timeseriesChecks (q : Question) (bucketSeconds : Nat) : List Check :=
  ⟨decide (¬bucketSeconds = 0), .zeroWidth⟩ :: q.metricCheck ::
    (q.filterChecks ++ [q.timeseriesGroupCheck])

/-- The checks of a question as a breakdown. -/
def breakdownChecks (q : Question) (limit : Nat) : List Check :=
  ⟨decide (¬limit = 0), .zeroLimit⟩ :: q.metricCheck :: q.breakdownMetricCheck ::
    (q.filterChecks ++ q.breakdownGroupChecks)

/-- The name of the groups that a timeseries is to have, if it is to have groups. -/
def timeseriesGroup? (q : Question) : Option String :=
  if q.groupText = "" then q.source.repertoire.usualGroup
  else if Text.lowered q.groupText = "none" then none
  else some (Text.lowered q.groupText)

end Question

/-! ## Names in a compiled query -/

namespace TimeseriesSpec

/-- The name of the metric. -/
def metricName : TimeseriesSpec → String
  | .traces t => t.metric.name
  | .logs t => t.metric.name
  | .metrics t => t.metric.name

/-- The name of the groups, if there are any. -/
def groupName? : TimeseriesSpec → Option String
  | .traces t => t.groupBy.map (·.name)
  | .logs t => t.groupBy.map (·.name)
  | .metrics t => t.groupBy.map (·.name)

/-- A timeseries is what a question asks for. -/
structure Answers (spec : TimeseriesSpec) (q : Question) (bucketSeconds : Nat) : Prop where
  source : spec.source = q.source
  metric : spec.metricName = Text.plainName q.metric
  group : spec.groupName? = q.timeseriesGroup?
  bucketSeconds : spec.bucketSeconds = bucketSeconds

end TimeseriesSpec

namespace BreakdownSpec

/-- The name of the metric. -/
def metricName : BreakdownSpec → String
  | .traces t => t.metric.name
  | .logs t => t.metric.name
  | .metrics t => t.metric.name

/-- The name of the groups. -/
def groupName : BreakdownSpec → String
  | .traces t => t.groupBy.name
  | .logs t => t.groupBy.name
  | .metrics t => t.groupBy.name

/-- A breakdown is what a question asks for. -/
structure Answers (spec : BreakdownSpec) (q : Question) (limit : Nat) : Prop where
  source : spec.source = q.source
  metric : spec.metricName = Text.plainName q.metric
  group : spec.groupName = Text.lowered q.groupText
  limit : spec.limit = limit

end BreakdownSpec

/-! ## Dialects and the table -/

/-- A dialect has the names of the table for its source, and each value is called by its name. -/
structure Dialect.HasRepertoire {Metric Group Filters : Type} (d : Dialect Metric Group Filters)
    (metricName : Metric → String) (groupName : Group → String) : Prop where
  metrics : d.metrics.map Prod.fst = d.source.repertoire.metrics
  metricNamed : ∀ p ∈ d.metrics, metricName p.2 = p.1
  hasBreakdown : ∀ p ∈ d.metrics,
    d.hasBreakdown p.2 = decide (p.1 ∈ d.source.repertoire.breakdownMetrics)
  groups : d.groups.map Prod.fst = d.source.repertoire.groups
  groupNamed : ∀ p ∈ d.groups, groupName p.2 = p.1
  usualGroup : d.usualGroup.map groupName = d.source.repertoire.usualGroup

namespace Dialect

theorem traces_hasRepertoire : traces.HasRepertoire TraceMetric.name TraceGroup.name :=
  ⟨rfl, by decide, by decide, rfl, by decide, rfl⟩

theorem logs_hasRepertoire : logs.HasRepertoire LogMetric.name LogGroup.name :=
  ⟨rfl, by decide, by decide, rfl, by decide, rfl⟩

theorem metricValues_hasRepertoire :
    metricValues.HasRepertoire Aggregation.name MetricGroup.name :=
  ⟨rfl, by decide, by decide, rfl, by decide, rfl⟩

variable {Metric Group Filters : Type} {d : Dialect Metric Group Filters}
  {metricName : Metric → String} {groupName : Group → String} {q : Question}

theorem decides_metric (h : d.HasRepertoire metricName groupName) (hsource : q.source = d.source) :
    Decides [q.metricCheck]
      (fun m => (Text.plainName q.metric, m) ∈ d.metrics) (d.metric q.metric) := by
  unfold Question.metricCheck metric
  rw [hsource, ← h.metrics]
  refine Decides.lookup ?_ ?_
  · intro m hm hmem
    rw [hm]
    exact ⟨m, rfl, hmem⟩
  · intro hnone
    rw [hnone]

theorem decides_breakdownMetric (h : d.HasRepertoire metricName groupName)
    (hsource : q.source = d.source) :
    Decides [q.metricCheck, q.breakdownMetricCheck]
      (fun m => (Text.plainName q.metric, m) ∈ d.metrics) (d.breakdownMetric q.metric) := by
  have hnext : ∀ m, d.metric q.metric = .ok m → (Text.plainName q.metric, m) ∈ d.metrics →
      Decides [q.breakdownMetricCheck] (fun m => (Text.plainName q.metric, m) ∈ d.metrics)
        (if d.hasBreakdown m then .ok m else .error (.noBreakdown q.metric)) := by
    intro m _ hm
    unfold Question.breakdownMetricCheck
    rw [hsource, ← h.hasBreakdown _ hm]
    cases hbroken : d.hasBreakdown m with
    | true => exact Decides.pass rfl (Decides.of_ok rfl hm)
    | false => exact Decides.fail rfl
  exact (decides_metric h hsource).bind hnext

theorem decides_group (h : d.HasRepertoire metricName groupName) (name : String) :
    Decides [⟨decide (name ∈ d.source.repertoire.groups), .unsupportedGroup d.source name⟩]
      (fun g => groupName g = name) (d.group name) := by
  unfold group
  rw [← h.groups]
  refine Decides.lookup ?_ ?_
  · intro g hg hmem
    rw [hg]
    exact ⟨g, rfl, h.groupNamed _ hmem⟩
  · intro hnone
    rw [hnone]

/-- What a question says about grouping, by the trimmed text. -/
theorem grouping_eq (q : Question) :
    q.grouping
      = if q.groupText = "" then .unsaid
        else if Text.lowered q.groupText = "none" then .off
        else .named (Text.lowered q.groupText) := by
  obtain ⟨source, metric, groupBy, filters⟩ := q
  cases groupBy with
  | none => rfl
  | some text =>
    show (if Text.lowered (Text.trimmed text) = "" then Grouping.unsaid
      else if Text.lowered (Text.trimmed text) = "none" then .off
      else .named (Text.lowered (Text.trimmed text))) = _
    simp only [Text.lowered_eq_empty_iff]
    rfl

theorem decides_timeseriesGroup (h : d.HasRepertoire metricName groupName)
    (hsource : q.source = d.source) :
    Decides [q.timeseriesGroupCheck] (fun g => g.map groupName = q.timeseriesGroup?)
      (d.timeseriesGroup q.grouping) := by
  unfold Question.timeseriesGroupCheck Question.timeseriesGroup?
  rw [grouping_eq, hsource]
  by_cases hblank : q.groupText = ""
  · rw [if_pos hblank, if_pos hblank]
    exact Decides.pass (decide_eq_true (.inl hblank)) (Decides.of_ok rfl h.usualGroup)
  · by_cases hnone : Text.lowered q.groupText = "none"
    · rw [if_neg hblank, if_neg hblank, if_pos hnone, if_pos hnone]
      exact Decides.pass (decide_eq_true (.inr (.inl hnone))) (Decides.of_ok rfl rfl)
    · rw [if_neg hblank, if_neg hblank, if_neg hnone, if_neg hnone]
      simp only [hblank, hnone, false_or]
      refine (decides_group h (Text.lowered q.groupText)).map ?_
      intro g _ hg
      exact congrArg some hg

theorem decides_breakdownGroup (h : d.HasRepertoire metricName groupName)
    (hsource : q.source = d.source) :
    Decides q.breakdownGroupChecks (fun g => groupName g = Text.lowered q.groupText)
      (d.breakdownGroup q.grouping) := by
  have hgroup : d.breakdownGroup q.grouping
      = if q.groupText = "" ∨ Text.lowered q.groupText = "none" then .error (.missingGroup d.source)
        else d.group (Text.lowered q.groupText) := by
    rw [grouping_eq]
    by_cases hblank : q.groupText = ""
    · rw [if_pos hblank, if_pos (.inl hblank)]
      rfl
    · by_cases hnone : Text.lowered q.groupText = "none"
      · rw [if_neg hblank, if_pos hnone, if_pos (.inr hnone)]
        rfl
      · rw [if_neg hblank, if_neg hnone, if_neg (not_or.mpr ⟨hblank, hnone⟩)]
        rfl
  unfold Question.breakdownGroupChecks
  rw [hgroup, hsource]
  exact Decides.guarded (decides_group h (Text.lowered q.groupText))

/-- A timeseries is decided by the checks of the question, once its filters are. -/
theorem decides_timeseries (h : d.HasRepertoire metricName groupName)
    (hsource : q.source = d.source)
    (hfilters : Decides q.filterChecks (fun _ => True) (d.filters q.filters)) (seconds : Nat) :
    Decides (q.metricCheck :: (q.filterChecks ++ [q.timeseriesGroupCheck]))
      (fun t => metricName t.metric = Text.plainName q.metric ∧
        t.groupBy.map groupName = q.timeseriesGroup? ∧ t.bucketSeconds = seconds)
      (d.timeseries q seconds) := by
  refine (decides_metric h hsource).bind fun m _ hm => ?_
  refine hfilters.bind fun filters _ _ => ?_
  rw [← List.append_nil [q.timeseriesGroupCheck]]
  refine (decides_timeseriesGroup h hsource).bind fun g _ hg => ?_
  exact Decides.of_ok rfl ⟨h.metricNamed _ hm, hg, rfl⟩

/-- A breakdown is decided by the checks of the question, once its filters are. -/
theorem decides_breakdown (h : d.HasRepertoire metricName groupName) (hsource : q.source = d.source)
    (hfilters : Decides q.filterChecks (fun _ => True) (d.filters q.filters)) (limit : Nat) :
    Decides (q.metricCheck :: q.breakdownMetricCheck :: (q.filterChecks ++ q.breakdownGroupChecks))
      (fun t => metricName t.metric = Text.plainName q.metric ∧
        groupName t.groupBy = Text.lowered q.groupText ∧ t.limit = limit)
      (d.breakdown q limit) := by
  refine (decides_breakdownMetric h hsource).bind fun m _ hm => ?_
  refine hfilters.bind fun filters _ _ => ?_
  rw [← List.append_nil q.breakdownGroupChecks]
  refine (decides_breakdownGroup h hsource).bind fun g _ hg => ?_
  exact Decides.of_ok rfl ⟨h.metricNamed _ hm, hg, rfl⟩

end Dialect

/-! ## Filters on metrics -/

namespace MetricFilters

theorem decides_ofBag (bag : FilterBag) :
    Decides bag.metricChecks (fun _ => True) (ofBag bag) := by
  have hknown : MetricType.known = MetricType.names.map Prod.fst := rfl
  have hplain : Text.plainName (Text.trimmed (bag.metricType.getD ""))
      = Text.lowered (Text.trimmed (bag.metricType.getD "")) :=
    congrArg Text.lowered (Text.trimmed_trimmed _)
  unfold FilterBag.metricChecks ofBag
  rw [hknown, Text.bind_trimmedNonempty?, Text.bind_trimmedNonempty?]
  by_cases hname : Text.trimmed (bag.metricName.getD "") = ""
  · rw [if_pos hname]
    exact Decides.fail (decide_eq_false (not_not_intro hname))
  · rw [if_neg hname]
    apply Decides.pass (decide_eq_true hname)
    by_cases htype : Text.trimmed (bag.metricType.getD "") = ""
    · rw [if_pos htype]
      exact Decides.fail (decide_eq_false (not_not_intro htype))
    · rw [if_neg htype]
      apply Decides.pass (decide_eq_true htype)
      refine Decides.lookup ?_ ?_
      · intro kind hkind _
        simp only [MetricType.ofText?, hplain, hkind]
        exact ⟨_, rfl, trivial⟩
      · intro hnone
        simp only [MetricType.ofText?, hplain, hnone]

end MetricFilters

/-! ## Questions -/

namespace Question

variable {q : Question}

theorem decides_traceFilters (h : q.source = .traces) :
    Decides q.filterChecks (fun _ => True) (Dialect.traces.filters q.filters) := by
  unfold filterChecks
  rw [h]
  exact Decides.of_ok rfl trivial

theorem decides_logFilters (h : q.source = .logs) :
    Decides q.filterChecks (fun _ => True) (Dialect.logs.filters q.filters) := by
  unfold filterChecks
  rw [h]
  exact Decides.of_ok rfl trivial

theorem decides_metricFilters (h : q.source = .metrics) :
    Decides q.filterChecks (fun _ => True) (Dialect.metricValues.filters q.filters) := by
  unfold filterChecks
  rw [h]
  exact MetricFilters.decides_ofBag q.filters

theorem decides_timeseries (q : Question) (seconds : Nat) :
    Decides (q.timeseriesChecks seconds) (fun spec => spec.Answers q seconds)
      (q.timeseries seconds) := by
  unfold timeseriesChecks timeseries
  apply Decides.guarded
  cases h : q.source with
  | traces =>
    refine (Dialect.decides_timeseries Dialect.traces_hasRepertoire h (decides_traceFilters h)
      seconds).map ?_
    rintro t - ⟨hmetric, hgroup, hseconds⟩
    exact ⟨h.symm, hmetric, hgroup, hseconds⟩
  | logs =>
    refine (Dialect.decides_timeseries Dialect.logs_hasRepertoire h (decides_logFilters h)
      seconds).map ?_
    rintro t - ⟨hmetric, hgroup, hseconds⟩
    exact ⟨h.symm, hmetric, hgroup, hseconds⟩
  | metrics =>
    refine (Dialect.decides_timeseries Dialect.metricValues_hasRepertoire h
      (decides_metricFilters h) seconds).map ?_
    rintro t - ⟨hmetric, hgroup, hseconds⟩
    exact ⟨h.symm, hmetric, hgroup, hseconds⟩

theorem decides_breakdown (q : Question) (limit : Nat) :
    Decides (q.breakdownChecks limit) (fun spec => spec.Answers q limit) (q.breakdown limit) := by
  unfold breakdownChecks breakdown
  apply Decides.guarded
  cases h : q.source with
  | traces =>
    refine (Dialect.decides_breakdown Dialect.traces_hasRepertoire h (decides_traceFilters h)
      limit).map ?_
    rintro t - ⟨hmetric, hgroup, hlimit⟩
    exact ⟨h.symm, hmetric, hgroup, hlimit⟩
  | logs =>
    refine (Dialect.decides_breakdown Dialect.logs_hasRepertoire h (decides_logFilters h)
      limit).map ?_
    rintro t - ⟨hmetric, hgroup, hlimit⟩
    exact ⟨h.symm, hmetric, hgroup, hlimit⟩
  | metrics =>
    refine (Dialect.decides_breakdown Dialect.metricValues_hasRepertoire h
      (decides_metricFilters h) limit).map ?_
    rintro t - ⟨hmetric, hgroup, hlimit⟩
    exact ⟨h.symm, hmetric, hgroup, hlimit⟩

/-- What becomes of a question is told by its checks, both as a timeseries and as a breakdown. -/
theorem answered_by_repertoire (q : Question) (n : Nat) :
    Decides (q.timeseriesChecks n) (fun spec => spec.Answers q n) (q.timeseries n) ∧
      Decides (q.breakdownChecks n) (fun spec => spec.Answers q n) (q.breakdown n) :=
  ⟨decides_timeseries q n, decides_breakdown q n⟩

/-- Metrics are asked for their minimum in a timeseries only, which is noticed before anything that
is missing. -/
example : ({ source := .metrics, metric := " Min " } : Question).breakdown 10
    = .error (.noBreakdown " Min ") := by
  rfl

end Question

end QueryPanel
