import QueryPanel.Proofs.Query.Checks
import QueryPanel.Proofs.Text.Trimming
import QueryPanel.Query.Spec

/-!
# What a source sees of a filter bag

A filter bag may be meant for another source, so each source takes the members that it knows and
leaves the rest. `seenBy` is that part of a bag: a bag again, without the members of the others, and
with the texts of its own three members in the form in which they are looked at. Two things make it
the right part (`Dialect.SeesAs`). It is enough, since the filters are the same with what is seen in
place of the bag, and it is needed whole, since compiled filters can be read back as what was seen.

> `compiled_from_what_is_seen`: bags that look the same to the source of a question make the same
> timeseries, breakdown or error, and the filters of what is compiled are those that were seen.
-/

namespace QueryPanel

/-- What a source sees of a filter bag. A blank text counts as none. -/
def FilterBag.seenBy (bag : FilterBag) : Source → FilterBag
  | .traces => { fields := { bag.fields with severity := none } }
  | .logs =>
    { fields :=
        { service := bag.fields.service
          severity := bag.fields.severity
          environment := bag.fields.environment
          commitSha := bag.fields.commitSha
          attr := bag.fields.attr
          resource := bag.fields.resource }
      search := bag.search.bind Text.trimmedNonempty? }
  | .metrics =>
    { fields :=
        { service := bag.fields.service
          environment := bag.fields.environment
          attr := bag.fields.attr
          resource := bag.fields.resource }
      metricName := bag.metricName.bind Text.trimmedNonempty?
      metricType := bag.metricType.bind Text.trimmedNonempty? }

/-- The bag with the type of its metric in lower case, as types are named. -/
def FilterBag.withNamedType (bag : FilterBag) : FilterBag :=
  { bag with metricType := bag.metricType.map Text.lowered }

/-! ## Compiled filters as a bag -/

/-- The filters on spans as a bag. -/
def TraceFilters.toBag (f : TraceFilters) : FilterBag where
  fields :=
    { service := f.service
      spanName := f.spanName
      environment := f.environment
      commitSha := f.commitSha
      httpMethod := f.httpMethod
      httpStatusCode := f.httpStatusCode
      hasError := f.hasError
      rootOnly := f.rootOnly
      minDuration := f.minDuration
      maxDuration := f.maxDuration
      attr := f.attr
      resource := f.resource }

/-- The filters on log records as a bag. -/
def LogFilters.toBag (f : LogFilters) : FilterBag where
  fields :=
    { service := f.service
      severity := f.severity
      environment := f.environment
      commitSha := f.commitSha
      attr := f.attr
      resource := f.resource }
  search := f.search

/-- The filters on metrics as a bag. -/
def MetricFilters.toBag (f : MetricFilters) : FilterBag where
  fields :=
    { service := f.service
      environment := f.environment
      attr := f.attr
      resource := f.resource }
  metricName := some f.metricName
  metricType := some f.metricType.name

/-- The filters of a timeseries as a bag. -/
def TimeseriesSpec.filterBag : TimeseriesSpec → FilterBag
  | .traces t => t.filters.toBag
  | .logs t => t.filters.toBag
  | .metrics t => t.filters.toBag

/-- The filters of a breakdown as a bag. -/
def BreakdownSpec.filterBag : BreakdownSpec → FilterBag
  | .traces t => t.filters.toBag
  | .logs t => t.filters.toBag
  | .metrics t => t.filters.toBag

/-! ## Texts that are looked at -/

namespace Text

/-- A text that has been looked at has no blanks around it. -/
theorem trimmed_of_bind_trimmedNonempty? {raw : Option String} {text : String}
    (h : raw.bind trimmedNonempty? = some text) : trimmed text = text := by
  rw [bind_trimmedNonempty?] at h
  split at h
  · exact nomatch h
  · rw [← Option.some.inj h, trimmed_trimmed]

theorem bind_trimmedNonempty?_twice (raw : Option String) :
    (raw.bind trimmedNonempty?).bind trimmedNonempty? = raw.bind trimmedNonempty? := by
  rw [bind_trimmedNonempty? raw]
  by_cases h : trimmed (raw.getD "") = ""
  · rw [if_pos h]
    rfl
  · rw [if_neg h, bind_trimmedNonempty?, Option.getD_some, trimmed_trimmed, if_neg h]

end Text

/-! ## The filters of each source -/

/-- A dialect looks at a filter bag through what a source sees of it, and keeps all of that. -/
structure Dialect.SeesAs {Metric Group Filters : Type} (d : Dialect Metric Group Filters)
    (source : Source) (toBag : Filters → FilterBag) : Prop where
  enough : ∀ bag, d.filters (bag.seenBy source) = d.filters bag
  whole : ∀ bag f, d.filters bag = .ok f → toBag f = (bag.seenBy source).withNamedType

/-- The type of a text is the one that has its name. -/
theorem MetricType.name_of_ofText? {text : String} {kind : MetricType}
    (h : ofText? text = some kind) : kind.name = Text.plainName text := by
  have hnamed : ∀ p ∈ names, p.2.name = p.1 := by decide
  obtain ⟨before, after, hnames, -⟩ := List.lookup_eq_some_iff.mp h
  apply hnamed (Text.plainName text, kind)
  rw [hnames]
  exact List.mem_append_right before List.mem_cons_self

theorem LogFilters.ofBag_seenBy (bag : FilterBag) : ofBag (bag.seenBy .logs) = ofBag bag := by
  unfold ofBag FilterBag.seenBy
  rw [Text.bind_trimmedNonempty?_twice]

theorem MetricFilters.ofBag_seenBy (bag : FilterBag) : ofBag (bag.seenBy .metrics) = ofBag bag := by
  unfold ofBag FilterBag.seenBy
  rw [Text.bind_trimmedNonempty?_twice, Text.bind_trimmedNonempty?_twice]

theorem MetricFilters.toBag_of_ofBag {bag : FilterBag} {f : MetricFilters} (h : ofBag bag = .ok f) :
    f.toBag = (bag.seenBy .metrics).withNamedType := by
  unfold ofBag at h
  unfold FilterBag.seenBy FilterBag.withNamedType
  split at h
  · exact nomatch h
  · exact nomatch h
  · next metricName text hname htype =>
    split at h
    · exact nomatch h
    · next kind hkind =>
      have htrimmed := Text.trimmed_of_bind_trimmedNonempty? htype
      rw [← Except.ok.inj h, hname, htype]
      unfold toBag
      rw [MetricType.name_of_ofText? hkind, Text.plainName, htrimmed]
      rfl

namespace Dialect

theorem traces_seesAs : traces.SeesAs .traces TraceFilters.toBag where
  enough _ := rfl
  whole bag f h := by
    rw [← Except.ok.inj h]
    rfl

theorem logs_seesAs : logs.SeesAs .logs LogFilters.toBag where
  enough bag := congrArg Except.ok (LogFilters.ofBag_seenBy bag)
  whole bag f h := by
    rw [← Except.ok.inj h]
    rfl

theorem metricValues_seesAs : metricValues.SeesAs .metrics MetricFilters.toBag where
  enough := MetricFilters.ofBag_seenBy
  whole _ _ h := MetricFilters.toBag_of_ofBag h

end Dialect

/-! ## Questions in a dialect -/

namespace Dialect

variable {Metric Group Filters : Type} {d : Dialect Metric Group Filters}
  {source : Source} {toBag : Filters → FilterBag} {q : Question} {bag : FilterBag}

/-- Bags that look the same to the source have the same filters. -/
theorem SeesAs.filters_eq (h : d.SeesAs source toBag)
    (hseen : bag.seenBy source = q.filters.seenBy source) :
    d.filters bag = d.filters q.filters := by
  rw [← h.enough bag, hseen, h.enough]

theorem SeesAs.timeseries_eq (h : d.SeesAs source toBag) (q : Question)
    (hseen : bag.seenBy source = q.filters.seenBy source) (seconds : Nat) :
    d.timeseries { q with filters := bag } seconds = d.timeseries q seconds := by
  unfold timeseries
  rw [h.filters_eq hseen]
  rfl

theorem SeesAs.breakdown_eq (h : d.SeesAs source toBag) (q : Question)
    (hseen : bag.seenBy source = q.filters.seenBy source) (limit : Nat) :
    d.breakdown { q with filters := bag } limit = d.breakdown q limit := by
  unfold breakdown
  rw [h.filters_eq hseen]
  rfl

/-- The filters of a timeseries are what was seen of the bag, whole. -/
theorem SeesAs.toBag_timeseries (h : d.SeesAs source toBag) {seconds : Nat}
    {t : Timeseries Metric Group Filters} (ht : d.timeseries q seconds = .ok t) :
    toBag t.filters = (q.filters.seenBy source).withNamedType := by
  obtain ⟨metric, -, ht⟩ := bind_eq_ok ht
  obtain ⟨filters, hfilters, ht⟩ := bind_eq_ok ht
  obtain ⟨group, -, ht⟩ := bind_eq_ok ht
  rw [← Except.ok.inj ht]
  exact h.whole q.filters filters hfilters

/-- The filters of a breakdown are what was seen of the bag, whole. -/
theorem SeesAs.toBag_breakdown (h : d.SeesAs source toBag) {limit : Nat}
    {t : Breakdown Metric Group Filters} (ht : d.breakdown q limit = .ok t) :
    toBag t.filters = (q.filters.seenBy source).withNamedType := by
  obtain ⟨metric, -, ht⟩ := bind_eq_ok ht
  obtain ⟨filters, hfilters, ht⟩ := bind_eq_ok ht
  obtain ⟨group, -, ht⟩ := bind_eq_ok ht
  rw [← Except.ok.inj ht]
  exact h.whole q.filters filters hfilters

end Dialect

/-! ## Questions -/

namespace Question

variable {q : Question} {bag : FilterBag}

/-- Bags that look the same to the source make the same timeseries, or the same error. -/
theorem timeseries_of_seenBy (h : bag.seenBy q.source = q.filters.seenBy q.source)
    (seconds : Nat) : { q with filters := bag }.timeseries seconds = q.timeseries seconds := by
  obtain ⟨source, metric, groupBy, filters⟩ := q
  unfold timeseries
  refine if_congr Iff.rfl rfl ?_
  cases source with
  | traces =>
    dsimp only at h ⊢
    rw [Dialect.traces_seesAs.timeseries_eq ⟨.traces, metric, groupBy, filters⟩ h seconds]
  | logs =>
    dsimp only at h ⊢
    rw [Dialect.logs_seesAs.timeseries_eq ⟨.logs, metric, groupBy, filters⟩ h seconds]
  | metrics =>
    dsimp only at h ⊢
    rw [Dialect.metricValues_seesAs.timeseries_eq ⟨.metrics, metric, groupBy, filters⟩ h seconds]

/-- Bags that look the same to the source make the same breakdown, or the same error. -/
theorem breakdown_of_seenBy (h : bag.seenBy q.source = q.filters.seenBy q.source)
    (limit : Nat) : { q with filters := bag }.breakdown limit = q.breakdown limit := by
  obtain ⟨source, metric, groupBy, filters⟩ := q
  unfold breakdown
  refine if_congr Iff.rfl rfl ?_
  cases source with
  | traces =>
    dsimp only at h ⊢
    rw [Dialect.traces_seesAs.breakdown_eq ⟨.traces, metric, groupBy, filters⟩ h limit]
  | logs =>
    dsimp only at h ⊢
    rw [Dialect.logs_seesAs.breakdown_eq ⟨.logs, metric, groupBy, filters⟩ h limit]
  | metrics =>
    dsimp only at h ⊢
    rw [Dialect.metricValues_seesAs.breakdown_eq ⟨.metrics, metric, groupBy, filters⟩ h limit]

theorem filterBag_of_timeseries {seconds : Nat} {spec : TimeseriesSpec}
    (h : q.timeseries seconds = .ok spec) :
    spec.filterBag = (q.filters.seenBy q.source).withNamedType := by
  unfold timeseries at h
  split at h
  · exact nomatch h
  · cases hsource : q.source with
    | traces =>
      rw [hsource] at h
      obtain ⟨t, ht, rfl⟩ := map_eq_ok h
      exact Dialect.traces_seesAs.toBag_timeseries ht
    | logs =>
      rw [hsource] at h
      obtain ⟨t, ht, rfl⟩ := map_eq_ok h
      exact Dialect.logs_seesAs.toBag_timeseries ht
    | metrics =>
      rw [hsource] at h
      obtain ⟨t, ht, rfl⟩ := map_eq_ok h
      exact Dialect.metricValues_seesAs.toBag_timeseries ht

theorem filterBag_of_breakdown {limit : Nat} {spec : BreakdownSpec}
    (h : q.breakdown limit = .ok spec) :
    spec.filterBag = (q.filters.seenBy q.source).withNamedType := by
  unfold breakdown at h
  split at h
  · exact nomatch h
  · cases hsource : q.source with
    | traces =>
      rw [hsource] at h
      obtain ⟨t, ht, rfl⟩ := map_eq_ok h
      exact Dialect.traces_seesAs.toBag_breakdown ht
    | logs =>
      rw [hsource] at h
      obtain ⟨t, ht, rfl⟩ := map_eq_ok h
      exact Dialect.logs_seesAs.toBag_breakdown ht
    | metrics =>
      rw [hsource] at h
      obtain ⟨t, ht, rfl⟩ := map_eq_ok h
      exact Dialect.metricValues_seesAs.toBag_breakdown ht

/-- What a source does not see of a filter bag makes no difference, to what is compiled or to the
error, and what it sees is kept. -/
theorem compiled_from_what_is_seen (h : bag.seenBy q.source = q.filters.seenBy q.source) (n : Nat) :
    { q with filters := bag }.timeseries n = q.timeseries n ∧
      { q with filters := bag }.breakdown n = q.breakdown n ∧
      (∀ spec, q.timeseries n = .ok spec →
        spec.filterBag = (q.filters.seenBy q.source).withNamedType) ∧
      ∀ spec, q.breakdown n = .ok spec →
        spec.filterBag = (q.filters.seenBy q.source).withNamedType :=
  ⟨timeseries_of_seenBy h n, breakdown_of_seenBy h n, fun _ => filterBag_of_timeseries,
    fun _ => filterBag_of_breakdown⟩

/-- A question about the load of a service. -/
def loadOfService : Question where
  source := .metrics
  metric := "avg"
  filters :=
    { fields := { service := some "api" }, metricName := some "cpu", metricType := some "Gauge" }

/-- Filters on the load of a service with blanks in them, among filters on its logs and spans. -/
def mixedBag : FilterBag where
  fields := { service := some "api", severity := some "ERROR", rootOnly := some false }
  search := some "timeout"
  metricName := some " cpu"
  metricType := some "Gauge "

theorem loadOfService_is_compiled_from_mixedBag :
    mixedBag.seenBy loadOfService.source
        = loadOfService.filters.seenBy loadOfService.source ∧
      ∃ spec, { loadOfService with filters := mixedBag }.timeseries 60 = .ok spec ∧
        spec.filterBag = ⟨{ service := some "api" }, some "cpu", some "gauge", none⟩ := by
  have hseen : mixedBag.seenBy loadOfService.source
      = loadOfService.filters.seenBy loadOfService.source := by
    decide +kernel
  obtain ⟨htimeseries, -, hfilters, -⟩ := compiled_from_what_is_seen hseen 60
  have hnamed : (loadOfService.filters.seenBy loadOfService.source).withNamedType
      = ⟨{ service := some "api" }, some "cpu", some "gauge", none⟩ := by
    decide +kernel
  cases hspec : loadOfService.timeseries 60 with
  | error e =>
    have hbuilt : (loadOfService.timeseries 60).toOption.isSome = true := by decide +kernel
    rw [hspec] at hbuilt
    exact nomatch hbuilt
  | ok spec => exact ⟨hseen, spec, htimeseries.trans hspec, (hfilters spec hspec).trans hnamed⟩

end Question

end QueryPanel
