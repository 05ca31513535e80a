import QueryPanel.Proofs.Query.Repertoire
import QueryPanel.Proofs.Series.Fitting
import QueryPanel.Proofs.Store.Running
import QueryPanel.Proofs.Time.Step

/-!
# Numbers in range

Some failures are there for callers that bring numbers of their own: a width of zero, a limit of
zero, and a request that is run in the other mode. From a draft none of them can come. The width is
a step interval, which is refused unless it is positive, or a rung of the ladder of widths; the
limit is brought into range if it is the one of the draft, and otherwise it is the default, which
has been brought into range when the settings were made; and a request is run in the mode that it
was compiled in.

What a user is told of a failure is a text, so the failures are told apart by how their texts begin.

> `internal_failures_are_ruled_out`: however settings are made, they are in range, and with them no
> chart request is told of an internal failure, and what compiles is in range.
-/

namespace QueryPanel

/-! ## Settings -/

namespace Settings

/-- Settings that have been brought into range. -/
structure InRange (s : Settings) : Prop where
  targetPoints : 1 ≤ s.targetPoints
  maxSuggestions : 1 ≤ s.maxSuggestions
  defaultLimit : 1 ≤ s.defaultLimit
  maxLimit : s.defaultLimit ≤ s.maxLimit

/-- Settings as a program gets them: the defaults, or from its environment. -/
inductive Made : Settings → Prop
  | embedded : Made embedded
  | ofVariables {environment : List (String × String)} {s : Settings}
      (h : ofVariables environment = .ok s) : Made s

theorem embedded_inRange : embedded.InRange :=
  ⟨by decide, by decide, by decide, by decide⟩

/-- Whatever the variables say, the settings are in range. -/
theorem Raw.settings_inRange (raw : Raw) : raw.settings.InRange where
  targetPoints := Nat.le_max_right _ _
  maxSuggestions := Nat.le_max_right _ _
  defaultLimit := Nat.le_max_right _ _
  maxLimit := Nat.le_max_right _ _

theorem Made.inRange {s : Settings} (h : s.Made) : s.InRange := by
  cases h with
  | embedded => exact embedded_inRange
  | ofVariables h =>
    obtain ⟨raw, -, rfl⟩ := map_eq_ok h
    exact raw.settings_inRange

/-- A limit that is asked for is brought into range. -/
theorem InRange.clampLimit {s : Settings} (h : s.InRange) (asked : Option Nat) :
    1 ≤ s.clampLimit asked ∧ s.clampLimit asked ≤ s.maxLimit := by
  have hmax : 1 ≤ s.maxLimit := h.defaultLimit.trans h.maxLimit
  exact ⟨Nat.le_min.mpr ⟨Nat.le_max_right _ _, hmax⟩, Nat.min_le_right _ _⟩

end Settings

/-! ## Widths -/

namespace Draft

variable {s : Settings}

theorem one_le_of_bucketSeconds {d : Draft} {w : Window} {seconds : Nat}
    (h : d.bucketSeconds w s = .ok seconds) : 1 ≤ seconds := by
  obtain ⟨step, hstep, rfl⟩ := bucketSeconds_eq_ok h
  cases step with
  | none => exact Width.one_le_ofBounds _ _ s.targetPoints
  | some n => exact (Step.read_eq_ok_some_iff.mp hstep).2.1

/-- The limit of a breakdown is in range, also where the one of the draft is switched off. -/
theorem rowLimit_inRange (d : Draft) (h : s.InRange) :
    1 ≤ d.rowLimit s ∧ d.rowLimit s ≤ s.maxLimit := by
  unfold rowLimit
  split
  · exact h.clampLimit d.limit
  · exact ⟨h.defaultLimit, h.maxLimit⟩

end Draft

/-! ## Windows -/

/-- Blanks around a text are no part of the instant that it is written for. -/
theorem Instant.ofText?_trimmed (text : String) : ofText? (Text.trimmed text) = ofText? text := by
  unfold ofText?
  rw [Text.toList_trimmed, Text.trim_trim]

/-- A window that is read is between two instants in order. -/
theorem Window.read_eq_ok {start stop : String} {w : Window} (h : read start stop = .ok w) :
    w = ⟨Text.trimmed start, Text.trimmed stop⟩ ∧
      ∃ a b, Instant.ofText? start = some a ∧ Instant.ofText? stop = some b ∧
        b.isBefore a = false := by
  unfold read at h
  split at h
  · exact nomatch h
  · exact nomatch h
  · next a b ha hb =>
    split at h
    · exact nomatch h
    · next horder => exact ⟨(Except.ok.inj h).symm, a, b, ha, hb, Bool.eq_false_iff.mpr horder⟩

/-! ## Questions with a number in range -/

/-- The errors of numbers that are zero. -/
def BuildError.zeros : List BuildError :=
  [.zeroWidth, .zeroLimit]

namespace Question

variable {q : Question} {e : BuildError} {n : Nat}

theorem error_of_filterChecks : ∀ c ∈ q.filterChecks, c.error ∉ BuildError.zeros := by
  unfold filterChecks
  split
  · exact nofun
  · exact nofun
  · simp [FilterBag.metricChecks, BuildError.zeros]

/-- A timeseries with buckets of some width is not refused for its width. -/
theorem timeseries_error_of_pos (hn : 1 ≤ n) (h : q.timeseries n = .error e) :
    e ∉ BuildError.zeros := by
  obtain ⟨c, hc, hfails, rfl⟩ := (q.decides_timeseries n).exists_of_error h
  simp only [timeseriesChecks, List.mem_cons, List.mem_append, List.not_mem_nil, or_false] at hc
  rcases hc with rfl | rfl | hc | rfl
  · exact absurd (of_decide_eq_false hfails) (not_not_intro (by omega))
  · simp [metricCheck, BuildError.zeros]
  · exact error_of_filterChecks c hc
  · simp [timeseriesGroupCheck, BuildError.zeros]

/-- A breakdown into some rows is not refused for its limit. -/
theorem breakdown_error_of_pos (hn : 1 ≤ n) (h : q.breakdown n = .error e) :
    e ∉ BuildError.zeros := by
  obtain ⟨c, hc, hfails, rfl⟩ := (q.decides_breakdown n).exists_of_error h
  simp only [breakdownChecks, breakdownGroupChecks, List.mem_cons, List.mem_append,
    List.not_mem_nil, or_false] at hc
  rcases hc with rfl | rfl | rfl | hc | rfl | rfl
  · exact absurd (of_decide_eq_false hfails) (not_not_intro (by omega))
  · simp [metricCheck, BuildError.zeros]
  · simp [breakdownMetricCheck, BuildError.zeros]
  · exact error_of_filterChecks c hc
  · simp [BuildError.zeros]
  · simp [BuildError.zeros]

end Question

/-! ## Telling failures apart -/

/-- A text begins with one of some words. -/
def Text.BeginsIn (words : List String) (text : String) : Prop :=
  ∃ w ∈ words, w.toList <+: text.toList

theorem Text.begins_append {w a : String} (h : w.toList <+: a.toList) (b : String) :
    w.toList <+: (a ++ b).toList := by
  rw [String.toList_append]
  exact h.trans (List.prefix_append a.toList b.toList)

namespace Failure

/-- Failures that only callers with numbers or modes of their own can bring about. -/
def internal : List Failure :=
  BuildError.zeros.map .build ++ Mode.all.map .wrongMode

/-- How internal failures begin. -/
def internalOpenings : List String :=
  ["bu", "li", "ex"]

/-- How the other failures to compile begin. -/
def openings : List String :=
  ["in", "ti", "st", "qu", "Un", "Me", "tr", "lo", "me"]

/-- No text begins in both ways. -/
theorem not_both {text : String} (h : Text.BeginsIn openings text) :
    ¬ Text.BeginsIn internalOpenings text := by
  rintro ⟨v, hv, hvtext⟩
  obtain ⟨w, hw, hwtext⟩ := h
  -- The words are all of one length, so the two would have to be the same.
  have happart : ∀ w ∈ openings, ∀ v ∈ internalOpenings,
      w.toList.length ≤ v.toList.length ∧ ¬ w.toList <+: v.toList := by decide
  obtain ⟨hlength, hne⟩ := happart w hw v hv
  exact hne (List.prefix_of_prefix_length_le hwtext hvtext hlength)

/-- A report is told from those of internal failures by its kind or by how it begins. -/
theorem report_ne_of_internal {e f : Failure} (hf : f ∈ internal)
    (he : e.report.kind = .store ∨ Text.BeginsIn openings e.report.detail) :
    e.report ≠ f.report := by
  have hinternal : f.report.kind = .invalidRequest ∧
      Text.BeginsIn internalOpenings f.report.detail := by
    simp only [internal, BuildError.zeros, Mode.all, List.map_cons, List.map_nil, List.cons_append,
      List.nil_append, List.mem_cons, List.not_mem_nil, or_false] at hf
    rcases hf with rfl | rfl | rfl | rfl
    · exact ⟨rfl, "bu", by decide, by decide⟩
    · exact ⟨rfl, "li", by decide, by decide⟩
    · exact ⟨rfl, "ex", by decide, by decide⟩
    · exact ⟨rfl, "ex", by decide, by decide⟩
  intro heq
  rcases he with hstore | hbegins
  · rw [heq, hinternal.1] at hstore
    exact nomatch hstore
  · rw [heq] at hbegins
    exact not_both hbegins hinternal.2

end Failure

open Text (BeginsIn begins_append)

theorem WindowError.message_begins (e : WindowError) : BeginsIn Failure.openings e.message := by
  cases e with
  | invalidStart text => exact ⟨"in", by decide, begins_append (begins_append (by decide) _) _⟩
  | invalidStop text => exact ⟨"in", by decide, begins_append (begins_append (by decide) _) _⟩
  | reversed => exact ⟨"ti", by decide, by decide⟩

theorem StepError.message_begins (e : StepError) : BeginsIn Failure.openings e.message := by
  refine ⟨"st", by decide, ?_⟩
  cases e with
  | malformed step => exact begins_append (begins_append (by decide) _) _
  | zero => decide
  | unknownUnit => decide
  | tooLong => decide

theorem BuildError.message_begins {e : BuildError} (h : e ∉ zeros) :
    BeginsIn Failure.openings e.message := by
  cases e with
  | unknownMetric source metric =>
    cases source with
    | traces => exact ⟨"Un", by decide, begins_append (by decide) _⟩
    | logs => exact ⟨"Un", by decide, begins_append (by decide) _⟩
    | metrics => exact ⟨"Un", by decide, begins_append (by decide) _⟩
  | noBreakdown metric => exact ⟨"Me", by decide, begins_append (by decide) _⟩
  | unsupportedGroup source group =>
    exact ⟨"Un", by decide, begins_append (begins_append (begins_append (by decide) _) _) _⟩
  | missingGroup source =>
    cases source with
    | traces => exact ⟨"tr", by decide, begins_append (by decide) _⟩
    | logs => exact ⟨"lo", by decide, begins_append (by decide) _⟩
    | metrics => exact ⟨"me", by decide, begins_append (by decide) _⟩
  | missingMetricName => exact ⟨"Me", by decide, by decide⟩
  | missingMetricType => exact ⟨"Me", by decide, by decide⟩
  | unknownMetricType text => exact ⟨"Un", by decide, begins_append (by decide) _⟩
  | zeroWidth => exact absurd (by decide) h
  | zeroLimit => exact absurd (by decide) h

namespace ChartRequest

variable {r : ChartRequest} {s : Settings} {e : Failure}

theorem FailsWith.detail_begins (hs : s.InRange) (h : r.FailsWith s e) :
    BeginsIn Failure.openings e.report.detail := by
  cases h with
  | window _ => exact WindowError.message_begins _
  | disabled _ _ => exact ⟨"qu", by decide, begins_append (begins_append (by decide) _) _⟩
  | step _ _ _ _ => exact StepError.message_begins _
  | timeseries _ _ _ width build =>
    have hwidth := Draft.one_le_of_bucketSeconds width
    exact BuildError.message_begins (Question.timeseries_error_of_pos hwidth build)
  | breakdown _ _ _ build =>
    have hlimit := (r.draft.rowLimit_inRange hs).1
    exact BuildError.message_begins (Question.breakdown_error_of_pos hlimit build)

/-- Compiling is not told of an internal failure. -/
theorem compile_report_ne (hs : s.InRange) (h : r.compile s = .error e) :
    ∀ f ∈ Failure.internal, e.report ≠ f.report := by
  intro f hf
  exact Failure.report_ne_of_internal hf (.inr ((failsWith_of_compile h).detail_begins hs))

end ChartRequest

/-- Running is not told of an internal failure either, whatever the store does. -/
theorem Session.run_report_ne {r : ChartRequest} {s : Settings} (hs : s.InRange) {now : Instant}
    {store : Store} {e : Failure} (h : ((run s r now).runWith store).1 = .error e) :
    ∀ f ∈ Failure.internal, e.report ≠ f.report := by
  cases hcompile : r.compile s with
  | error e' =>
    rw [runWith_run_of_error hcompile] at h
    exact ChartRequest.compile_report_ne hs (hcompile.trans (congrArg _ (Except.error.inj h)))
  | ok request =>
    rw [runWith_run_of_ok hcompile] at h
    intro f hf
    exact Failure.report_ne_of_internal hf (.inl (StoreRequest.kind_of_outcome_error now h))

/-! ## What compiles -/

/-- A compiled request is for the chart that was wanted, and its numbers are in range. -/
structure StoreRequest.InRange (request : StoreRequest) (r : ChartRequest) (s : Settings) :
    Prop where
  mode : request.query.mode = r.mode
  source : request.query.source = r.draft.source
  start : request.window.start = Text.trimmed r.start
  stop : request.window.stop = Text.trimmed r.stop
  ordered : ∃ a b, Instant.ofText? request.window.start = some a ∧
    Instant.ofText? request.window.stop = some b ∧ b.isBefore a = false
  timeseries : r.mode = .timeseries →
    (∃ n, request.query.bucketSeconds? = some n ∧ 1 ≤ n) ∧ request.query.limit? = none
  breakdown : r.mode = .breakdown →
    (∃ n, request.query.limit? = some n ∧ 1 ≤ n ∧ n ≤ s.maxLimit) ∧
      request.query.bucketSeconds? = none

namespace ChartRequest

variable {r : ChartRequest} {s : Settings} {request : StoreRequest}

theorem CompilesTo.inRange (hs : s.InRange) (h : r.CompilesTo s request) :
    request.InRange r s := by
  obtain ⟨hwindow, a, b, ha, hb, horder⟩ := Window.read_eq_ok h.window_eq
  have hordered : ∃ a b, Instant.ofText? request.window.start = some a ∧
      Instant.ofText? request.window.stop = some b ∧ b.isBefore a = false := by
    rw [hwindow]
    exact ⟨a, b, (Instant.ofText?_trimmed _).trans ha, (Instant.ofText?_trimmed _).trans hb, horder⟩
  have hstart : request.window.start = Text.trimmed r.start := congrArg Window.start hwindow
  have hstop : request.window.stop = Text.trimmed r.stop := congrArg Window.stop hwindow
  have hmode := h.mode_eq
  cases h with
  | timeseries mode _ _ width build =>
    have hanswers := (Question.decides_timeseries _ _).good _ build
    have hwidth := hanswers.bucketSeconds ▸ Draft.one_le_of_bucketSeconds width
    exact
      { mode := hmode
        source := hanswers.source
        start := hstart
        stop := hstop
        ordered := hordered
        timeseries := fun _ => ⟨⟨_, rfl, hwidth⟩, rfl⟩
        breakdown := fun h => nomatch mode.symm.trans h }
  | breakdown mode _ _ build =>
    have hanswers := (Question.decides_breakdown _ _).good _ build
    have hlimit := hanswers.limit ▸ r.draft.rowLimit_inRange hs
    exact
      { mode := hmode
        source := hanswers.source
        start := hstart
        stop := hstop
        ordered := hordered
        timeseries := fun h => nomatch mode.symm.trans h
        breakdown := fun _ => ⟨⟨_, rfl, hlimit.1, hlimit.2⟩, rfl⟩ }

end ChartRequest

/-- With settings that were made, however that was, no chart request is told of an internal failure,
and what it compiles to is in range. -/
theorem Settings.internal_failures_are_ruled_out {s : Settings} (h : s.Made) :
    s.InRange ∧ ∀ r : ChartRequest,
      (∀ e, r.compile s = .error e → ∀ f ∈ Failure.internal, e.report ≠ f.report) ∧
      (∀ now store e, ((Session.run s r now).runWith store).1 = .error e →
        ∀ f ∈ Failure.internal, e.report ≠ f.report) ∧
      ∀ request, r.compile s = .ok request → request.InRange r s := by
  have hs := h.inRange
  refine ⟨hs, fun r => ⟨?_, ?_, ?_⟩⟩
  · intro e he
    exact ChartRequest.compile_report_ne hs he
  · intro now store e he
    exact Session.run_report_ne hs he
  · intro request hrequest
    exact (ChartRequest.compilesTo_of_compile hrequest).inRange hs

/-! ## Settings and a draft with zeros -/

/-- What is made of a greatest limit of zero. -/
def Settings.cramped : Settings :=
  { Settings.embedded with maxLimit := 10 }

theorem Settings.cramped_made : Settings.cramped.Made := by
  have h : ofVariables [("TELEMETRY_QUERY_MAX_BREAKDOWN_LIMIT", "0")] = .ok cramped := by
    unfold ofVariables
    rw [List.mergeSort_singleton]
    decide +kernel
  exact .ofVariables h

/-- A breakdown into no rows. -/
def ChartRequest.noRows : ChartRequest where
  draft :=
    { source := .logs
      aggregation := "count"
      groupBy := some "severity"
      addOns := { limit := true }
      limit := some 0 }
  start := " 2025-01-01T00:00:00Z"
  stop := "2025-01-01T00:00:00Z "
  mode := .breakdown

theorem ChartRequest.noRows_compiles_in_range :
    Settings.cramped.Made ∧
      ∃ request, noRows.compile .cramped = .ok request ∧ request.InRange noRows .cramped ∧
        request.query.limit? = some 1 := by
  have hcompiled : (noRows.compile .cramped).toOption.map (·.query.limit?) = some (some 1) := by
    decide +kernel
  obtain ⟨request, hrequest, hlimit⟩ := Option.map_eq_some_iff.mp hcompiled
  have hcompile : noRows.compile .cramped = .ok request := by
    cases h : noRows.compile .cramped with
    | error e =>
      rw [h] at hrequest
      exact nomatch hrequest
    | ok request' =>
      rw [h] at hrequest
      exact congrArg _ (Option.some.inj hrequest)
  have hinRange := ((Settings.internal_failures_are_ruled_out Settings.cramped_made).2 noRows).2.2
  exact ⟨Settings.cramped_made, request, hcompile, hinRange request hcompile, hlimit⟩

end QueryPanel
