import QueryPanel.Draft.Compile
import QueryPanel.Proofs.Query.Checks

/-!
# What compiling a draft comes to

There are two ways for a chart request to compile, one for each mode, and five ways for it to fail.
They are listed here once, each with everything that was found out on the way to it: `CompilesTo`
and `FailsWith`. What holds of compiled requests, or of failures, is then a matter of going through
the list.
-/

namespace QueryPanel

namespace Draft

variable {d : Draft} {w : Window} {s : Settings} {seconds : Nat}

/-- The width of the buckets is that of the step interval, or one that suits the window. -/
theorem bucketSeconds_eq_ok (h : d.bucketSeconds w s = .ok seconds) :
    ∃ step, Step.read d.step = .ok step ∧
      seconds = step.getD (Width.ofBounds (some w.start) (some w.stop) s.targetPoints) := by
  obtain ⟨step, hstep, h⟩ := bind_eq_ok h
  exact ⟨step, mapError_eq_ok hstep, (Except.ok.inj h).symm⟩

/-- There is no width only if the step interval cannot be read. -/
theorem bucketSeconds_eq_error {e : Failure} (h : d.bucketSeconds w s = .error e) :
    ∃ cause, Step.read d.step = .error cause ∧ .step cause = e := by
  rcases bind_eq_error h with h | ⟨step, -, h⟩
  · exact mapError_eq_error h
  · exact nomatch h

theorem checkEnabled_eq_ok {u : Unit} (h : d.checkEnabled = .ok u) : d.enabled = true := by
  unfold checkEnabled at h
  split at h
  · assumption
  · exact nomatch h

theorem checkEnabled_eq_error {e : Failure} (h : d.checkEnabled = .error e) :
    d.enabled = false ∧ .disabled d.name = e := by
  unfold checkEnabled at h
  split at h
  · exact nomatch h
  · next henabled => exact ⟨Bool.eq_false_iff.mpr henabled, Except.error.inj h⟩

end Draft

namespace ChartRequest

variable {r : ChartRequest} {s : Settings}

/-- What a chart request compiles to. -/
inductive CompilesTo (r : ChartRequest) (s : Settings) : StoreRequest → Prop
  | timeseries {w : Window} {seconds : Nat} {spec : TimeseriesSpec}
      (mode : r.mode = .timeseries) (window : Window.read r.start r.stop = .ok w)
      (enabled : r.draft.enabled = true) (width : r.draft.bucketSeconds w s = .ok seconds)
      (build : r.draft.timeseriesQuestion.timeseries seconds = .ok spec) :
      CompilesTo r s ⟨w, .timeseries spec⟩
  | breakdown {w : Window} {spec : BreakdownSpec}
      (mode : r.mode = .breakdown) (window : Window.read r.start r.stop = .ok w)
      (enabled : r.draft.enabled = true)
      (build : r.draft.breakdownQuestion.breakdown (r.draft.rowLimit s) = .ok spec) :
      CompilesTo r s ⟨w, .breakdown spec⟩

/-- Why a chart request does not compile. -/
inductive FailsWith (r : ChartRequest) (s : Settings) : Failure → Prop
  | window {cause : WindowError} (window : Window.read r.start r.stop = .error cause) :
      FailsWith r s (.window cause)
  | disabled {w : Window} (window : Window.read r.start r.stop = .ok w)
      (enabled : r.draft.enabled = false) :
      FailsWith r s (.disabled r.draft.name)
  | step {w : Window} {cause : StepError} (mode : r.mode = .timeseries)
      (window : Window.read r.start r.stop = .ok w) (enabled : r.draft.enabled = true)
      (step : Step.read r.draft.step = .error cause) :
      FailsWith r s (.step cause)
  | timeseries {w : Window} {seconds : Nat} {cause : BuildError} (mode : r.mode = .timeseries)
      (window : Window.read r.start r.stop = .ok w) (enabled : r.draft.enabled = true)
      (width : r.draft.bucketSeconds w s = .ok seconds)
      (build : r.draft.timeseriesQuestion.timeseries seconds = .error cause) :
      FailsWith r s (.build cause)
  | breakdown {w : Window} {cause : BuildError} (mode : r.mode = .breakdown)
      (window : Window.read r.start r.stop = .ok w) (enabled : r.draft.enabled = true)
      (build : r.draft.breakdownQuestion.breakdown (r.draft.rowLimit s) = .error cause) :
      FailsWith r s (.build cause)

theorem compilesTo_of_compile {request : StoreRequest} (h : r.compile s = .ok request) :
    r.CompilesTo s request := by
  obtain ⟨w, hwindow, h⟩ := bind_eq_ok h
  replace hwindow := mapError_eq_ok hwindow
  cases hmode : r.mode with
  | timeseries =>
    rw [hmode] at h
    obtain ⟨_, henabled, h⟩ := bind_eq_ok h
    obtain ⟨seconds, hwidth, h⟩ := bind_eq_ok h
    obtain ⟨spec, hbuild, h⟩ := bind_eq_ok h
    rw [← Except.ok.inj h]
    exact .timeseries hmode hwindow (Draft.checkEnabled_eq_ok henabled) hwidth
      (mapError_eq_ok hbuild)
  | breakdown =>
    rw [hmode] at h
    obtain ⟨_, henabled, h⟩ := bind_eq_ok h
    obtain ⟨spec, hbuild, h⟩ := bind_eq_ok h
    rw [← Except.ok.inj h]
    exact .breakdown hmode hwindow (Draft.checkEnabled_eq_ok henabled) (mapError_eq_ok hbuild)

theorem failsWith_of_compile {e : Failure} (h : r.compile s = .error e) : r.FailsWith s e := by
  rcases bind_eq_error h with h | ⟨w, hwindow, h⟩
  · obtain ⟨cause, hwindow, rfl⟩ := mapError_eq_error h
    exact .window hwindow
  replace hwindow := mapError_eq_ok hwindow
  cases hmode : r.mode with
  | timeseries =>
    rw [hmode] at h
    rcases bind_eq_error h with h | ⟨_, henabled, h⟩
    · obtain ⟨henabled, rfl⟩ := Draft.checkEnabled_eq_error h
      exact .disabled hwindow henabled
    replace henabled := Draft.checkEnabled_eq_ok henabled
    rcases bind_eq_error h with h | ⟨seconds, hwidth, h⟩
    · obtain ⟨cause, hstep, rfl⟩ := Draft.bucketSeconds_eq_error h
      exact .step hmode hwindow henabled hstep
    rcases bind_eq_error h with h | ⟨spec, -, h⟩
    · obtain ⟨cause, hbuild, rfl⟩ := mapError_eq_error h
      exact .timeseries hmode hwindow henabled hwidth hbuild
    · exact nomatch h
  | breakdown =>
    rw [hmode] at h
    rcases bind_eq_error h with h | ⟨_, henabled, h⟩
    · obtain ⟨henabled, rfl⟩ := Draft.checkEnabled_eq_error h
      exact .disabled hwindow henabled
    replace henabled := Draft.checkEnabled_eq_ok henabled
    rcases bind_eq_error h with h | ⟨spec, -, h⟩
    · obtain ⟨cause, hbuild, rfl⟩ := mapError_eq_error h
      exact .breakdown hmode hwindow henabled hbuild
    · exact nomatch h

namespace CompilesTo

variable {request : StoreRequest}

/-- A compiled request is of the mode that was wanted. -/
theorem mode_eq (h : r.CompilesTo s request) : request.query.mode = r.mode := by
  cases h with
  | timeseries mode => exact mode.symm
  | breakdown mode => exact mode.symm

theorem window_eq (h : r.CompilesTo s request) :
    Window.read r.start r.stop = .ok request.window := by
  cases h with
  | timeseries _ window => exact window
  | breakdown _ window => exact window

end CompilesTo

end ChartRequest

end QueryPanel
