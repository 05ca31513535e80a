import QueryPanel.Query.Mode
import QueryPanel.Query.Question
import QueryPanel.Settings
import QueryPanel.Time.Step
import QueryPanel.Time.Window

/-!
# Failures

Everything that can go wrong on the way from a draft to a chart, as causes, and the report that a
user gets of each. A report is of one of four kinds. Next to the query panel a user sees an invalid
request without the words that name its kind.
-/

namespace QueryPanel

/-- Whose fault a failure is. -/
inductive FailureKind where
  | configuration
  | invalidRequest
  | store
  | internal
  deriving DecidableEq

/-- What is said of a failure. -/
structure Report where
  kind : FailureKind
  detail : String
  deriving DecidableEq

namespace Report

/-- A report in full. What is wrong inside the program is not told. -/
def message (r : Report) : String :=
  match r.kind with
  | .configuration => "configuration error: " ++ r.detail
  | .invalidRequest => "invalid request: " ++ r.detail
  | .store => "execution backend failed: " ++ r.detail
  | .internal => "internal error"

/-- A report as a user sees it next to the query panel. -/
def userMessage (r : Report) : String :=
  match r.kind with
  | .invalidRequest => r.detail
  | _ => r.message

end Report

/-- Why there is no chart. -/
inductive Failure where
  | settings (cause : SettingsError)
  | window (cause : WindowError)
  | step (cause : StepError)
  | build (cause : BuildError)
  /-- The draft of this name is switched off. -/
  | disabled (name : String)
  /-- A request is not of the mode that is run. -/
  | wrongMode (wanted : Mode)
  /-- The store failed, for these reasons, the outermost first. -/
  | store (reasons : List String)
  /-- The store answered a request of one mode with data of the other. -/
  | wrongReply (wanted got : Mode)
  deriving DecidableEq

namespace Failure

/-- The mode of a request with an article. -/
def modePhrase : Mode → String
  | .timeseries => "a timeseries"
  | .breakdown => "a breakdown"

/-- The report of a failure. -/
def report : Failure → Report
  | .settings cause => ⟨.configuration, cause.message⟩
  | .window cause => ⟨.invalidRequest, cause.message⟩
  | .step cause => ⟨.invalidRequest, cause.message⟩
  | .build cause => ⟨.invalidRequest, cause.message⟩
  | .disabled name => ⟨.invalidRequest, s!"query {name} is disabled"⟩
  | .wrongMode wanted => ⟨.invalidRequest, s!"expected {modePhrase wanted} query"⟩
  | .store reasons => ⟨.store, ": ".intercalate reasons⟩
  | .wrongReply wanted got => ⟨.store, s!"expected {wanted.name} data, got {got.name}"⟩

end Failure

end QueryPanel
