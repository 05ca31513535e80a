import QueryPanel.Json.Reader
import QueryPanel.Json.Writer
import QueryPanel.Store.Json

/-!
# The command

One chart request is read as JSON and compiled, and the request for the store is written as JSON.
The settings come first: if the environment is at fault, the input is not looked at.
-/

namespace QueryPanel

/-- Why the command failed. -/
inductive CommandError where
  | settings (cause : SettingsError)
  /-- The input is not UTF-8. -/
  | encoding
  /-- The input is no JSON document, or not one of a chart request. -/
  | request
  | failure (cause : Failure)
  deriving DecidableEq

namespace CommandError

/-- An error in words. -/
def message : CommandError → String
  | .settings _ => "failed to parse TELEMETRY_QUERY_* environment variables"
  | .encoding => "failed to read translate request from stdin"
  | .request => "stdin is not a valid translate request"
  | .failure cause => cause.report.userMessage

/-- What lies behind an error, where there is more to say than its message does. -/
def cause? : CommandError → Option String
  | .settings cause => some (Failure.settings cause).report.message
  | .encoding => some "stream did not contain valid UTF-8"
  | .request => none
  | .failure _ => none

/-- What is said of an error: its message on the first line, and the cause below it. -/
def text (e : CommandError) : String :=
  "Error: " ++ e.message ++ (e.cause?.map ("\n\nCaused by:\n    " ++ ·)).getD ""

end CommandError

namespace Command

/-- Reads a chart request from a text. -/
def requestOfText (text : String) : Except CommandError ChartRequest :=
  match (Json.ofText? text.toList).bind ChartRequest.ofJson? with
  | some r => .ok r
  | none => .error .request

/-- Reads a chart request from the bytes of the input. -/
def requestOfBytes (input : ByteArray) : Except CommandError ChartRequest :=
  match String.fromUTF8? input with
  | some text => requestOfText text
  | none => .error .encoding

/-- The output for an environment, which is variables with their values, and an input. -/
def output (environment : List (String × String)) (input : ByteArray) :
    Except CommandError String := do
  let settings ← (Settings.ofVariables environment).mapError .settings
  let request ← requestOfBytes input
  let compiled ← (request.compile settings).mapError .failure
  .ok (String.ofList compiled.toJson.pretty ++ "\n")

end Command

end QueryPanel
