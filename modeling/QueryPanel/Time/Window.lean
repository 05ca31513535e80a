import QueryPanel.Time.Reading

/-!
# Time windows

The window that a query runs over. Its bounds are kept as they were written, without the blanks
around them; that they are instants, and in order, is checked when the window is read.
-/

namespace QueryPanel

/-- A window, both bounds included. -/
structure Window where
  start : String
  stop : String
  deriving DecidableEq

/-- Why two texts are no window. -/
inductive WindowError where
  | invalidStart (text : String)
  | invalidStop (text : String)
  | reversed
  deriving DecidableEq

/-- An error in words. -/
def WindowError.message : WindowError → String
  | .invalidStart text => s!"invalid start time '{text}'"
  | .invalidStop text => s!"invalid end time '{text}'"
  | .reversed => "time range start must be before end"

/-- The window between two instants. -/
def Window.read (start stop : String) : Except WindowError Window :=
  match Instant.ofText? start, Instant.ofText? stop with
  | none, _ => .error (.invalidStart start)
  | some _, none => .error (.invalidStop stop)
  | some a, some b =>
    if b.isBefore a then .error .reversed else .ok ⟨Text.trimmed start, Text.trimmed stop⟩

end QueryPanel
