import QueryPanel.Text.Lower
import QueryPanel.Number.Natural

/-!
# Step intervals

The width of a chart's buckets as a user writes it: a number and a unit, such as `30s`, `5m`, `1h`
or `1d`, at most 31 days. Nothing at all, or `auto`, leaves the choice to the program.
-/

namespace QueryPanel

/-- Why a text is no step interval. -/
inductive StepError where
  /-- No number before the last character, where `step` is the text trimmed and in lower case. -/
  | malformed (step : String)
  | zero
  | unknownUnit
  | tooLong
  deriving DecidableEq

/-- An error in words. -/
def StepError.message : StepError → String
  | .malformed step => s!"step interval '{step}' must look like 30s, 5m, 1h"
  | .zero => "step interval must be positive"
  | .unknownUnit => "step interval supports only s|m|h|d suffixes"
  | .tooLong => "step interval must be between 1s and 31d"

namespace Step

/-- The longest step, in seconds. -/
def longest : Nat := 31 * 24 * 60 * 60

/-- The seconds of a unit. -/
def unitSeconds? (c : Char) : Option Nat :=
  match c with
  | 's' => some 1
  | 'm' => some 60
  | 'h' => some (60 * 60)
  | 'd' => some (24 * 60 * 60)
  | _ => none

/-- The seconds of a number of units. -/
def seconds (count : Nat) (unit : Char) : Except StepError Nat :=
  if count = 0 then .error .zero
  else
    match unitSeconds? unit with
    | none => .error .unknownUnit
    | some n => if count * n ≤ longest then .ok (count * n) else .error .tooLong

/-- The seconds of a step interval, or none if the choice is left open. -/
def read (raw : String) : Except StepError (Option Nat) :=
  let step := Text.lower (Text.trim raw.toList)
  match step.getLast? with
  | none => .ok none
  | some unit =>
    if step = "auto".toList then .ok none
    else
      match Natural.ofText Word.size32 step.dropLast with
      | .error _ => .error (.malformed (String.ofList step))
      | .ok count => (seconds count unit).map some

end Step

end QueryPanel
