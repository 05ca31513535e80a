import QueryPanel.Text.Lower
import QueryPanel.Text.Search
import QueryPanel.Number.Natural

/-!
# Settings

What an embedding program may adjust: how many points a chart aims at, how many suggestions are
offered, which attributes are ranked last, and the row limits of breakdowns. `embedded` holds the
defaults. `ofVariables` reads environment variables, whose names count in any case, and brings the
values into range: everything is at least one, and the greatest limit is at least the default one.
-/

namespace QueryPanel

/-- The settings of the query panel. -/
structure Settings where
  /-- About how many points a chart should have. -/
  targetPoints : Nat
  maxSuggestions : Nat
  /-- Beginnings of attribute names that are suggested after all others. -/
  noisyHeads : List String
  defaultLimit : Nat
  maxLimit : Nat
  deriving DecidableEq

/-- Why variables are no settings. -/
inductive SettingsError where
  /-- A value that is no natural number in range. -/
  | malformed (name value : String) (fault : Natural.Fault)
  /-- Two variables with the same name but for case. -/
  | repeated (member : String)
  deriving DecidableEq

/-- An error in words. -/
def SettingsError.message : SettingsError → String
  | .malformed name value fault =>
    s!"{fault.message} while parsing value '{value}' provided by {name}"
  | .repeated member => "duplicate field " ++ "\x60" ++ member ++ "\x60"

namespace Settings

/-- The defaults. -/
def embedded : Settings where
  targetPoints := 150
  maxSuggestions := 8
  noisyHeads := ["http.request.header.", "http.response.header."]
  defaultLimit := 10
  maxLimit := 100

/-- The limit of a breakdown: the one asked for or the default, but at least one and at most the
greatest one allowed. -/
def clampLimit (s : Settings) (asked : Option Nat) : Nat :=
  min (max (asked.getD s.defaultLimit) 1) s.maxLimit

/-- The entries of a list with commas between them, trimmed and in lower case. Blank ones do not
count. -/
def headsOfText (csv : String) : List String :=
  (Text.piecesAt ',' csv.toList).filterMap fun piece =>
    let entry := Text.trim piece
    if entry.isEmpty then none else some (String.ofList (Text.lower entry))

/-- The name in lower case of each variable. -/
def targetPointsName : String := "telemetry_query_target_points"

@[inherit_doc targetPointsName]
def maxSuggestionsName : String := "telemetry_query_max_suggestions"

@[inherit_doc targetPointsName]
def noisyHeadsName : String := "telemetry_query_noisy_attribute_prefixes"

@[inherit_doc targetPointsName]
def defaultLimitName : String := "telemetry_query_default_breakdown_limit"

@[inherit_doc targetPointsName]
def maxLimitName : String := "telemetry_query_max_breakdown_limit"

/-- The names of all variables. -/
def variableNames : List String :=
  [targetPointsName, maxSuggestionsName, noisyHeadsName, defaultLimitName, maxLimitName]

/-- The variables read so far, before they are brought into range. -/
structure Raw where
  targetPoints : Option Nat := none
  maxSuggestions : Option Nat := none
  noisyHeads : Option String := none
  defaultLimit : Option Nat := none
  maxLimit : Option Nat := none

/-- Reads the value of a variable that is a number, unless that one has been read before. -/
def readNumber (bound : Nat) (name value member : String) (before : Option Nat) :
    Except SettingsError (Option Nat) :=
  if before.isSome then .error (.repeated member)
  else
    match Natural.ofText bound value.toList with
    | .ok n => .ok (some n)
    | .error fault => .error (.malformed name value fault)

/-- Reads one variable. Others than the five are ignored. -/
def Raw.add (raw : Raw) (entry : String × String) : Except SettingsError Raw :=
  let (name, value) := entry
  let member := Text.lowered name
  if member = targetPointsName then do
    let n ← readNumber Word.size32 name value member raw.targetPoints
    .ok { raw with targetPoints := n }
  else if member = maxSuggestionsName then do
    let n ← readNumber Word.size64 name value member raw.maxSuggestions
    .ok { raw with maxSuggestions := n }
  else if member = noisyHeadsName then
    if raw.noisyHeads.isSome then .error (.repeated member)
    else .ok { raw with noisyHeads := some value }
  else if member = defaultLimitName then do
    let n ← readNumber Word.size32 name value member raw.defaultLimit
    .ok { raw with defaultLimit := n }
  else if member = maxLimitName then do
    let n ← readNumber Word.size32 name value member raw.maxLimit
    .ok { raw with maxLimit := n }
  else .ok raw

/-- Raw values brought into range, with the default for each that is missing. -/
def Raw.settings (raw : Raw) : Settings :=
  let defaultLimit := max (raw.defaultLimit.getD embedded.defaultLimit) 1
  { targetPoints := max (raw.targetPoints.getD embedded.targetPoints) 1
    maxSuggestions := max (raw.maxSuggestions.getD embedded.maxSuggestions) 1
    noisyHeads := (raw.noisyHeads.map headsOfText).getD embedded.noisyHeads
    defaultLimit
    maxLimit := max (raw.maxLimit.getD embedded.maxLimit) defaultLimit }

/-- The settings that some variables give. They are read in the order of their names, and the first
one at fault is reported. -/
def ofVariables (environment : List (String × String)) : Except SettingsError Settings :=
  ((environment.mergeSort fun a b => a.1 ≤ b.1).foldlM Raw.add {}).map Raw.settings

end Settings

end QueryPanel
