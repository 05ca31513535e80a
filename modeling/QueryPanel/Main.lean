import QueryPanel.Command

/-!
# The program

Takes the settings from the environment and a chart request from the standard input, and writes the
request for the store to the standard output. An error goes to the standard error, and the program
ends with code 1.
-/

open QueryPanel

/-- Those of the variables that are set, each under its name in upper case. -/
def setVariables (names : List String) : IO (List (String × String)) :=
  names.filterMapM fun name => do
    let name := name.toUpper
    return (← IO.getEnv name).map (name, ·)

def main : IO UInt32 := do
  let environment ← setVariables Settings.variableNames
  let input ← (← IO.getStdin).readBinToEnd
  match Command.output environment input with
  | .ok out =>
    IO.print out
    return 0
  | .error e =>
    IO.eprintln e.text
    return 1
