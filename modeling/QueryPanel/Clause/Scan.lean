import QueryPanel.Text.Search
import QueryPanel.Clause.Quote

/-!
# Scanning for literals

A scan runs over a filter text from its start and knows at each character whether that stands inside
a quoted literal. A quote opens a literal only where a value may begin: at the start, after a blank
or after an equals sign. Anywhere else, as in `O'Brien`, it is a character like others.
-/

namespace QueryPanel

/-- Where a scan stands: outside every literal, with the character it came from, or inside one. -/
inductive Scan where
  | bare (previous : Option Char)
  | single
  | double
  | escaped
  deriving DecidableEq

namespace Scan

/-- A scan of nothing. -/
def start : Scan := .bare none

/-- Whether a quote behind `previous` opens a literal. -/
def opens (previous : Option Char) : Bool :=
  previous.all fun c => Text.isBlank c || c == '='

/-- Takes one character. -/
def step : Scan → Char → Scan
  | .bare previous, c =>
    if opens previous ∧ c = '"' then .double
    else if opens previous ∧ c = '\'' then .single
    else .bare (some c)
  | .single, c => if c = '\'' then .bare (some c) else .single
  | .double, c => if c = '"' then .bare (some c) else if c = '\\' then .escaped else .double
  | .escaped, _ => .double

/-- Takes a text. -/
def run (s : Scan) (cs : List Char) : Scan :=
  cs.foldl step s

/-- Outside every literal. -/
def isBare : Scan → Bool
  | .bare _ => true
  | _ => false

/-- Outside every literal and just behind a blank. -/
def isAfterBlank : Scan → Bool
  | .bare (some c) => Text.isBlank c
  | _ => false

/-- The next character is neither inside a literal nor one of its quotes. -/
def isOutside (s : Scan) (c : Char) : Bool :=
  s.isBare && (s.step c).isBare

/-- The text before the first equals sign outside every literal, and the text behind it. -/
def splitAtEquals? : Scan → List Char → Option (List Char × List Char)
  | _, [] => none
  | s, c :: cs =>
    if s.isOutside c ∧ c = '=' then some ([], cs)
    else (splitAtEquals? (s.step c) cs).map fun (before, rest) => (c :: before, rest)

theorem run_append (s : Scan) (xs ys : List Char) : s.run (xs ++ ys) = (s.run xs).run ys :=
  List.foldl_append

end Scan

end QueryPanel
