import QueryPanel.Number.Word

/-!
# Reading natural numbers

A natural number below a bound: digits, perhaps behind a plus sign. The text is read from the left,
and the first thing that goes wrong is the fault.
-/

namespace QueryPanel.Natural

/-- Why a text is no natural number below the bound. -/
inductive Fault where
  | empty
  | invalidDigit
  | tooLarge
  deriving DecidableEq

/-- A fault in words. -/
def Fault.message : Fault → String
  | .empty => "cannot parse integer from empty string"
  | .invalidDigit => "invalid digit found in string"
  | .tooLarge => "number too large to fit in target type"

/-- The number `n` with one more digit. -/
def addDigit (bound n : Nat) (c : Char) : Except Fault Nat :=
  if !c.isDigit then .error .invalidDigit
  else
    let n := 10 * n + (c.toNat - '0'.toNat)
    if n < bound then .ok n else .error .tooLarge

/-- Reads digits alone. -/
def ofDigits (bound : Nat) (cs : List Char) : Except Fault Nat :=
  if cs.isEmpty then .error .invalidDigit else cs.foldlM (addDigit bound) 0

/-- Reads a natural number below `bound`. -/
def ofText (bound : Nat) : List Char → Except Fault Nat
  | [] => .error .empty
  | '+' :: cs => ofDigits bound cs
  | cs => ofDigits bound cs

end QueryPanel.Natural
