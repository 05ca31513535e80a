/-!
# Hexadecimal digits

Sixteen digits, written in lower case and read in either case.
-/

namespace QueryPanel.Hex

/-- The last digit of a number. -/
def last (n : Nat) : Fin 16 :=
  Fin.ofNat 16 n

/-- A digit in lower case. -/
def char (d : Fin 16) : Char :=
  Nat.digitChar d.val

/-- The digit that a character is, in either case. -/
def digit? (c : Char) : Option (Fin 16) :=
  if c.isDigit then some (last (c.toNat - '0'.toNat))
  else if 'a' ≤ c ∧ c ≤ 'f' then some (last (c.toNat - 'a'.toNat + 10))
  else if 'A' ≤ c ∧ c ≤ 'F' then some (last (c.toNat - 'A'.toNat + 10))
  else none

/-- The number that a run of digits is written for. -/
def number? (cs : List Char) : Option Nat :=
  cs.foldlM (fun n c => (digit? c).map (16 * n + ·.val)) 0

theorem digit?_char (d : Fin 16) : digit? (char d) = some d := by
  revert d
  decide

end QueryPanel.Hex
