/-!
# Decimal numbers

A decimal is a coefficient and a power of ten. `numerator` and `denominator` write it as a fraction
of natural numbers, and `reduce` moves the zeros at the end of the coefficient into the exponent.
-/

namespace QueryPanel

/-- The number `coefficient · 10 ^ exponent`. -/
structure Decimal where
  coefficient : Nat
  exponent : Int
  deriving DecidableEq

namespace Decimal

/-- The numerator of the decimal as a fraction over `denominator`. -/
def numerator (d : Decimal) : Nat :=
  d.coefficient * Nat.pow 10 d.exponent.toNat

/-- The power of ten that a negative exponent divides by. -/
def denominator (d : Decimal) : Nat :=
  Nat.pow 10 (-d.exponent).toNat

/-- The decimal digits of the coefficient. -/
def digits (d : Decimal) : List Char :=
  Nat.toDigits 10 d.coefficient

/-- The same number with no zero at the end of its coefficient, and zero as 0 · 10⁰. -/
def reduce (d : Decimal) : Decimal :=
  if d.coefficient = 0 then ⟨0, 0⟩
  else if d.coefficient % 10 = 0 then reduce ⟨d.coefficient / 10, d.exponent + 1⟩
  else d
termination_by d.coefficient
decreasing_by omega

end Decimal

end QueryPanel
