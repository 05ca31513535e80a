import QueryPanel.Number.Double
import QueryPanel.Number.Decimal

/-!
# The nearest double

Reading a decimal gives the double nearest to it; of two equally near ones, the one whose code is
even. `floorCode` finds the greatest code at or below a fraction by trying its bits from the highest
down, in exact arithmetic, and `nearestCode` decides between that code and the next.
-/

namespace QueryPanel.Double

/-- The greatest code from `base` to `base + 2 ^ bits - 1`, among the finite ones, whose magnitude
is at most `num / den` units. -/
def floorCode (num den : Nat) : (bits base : Nat) → Nat
  | 0, base => base
  | bits + 1, base =>
    let higher := base + Nat.pow 2 bits
    if higher < infinityCode ∧ units higher * den ≤ num then floorCode num den bits higher
    else floorCode num den bits base

/-- The code nearest to `num / den` units, the even one of two equally near. Infinity's code stands
for everything from half a step above the greatest finite number. -/
def nearestCode (num den : Nat) : Nat :=
  let low := floorCode num den 63 0
  let middle := (units low + units (low + 1)) * den
  if 2 * num < middle then low
  else if middle < 2 * num then low + 1
  else if low % 2 = 0 then low else low + 1

/-- The code of a decimal. Decimals far outside the range of doubles are settled by their number of
digits, so that no great power of ten is computed. -/
def codeOfDecimal (d : Decimal) : Nat :=
  if d.coefficient = 0 then 0
  else
    let length : Int := d.digits.length
    -- Doubles end below 10³⁰⁹, and what is below 10⁻³³⁰ is nearest to zero.
    if length + d.exponent > 310 then infinityCode
    else if length + d.exponent < -330 then 0
    else nearestCode (d.numerator * unitsPerOne) d.denominator

/-- The double nearest to a decimal, with the given sign. -/
def ofDecimal (negative : Bool) (d : Decimal) : Double :=
  ofCode negative (codeOfDecimal d)

/-- The double nearest to an integer. -/
def ofInt (n : Int) : Double :=
  ofDecimal (n < 0) ⟨n.natAbs, 0⟩

end QueryPanel.Double
