import QueryPanel.Number.Nearest

/-!
# The shortest decimal of a double

`shortest` gives the decimal with the fewest digits among those that read back as the same double,
and of those with equally many digits the one nearest to the double's exact value. For each number
of digits only the two neighbours of that value need a look: if any decimal of that length reads
back, one of them does.

A half is the one question left open, and `Tie` answers it: two formats that agree on everything
else may break it differently.
-/

namespace QueryPanel.Double

/-- What becomes of a value half-way between two decimals of the same length. -/
inductive Tie where
  | up
  | toEven
  deriving DecidableEq

/-- The decimal `d` lies in the interval of numbers that read as `code`: from half-way to the
neighbour below up to half-way to the one above, ends included for an even code. -/
def readsAs (code : Nat) (d : Decimal) : Bool :=
  let twice := 2 * d.numerator * unitsPerOne
  let lower := (units (code - 1) + units code) * d.denominator
  let upper := (units code + units (code + 1)) * d.denominator
  if code % 2 = 0 then lower ≤ twice && twice ≤ upper else lower < twice && twice < upper

/-- Whether `10 ^ e` is at most the magnitude of `code`. -/
def powerFits (code : Nat) (e : Int) : Bool :=
  Nat.pow 10 e.toNat * unitsPerOne ≤ units code * Nat.pow 10 (-e).toNat

/-- The exponent of the greatest power of ten that is at most the magnitude of `code`. The estimate
comes from the number of bits and is at most one off. -/
def leadingExponent (code : Nat) : Int :=
  let estimate := ((units code).log2 - 1074 : Int) * 30103 / 100000
  if powerFits code (estimate + 1) then estimate + 1
  else if powerFits code estimate then estimate
  else estimate - 1

/-- The decimal with `digits` digits nearest to the magnitude of `code`, of the two neighbours that
read back. -/
def ofLength? (tie : Tie) (code digits : Nat) : Option Decimal :=
  let e := leadingExponent code + 1 - digits
  let num := units code * Nat.pow 10 (-e).toNat
  let den := unitsPerOne * Nat.pow 10 e.toNat
  let below : Decimal := ⟨num / den, e⟩
  let above : Decimal := ⟨num / den + 1, e⟩
  match readsAs code below, readsAs code above with
  | false, false => none
  | true, false => some below
  | false, true => some above
  | true, true =>
    -- Both read back: the nearer one is taken, by what is left over of the division.
    let rest := 2 * (num % den)
    if rest < den then some below
    else if den < rest then some above
    else match tie with
      | .up => some above
      | .toEven => if num / den % 2 = 0 then some below else some above

/-- The magnitude of `code` written out in full. -/
def exactDecimal (code : Nat) : Decimal :=
  ⟨units code * Nat.pow 5 1074, -1074⟩

/-- The shortest decimal that reads back as `code`. -/
def shortest (tie : Tie) (code : Nat) : Decimal :=
  if code = 0 then ⟨0, 0⟩
  else (((List.range 17).findSome? fun n => ofLength? tie code (n + 1)).getD
    (exactDecimal code)).reduce

end QueryPanel.Double
