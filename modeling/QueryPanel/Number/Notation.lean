import QueryPanel.Number.Shortest
import QueryPanel.Text.Search

/-!
# Writing and reading doubles

`plain` writes a double the way filter texts and chart values carry it: always positional, with no
point unless there are digits behind it. `scientific` is the form for documents: a fraction is
always written, and numbers below 1e-5 or from 1e16 on get an exponent, which always has a sign.
`ofText?` reads either.
-/

namespace QueryPanel.Double

/-- `n` zeros. -/
def zeros (n : Nat) : List Char :=
  List.replicate n '0'

/-- The minus sign of a negative number. -/
def sign (negative : Bool) : List Char :=
  if negative then ['-'] else []

/-- A decimal written positionally. Its digits begin at the power of ten `point - 1`, where `point`
counts the digits before the point. -/
def positional (d : Decimal) : List Char :=
  let point : Int := d.digits.length + d.exponent
  if 0 ≤ d.exponent then d.digits ++ zeros d.exponent.toNat
  else if 0 < point then d.digits.take point.toNat ++ '.' :: d.digits.drop point.toNat
  else '0' :: '.' :: zeros (-point).toNat ++ d.digits

/-- An exponent, with its sign even where it is positive. -/
def exponentText (n : Int) : List Char :=
  'e' :: (if n < 0 then '-' else '+') :: Nat.toDigits 10 n.natAbs

/-- A decimal written with one digit before the point and an exponent. -/
def exponential (d : Decimal) : List Char :=
  let point : Int := d.digits.length + d.exponent
  let fraction := if d.digits.length = 1 then [] else '.' :: d.digits.drop 1
  d.digits.take 1 ++ fraction ++ exponentText (point - 1)

/-- The positional text of a double. -/
def plain (d : Double) : List Char :=
  if d.isNaN then "NaN".toList
  else sign d.negative ++ if d.isFinite then positional (shortest .up d.code) else "inf".toList

/-- The text of a finite double in a document. Positional from 1e-5 up to 1e16, with `.0` behind a
whole number. -/
def scientific (d : Double) : List Char :=
  let short := shortest .toEven d.code
  let point : Int := short.digits.length + short.exponent
  sign d.negative ++
    if d.code = 0 then "0.0".toList
    else if 0 ≤ short.exponent ∧ point ≤ 16 then positional short ++ ".0".toList
    else if -5 < point ∧ point ≤ 16 then positional short
    else exponential short

/-- The digits at the beginning of a text, and the rest. -/
def spanDigits (cs : List Char) : List Char × List Char :=
  (cs.takeWhile Char.isDigit, cs.dropWhile Char.isDigit)

/-- An exponent at the beginning of a text that ends with it: nothing at all, or `e`, a sign if
there is one, and digits. -/
def exponentOfText? : List Char → Option Int
  | [] => some 0
  | c :: rest =>
    if c = 'e' ∨ c = 'E' then
      let (negative, digits) : Bool × List Char := match rest with
        | '-' :: r => (true, r)
        | '+' :: r => (false, r)
        | r => (false, r)
      if digits.isEmpty ∨ !digits.all Char.isDigit then none
      else
        let n : Int := Nat.ofDigitChars 10 digits 0
        some (if negative then -n else n)
    else none

/-- Digits with at most one point among them and at least one digit, then an exponent. -/
def decimalOfText? (cs : List Char) : Option Decimal := do
  let (whole, rest) := spanDigits cs
  let (fraction, rest) := match rest with
    | '.' :: r => spanDigits r
    | r => ([], r)
  if whole.isEmpty ∧ fraction.isEmpty then none
  else
    let exponent ← exponentOfText? rest
    some ⟨Nat.ofDigitChars 10 (whole ++ fraction) 0, exponent - fraction.length⟩

/-- The magnitude in a text without a sign: `inf`, `infinity` or `nan` in any case, or a decimal. -/
def magnitudeOfText? (negative : Bool) (cs : List Char) : Option Double :=
  if Text.eqIgnoreCase cs "inf".toList ∨ Text.eqIgnoreCase cs "infinity".toList then
    some (ofCode negative infinityCode)
  else if Text.eqIgnoreCase cs "nan".toList then
    some (ofCode negative (infinityCode + fractions / 2))
  else (decimalOfText? cs).map (ofDecimal negative)

/-- Reads a number: a sign if there is one, then a magnitude. Blanks are not skipped. -/
def ofText? : List Char → Option Double
  | '-' :: cs => magnitudeOfText? true cs
  | '+' :: cs => magnitudeOfText? false cs
  | cs => magnitudeOfText? false cs

end QueryPanel.Double
