import QueryPanel.Number.Word

/-!
# Double precision numbers

The numbers of a chart are binary64. No arithmetic is done on them: they are read, written,
compared and passed on, so a number is a sign and a *code*, the remaining sixty-three bits read as
a natural number. Codes are ordered as the magnitudes they stand for. The finite ones come first,
one code is infinity, and those above it are no numbers at all.

Every finite magnitude is a multiple of 2⁻¹⁰⁷⁴, and `units` is that multiple.
-/

namespace QueryPanel

/-- A binary64 number: a sign, and the other bits as one natural number. -/
@[ext]
structure Double where
  negative : Bool
  code : Nat
  code_lt : code < Word.size63
  deriving DecidableEq

namespace Double

/-- How many codes share the bits of an exponent: the fraction has fifty-two bits. -/
def fractions : Nat := 0x10000000000000

/-- The code of infinity: eleven exponent bits set, and no fraction. -/
def infinityCode : Nat := 2047 * fractions

/-- The number of a sign and a code; a code of more than sixty-three bits counts as infinity. -/
def ofCode (negative : Bool) (code : Nat) : Double :=
  if h : code < Word.size63 then ⟨negative, code, h⟩ else ⟨negative, infinityCode, by decide⟩

/-- Zero without a minus sign. -/
def zero : Double := ⟨false, 0, by decide⟩

instance : Inhabited Double := ⟨zero⟩

/-- Neither an infinity nor a NaN. -/
def isFinite (d : Double) : Bool :=
  d.code < infinityCode

/-- No number: a code above infinity's. -/
def isNaN (d : Double) : Bool :=
  infinityCode < d.code

/-- The magnitude of a finite code as a multiple of 2⁻¹⁰⁷⁴. The formula also gives infinity's code
the magnitude 2¹⁰²⁴, where the next finite number would be. -/
def units (code : Nat) : Nat :=
  if code < 2 * fractions then code
  else (fractions + code % fractions) * Nat.pow 2 (code / fractions - 1)

/-- How many units make one. -/
def unitsPerOne : Nat :=
  Nat.pow 2 1074

/-- A key in whose order all doubles stand: negative numbers by falling code, then positive ones by
rising code. Minus zero is before zero, and the NaNs are at the two ends. -/
def orderKey (d : Double) : Int :=
  if d.negative then -(d.code : Int) - 1 else d.code

theorem orderKey_inj {a b : Double} : a.orderKey = b.orderKey ↔ a = b := by
  refine ⟨fun h => ?_, fun h => h ▸ rfl⟩
  obtain ⟨an, ac, _⟩ := a
  obtain ⟨bn, bc, _⟩ := b
  have same : an = bn ∧ ac = bc := by
    cases an <;> cases bn <;> simp [orderKey] at h ⊢ <;> omega
  simp [same]

end Double

end QueryPanel
