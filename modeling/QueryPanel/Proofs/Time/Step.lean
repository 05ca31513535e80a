import Mathlib.Data.Nat.PSub
import QueryPanel.Failure
import QueryPanel.Proofs.Number.Natural
import QueryPanel.Proofs.Text.Slicing

/-!
# Which texts are step intervals

A step is a number and one of four units, and it is worth the product (`Spells`), which is exact
however long the number is. Two things could spoil it: the number is read into a word of thirty-two
bits, and so is the product, which stops at the largest word. Neither can bring a step that is too
long back among those that are not, because the longest step is a word itself and no unit is less
than a second.

The text is cut in front of its last character by counting bytes (`read?`), and that character need
not be one byte.

> `read_accepts`: what is read as a step, what leaves the choice open, that anything else is the
> user's mistake, and that no cut fails.
-/

namespace QueryPanel.Step

/-- The units of a step and their seconds. -/
def units : List (Char × Nat) :=
  [('s', 1), ('m', 60), ('h', 3600), ('d', 86400)]

/-- What a step interval looks like and how many seconds it stands for. -/
inductive Spells : List Char → Nat → Prop
  | mk {number : List Char} {unit : Char} {count factor : Nat}
      (hnumber : Natural.Spells number count) (hunit : (unit, factor) ∈ units) :
      Spells (number ++ [unit]) (count * factor)

theorem unitSeconds?_eq_some_iff {unit : Char} {factor : Nat} :
    unitSeconds? unit = some factor ↔ (unit, factor) ∈ units := by
  constructor
  · intro h
    unfold unitSeconds? at h
    split at h <;> simp_all [units]
  · intro h
    simp only [units, List.mem_cons, List.not_mem_nil, or_false, Prod.mk.injEq] at h
    rcases h with ⟨rfl, rfl⟩ | ⟨rfl, rfl⟩ | ⟨rfl, rfl⟩ | ⟨rfl, rfl⟩ <;> rfl

theorem one_le_of_mem_units {unit : Char} {factor : Nat} (h : (unit, factor) ∈ units) :
    1 ≤ factor := by
  have hall : ∀ p ∈ units, 1 ≤ p.2 := by decide
  exact hall _ h

theorem longest_lt_pred_size32 : longest < Word.size32 - 1 := by
  decide

/-! ## Seconds -/

theorem seconds_eq_ok_iff {count n : Nat} {unit : Char} : seconds count unit = .ok n ↔
    ∃ factor, (unit, factor) ∈ units ∧ n = count * factor ∧ 1 ≤ n ∧ n ≤ longest := by
  unfold seconds
  split
  · next hzero =>
    constructor
    · intro h
      cases h
    · rintro ⟨factor, -, rfl, hone, -⟩
      rw [hzero, Nat.zero_mul] at hone
      exact absurd hone (Nat.not_succ_le_zero 0)
  · next hpos =>
    cases hunit : unitSeconds? unit with
    | none =>
      constructor
      · intro h
        cases h
      · rintro ⟨factor, hmem, -⟩
        rw [unitSeconds?_eq_some_iff.mpr hmem] at hunit
        cases hunit
    | some factor =>
      have hmem := unitSeconds?_eq_some_iff.mp hunit
      have hone : 1 ≤ count * factor :=
        Nat.mul_pos (Nat.pos_of_ne_zero hpos) (one_le_of_mem_units hmem)
      constructor
      · intro h
        simp only at h
        split at h
        · next hle =>
          cases h
          exact ⟨factor, hmem, rfl, hone, hle⟩
        · cases h
      · rintro ⟨factor', hmem', rfl, -, hle⟩
        rw [unitSeconds?_eq_some_iff.mpr hmem', Option.some.injEq] at hunit
        subst hunit
        exact if_pos hle

theorem spells_concat_iff {number : List Char} {unit : Char} {n : Nat} :
    Spells (number ++ [unit]) n ↔ ∃ count factor,
      Natural.Spells number count ∧ (unit, factor) ∈ units ∧ n = count * factor := by
  constructor
  · intro h
    generalize hcs : number ++ [unit] = cs at h
    cases h with
    | mk hnumber hunit =>
      obtain ⟨rfl, heq⟩ := List.append_inj' hcs rfl
      cases heq
      exact ⟨_, _, hnumber, hunit, rfl⟩
  · rintro ⟨count, factor, hnumber, hunit, rfl⟩
    exact .mk hnumber hunit

/-- What leaves the choice open is no step: it ends with no unit, or not at all. -/
theorem not_spells_of_open {cs : List Char} (h : cs = [] ∨ cs = "auto".toList) {n : Nat} :
    ¬ Spells cs n := by
  intro hspells
  cases hspells with
  | @mk number unit count factor hnumber hunit =>
    rcases h with h | h
    · exact List.concat_ne_nil _ _ h
    · have hlast : unit = 'o' := by
        have := congrArg List.getLast? h
        rw [List.getLast?_concat] at this
        exact Option.some.inj this
      have hall : ∀ p ∈ units, p.1 ≠ 'o' := by decide
      exact hall _ hunit hlast

/-! ## Reading -/

/-- A number in front of a character. -/
theorem read_of_concat {raw : String} {number : List Char} {unit : Char}
    (h : Text.lower (Text.trim raw.toList) = number ++ [unit])
    (hauto : number ++ [unit] ≠ "auto".toList) :
    read raw = match Natural.ofText Word.size32 number with
      | .error _ => .error (.malformed (String.ofList (number ++ [unit])))
      | .ok count => (seconds count unit).map some := by
  unfold read
  simp only [h, List.getLast?_concat, List.dropLast_concat]
  exact if_neg hauto

/-- Where the choice is not left open, there is a last character. -/
theorem exists_concat {cs : List Char} (h : ¬ (cs = [] ∨ cs = "auto".toList)) :
    ∃ number unit, cs = number ++ [unit] ∧ number ++ [unit] ≠ "auto".toList := by
  rw [not_or] at h
  obtain ⟨number, unit, hcs⟩ := (List.eq_nil_or_concat cs).resolve_left h.1
  rw [List.concat_eq_append] at hcs
  exact ⟨number, unit, hcs, hcs ▸ h.2⟩

section Read

variable {raw : String}

theorem read_eq_ok_none_iff : read raw = .ok none ↔
    Text.lower (Text.trim raw.toList) = [] ∨ Text.lower (Text.trim raw.toList) = "auto".toList := by
  constructor
  · intro h
    by_contra hother
    obtain ⟨number, unit, htext, hauto⟩ := exists_concat hother
    rw [read_of_concat htext hauto] at h
    split at h
    · cases h
    · next count _ => cases hseconds : seconds count unit <;> rw [hseconds] at h <;> cases h
  · intro hopen
    unfold read
    rcases hopen with h | h
    · rw [h]
      rfl
    · rw [h]
      rfl

/-- A number is read, and so are its seconds. -/
theorem read_concat_eq_ok_some_iff {number : List Char} {unit : Char} {n : Nat}
    (h : Text.lower (Text.trim raw.toList) = number ++ [unit])
    (hauto : number ++ [unit] ≠ "auto".toList) : read raw = .ok (some n) ↔
      ∃ count, Natural.ofText Word.size32 number = .ok count ∧ seconds count unit = .ok n := by
  rw [read_of_concat h hauto]
  cases hnumber : Natural.ofText Word.size32 number with
  | error fault => simp
  | ok count =>
    cases hseconds : seconds count unit with
    | error e => simp [Except.map, hseconds]
    | ok m => simp [Except.map, hseconds]

/-- The steps that are read are those that are spelled and neither nothing nor too long. -/
theorem read_eq_ok_some_iff {n : Nat} : read raw = .ok (some n) ↔
    Spells (Text.lower (Text.trim raw.toList)) n ∧ 1 ≤ n ∧ n ≤ longest := by
  by_cases hopen : Text.lower (Text.trim raw.toList) = [] ∨
      Text.lower (Text.trim raw.toList) = "auto".toList
  · rw [read_eq_ok_none_iff.mpr hopen]
    simp [not_spells_of_open hopen]
  · obtain ⟨number, unit, htext, hauto⟩ := exists_concat hopen
    rw [read_concat_eq_ok_some_iff htext hauto, htext, spells_concat_iff]
    simp only [Natural.ofText_eq_ok_iff (show 0 < Word.size32 by decide), seconds_eq_ok_iff]
    constructor
    · rintro ⟨count, ⟨hcount, -⟩, factor, hunit, hn, hbounds⟩
      exact ⟨⟨count, factor, hcount, hunit, hn⟩, hbounds⟩
    · rintro ⟨⟨count, factor, hcount, hunit, rfl⟩, hbounds⟩
      -- No unit is less than a second, so the number is no larger than the step.
      have hle : count ≤ count * factor := Nat.le_mul_of_pos_right _ (one_le_of_mem_units hunit)
      have hword : count < Word.size32 :=
        Nat.lt_of_le_of_lt (Nat.le_trans hle hbounds.2) (Nat.lt_of_lt_pred longest_lt_pred_size32)
      exact ⟨count, ⟨hcount, hword⟩, factor, hunit, rfl, hbounds⟩

end Read

/-! ## In place -/

/-- The seconds of a number of units, by a product of words that stops at the largest one. -/
def saturatedSeconds (count : Nat) (unit : Char) : Except StepError Nat :=
  if count = 0 then .error .zero
  else
    match unitSeconds? unit with
    | none => .error .unknownUnit
    | some factor =>
      let product := min (count * factor) (Word.size32 - 1)
      if longest < product then .error .tooLong else .ok product

/-- `read` with the number cut off in front of the bytes of the last character. -/
def read? (raw : String) : Option (Except StepError (Option Nat)) :=
  let step := Text.lower (Text.trim raw.toList)
  if step = [] ∨ step = "auto".toList then some (.ok none)
  else do
    let unit := step.getLast?.getD (Char.ofNat 0)
    let size ← (Text.byteLength step).psub unit.utf8Size
    let number ← Text.upTo? step size
    match Natural.ofText Word.size32 number with
    | .error _ => return .error (.malformed (String.ofList step))
    | .ok count => return (saturatedSeconds count unit).map some

/-- A product that stops at the largest word is too long just where the exact one is. -/
theorem saturatedSeconds_eq (count : Nat) (unit : Char) :
    saturatedSeconds count unit = seconds count unit := by
  have hword := longest_lt_pred_size32
  unfold saturatedSeconds seconds
  refine if_congr Iff.rfl rfl ?_
  cases unitSeconds? unit with
  | none => rfl
  | some factor =>
    show (if longest < min (count * factor) (Word.size32 - 1) then _ else _)
      = if count * factor ≤ longest then _ else _
    by_cases hle : count * factor ≤ longest
    · rw [Nat.min_eq_left (by omega), if_neg (Nat.not_lt.mpr hle), if_pos hle]
    · rw [if_pos (by omega), if_neg hle]

theorem read?_eq (raw : String) : read? raw = some (read raw) := by
  unfold read?
  by_cases h : Text.lower (Text.trim raw.toList) = [] ∨
      Text.lower (Text.trim raw.toList) = "auto".toList
  · rw [if_pos h, read_eq_ok_none_iff.mpr h]
  · rw [if_neg h]
    obtain ⟨number, unit, htext, hauto⟩ := exists_concat h
    have hsize : (Text.byteLength (number ++ [unit])).psub unit.utf8Size
        = some (Text.byteLength number) := by
      rw [Nat.psub_eq_some, Text.byteLength_append]
      rfl
    simp only [read_of_concat htext hauto, htext, List.getLast?_concat, Option.getD_some,
      hsize, Option.bind_eq_bind, Option.bind_some, Text.upTo?_append]
    cases Natural.ofText Word.size32 number with
    | error fault => rfl
    | ok count => exact congrArg (fun n => some (n.map some)) (saturatedSeconds_eq count unit)

/-! ## The language of steps -/

/-- The choice is left open by nothing at all and by one word. A step is read where a number and a
unit are spelled whose exact product is within bounds. Everything else is an invalid request. No cut
and no product goes wrong on the way. -/
theorem read_accepts (raw : String) :
    let text := Text.lower (Text.trim raw.toList)
    (read raw = .ok none ↔ text = [] ∨ text = "auto".toList) ∧
    (∀ n, read raw = .ok (some n) ↔ Spells text n ∧ 1 ≤ n ∧ n ≤ 2678400) ∧
    ((∃ e, read raw = .error e ∧ (Failure.step e).report.kind = .invalidRequest) ↔
      ¬ (text = [] ∨ text = "auto".toList) ∧ ¬ ∃ n, Spells text n ∧ 1 ≤ n ∧ n ≤ 2678400) ∧
    read? raw = some (read raw) := by
  intro text
  have hnone : read raw = .ok none ↔ text = [] ∨ text = "auto".toList := read_eq_ok_none_iff
  have hsome (n : Nat) : read raw = .ok (some n) ↔ Spells text n ∧ 1 ≤ n ∧ n ≤ 2678400 :=
    read_eq_ok_some_iff
  refine ⟨hnone, hsome, ?_, read?_eq raw⟩
  simp only [← hnone, ← hsome]
  cases hread : read raw with
  | error e => simp [Failure.report]
  | ok choice =>
    cases choice with
    | none => simp
    | some n => simp

end QueryPanel.Step
