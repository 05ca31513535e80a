import QueryPanel.Proofs.Filter.Recording
import QueryPanel.Proofs.Text.Lowering

/-!
# How the key of a field may be spelled

A text field has one key, and some have an alias. A raw key stands for the field if it is one of
these in any case and with any blanks around it, and that is all: neither spelling has a `k` in it,
so no letter of another script takes part (`Text.ascii_of_lower`).

> `isWord_of_normalize`: without the blanks, a key that stands for a text field is a word.

That is what scanning, cutting and reading a clause ask of the key before its equals sign.
-/

namespace QueryPanel.FilterKey

open Clause (IsWord isKeyChar)

/-- The key of a text field and its aliases. -/
def spellings (f : TextField) : List String :=
  f.key :: (aliases.filter (·.2 = f.key)).map (·.1)

/-- Every spelling is a word in ASCII without a `k`. -/
theorem isWord_spelling {f : TextField} {s : String} (h : s ∈ spellings f) :
    IsWord s.toList ∧ ∀ c ∈ s.toList, c.toNat < 128 ∧ c ≠ 'k' := by
  have hall : ∀ s ∈ spellings f, IsWord s.toList ∧
      (s.toList.all fun c => c.toNat < 128 ∧ c ≠ 'k') = true := by
    cases f <;> decide +kernel
  obtain ⟨hword, hchars⟩ := hall s h
  exact ⟨hword, fun c hc => of_decide_eq_true (List.all_eq_true.mp hchars c hc)⟩

variable {raw : String} {f : TextField}

theorem lower_mem_spellings (h : normalize raw = f.key) :
    String.ofList (Text.lower (Text.trim raw.toList)) ∈ spellings f := by
  rw [normalize_eq] at h
  cases hfound : headOf? (Text.lower (Text.trim raw.toList)) with
  | some head =>
    -- No field's key begins with a head.
    have hkey : headOf? f.key.toList = none := by
      cases f <;> decide +kernel
    simp only [hfound] at h
    rw [← h, String.toList_ofList] at hkey
    exact absurd (List.prefix_append _ _)
      (headOf?_eq_none_iff.mp hkey head (headOf?_eq_some hfound).1)
  | none =>
    simp only [hfound] at h
    cases hlookup : aliases.lookup (String.ofList (Text.lower (Text.trim raw.toList))) with
    | none =>
      rw [hlookup, Option.getD_none] at h
      rw [h]
      exact List.mem_cons_self
    | some target =>
      rw [hlookup, Option.getD_some] at h
      subst h
      exact List.mem_cons_of_mem _ (List.mem_map.mpr
        ⟨_, List.mem_filter.mpr ⟨mem_of_lookup_eq_some hlookup, decide_eq_true rfl⟩, rfl⟩)

theorem isKeyChar_of_toLower {c : Char} (h : isKeyChar c.toLower = true) : isKeyChar c = true := by
  by_cases hupper : c.isUpper = true
  · simp [isKeyChar, Char.isAlphanum, Char.isAlpha, hupper]
  · rwa [Char.toLower_eq_of_not_isUpper hupper] at h

/-- In any case a word is a word. -/
theorem isWord_of_map_toLower {cs : List Char} (h : IsWord (cs.map Char.toLower)) : IsWord cs where
  nonempty := by
    rintro rfl
    exact h.nonempty rfl
  chars c hc := isKeyChar_of_toLower (h.chars _ (List.mem_map_of_mem hc))
  notConjunction := by
    rw [Bool.eq_false_iff]
    intro hand
    have hlow : cs.map Char.toLower = ['a', 'n', 'd'] := eq_of_beq hand
    have hno := h.notConjunction
    rw [hlow] at hno
    cases hno

/-- Without the blanks around it, a key that stands for a text field is a word. -/
theorem isWord_of_normalize (h : normalize raw = f.key) : IsWord (Text.trim raw.toList) := by
  obtain ⟨hword, hascii⟩ := isWord_spelling (lower_mem_spellings h)
  rw [String.toList_ofList] at hword hascii
  rw [Text.lower_of_ascii (Text.ascii_of_lower hascii)] at hword
  exact isWord_of_map_toLower hword

theorem classify_of_normalize (h : normalize raw = f.key) : classify raw = some (.text f) := by
  rw [← classify_key f, classify, classify, h]
  cases f <;> decide +kernel

end QueryPanel.FilterKey
