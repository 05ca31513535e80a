import QueryPanel.Text.Search
import QueryPanel.Proofs.Text.Trimming

/-!
# Slices of a text

A slice is cut at byte offsets and can be taken only where these stand in the text and between two
of its characters: at any other offset, which `takeBytes` and `dropBytes` would move, `upTo?`,
`from?` and `slice?` give none. So what is computed by slices and succeeds has cut no character in
two.

Three kinds of offsets are boundaries. One that is stepped back until it is one comes to where
`clampOffset` moves it (`floorBoundary_eq`). One that a search gives is the length of what the
search passed over. And one behind a word that was compared byte by byte is a boundary because of
what the bytes are:

> `map_lowerByte_take_bytes`: the bytes of a word of small letters, in any case, are the encoding of
> as many characters.
-/

namespace QueryPanel.Text

/-! ## Boundaries -/

/-- The offset stands in the text and between two of its characters. -/
def IsBoundary (cs : List Char) (n : Nat) : Prop :=
  ∃ xs ys, cs = xs ++ ys ∧ byteLength xs = n

theorem isBoundary_iff {cs : List Char} {n : Nat} :
    IsBoundary cs n ↔ clampOffset cs n = n := by
  constructor
  · rintro ⟨xs, ys, rfl, rfl⟩
    exact clampOffset_byteLength xs ys
  · intro h
    exact ⟨takeBytes n cs, dropBytes n cs, (takeBytes_append_dropBytes n cs).symm, h⟩

instance (cs : List Char) (n : Nat) : Decidable (IsBoundary cs n) :=
  decidable_of_iff (clampOffset cs n = n) isBoundary_iff.symm

theorem isBoundary_byteLength (xs ys : List Char) : IsBoundary (xs ++ ys) (byteLength xs) :=
  ⟨xs, ys, rfl, rfl⟩

theorem isBoundary_clampOffset (cs : List Char) (n : Nat) : IsBoundary cs (clampOffset cs n) :=
  ⟨takeBytes n cs, dropBytes n cs, (takeBytes_append_dropBytes n cs).symm, rfl⟩

theorem IsBoundary.le_byteLength {cs : List Char} {n : Nat} (h : IsBoundary cs n) :
    n ≤ byteLength cs := by
  obtain ⟨xs, ys, rfl, rfl⟩ := h
  rw [byteLength_append]
  exact Nat.le_add_right _ _

theorem IsBoundary.le_clampOffset {cs : List Char} {m n : Nat} (h : IsBoundary cs m)
    (hle : m ≤ n) : m ≤ clampOffset cs n := by
  obtain ⟨xs, ys, rfl, rfl⟩ := h
  obtain ⟨k, rfl⟩ := Nat.exists_eq_add_of_le hle
  rw [clampOffset, takeBytes_append, byteLength_append]
  exact Nat.le_add_right _ _

/-- The last boundary at an offset or before it, looked for by stepping back. -/
def floorBoundary (cs : List Char) : Nat → Nat
  | 0 => 0
  | n + 1 => if IsBoundary cs (n + 1) then n + 1 else floorBoundary cs n

theorem floorBoundary_of_last {cs : List Char} {m n : Nat} (hm : IsBoundary cs m) (hle : m ≤ n)
    (hlast : ∀ k, IsBoundary cs k → k ≤ n → k ≤ m) : floorBoundary cs n = m := by
  induction n with
  | zero => exact (Nat.le_zero.mp hle).symm
  | succ n ih =>
    rw [floorBoundary]
    split
    · next hn => exact Nat.le_antisymm (hlast _ hn (Nat.le_refl _)) hle
    · next hn =>
      have hne : m ≠ n + 1 := fun heq => hn (heq ▸ hm)
      exact ih (by omega) fun k hk hkn => hlast k hk (Nat.le_succ_of_le hkn)

/-- Stepping back from an offset in the text leads to where the offset is moved. -/
theorem floorBoundary_eq (cs : List Char) (n : Nat) :
    floorBoundary cs (min n (byteLength cs)) = clampOffset cs n := by
  have hboundary := isBoundary_clampOffset cs n
  apply floorBoundary_of_last hboundary
  · exact Nat.le_min.mpr ⟨clampOffset_le cs n, hboundary.le_byteLength⟩
  · intro k hk hle
    exact hk.le_clampOffset (Nat.le_min.mp hle).1

/-! ## Slices -/

/-- The text before an offset. -/
def upTo? (cs : List Char) (n : Nat) : Option (List Char) :=
  if IsBoundary cs n then some (takeBytes n cs) else none

/-- The text behind an offset. -/
def from? (cs : List Char) (n : Nat) : Option (List Char) :=
  if IsBoundary cs n then some (dropBytes n cs) else none

/-- The text between two offsets. -/
def slice? (cs : List Char) (start stop : Nat) : Option (List Char) :=
  (upTo? cs stop).bind fun before => from? before start

theorem upTo?_append (xs ys : List Char) : upTo? (xs ++ ys) (byteLength xs) = some xs := by
  rw [upTo?, if_pos (isBoundary_byteLength xs ys), takeBytes_byteLength]

theorem from?_append (xs ys : List Char) : from? (xs ++ ys) (byteLength xs) = some ys := by
  rw [from?, if_pos (isBoundary_byteLength xs ys), dropBytes_byteLength]

theorem from?_append_append (xs ys zs : List Char) :
    from? (xs ++ (ys ++ zs)) (byteLength xs + byteLength ys) = some zs := by
  rw [← List.append_assoc, ← byteLength_append, from?_append]

example : from? ['é', 'a'] 1 = none ∧ from? ['é', 'a'] 2 = some ['a'] := by
  decide

theorem upTo?_clampOffset (cs : List Char) (n : Nat) :
    upTo? cs (clampOffset cs n) = some (takeBytes n cs) := by
  have h := upTo?_append (takeBytes n cs) (dropBytes n cs)
  rwa [takeBytes_append_dropBytes] at h

theorem slice?_append (xs ys zs : List Char) :
    slice? (xs ++ ys ++ zs) (byteLength xs) (byteLength (xs ++ ys)) = some ys := by
  rw [slice?, upTo?_append, Option.bind_some, from?_append]

/-- The offset of the first character with a property. -/
def find? (p : Char → Bool) : List Char → Option Nat
  | [] => none
  | c :: cs => if p c then some 0 else (find? p cs).map (c.utf8Size + ·)

/-! ## Bytes -/

/-- The bytes of a text. -/
def bytes (cs : List Char) : List UInt8 :=
  cs.flatMap String.utf8EncodeChar

/-- The bytes between two offsets, wherever these stand in the text. -/
def byteSlice? (cs : List Char) (start stop : Nat) : Option (List UInt8) :=
  if start ≤ stop ∧ stop ≤ byteLength cs then some (((bytes cs).drop start).take (stop - start))
  else none

/-- A byte with the lower case of an ASCII letter. -/
def lowerByte (b : UInt8) : UInt8 :=
  if 65 ≤ b ∧ b ≤ 90 then b + 32 else b

theorem bytes_cons (c : Char) (cs : List Char) :
    bytes (c :: cs) = String.utf8EncodeChar c ++ bytes cs :=
  List.flatMap_cons

theorem length_bytes (cs : List Char) : (bytes cs).length = byteLength cs := by
  induction cs with
  | nil => rfl
  | cons c cs ih =>
    rw [byteLength, ← ih, bytes_cons, List.length_append, String.length_utf8EncodeChar]

theorem byteSlice?_append {xs ys : List Char} {n : Nat} (h : n ≤ byteLength ys) :
    byteSlice? (xs ++ ys) (byteLength xs) (byteLength xs + n) = some ((bytes ys).take n) := by
  have hin : byteLength xs ≤ byteLength xs + n ∧ byteLength xs + n ≤ byteLength (xs ++ ys) := by
    rw [byteLength_append]
    omega
  have hdrop : (bytes (xs ++ ys)).drop (byteLength xs) = bytes ys := by
    rw [bytes, List.flatMap_append]
    exact List.drop_left' (length_bytes xs)
  rw [byteSlice?, if_pos hin, hdrop, Nat.add_sub_cancel_left]

/-- ASCII takes one byte a character. -/
theorem byteLength_of_ascii {cs : List Char} (h : ∀ c ∈ cs, c.toNat < 128) :
    byteLength cs = cs.length := by
  induction cs with
  | nil => rfl
  | cons c cs ih =>
    rw [List.forall_mem_cons] at h
    have hsize : c.utf8Size = 1 :=
      Char.utf8Size_eq_one_iff.mpr (UInt32.le_iff_toNat_le.mpr (Nat.le_of_lt_succ h.1))
    rw [byteLength, hsize, ih h.2, List.length_cons, Nat.add_comm]

/-! ## Words of ASCII letters -/

theorem toNat_toLower (c : Char) :
    c.toLower.toNat = if 65 ≤ c.toNat ∧ c.toNat ≤ 90 then c.toNat + 32 else c.toNat := by
  have hval : c.val.toNat = c.toNat := rfl
  unfold Char.toLower
  split
  · next h =>
    obtain ⟨hlow, hhigh⟩ := h
    have hlow : 65 ≤ c.toNat := UInt32.le_iff_toNat_le.mp hlow
    have hhigh : c.toNat ≤ 90 := UInt32.le_iff_toNat_le.mp hhigh
    rw [if_pos ⟨hlow, hhigh⟩]
    show (c.val.toNat + 32) % 2 ^ 32 = c.toNat + 32
    omega
  · next h =>
    rw [if_neg]
    rintro ⟨hlow, hhigh⟩
    exact h ⟨UInt32.le_iff_toNat_le.mpr hlow, UInt32.le_iff_toNat_le.mpr hhigh⟩

theorem toNat_lowerByte (b : UInt8) :
    (lowerByte b).toNat = if 65 ≤ b.toNat ∧ b.toNat ≤ 90 then b.toNat + 32 else b.toNat := by
  have hbounds : (65 ≤ b ∧ b ≤ 90) ↔ (65 ≤ b.toNat ∧ b.toNat ≤ 90) :=
    and_congr UInt8.le_iff_toNat_le UInt8.le_iff_toNat_le
  unfold lowerByte
  by_cases h : 65 ≤ b ∧ b ≤ 90
  · rw [if_pos h, if_pos (hbounds.mp h)]
    show (b.toNat + 32) % 2 ^ 8 = b.toNat + 32
    have := (hbounds.mp h).2
    omega
  · rw [if_neg h, if_neg fun h' => h (hbounds.mpr h')]

/-- A character is one byte with its own code, or it begins with a byte that is none. -/
theorem utf8EncodeChar_cases (c : Char) :
    (c.toNat < 128 ∧ ∃ b : UInt8, String.utf8EncodeChar c = [b] ∧ b.toNat = c.toNat) ∨
    (128 ≤ c.toNat ∧ ∃ (b : UInt8) (bs : List UInt8),
      String.utf8EncodeChar c = b :: bs ∧ 128 ≤ b.toNat) := by
  have hval : c.val.toNat = c.toNat := rfl
  unfold String.utf8EncodeChar
  dsimp only
  rw [hval]
  split
  · next h =>
    refine .inl ⟨by omega, _, rfl, ?_⟩
    rw [UInt8.toNat_ofNat']
    omega
  · refine .inr ⟨by omega, ?_⟩
    split
    · refine ⟨_, _, rfl, ?_⟩
      rw [UInt8.toNat_ofNat']
      omega
    · split
      · refine ⟨_, _, rfl, ?_⟩
        rw [UInt8.toNat_ofNat']
        omega
      · refine ⟨_, _, rfl, ?_⟩
        rw [UInt8.toNat_ofNat']
        omega

section Letter

variable {c l : Char}

theorem bounds_of_isLower (h : l.isLower = true) : 97 ≤ l.toNat ∧ l.toNat ≤ 122 := by
  simp only [Char.isLower, Bool.and_eq_true, decide_eq_true_eq] at h
  exact ⟨UInt32.le_iff_toNat_le.mp h.1, UInt32.le_iff_toNat_le.mp h.2⟩

theorem utf8EncodeChar_of_isLower (h : l.isLower = true) :
    ∃ b : UInt8, String.utf8EncodeChar l = [b] ∧ b.toNat = l.toNat := by
  have hbounds := bounds_of_isLower h
  rcases utf8EncodeChar_cases l with ⟨-, hb⟩ | ⟨hbig, -⟩
  · exact hb
  · omega

theorem toLower_of_isLower (h : l.isLower = true) : l.toLower = l :=
  Char.toLower_eq_of_not_isUpper (Char.not_isUpper_of_isLower h)

theorem lt_of_toLower (hl : l.isLower = true) (h : c.toLower = l) : c.toNat < 128 := by
  have hbounds := bounds_of_isLower hl
  rw [← h, toNat_toLower] at hbounds
  split at hbounds <;> omega

/-- The first byte of a character is a letter but for its case where the character is. -/
theorem lowerByte_iff (hl : l.isLower = true) {b b' : UInt8} {bs : List UInt8}
    (hc : String.utf8EncodeChar c = b :: bs) (hb' : String.utf8EncodeChar l = [b']) :
    lowerByte b = b' ↔ c.toLower = l := by
  have hbounds := bounds_of_isLower hl
  have hletter : b'.toNat = l.toNat := by
    obtain ⟨d, hd, hcode⟩ := utf8EncodeChar_of_isLower hl
    rw [hb'] at hd
    rw [(List.cons.inj hd).1, hcode]
  rw [← UInt8.toNat_inj, ← Char.toNat_inj, toNat_lowerByte, toNat_toLower, hletter]
  rcases utf8EncodeChar_cases c with ⟨-, d, hd, hcode⟩ | ⟨hbig, d, ds, hd, hbyte⟩
  · rw [hc] at hd
    rw [(List.cons.inj hd).1, hcode]
  · -- Neither the byte nor the character is in the range of letters.
    rw [hc] at hd
    rw [(List.cons.inj hd).1, if_neg (by omega), if_neg (by omega)]
    omega

end Letter

theorem eqIgnoreCase_cons (c l : Char) (cs w : List Char) :
    eqIgnoreCase (c :: cs) (l :: w) = true ↔ c.toLower = l.toLower ∧ eqIgnoreCase cs w = true := by
  simp [eqIgnoreCase]

section Word

variable {w : List Char}

/-- Bytes that spell a word of small letters, but for case, are the encoding of characters that do,
and the other way round. -/
theorem map_lowerByte_take_bytes (hw : ∀ l ∈ w, l.isLower = true) (cs : List Char) :
    ((bytes cs).take w.length).map lowerByte = bytes w
      ↔ eqIgnoreCase (cs.take w.length) w = true := by
  induction w generalizing cs with
  | nil => simp [bytes, eqIgnoreCase]
  | cons l w ih =>
    have hl : l.isLower = true := hw l List.mem_cons_self
    obtain ⟨b', hb', -⟩ := utf8EncodeChar_of_isLower hl
    rw [bytes_cons l, hb', List.singleton_append]
    cases cs with
    | nil => simp [bytes, eqIgnoreCase]
    | cons c cs =>
      rw [List.length_cons, List.take_succ_cons, eqIgnoreCase_cons, toLower_of_isLower hl,
        ← ih (fun d hd => hw d (List.mem_cons_of_mem l hd)), bytes_cons]
      rcases utf8EncodeChar_cases c with ⟨-, b, hb, -⟩ | ⟨hbig, b, bs, hb, -⟩
      · rw [hb, List.singleton_append, List.take_succ_cons, List.map_cons, List.cons.injEq,
          lowerByte_iff hl hb hb']
      · have hother : c.toLower ≠ l := fun h => absurd (lt_of_toLower hl h) (by omega)
        rw [hb, List.cons_append, List.take_succ_cons, List.map_cons, List.cons.injEq,
          lowerByte_iff hl hb hb']
        simp [hother]

/-- So many bytes they take. -/
theorem byteLength_of_eqIgnoreCase (hw : ∀ l ∈ w, l.isLower = true) {cs : List Char}
    (h : eqIgnoreCase cs w = true) : byteLength cs = w.length := by
  have hmap : cs.map Char.toLower = w.map Char.toLower := eq_of_beq h
  have hlength := congrArg List.length hmap
  rw [List.length_map, List.length_map] at hlength
  rw [byteLength_of_ascii, hlength]
  intro c hc
  have hmem : c.toLower ∈ w.map Char.toLower := hmap ▸ List.mem_map_of_mem hc
  obtain ⟨l, hl, hlow⟩ := List.mem_map.mp hmem
  rw [toLower_of_isLower (hw l hl)] at hlow
  exact lt_of_toLower (hw l hl) hlow.symm

end Word

end QueryPanel.Text
