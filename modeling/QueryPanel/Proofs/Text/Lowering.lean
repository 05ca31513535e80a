import QueryPanel.Proofs.Text.Slicing
import QueryPanel.Text.Lower

/-!
# Lower case

On ASCII text lower-casing works character by character (`lower_of_ascii`). In any text one or two
characters stand for each, by one of five rules (`Lowers`). They are in lower case, and no blanks
where they stand for a character that is none:

> `lower_lower`: a text in lower case is its own lower case.

> `trim_lower`: a text without blanks at its ends has none there in lower case either.

The other way round, lower case says little about what it was made of, as many letters of other
scripts come into it. But few of them come down to ASCII: the Kelvin sign is a `k` in lower case,
and the dotted capital I an `i` with another character behind it. So what is lowered to ASCII text
without a `k` was ASCII itself, and so was what is lowered to a beginning without both:

> `ascii_of_lower`: keys that are spelled without a `k` are not spelled in any other script.

> `exists_front_of_isPrefix_lower`: a text that begins with such a word in lower case begins with
> it, but for case, as it stands.

This is read off the table of letters, whose runs move to places outside ASCII, and never to one
that is no character (`map?_run`), to a blank, or to a letter of the table again (`map?_map?`).
-/

namespace QueryPanel.Text

/-! ## Lower case of ASCII -/

theorem lowerAfter_of_ascii {cs : List Char} (h : ∀ c ∈ cs, c.toNat < 128) (before : List Char) :
    lowerAfter before cs = cs.map Char.toLower := by
  induction cs generalizing before with
  | nil => rfl
  | cons c cs ih =>
    rw [List.forall_mem_cons] at h
    have hsigma : c ≠ 'Σ' := by
      rintro rfl
      exact absurd h.1 (by decide)
    rw [lowerAfter, if_neg hsigma, lowerChar, if_pos h.1, ih h.2, List.map_cons,
      List.singleton_append]

theorem lower_of_ascii {cs : List Char} (h : ∀ c ∈ cs, c.toNat < 128) :
    lower cs = cs.map Char.toLower :=
  lowerAfter_of_ascii h []

/-- Lower case keeps the beginnings of ASCII texts, with the blanks at the end of the beginning or
without. -/
theorem lower_trim_isPrefix {query value : List Char} (h : query <+: value)
    (hascii : ∀ c ∈ value, c.toNat < 128) (hstart : trimStart value = value) :
    lower (trim query) <+: lower value := by
  have htrim : trim query <+: value := by
    obtain ⟨rest, rfl⟩ := h
    obtain ⟨bs, hbs, -⟩ := exists_trimEnd_append_blanks query
    rw [trim, trimStart_of_append hstart]
    exact List.IsPrefix.trans ⟨bs, hbs.symm⟩ (List.prefix_append query rest)
  rw [lower_of_ascii hascii, lower_of_ascii fun c hc => hascii c (htrim.subset hc)]
  exact htrim.map _

/-! ## The table of letters -/

namespace LowerRun

variable {r : LowerRun} {n m : Nat}

/-- A run leads to its target and on from there by its step. -/
theorem of_map? (h : r.map? n = some m) :
    ∃ k, m = r.target + k ∧ k ≤ r.last - r.first ∧ k % r.step = 0 := by
  unfold map? at h
  split at h
  · next hin =>
    exact ⟨n - r.first, (Option.some.inj h).symm, by omega, hin.2.2⟩
  · cases h

/-- None of the numbers from `low` to `high`, going by `step`, is a letter of the run: it lies
before or behind them all, or between them as both go by twos. -/
def misses (r : LowerRun) (low high step : Nat) : Bool :=
  Nat.blt r.last low || Nat.blt high r.first ||
    (r.step == 2 && step == 2 && (low + r.first) % 2 == 1)

theorem map?_of_misses {low high step k : Nat} (h : r.misses low high step = true)
    (hhigh : low + k ≤ high) (hstep : k % step = 0) : r.map? (low + k) = none := by
  simp only [misses, Bool.or_eq_true, Bool.and_eq_true, Nat.blt_eq, beq_iff_eq] at h
  rw [map?, if_neg]
  rintro ⟨hfirst, hlast, hin⟩
  rcases h with (h | h) | ⟨⟨htwo, rfl⟩, hodd⟩
  · omega
  · omega
  · rw [htwo] at hin
    omega

end LowerRun

/-- A run leads out of ASCII, apart from the one that leads to `k`, and it stays clear of the dotted
capital I and of the numbers that are no characters. -/
theorem map?_run {r : LowerRun} (hr : r ∈ lowerRuns) {n m : Nat} (h : r.map? n = some m) :
    m = 'k'.toNat ∨ 128 ≤ m ∧ m ≠ 0x130 ∧ m.isValidChar := by
  have hall : ∀ r ∈ lowerRuns, (r.target = 'k'.toNat ∧ r.last = r.first) ∨ (128 ≤ r.target ∧
      (r.target + (r.last - r.first) < 0x130 ∨
        0x130 < r.target ∧ r.target + (r.last - r.first) < 0xD800 ∨
        0xDFFF < r.target ∧ r.target + (r.last - r.first) < 0x110000)) := by
    decide +kernel
  obtain ⟨k, rfl, hk, -⟩ := LowerRun.of_map? h
  rcases hall r hr with ⟨htarget, hlast⟩ | ⟨hlow, hvalid⟩
  · left
    omega
  · right
    refine ⟨by omega, by omega, ?_⟩
    show r.target + k < 0xD800 ∨ 0xDFFF < r.target + k ∧ r.target + k < 0x110000
    omega

/-- A run leads to no blank. -/
theorem not_blank_of_map? {r : LowerRun} (hr : r ∈ lowerRuns) {n : Nat} {d : Char}
    (h : r.map? n = some d.toNat) : isBlank d = false := by
  have hall : ∀ r ∈ lowerRuns, ∀ b ∈ blankRanges,
      r.target + (r.last - r.first) < b.1 ∨ b.2 < r.target := by
    decide +kernel
  obtain ⟨k, hd, hk, -⟩ := LowerRun.of_map? h
  rw [isBlank, inRanges, List.any_eq_false]
  intro b hb
  have hclear := hall r hr b hb
  simp only [Bool.and_eq_true, decide_eq_true_eq]
  omega

/-- A run leads to no letter of the table: what is in lower case stays there. -/
theorem map?_map? {r r' : LowerRun} (hr : r ∈ lowerRuns) (hr' : r' ∈ lowerRuns) {n m : Nat}
    (h : r.map? n = some m) : r'.map? m = none := by
  -- The one target of a run of one letter may be taken to go by twos.
  have hall : (lowerRuns.all fun r => lowerRuns.all fun r' => r'.misses r.target
      (r.target + (r.last - r.first)) (if r.first = r.last then 2 else r.step)) = true := by
    decide +kernel
  have hmisses := List.all_eq_true.mp (List.all_eq_true.mp hall r hr) r' hr'
  obtain ⟨k, rfl, hk, hstep⟩ := LowerRun.of_map? h
  refine LowerRun.map?_of_misses hmisses (Nat.add_le_add_left hk _) ?_
  split
  · omega
  · exact hstep

/-- A character that is no letter of the table, and not the dotted capital I, is kept. -/
theorem lowerChar_of_no_run {c : Char} (hc : 128 ≤ c.toNat) (hdotted : c.toNat ≠ 0x130)
    (h : ∀ r ∈ lowerRuns, r.map? c.toNat = none) : lowerChar c = [c] := by
  rw [lowerChar, if_neg (Nat.not_lt.mpr hc), if_neg hdotted, List.findSome?_eq_none_iff.mpr h,
    Option.getD_none, Char.ofNat_toNat]

/-! ## What stands for a character -/

/-- What lower case puts in the place of a character, by one rule each: ASCII has its own lower
case, the dotted capital I becomes two characters, characters without a letter in the table are
kept, a run of the table moves its letters, and a capital sigma has a form for the end of a word. -/
inductive Lowers (c : Char) : List Char → Prop where
  | ascii : c.toNat < 128 → Lowers c [c.toLower]
  | dotted : c.toNat = 0x130 → Lowers c ['i', '\u0307']
  | kept : 128 ≤ c.toNat → lowerChar c = [c] → Lowers c [c]
  | moved {r : LowerRun} {d : Char} : r ∈ lowerRuns → r.map? c.toNat = some d.toNat → Lowers c [d]
  | final : c = 'Σ' → Lowers c ['ς']

theorem lowers_lowerChar (c : Char) : Lowers c (lowerChar c) := by
  by_cases hc : c.toNat < 128
  · rw [lowerChar, if_pos hc]
    exact .ascii hc
  by_cases hdotted : c.toNat = 0x130
  · rw [lowerChar, if_neg hc, if_pos hdotted]
    exact .dotted hdotted
  have hlower : lowerChar c
      = [Char.ofNat ((lowerRuns.findSome? (·.map? c.toNat)).getD c.toNat)] := by
    rw [lowerChar, if_neg hc, if_neg hdotted]
  cases hfind : lowerRuns.findSome? (·.map? c.toNat) with
  | none =>
    rw [hfind, Option.getD_none, Char.ofNat_toNat] at hlower
    have hkept := Lowers.kept (Nat.le_of_not_lt hc) hlower
    rwa [← hlower] at hkept
  | some m =>
    obtain ⟨r, hr, hmap⟩ := List.exists_of_findSome?_eq_some hfind
    rw [hfind, Option.getD_some] at hlower
    have hm : (Char.ofNat m).toNat = m := by
      rcases map?_run hr hmap with rfl | ⟨-, -, hvalid⟩
      · rfl
      · rw [Char.ofNat, dif_pos hvalid]
        rfl
    rw [hlower]
    exact .moved hr (hm.symm ▸ hmap)

/-- A text is lowered one character at a time. -/
theorem lowerAfter_cons (before : List Char) (c : Char) (rest : List Char) :
    ∃ ds, Lowers c ds ∧ lowerAfter before (c :: rest) = ds ++ lowerAfter (c :: before) rest := by
  rw [lowerAfter]
  split
  · next hsigma =>
    subst hsigma
    split
    · exact ⟨_, .final rfl, rfl⟩
    · exact ⟨_, lowers_lowerChar 'Σ', rfl⟩
  · exact ⟨_, lowers_lowerChar c, rfl⟩

namespace Lowers

variable {c d : Char} {ds : List Char}

theorem ne_nil (h : Lowers c ds) : ds ≠ [] := by
  cases h <;> exact List.cons_ne_nil _ _

/-- What stands for a character is in lower case. -/
theorem settled (h : Lowers c ds) : ∀ d ∈ ds, lowerChar d = [d] := by
  cases h with
  | ascii hc =>
    have hlow : c.toLower.toNat < 128 := by
      rw [toNat_toLower]
      split <;> omega
    rw [List.forall_mem_singleton, lowerChar, if_pos hlow, Char.toLower_toLower_eq_toLower]
  | dotted =>
    rw [List.forall_mem_cons, List.forall_mem_singleton]
    exact ⟨rfl, lowerChar_of_no_run (by decide) (by decide) (by decide +kernel)⟩
  | kept _ hkept => exact List.forall_mem_singleton.mpr hkept
  | @moved r d hr hmap =>
    rw [List.forall_mem_singleton]
    rcases map?_run hr hmap with hk | ⟨hbig, hdotted, -⟩
    · obtain rfl := Char.toNat_inj.mp hk
      rfl
    · exact lowerChar_of_no_run hbig hdotted fun r' hr' => map?_map? hr hr' hmap
  | final =>
    rw [List.forall_mem_singleton]
    exact lowerChar_of_no_run (by decide) (by decide) (by decide +kernel)

/-- No blank stands for a character that is none. -/
theorem not_blank (h : Lowers c ds) (hc : isBlank c = false) : ∀ d ∈ ds, isBlank d = false := by
  cases h with
  | ascii =>
    rw [List.forall_mem_singleton]
    by_cases hupper : c.isUpper = true
    · -- What becomes another character is a letter, and so is what it becomes.
      apply not_blank_of_alphanum
      simp [Char.isAlphanum, Char.isAlpha, hupper]
    · rwa [Char.toLower_eq_of_not_isUpper hupper]
  | dotted => simp [isBlank, inRanges, blankRanges]
  | kept => exact List.forall_mem_singleton.mpr hc
  | moved hr hmap => exact List.forall_mem_singleton.mpr (not_blank_of_map? hr hmap)
  | final => simp [isBlank, inRanges, blankRanges]

/-- Only ASCII becomes ASCII without a `k`. -/
theorem ascii_of_forall (h : Lowers c ds) (hds : ∀ d ∈ ds, d.toNat < 128 ∧ d ≠ 'k') :
    c.toNat < 128 := by
  cases h with
  | ascii hc => exact hc
  | dotted => exact absurd (hds '\u0307' (by simp)).1 (by decide)
  | kept => exact (hds c List.mem_cons_self).1
  | moved hr hmap =>
    obtain ⟨hsmall, hne⟩ := hds _ List.mem_cons_self
    rcases map?_run hr hmap with hk | ⟨hbig, -⟩
    · exact absurd (Char.toNat_inj.mp hk) hne
    · omega
  | final => exact absurd (hds 'ς' List.mem_cons_self).1 (by decide)

/-- Only ASCII becomes something that begins with ASCII, unless that is an `i` or a `k`. -/
theorem ascii_of_cons (h : Lowers c (d :: ds)) (hd : d.toNat < 128) (hi : d ≠ 'i') (hk : d ≠ 'k') :
    c.toNat < 128 ∧ c.toLower = d ∧ ds = [] := by
  cases h with
  | ascii hc => exact ⟨hc, rfl, rfl⟩
  | dotted => exact absurd rfl hi
  | kept hbig => omega
  | moved hr hmap =>
    rcases map?_run hr hmap with hk' | ⟨hbig, -⟩
    · exact absurd (Char.toNat_inj.mp hk') hk
    · omega
  | final => exact absurd hd (by decide)

end Lowers

/-! ## Lower case of lower case -/

theorem lowerAfter_of_settled {cs : List Char} (h : ∀ c ∈ cs, lowerChar c = [c])
    (before : List Char) : lowerAfter before cs = cs := by
  induction cs generalizing before with
  | nil => rfl
  | cons c cs ih =>
    rw [List.forall_mem_cons] at h
    have hsigma : c ≠ 'Σ' := by
      rintro rfl
      exact absurd h.1 (by decide +kernel)
    rw [lowerAfter, if_neg hsigma, h.1, ih h.2, List.singleton_append]

theorem settled_of_mem_lowerAfter {before cs : List Char} :
    ∀ d ∈ lowerAfter before cs, lowerChar d = [d] := by
  induction cs generalizing before with
  | nil => exact fun d hd => nomatch hd
  | cons c cs ih =>
    obtain ⟨ds, hds, heq⟩ := lowerAfter_cons before c cs
    rw [heq, List.forall_mem_append]
    exact ⟨hds.settled, ih⟩

/-- A text in lower case is its own lower case. -/
theorem lower_lower (cs : List Char) : lower (lower cs) = lower cs :=
  lowerAfter_of_settled settled_of_mem_lowerAfter []

/-! ## Blanks at the ends -/

/-- What follows in a text follows in its lower case. -/
theorem exists_lowerAfter_append (before xs ys : List Char) :
    ∃ before' zs, lowerAfter before (xs ++ ys) = zs ++ lowerAfter before' ys := by
  induction xs generalizing before with
  | nil => exact ⟨before, [], rfl⟩
  | cons c cs ih =>
    obtain ⟨ds, -, heq⟩ := lowerAfter_cons before c (cs ++ ys)
    obtain ⟨before', zs, hrest⟩ := ih (c :: before)
    exact ⟨before', ds ++ zs, by rw [List.cons_append, heq, hrest, List.append_assoc]⟩

theorem solid_lower {cs : List Char} (h : Solid cs) : Solid (lower cs) where
  starts := by
    obtain ⟨c, rest, rfl, hc⟩ := h.starts
    obtain ⟨ds, hds, heq⟩ := lowerAfter_cons [] c rest
    obtain ⟨d, ds, rfl⟩ := List.exists_cons_of_ne_nil hds.ne_nil
    exact ⟨d, ds ++ lowerAfter [c] rest, heq, hds.not_blank hc d List.mem_cons_self⟩
  ends := by
    obtain ⟨front, c, rfl, hc⟩ := h.ends
    obtain ⟨before, zs, hfront⟩ := exists_lowerAfter_append [] front [c]
    obtain ⟨ds, hds, heq⟩ := lowerAfter_cons before c []
    refine ⟨zs ++ ds.dropLast, ds.getLast hds.ne_nil, ?_, hds.not_blank hc _ (List.getLast_mem _)⟩
    rw [lower, hfront, heq, lowerAfter, List.append_nil, List.append_assoc,
      List.dropLast_concat_getLast]

/-- A text without blanks at its ends has none there in lower case. -/
theorem trim_lower {cs : List Char} (h : trim cs = cs) : trim (lower cs) = lower cs := by
  by_cases hnil : cs = []
  · rw [hnil]
    rfl
  · exact (solid_lower (solid_of_trim_eq hnil h)).trim_eq

/-! ## What is lowered to ASCII -/

theorem ascii_of_lowerAfter {before cs : List Char}
    (h : ∀ d ∈ lowerAfter before cs, d.toNat < 128 ∧ d ≠ 'k') : ∀ c ∈ cs, c.toNat < 128 := by
  induction cs generalizing before with
  | nil => simp
  | cons c cs ih =>
    obtain ⟨ds, hds, heq⟩ := lowerAfter_cons before c cs
    rw [heq, List.forall_mem_append] at h
    exact List.forall_mem_cons.mpr ⟨hds.ascii_of_forall h.1, ih h.2⟩

/-- A text whose lower case is ASCII without a `k` is ASCII. -/
theorem ascii_of_lower {cs : List Char} (h : ∀ d ∈ lower cs, d.toNat < 128 ∧ d ≠ 'k') :
    ∀ c ∈ cs, c.toNat < 128 :=
  ascii_of_lowerAfter h

theorem exists_front_of_isPrefix_lowerAfter {head cs : List Char} {before : List Char}
    (hhead : ∀ d ∈ head, d.toNat < 128 ∧ d ≠ 'i' ∧ d ≠ 'k') (h : head <+: lowerAfter before cs) :
    ∃ front rest, cs = front ++ rest ∧ (∀ c ∈ front, c.toNat < 128) ∧
      front.map Char.toLower = head := by
  induction head generalizing cs before with
  | nil => exact ⟨[], cs, rfl, by simp, rfl⟩
  | cons d head ih =>
    rw [List.forall_mem_cons] at hhead
    cases cs with
    | nil => exact absurd (List.prefix_nil.mp h) (List.cons_ne_nil d head)
    | cons c cs =>
      obtain ⟨ds, hds, heq⟩ := lowerAfter_cons before c cs
      obtain ⟨d', ds, rfl⟩ := List.exists_cons_of_ne_nil hds.ne_nil
      rw [heq, List.cons_append, List.cons_prefix_cons] at h
      obtain ⟨rfl, h⟩ := h
      obtain ⟨hc, hlow, rfl⟩ := hds.ascii_of_cons hhead.1.1 hhead.1.2.1 hhead.1.2.2
      obtain ⟨front, rest, rfl, hascii, hmap⟩ := ih hhead.2 h
      exact ⟨c :: front, rest, rfl, List.forall_mem_cons.mpr ⟨hc, hascii⟩, by
        rw [List.map_cons, hlow, hmap]⟩

/-- A text that begins in lower case with an ASCII word without `i` and `k` begins with that word,
but for case. -/
theorem exists_front_of_isPrefix_lower {head cs : List Char}
    (hhead : ∀ d ∈ head, d.toNat < 128 ∧ d ≠ 'i' ∧ d ≠ 'k') (h : head <+: lower cs) :
    ∃ front rest, cs = front ++ rest ∧ (∀ c ∈ front, c.toNat < 128) ∧
      front.map Char.toLower = head :=
  exists_front_of_isPrefix_lowerAfter hhead h

end QueryPanel.Text
