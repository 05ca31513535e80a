import QueryPanel.Proofs.Series.Grid
import QueryPanel.Proofs.Time.Order
import QueryPanel.Proofs.Time.Range

/-!
# A grid covers its window

The slots of a grid are numbered: a bucket of the width `w` with the number `k` begins at `k * w`,
so it holds the milliseconds that have the quotient `k` by `w`, rounded down, before 1970 as well
(`Spaced.holds_iff`). A grid has the numbers from that of the start of its window to that of its
end. Rounding down keeps the order, so every millisecond in between has one of these numbers and
only one.

No slot is missing where the first and the last one have a label (`slots_ofMillis`). Where these
begin in years of four digits, so do all in between (`InPlainYears.slot`), and the labels of such
years are read back and stand in the order of time.

> `build_tiles`: a grid that is not too long is a row of buckets, one behind the other, which holds
> every millisecond of the window exactly once.

`build?` works the grid out in words of sixty-four bits and is `none` if a step leaves them. No step
does (`build?_eq`).
-/

namespace QueryPanel.Timeline

variable {start stop : Int} {seconds : Nat}

/-! ## Numbered slots -/

/-- What a slot of a width holds. -/
def Holds (width : Int) (slot : String) (m : Int) : Prop :=
  ∃ first, Instant.millisOfText? slot = some first ∧ first ≤ m ∧ m < first + width

/-- One slot begins before another. -/
def Earlier (slot slot' : String) : Prop :=
  ∃ m n, Instant.millisOfText? slot = some m ∧ Instant.millisOfText? slot' = some n ∧ m < n

section Numbered

variable {grid : List String} {number width : Int}

/-- A slot holds what has its number as the quotient by the width. -/
theorem Spaced.holds_iff (h : Spaced grid (number * width) width) (hwidth : 0 < width) {i : Nat}
    {slot : String} (hslot : grid[i]? = some slot) (m : Int) :
    Holds width slot m ↔ m / width = number + i := by
  have hread := h i slot hslot
  rw [← Int.add_mul] at hread
  rw [Int.ediv_eq_iff_of_pos hwidth]
  constructor
  · rintro ⟨first, hfirst, hin⟩
    obtain rfl := Option.some.inj (hread.symm.trans hfirst)
    exact hin
  · intro hin
    exact ⟨_, hread, hin⟩

theorem Spaced.chronological {first : Int} (h : Spaced grid first width) (hwidth : 0 < width) :
    grid.Pairwise Earlier := by
  rw [List.pairwise_iff_getElem]
  intro i j hi hj hij
  refine ⟨_, _, h i _ (List.getElem?_eq_getElem hi), h j _ (List.getElem?_eq_getElem hj), ?_⟩
  have hless : (i : Int) * width < j * width := Int.mul_lt_mul_of_pos_right (by omega) hwidth
  omega

/-- Every number of the grid belongs to one slot only. -/
theorem Spaced.existsUnique_holds (h : Spaced grid (number * width) width) (hwidth : 0 < width)
    {m : Int} (hlow : number ≤ m / width) (hhigh : m / width < number + grid.length) :
    ∃! slot, slot ∈ grid ∧ Holds width slot m := by
  obtain ⟨i, hi⟩ := Int.le.dest hlow
  have hinside : i < grid.length := by omega
  have hslot := List.getElem?_eq_getElem hinside
  refine ⟨grid[i], ⟨List.getElem_mem hinside, ?_⟩, ?_⟩
  · exact (h.holds_iff hwidth hslot m).mpr hi.symm
  · rintro slot ⟨hmem, hholds⟩
    obtain ⟨j, hj⟩ := List.mem_iff_getElem?.mp hmem
    have hnumber := (h.holds_iff hwidth hj m).mp hholds
    obtain rfl : i = j := by omega
    exact Option.some.inj (hj.symm.trans hslot)

end Numbered

/-! ## Windows in plain years -/

/-- The number of slots that a window needs. -/
def needed (start stop width : Int) : Int :=
  stop / width - start / width + 1

/-- A window whose first and last slot begin in years of four digits. -/
structure InPlainYears (start stop width : Int) : Prop where
  first : Instant.InPlainYear (start / width * width)
  last : Instant.InPlainYear (stop / width * width)

/-- The slots in between begin in such years, too. -/
theorem InPlainYears.slot {width : Int} (h : InPlainYears start stop width) (hwidth : 0 < width)
    {i : Nat} (hi : i < (needed start stop width).toNat) :
    Instant.InPlainYear ((start / width + i) * width) := by
  unfold needed at hi
  exact h.first.between (Int.mul_le_mul_of_nonneg_right (by omega) hwidth.le)
    (Int.mul_le_mul_of_nonneg_right (by omega) hwidth.le) h.last

/-- A window that gets its whole grid: its slots have a width and begin in years of four digits, and
there are not too many. -/
structure Covered (start stop : Int) (seconds : Nat) : Prop where
  positive : 0 < seconds
  forward : start ≤ stop
  plain : InPlainYears start stop (seconds * 1000)
  short : needed start stop (seconds * 1000) ≤ longest

namespace Covered

variable (h : Covered start stop seconds)

include h

theorem width_pos : (0 : Int) < seconds * 1000 := by
  have hpositive := h.positive
  omega

/-- The slots are numbered from that of the start on, and none is missing. -/
theorem slots : (ofMillis start stop seconds).length = (needed start stop (seconds * 1000)).toNat ∧
    ∀ i, i < (needed start stop (seconds * 1000)).toNat → (ofMillis start stop seconds)[i]?
      = Instant.labelOfMillis? ((start / (seconds * 1000) + (i : Int)) * (seconds * 1000)) := by
  have hshort := h.short
  obtain ⟨label, hlabel, -⟩ := h.plain.first.exists_label
  obtain ⟨label', hlabel', -⟩ := h.plain.last.exists_label
  refine slots_ofMillis (by rw [hlabel]; rfl) (by rw [hlabel']; rfl) ?_
  show (needed start stop (seconds * 1000)).toNat ≤ longest
  omega

theorem spaced : Spaced (ofMillis start stop seconds)
    (start / (seconds * 1000) * (seconds * 1000)) (seconds * 1000) := by
  obtain ⟨hlength, hvalues⟩ := h.slots
  intro i slot hslot
  have hi := (List.getElem?_eq_some_iff.mp hslot).1
  rw [hlength] at hi
  rw [hvalues i hi] at hslot
  obtain ⟨label, hlabel, hread⟩ := (h.plain.slot h.width_pos hi).exists_label
  obtain rfl := Option.some.inj (hslot.symm.trans hlabel)
  rw [← Int.add_mul]
  exact hread

/-- A later slot has a greater label. -/
theorem ascending : (ofMillis start stop seconds).Pairwise (· < ·) := by
  obtain ⟨hlength, hvalues⟩ := h.slots
  rw [List.pairwise_iff_getElem]
  intro i j hi hj hij
  have hslot := List.getElem?_eq_getElem hi
  have hslot' := List.getElem?_eq_getElem hj
  rw [hlength] at hi hj
  rw [hvalues i hi] at hslot
  rw [hvalues j hj] at hslot'
  exact Instant.labelOfMillis?_lt (h.plain.slot h.width_pos hi) (h.plain.slot h.width_pos hj)
    (Int.mul_lt_mul_of_pos_right (by omega) h.width_pos) hslot hslot'

end Covered

/-! ## Tilings -/

/-- A grid as a row of buckets over a window. -/
structure Tiles (grid : List String) (start stop width : Int) : Prop where
  /-- The slots are read as consecutive multiples of the width. -/
  spaced : ∃ number : Int, Spaced grid (number * width) width
  first : ∃ slot, grid.head? = some slot ∧ Holds width slot start
  last : ∃ slot, grid.getLast? = some slot ∧ Holds width slot stop
  chronological : grid.Pairwise Earlier
  /-- The slots stand in order as texts, too. -/
  ascending : grid.Pairwise (· < ·)
  /-- No millisecond of the window is left out, and none is in two buckets. -/
  once : ∀ m, start ≤ m → m ≤ stop → ∃! slot, slot ∈ grid ∧ Holds width slot m

theorem Covered.tiles (h : Covered start stop seconds) :
    Tiles (ofMillis start stop seconds) start stop (seconds * 1000) := by
  have hwidth := h.width_pos
  have hspaced := h.spaced
  have hfloor : start / (seconds * 1000) ≤ stop / (seconds * 1000) :=
    Int.ediv_le_ediv hwidth h.forward
  have hlength := h.slots.1
  unfold needed at hlength
  have hascending := h.ascending
  generalize ofMillis start stop seconds = grid at *
  have hfirst := List.getElem?_eq_getElem (show 0 < grid.length by omega)
  have hlast := List.getElem?_eq_getElem (show grid.length - 1 < grid.length by omega)
  refine ⟨⟨_, hspaced⟩, ⟨_, List.head?_eq_getElem?.trans hfirst, ?_⟩,
    ⟨_, List.getLast?_eq_getElem?.trans hlast, ?_⟩, hspaced.chronological hwidth, hascending, ?_⟩
  · exact (hspaced.holds_iff hwidth hfirst start).mpr (by omega)
  · exact (hspaced.holds_iff hwidth hlast stop).mpr (by omega)
  · intro m hlow hhigh
    have hafter : start / (seconds * 1000) ≤ m / (seconds * 1000) := Int.ediv_le_ediv hwidth hlow
    have hbefore : m / (seconds * 1000) ≤ stop / (seconds * 1000) := Int.ediv_le_ediv hwidth hhigh
    exact hspaced.existsUnique_holds hwidth hafter (by omega)

/-! ## In words -/

/-- The labels of the buckets that a window touches. The quotients by the width are rounded down,
the quotient of the distance between two slots is rounded towards zero. -/
def ofMillis? (start stop : Int) (seconds : Nat) : Option (List String) := do
  let start ← Word.signed? start
  let stop ← Word.signed? stop
  let width ← Word.signed? (seconds * 1000)
  let number ← Word.signed? (start / width)
  let first ← Word.signed? (number * width)
  let number' ← Word.signed? (stop / width)
  let last ← Word.signed? (number' * width)
  let distance ← Word.signed? (last - first)
  let steps ← Word.signed? (distance.tdiv width)
  let count ← Word.signed? (steps + 1)
  if longest < count then
    return []
  else
    let starts ← (List.range count.toNat).mapM fun (i : Nat) => do
      let offset ← Word.signed? (i * width)
      Word.signed? (first + offset)
    return starts.filterMap Instant.labelOfMillis?

/-- The labels of the buckets of a window. -/
def build? (start stop : String) (seconds : Nat) : Option (List String) :=
  match Instant.millisOfText? start, Instant.millisOfText? stop with
  | some a, some b => if seconds = 0 ∨ b ≤ a then some [] else ofMillis? a b seconds
  | _, _ => some []

/-- A computation over a list in which every step succeeds. -/
theorem mapM_eq_some {α β : Type} {f : α → Option β} {g : α → β} {as : List α}
    (h : ∀ a ∈ as, f a = some (g a)) : as.mapM f = some (as.map g) := by
  induction as with
  | nil => rfl
  | cons a as ih =>
    rw [List.mapM_cons, h a List.mem_cons_self, ih fun b hb => h b (List.mem_cons_of_mem a hb)]
    rfl

/-- The labels of a grid are those of the numbers that its slots start at. -/
theorem ofMillis_eq_starts (start stop : Int) (seconds : Nat) : ofMillis start stop seconds
    = if (longest : Int) < needed start stop (seconds * 1000) then []
      else ((List.range (needed start stop (seconds * 1000)).toNat).map fun (i : Nat) =>
        start / (seconds * 1000) * (seconds * 1000) + i * (seconds * 1000)).filterMap
          Instant.labelOfMillis? := by
  rw [List.filterMap_map]
  simp only [Function.comp_def, ← Int.add_mul, ← Int.lt_toNat]
  rfl

theorem ofMillis?_eq (hstart : Instant.Near start) (hstop : Instant.Near stop)
    (hforward : start ≤ stop) (hpositive : 0 < seconds) (hword : seconds < Word.size32) :
    ofMillis? start stop seconds = some (ofMillis start stop seconds) := by
  have hsize : Word.size32 = 4294967296 := rfl
  have hlongest : longest = 10000 := rfl
  obtain ⟨hlow, -⟩ := hstart
  obtain ⟨-, hhigh⟩ := hstop
  rw [ofMillis_eq_starts]
  unfold ofMillis? needed
  generalize hwidth : (seconds : Int) * 1000 = width at *
  have hpos : 0 < width := by omega
  have hfloor : start / width ≤ stop / width := Int.ediv_le_ediv hpos hforward
  -- Every number lies as near as the instant that has it, and a slot begins in front of it.
  have hbegun := Int.ediv_mul_le start hpos.ne'
  have hbegun' := Int.ediv_mul_le stop hpos.ne'
  have hreached := Int.lt_ediv_add_one_mul_self start hpos
  have hreached' := Int.lt_ediv_add_one_mul_self stop hpos
  have hnumber : -10000000000000000 ≤ start / width := Int.le_ediv_of_mul_le hpos (by omega)
  have hnumber' : stop / width < 10000000000000000 := Int.ediv_lt_of_lt_mul hpos (by omega)
  rw [Int.add_mul, Int.one_mul] at hreached hreached'
  have hsteps : (stop / width * width - start / width * width).tdiv width
      = stop / width - start / width := by
    rw [← Int.sub_mul, Int.mul_tdiv_cancel _ hpos.ne']
  rw [Word.signed?_bind (by omega) (by omega), Word.signed?_bind (by omega) (by omega),
    Word.signed?_bind (by omega) (by omega), Word.signed?_bind (by omega) (by omega),
    Word.signed?_bind (by omega) (by omega), Word.signed?_bind (by omega) (by omega),
    Word.signed?_bind (by omega) (by omega), Word.signed?_bind (by omega) (by omega), hsteps,
    Word.signed?_bind (by omega) (by omega), Word.signed?_bind (by omega) (by omega)]
  split
  · rfl
  · rw [mapM_eq_some (g := fun (i : Nat) => start / width * width + i * width)]
    · rfl
    · intro i hi
      have hcount := List.mem_range.mp hi
      have hoffset : (i : Int) * width ≤ 10000 * width :=
        Int.mul_le_mul_of_nonneg_right (by omega) hpos.le
      have hnonneg : 0 ≤ (i : Int) * width := Int.mul_nonneg (by omega) hpos.le
      rw [Word.signed?_bind (by omega) (by omega)]
      exact Word.signed?_eq (by omega) (by omega)

/-- Worked out in words, the grid is the same. -/
theorem build?_eq (start stop : String) (hword : seconds < Word.size32) :
    build? start stop seconds = some (build start stop seconds) := by
  unfold build? build
  cases ha : Instant.millisOfText? start with
  | none => rfl
  | some a =>
    cases hb : Instant.millisOfText? stop with
    | none => rfl
    | some b =>
      simp only
      split
      · rfl
      · exact ofMillis?_eq (Instant.near_of_millisOfText? ha) (Instant.near_of_millisOfText? hb)
          (by omega) (by omega) hword

/-- The grid of a window whose first and last bucket begin in years of four digits is empty exactly
if it would be too long, and otherwise a row of buckets, one behind the other, which holds every
millisecond of the window once. -/
theorem build_tiles {start stop : String} {a b : Int} {seconds : Nat}
    (ha : Instant.millisOfText? start = some a) (hb : Instant.millisOfText? stop = some b)
    (hlt : a < b) (hpos : 0 < seconds) (hword : seconds < Word.size32)
    (hplain : InPlainYears a b (seconds * 1000)) :
    let width : Int := seconds * 1000
    build? start stop seconds = some (build start stop seconds) ∧
      (build start stop seconds = [] ↔ 10000 < b / width - a / width + 1) ∧
      (build start stop seconds ≠ [] → Tiles (build start stop seconds) a b width) := by
  intro width
  refine ⟨build?_eq start stop hword, ?_⟩
  have hbuild : build start stop seconds = ofMillis a b seconds := by
    unfold build
    rw [ha, hb]
    exact if_neg (by omega)
  rw [hbuild]
  have hfloor : a / width ≤ b / width := Int.ediv_le_ediv (by omega) hlt.le
  have hlongest : longest = 10000 := rfl
  by_cases hmany : 10000 < b / width - a / width + 1
  · have hempty : ofMillis a b seconds = [] :=
      if_pos (show longest < (b / width - a / width + 1).toNat by omega)
    exact ⟨iff_of_true hempty hmany, fun hsome => absurd hempty hsome⟩
  · have hcovered : Covered a b seconds :=
      ⟨hpos, hlt.le, hplain, show b / width - a / width + 1 ≤ longest by omega⟩
    have hlength : (ofMillis a b seconds).length = (b / width - a / width + 1).toNat :=
      hcovered.slots.1
    have hsome : ofMillis a b seconds ≠ [] := List.ne_nil_of_length_pos (by omega)
    exact ⟨iff_of_false hsome hmany, fun _ => hcovered.tiles⟩

/-- The end of a February before 1970, which has a leap day. -/
theorem build_tiles_leapDay :
    build "1968-02-28T23:50:00Z" "1968-02-29 00:20:00" 900
        = ["1968-02-28T23:45:00.000Z", "1968-02-29T00:00:00.000Z", "1968-02-29T00:15:00.000Z"] ∧
      Tiles (build "1968-02-28T23:50:00Z" "1968-02-29 00:20:00" 900) (-58061400000) (-58059600000)
        900000 := by
  have ha : Instant.millisOfText? "1968-02-28T23:50:00Z" = some (-58061400000) := by decide +kernel
  have hb : Instant.millisOfText? "1968-02-29 00:20:00" = some (-58059600000) := by decide +kernel
  obtain ⟨-, -, htiles⟩ := build_tiles ha hb (by decide) (show 0 < 900 by decide)
    (by decide) ⟨by decide, by decide⟩
  have hgrid : build "1968-02-28T23:50:00Z" "1968-02-29 00:20:00" 900
      = ["1968-02-28T23:45:00.000Z", "1968-02-29T00:00:00.000Z", "1968-02-29T00:15:00.000Z"] := by
    decide +kernel
  refine ⟨hgrid, htiles ?_⟩
  rw [hgrid]
  exact List.cons_ne_nil _ _

end QueryPanel.Timeline
