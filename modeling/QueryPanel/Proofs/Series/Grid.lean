import QueryPanel.Proofs.Time.Label
import QueryPanel.Series.Timeline

/-!
# Grids have no holes

A grid is made of numbered slots, and a slot whose start has no label is left out. The labels that
are there belong to one stretch of numbers all the same, because the instants are one stretch of
time (`isSome_ofMillis_between`). So the slots of a grid follow each other at its width
(`Spaced`), even where the window reaches beyond the years that are counted.

> `build_spaced`: the slots of a grid in plain years read back as instants one width apart.
-/

namespace QueryPanel.Timeline

/-! ## What a filter keeps of a range -/

/-- `kept` is what a function gives on the stretch of numbers from `lo` on, and it gives nothing on
any other number below `n`. -/
structure Stretch {α : Type} (f : Nat → Option α) (n : Nat) (kept : List α) (lo : Nat) : Prop where
  fits : lo + kept.length ≤ n
  values : ∀ j, j < kept.length → kept[j]? = f (lo + j)
  rest : ∀ i, i < n → (f i).isSome → lo ≤ i ∧ i < lo + kept.length

variable {α : Type} {f : Nat → Option α} {n lo : Nat} {kept : List α}

theorem Stretch.succ_of_none (h : Stretch f n kept lo) (hn : f n = none) :
    Stretch f (n + 1) kept lo := by
  refine ⟨Nat.le_succ_of_le h.fits, h.values, ?_⟩
  intro i hi hsome
  by_cases hlast : i = n
  · rw [hlast, hn] at hsome
    exact nomatch hsome
  · exact h.rest i (by omega) hsome

/-- The first number on which there is a value. -/
theorem Stretch.succ_of_nil (h : Stretch f n [] lo) {a : α} (hn : f n = some a) :
    Stretch f (n + 1) [a] n := by
  refine ⟨Nat.le_refl (n + 1), ?_, ?_⟩
  · intro j hj
    obtain rfl : j = 0 := Nat.lt_one_iff.mp hj
    exact hn.symm
  · intro i hi hsome
    by_cases hlast : i = n
    · rw [hlast]
      exact ⟨Nat.le_refl n, Nat.lt_succ_self n⟩
    · obtain ⟨hlow, hhigh⟩ := h.rest i (by omega) hsome
      rw [List.length_nil] at hhigh
      omega

/-- One more number with a value next to the stretch. -/
theorem Stretch.succ_of_next (h : Stretch f n kept lo) (hnext : lo + kept.length = n) {a : α}
    (hn : f n = some a) : Stretch f (n + 1) (kept ++ [a]) lo := by
  refine ⟨by simp only [List.length_append, List.length_singleton]; omega, ?_, ?_⟩
  · intro j hj
    rw [List.length_append, List.length_singleton] at hj
    by_cases hlast : j = kept.length
    · rw [hlast, hnext, hn, List.getElem?_concat_length]
    · rw [List.getElem?_append_left (by omega)]
      exact h.values j (by omega)
  · intro i hi hsome
    rw [List.length_append, List.length_singleton]
    by_cases hlast : i = n
    · omega
    · obtain ⟨hlow, hhigh⟩ := h.rest i (by omega) hsome
      omega

/-- Where values form one stretch, what a filter keeps of a range is that stretch. -/
theorem stretch_filterMap_range
    (hbetween : ∀ i j k, i ≤ j → j ≤ k → (f i).isSome → (f k).isSome → (f j).isSome) (n : Nat) :
    ∃ lo, Stretch f n ((List.range n).filterMap f) lo := by
  induction n with
  | zero =>
    refine ⟨0, Nat.le_refl 0, ?_, ?_⟩
    · intro j hj
      exact absurd hj (Nat.not_lt_zero j)
    · intro i hi
      exact absurd hi (Nat.not_lt_zero i)
  | succ n ih =>
    obtain ⟨lo, h⟩ := ih
    rw [List.range_succ, List.filterMap_append, List.filterMap_cons, List.filterMap_nil]
    cases hn : f n with
    | none =>
      rw [List.append_nil]
      exact ⟨lo, h.succ_of_none hn⟩
    | some a =>
      cases hkept : (List.range n).filterMap f with
      | nil => exact ⟨n, (hkept ▸ h).succ_of_nil hn⟩
      | cons b bs =>
        rw [← hkept]
        refine ⟨lo, h.succ_of_next ?_ hn⟩
        have hpos : 0 < ((List.range n).filterMap f).length := by
          rw [hkept]
          exact Nat.succ_pos _
        have hfits := h.fits
        -- A number between the stretch and `n` would have a value without being in the stretch.
        rcases Nat.lt_or_ge (lo + ((List.range n).filterMap f).length) n with hgap | hge
        · have hlast : (f lo).isSome := by
            rw [show lo = lo + 0 from rfl, ← h.values 0 hpos, hkept]
            rfl
          have hmissed := hbetween _ _ n (Nat.le_add_right lo _) (Nat.le_of_lt hgap) hlast
            (by rw [hn]; rfl)
          exact absurd (h.rest _ hgap hmissed).2 (Nat.lt_irrefl _)
        · omega

/-- Where every number below `n` has a value, a filter of them drops none. -/
theorem filterMap_range_full (h : ∀ i, i < n → (f i).isSome) :
    ((List.range n).filterMap f).length = n ∧
      ∀ i, i < n → ((List.range n).filterMap f)[i]? = f i := by
  induction n with
  | zero =>
    refine ⟨rfl, ?_⟩
    intro i hi
    exact absurd hi (Nat.not_lt_zero i)
  | succ n ih =>
    obtain ⟨hlength, hvalues⟩ := ih fun i hi => h i (Nat.lt_succ_of_lt hi)
    obtain ⟨a, ha⟩ := Option.isSome_iff_exists.mp (h n (Nat.lt_succ_self n))
    rw [List.range_succ, List.filterMap_append, List.filterMap_cons, ha, List.filterMap_nil]
    refine ⟨by rw [List.length_append, hlength]; rfl, ?_⟩
    intro i hi
    by_cases hlast : i = n
    · rw [hlast, ha, List.getElem?_append_right (Nat.le_of_eq hlength), hlength, Nat.sub_self]
      rfl
    · rw [List.getElem?_append_left (by omega)]
      exact hvalues i (by omega)

/-! ## Slots -/

/-- The slots of a grid start one width after the other. -/
def Spaced (grid : List String) (first width : Int) : Prop :=
  ∀ (i : Nat) (slot : String), grid[i]? = some slot →
    Instant.millisOfText? slot = some (first + i * width)

/-- Between two slots that have a label every slot has one. -/
theorem isSome_slot_between {width i j k : Int} (hwidth : 0 ≤ width) (hij : i ≤ j) (hjk : j ≤ k)
    (hi : (Instant.labelOfMillis? (i * width)).isSome)
    (hk : (Instant.labelOfMillis? (k * width)).isSome) :
    (Instant.labelOfMillis? (j * width)).isSome := by
  unfold Instant.labelOfMillis? at *
  rw [Option.isSome_map] at *
  exact Instant.isSome_ofMillis_between (Int.mul_le_mul_of_nonneg_right hij hwidth)
    (Int.mul_le_mul_of_nonneg_right hjk hwidth) hi hk

/-- Where the first and the last slot have a label and there are not too many, no slot is missing:
they are numbered from that of the start on. -/
theorem slots_ofMillis {start stop : Int} {seconds : Nat}
    (hfirst : (Instant.labelOfMillis? (start / (seconds * 1000) * (seconds * 1000))).isSome)
    (hlast : (Instant.labelOfMillis? (stop / (seconds * 1000) * (seconds * 1000))).isSome)
    (hcount : (stop / (seconds * 1000) - start / (seconds * 1000) + 1).toNat ≤ longest) :
    (ofMillis start stop seconds).length
        = (stop / (seconds * 1000) - start / (seconds * 1000) + 1).toNat ∧
      ∀ i, i < (stop / (seconds * 1000) - start / (seconds * 1000) + 1).toNat →
        (ofMillis start stop seconds)[i]?
          = Instant.labelOfMillis? ((start / (seconds * 1000) + (i : Int)) * (seconds * 1000)) := by
  unfold ofMillis
  simp only
  rw [if_neg (Nat.not_lt.mpr hcount)]
  refine filterMap_range_full ?_
  intro i hi
  exact isSome_slot_between (by omega) (by omega) (by omega) hfirst hlast

/-- The slots are numbered without a hole from some number on. -/
theorem ofMillis_labels (start stop : Int) (seconds : Nat) :
    ∃ first : Int, ∀ (i : Nat) (slot : String), (ofMillis start stop seconds)[i]? = some slot →
      Instant.labelOfMillis? (first + i * ((seconds : Int) * 1000)) = some slot := by
  unfold ofMillis
  simp only
  split
  · exact ⟨0, fun i slot h => nomatch h⟩
  · next hcount =>
    generalize start / ((seconds : Int) * 1000) = number
    generalize (stop / ((seconds : Int) * 1000) - number + 1).toNat = count
    have hbetween : ∀ i j k : Nat, i ≤ j → j ≤ k →
        (Instant.labelOfMillis? ((number + (i : Int)) * ((seconds : Int) * 1000))).isSome →
        (Instant.labelOfMillis? ((number + (k : Int)) * ((seconds : Int) * 1000))).isSome →
        (Instant.labelOfMillis? ((number + (j : Int)) * ((seconds : Int) * 1000))).isSome := by
      intro i j k hij hjk
      exact isSome_slot_between (by omega) (by omega) (by omega)
    obtain ⟨lo, hstretch⟩ := stretch_filterMap_range hbetween count
    refine ⟨(number + lo) * ((seconds : Int) * 1000), ?_⟩
    intro i slot hslot
    have hi := (List.getElem?_eq_some_iff.mp hslot).1
    rw [hstretch.values i hi] at hslot
    rw [← Int.add_mul, Int.add_assoc, ← Int.natCast_add]
    exact hslot

theorem build_labels (start stop : String) (seconds : Nat) :
    ∃ first : Int, ∀ (i : Nat) (slot : String), (build start stop seconds)[i]? = some slot →
      Instant.labelOfMillis? (first + i * ((seconds : Int) * 1000)) = some slot := by
  unfold build
  split
  · split
    · exact ⟨0, fun i slot h => nomatch h⟩
    · exact ofMillis_labels _ _ seconds
  · exact ⟨0, fun i slot h => nomatch h⟩

/-- The slots of a grid in plain years are read as instants one width apart. -/
theorem build_spaced {start stop : String} {seconds : Nat}
    (h : ∀ slot ∈ build start stop seconds, Instant.HasPlainYear slot) :
    ∃ first, Spaced (build start stop seconds) first ((seconds : Int) * 1000) := by
  obtain ⟨first, hfirst⟩ := build_labels start stop seconds
  refine ⟨first, ?_⟩
  intro i slot hslot
  exact Instant.millisOfText?_label (hfirst i slot hslot) (h slot (List.mem_of_getElem? hslot))

/-- A grid with a slot has a width. -/
theorem seconds_pos_of_build {start stop : String} {seconds : Nat}
    (h : 0 < (build start stop seconds).length) : 0 < seconds := by
  unfold build at h
  split at h
  · split at h
    · exact nomatch h
    · next hsense => omega
  · exact nomatch h

end QueryPanel.Timeline
