import Mathlib.Data.List.Basic
import Mathlib.Data.Nat.Basic
import Mathlib.Order.Lattice

/-!
# Stable sorting

What sorting by a key does beyond putting things in order: those with the same key stay in the order
in which they stood (`filter_mergeSort`). If the keys are a few levels, that says all there is to
say, and sorting is taking out one level after the other (`mergeSort_eq_flatMap_range`).
-/

namespace QueryPanel.Ranking

variable {α : Type}

section Key

variable {κ : Type} [LinearOrder κ] (key : α → κ)

theorem le_trans_key (a b c : α) (hab : decide (key a ≤ key b) = true)
    (hbc : decide (key b ≤ key c) = true) : decide (key a ≤ key c) = true :=
  decide_eq_true (le_trans (of_decide_eq_true hab) (of_decide_eq_true hbc))

theorem le_total_key (a b : α) : (decide (key a ≤ key b) || decide (key b ≤ key a)) = true := by
  rw [Bool.or_eq_true, decide_eq_true_iff, decide_eq_true_iff]
  exact le_total (key a) (key b)

theorem pairwise_mergeSort (l : List α) :
    (l.mergeSort fun a b => key a ≤ key b).Pairwise fun a b => key a ≤ key b :=
  (List.pairwise_mergeSort (le_trans_key key) (le_total_key key) l).imp of_decide_eq_true

/-- Elements that all sort alike stay in their order. -/
theorem filter_mergeSort {p : α → Bool}
    (alike : ∀ a b, p a = true → p b = true → key a ≤ key b) (l : List α) :
    (l.mergeSort fun a b => key a ≤ key b).filter p = l.filter p := by
  have hpairwise : (l.filter p).Pairwise fun a b => decide (key a ≤ key b) = true :=
    List.pairwise_of_forall_mem_list fun a ha b hb =>
      decide_eq_true (alike a b (List.mem_filter.mp ha).2 (List.mem_filter.mp hb).2)
  have hsublist : (l.filter p).Sublist ((l.mergeSort fun a b => key a ≤ key b).filter p) := by
    have hsorted := List.sublist_mergeSort (le_trans_key key) (le_total_key key) hpairwise
      List.filter_sublist
    have hfiltered := hsorted.filter p
    simpa only [List.filter_filter, Bool.and_self] using hfiltered
  exact (hsublist.eq_of_length ((List.mergeSort_perm l _).filter p).length_eq.symm).symm

end Key

/-! ## Levels -/

section Levels

variable {level : α → Nat} {l : List α} {n : Nat}

/-- In a sorted list the lower levels come first. -/
theorem filter_lt_append_filter_le (h : l.Pairwise fun a b => level a ≤ level b) (n : Nat) :
    l.filter (level · < n) ++ l.filter (n ≤ level ·) = l := by
  induction h with
  | nil => rfl
  | @cons a l ha _ ih =>
    by_cases hn : level a < n
    · simp [hn, ih]
    · have hnone : l.filter (level · < n) = [] := by
        rw [List.filter_eq_nil_iff]
        intro b hb hlt
        exact hn (lt_of_le_of_lt (ha b hb) (of_decide_eq_true hlt))
      rw [hnone, List.nil_append] at ih
      simp [hn, Nat.not_lt.mp hn, hnone, ih]

theorem eq_flatMap_range_of_pairwise (h : l.Pairwise fun a b => level a ≤ level b)
    (hn : ∀ a ∈ l, level a < n) :
    l = (List.range n).flatMap fun k => l.filter (level · = k) := by
  induction n generalizing l with
  | zero =>
    exact List.eq_nil_iff_forall_not_mem.mpr fun a ha => Nat.not_lt_zero _ (hn a ha)
  | succ n ih =>
    have hlower := ih (l := l.filter (level · < n)) (h.filter _) fun a ha =>
      of_decide_eq_true (List.mem_filter.mp ha).2
    have hlevels : ∀ k ∈ List.range n,
        (l.filter (level · < n)).filter (level · = k) = l.filter (level · = k) := by
      intro k hk
      rw [List.filter_filter]
      refine List.filter_congr fun a _ => ?_
      have hk := List.mem_range.mp hk
      rw [← Bool.decide_and, decide_eq_decide]
      omega
    have hlast : l.filter (n ≤ level ·) = l.filter (level · = n) := by
      refine List.filter_congr fun a ha => ?_
      have ha := hn a ha
      rw [decide_eq_decide]
      omega
    rw [List.range_succ, List.flatMap_append, List.flatMap_singleton, ← hlast,
      ← List.flatMap_congr hlevels, ← hlower, filter_lt_append_filter_le h]

/-- Sorting by level takes out one level after the other. -/
theorem mergeSort_eq_flatMap_range (hn : ∀ a ∈ l, level a < n) :
    (l.mergeSort fun a b => level a ≤ level b)
      = (List.range n).flatMap fun k => l.filter (level · = k) := by
  rw [eq_flatMap_range_of_pairwise (pairwise_mergeSort level l)
    fun a ha => hn a (List.mem_mergeSort.mp ha)]
  refine List.flatMap_congr fun k _ => ?_
  refine filter_mergeSort level ?_ l
  intro a b ha hb
  rw [of_decide_eq_true ha, of_decide_eq_true hb]

end Levels

end QueryPanel.Ranking
