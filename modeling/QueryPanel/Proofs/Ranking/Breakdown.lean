import Mathlib.Data.Int.Order.Basic
import Mathlib.Order.OrderDual
import QueryPanel.Proofs.Ranking.Stable
import QueryPanel.Store.Session

/-!
# The rows of a breakdown

A breakdown keeps the rows with the greatest values, as many as its limit allows, and drops the
others. Sorting comes before cutting, so a row that is dropped has no greater value than one that is
kept; and sorting is stable, so of the rows that share a value the store's first ones are kept, also
where the cut goes through the middle of them.

> `breakdown_keeps_top`: what a breakdown answers, whatever rows the store replies with.

Rows are sorted by a key of their values, which stands for the total order of doubles
(`Double.orderKey_le_iff`): the sign comes first and the code second. In that order zero and minus
zero are apart, and so are two NaNs with different bits, so that values of the same rank are one
value (`Double.AtMost.antisymm`). A row that is dropped for one that is no greater has its value.
-/

namespace QueryPanel

namespace Double

variable {a b : Double}

/-- The total order of doubles: first the negative ones, by falling code, then the positive ones, by
rising code. -/
def AtMost (a b : Double) : Prop :=
  match a.negative, b.negative with
  | true, true => b.code ≤ a.code
  | true, false => True
  | false, true => False
  | false, false => a.code ≤ b.code

theorem orderKey_le_iff : a.orderKey ≤ b.orderKey ↔ a.AtMost b := by
  unfold orderKey AtMost
  cases a.negative <;> cases b.negative
  all_goals
    simp only [Bool.false_eq_true, if_true, if_false, iff_true, iff_false]
    omega

theorem AtMost.antisymm (h : a.AtMost b) (h' : b.AtMost a) : a = b :=
  orderKey_inj.mp (Int.le_antisymm (orderKey_le_iff.mpr h) (orderKey_le_iff.mpr h'))

end Double

namespace BreakdownRow

/-- The row's value is at most that of another row. -/
def Below (a b : BreakdownRow) : Prop :=
  a.value.AtMost b.value

/-- The rows of a reply, cut into those that a breakdown keeps and those that it drops. -/
structure Cut (rows : List BreakdownRow) (limit : Nat) (kept dropped : List BreakdownRow) :
    Prop where
  /-- As many are kept as the limit allows. -/
  length_kept : kept.length = min limit rows.length
  /-- The values do not rise. -/
  falling : kept.Pairwise fun a b => b.Below a
  /-- No row is lost or made up. -/
  perm : (kept ++ dropped).Perm rows
  /-- No row is dropped for one with a smaller value. -/
  top : ∀ a ∈ kept, ∀ b ∈ dropped, b.Below a
  /-- A row that is dropped for one that is no greater has the same value. -/
  tied : ∀ a ∈ kept, ∀ b ∈ dropped, a.Below b → a.value = b.value
  /-- Rows of the same value stay in the order of the reply, across the cut as well. -/
  stable : ∀ value : Double,
    (kept ++ dropped).filter (·.value = value) = rows.filter (·.value = value)

/-- All rows of a reply, by falling value. -/
def sorted (rows : List BreakdownRow) : List BreakdownRow :=
  rows.mergeSort fun a b => b.value.orderKey ≤ a.value.orderKey

/-- The key by which rows are sorted. -/
def fallingKey (row : BreakdownRow) : Intᵒᵈ :=
  OrderDual.toDual row.value.orderKey

theorem pairwise_sorted (rows : List BreakdownRow) : (sorted rows).Pairwise fun a b => b.Below a :=
  (Ranking.pairwise_mergeSort fallingKey rows).imp Double.orderKey_le_iff.mp

/-- Rows of one value are sorted alike. -/
theorem filter_sorted (rows : List BreakdownRow) (value : Double) :
    (sorted rows).filter (·.value = value) = rows.filter (·.value = value) := by
  refine Ranking.filter_mergeSort fallingKey ?_ rows
  intro a b ha hb
  rw [fallingKey, fallingKey, of_decide_eq_true ha, of_decide_eq_true hb]

/-- Cutting the sorted rows at the limit cuts off the top. -/
theorem cut_top (rows : List BreakdownRow) (limit : Nat) :
    Cut rows limit (top rows limit) ((sorted rows).drop limit) := by
  have hwhole : top rows limit ++ (sorted rows).drop limit = sorted rows :=
    List.take_append_drop limit (sorted rows)
  have hperm : (sorted rows).Perm rows := List.mergeSort_perm rows _
  obtain ⟨hkept, -, hacross⟩ := List.pairwise_append.mp (hwhole.symm ▸ pairwise_sorted rows)
  exact
    { length_kept := hperm.length_eq ▸ List.length_take
      falling := hkept
      perm := by rwa [hwhole]
      top := hacross
      tied := fun a ha b hb hle => hle.antisymm (hacross a ha b hb)
      stable := fun value => by rw [hwhole, filter_sorted] }

end BreakdownRow

namespace Session

/-- Whatever rows the store replies with, a breakdown takes that one reply and answers with the top
of it. -/
theorem breakdown_keeps_top (window : Window) (spec : BreakdownSpec) (rows : List BreakdownRow)
    (replies : List StoreReply) (received : List StoreRequest) :
    ∃ kept dropped,
      (breakdown ⟨window, .breakdown spec⟩).runWith
          ⟨.data (.breakdown rows) :: replies, received⟩
        = (.ok kept, ⟨replies, received ++ [⟨window, .breakdown spec⟩]⟩) ∧
      BreakdownRow.Cut rows spec.limit kept dropped :=
  ⟨BreakdownRow.top rows spec.limit, (BreakdownRow.sorted rows).drop spec.limit, rfl,
    BreakdownRow.cut_top rows spec.limit⟩

end Session

end QueryPanel
