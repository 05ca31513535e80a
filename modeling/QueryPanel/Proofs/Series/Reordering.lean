import QueryPanel.Proofs.Series.Joining

/-!
# The order of points does not count

A store may answer with its points in any order. Three things are made of the answer, and each of
them looks at the points as a set: the names of the series are collected in their own order, a slot
of a grid looks for its point, and without a grid the points are sorted. The last two could see the
order where two points are in one bucket, so the points have to be `Separate`: then a slot has no
second point to find (`find?_of_perm`), and sorting has no ties to leave as they are
(`sortedPoints_of_perm`).

> `timeseries_of_perm`: two answers with the same points in another order make the same timeseries.
-/

namespace QueryPanel

namespace Point

/-- No two points are in one bucket, however its start is written. -/
def Separate (points : List Point) : Prop :=
  (points.map fun p => canonicalBucket p.bucket).Nodup

variable {points points' : List Point}

/-- Separate points in buckets with one label are one point. -/
theorem Separate.eq (h : Separate points) {p q : Point} (hp : p ∈ points) (hq : q ∈ points)
    (heq : canonicalBucket p.bucket = canonicalBucket q.bucket) : p = q :=
  List.inj_on_of_nodup_map h hp hq heq

theorem seriesNames_of_perm (h : points.Perm points') :
    seriesNames points = seriesNames points' := by
  apply List.Pairwise.eq_of_mem_iff (seriesNames_ascending points) (seriesNames_ascending points')
  intro name
  rw [mem_seriesNames_iff, mem_seriesNames_iff]
  unfold IsSeries
  simp only [h.mem_iff]

/-- The point of a slot is the same one in any order. -/
theorem find?_of_perm (hseparate : Separate points) (h : points.Perm points') (slot : String) :
    (points.find? fun p => canonicalBucket p.bucket = slot)
      = points'.find? fun p => canonicalBucket p.bucket = slot := by
  cases hfound : points.find? fun p => canonicalBucket p.bucket = slot with
  | none =>
    rw [List.find?_eq_none] at hfound
    symm
    rw [List.find?_eq_none]
    intro p hp
    exact hfound p (h.mem_iff.mpr hp)
  | some p =>
    have hmem := List.mem_of_find?_eq_some hfound
    have hp : canonicalBucket p.bucket = slot := by simpa using List.find?_some hfound
    cases hfound' : points'.find? fun p => canonicalBucket p.bucket = slot with
    | none =>
      rw [List.find?_eq_none] at hfound'
      exact absurd (decide_eq_true hp) (hfound' p (h.mem_iff.mp hmem))
    | some q =>
      have hmem' := h.mem_iff.mpr (List.mem_of_find?_eq_some hfound')
      have hq : canonicalBucket q.bucket = slot := by simpa using List.find?_some hfound'
      rw [hseparate.eq hmem hmem' (hp.trans hq.symm)]

end Point

namespace Timeline

variable {points points' : List Point}

theorem slotRow_of_perm (hseparate : Point.Separate points) (h : points.Perm points')
    (zero : Columns Double) (slot : String) :
    slotRow (labelled points) zero slot = slotRow (labelled points') zero slot := by
  unfold slotRow
  rw [lookup_labelled, lookup_labelled, Point.find?_of_perm hseparate h]

/-- Sorted points stand in the order of their buckets. -/
theorem sortedPoints_ascending (points : List Point) :
    (sortedPoints points).Pairwise fun a b => a.bucket ≤ b.bucket := by
  have htrans : ∀ a b c : Point, decide (a.bucket ≤ b.bucket) = true →
      decide (b.bucket ≤ c.bucket) = true → decide (a.bucket ≤ c.bucket) = true := by
    intro a b c hab hbc
    exact decide_eq_true (String.le_trans (of_decide_eq_true hab) (of_decide_eq_true hbc))
  have htotal : ∀ a b : Point,
      (decide (a.bucket ≤ b.bucket) || decide (b.bucket ≤ a.bucket)) = true := by
    intro a b
    rw [Bool.or_eq_true, decide_eq_true_eq, decide_eq_true_eq]
    exact String.le_total a.bucket b.bucket
  exact (List.pairwise_mergeSort htrans htotal points).imp of_decide_eq_true

/-- Points that stand in that order already stay as they are. -/
theorem sortedPoints_of_ascending (h : points.Pairwise fun a b => a.bucket ≤ b.bucket) :
    sortedPoints points = points :=
  List.mergeSort_of_pairwise (h.imp fun hle => decide_eq_true hle)

theorem mem_sortedPoints_iff {p : Point} : p ∈ sortedPoints points ↔ p ∈ points :=
  (List.mergeSort_perm points _).mem_iff

/-- Sorting separate points gives one list, whatever order they come in. -/
theorem sortedPoints_of_perm (hseparate : Point.Separate points) (h : points.Perm points') :
    sortedPoints points = sortedPoints points' := by
  apply List.Perm.eq_of_pairwise _ (sortedPoints_ascending points) (sortedPoints_ascending points')
  · exact (List.mergeSort_perm points _).trans (h.trans (List.mergeSort_perm points' _).symm)
  · intro a b ha hb hab hba
    -- Points whose buckets are written alike are in one bucket.
    have hbucket : a.bucket = b.bucket := String.le_antisymm hab hba
    exact hseparate.eq (mem_sortedPoints_iff.mp ha) (h.mem_iff.mpr (mem_sortedPoints_iff.mp hb))
      (congrArg Point.canonicalBucket hbucket)

theorem fill_of_perm (hseparate : Point.Separate points) (h : points.Perm points')
    (grid : List String) (zero : Columns Double) :
    fill points grid zero = fill points' grid zero := by
  by_cases hgrid : grid = []
  · rw [fill_of_no_grid hgrid, fill_of_no_grid hgrid, sortedPoints_of_perm hseparate h]
  · have hlength : 0 < grid.length := List.length_pos_iff.mpr hgrid
    rw [fill_of_grid hlength, fill_of_grid hlength]
    exact List.map_congr_left fun slot _ => slotRow_of_perm hseparate h zero slot

end Timeline

theorem TimeseriesResult.ofPoints_of_perm {points points' : List Point}
    (hseparate : Point.Separate points) (h : points.Perm points') (w : Window) (seconds : Nat)
    (now : Instant) : ofPoints w seconds points now = ofPoints w seconds points' now := by
  unfold ofPoints
  rw [Point.seriesNames_of_perm h]
  simp only [Timeline.fill_of_perm hseparate h]

namespace Session

/-- The outcome of a timeseries, and the store behind it, do not depend on the order in which the
store answers with its points, as long as no two of them are in one bucket. -/
theorem timeseries_of_perm {points points' : List Point} (hseparate : Point.Separate points)
    (h : points.Perm points') (w : Window) (spec : TimeseriesSpec) (now : Instant)
    (replies : List StoreReply) (received : List StoreRequest) :
    (timeseries ⟨w, .timeseries spec⟩ now).runWith
        ⟨.data (.timeseries points) :: replies, received⟩
      = (timeseries ⟨w, .timeseries spec⟩ now).runWith
        ⟨.data (.timeseries points') :: replies, received⟩ := by
  have hseconds : (QuerySpec.timeseries spec).bucketSeconds? = some spec.bucketSeconds := rfl
  rw [timeseries_answered hseconds, timeseries_answered hseconds,
    TimeseriesResult.ofPoints_of_perm hseparate h]

/-- Points of three hours, each written in another way, and one whose bucket is no instant. -/
def scatteredPoints : List Point :=
  [⟨"2025-01-01T13:00:00+01:00", .ofList [("count", .ofInt 3), ("errors", .ofInt 1)]⟩,
    ⟨"soon", .ofList [("count", .ofInt 9)]⟩,
    ⟨"2025-01-01 10:00:00", .ofList [("count", .ofInt 1)]⟩,
    ⟨"2025-01-01T11:00:00Z", .ofList []⟩]

/-- In a window with a grid and in one that is too long for a grid. -/
theorem timeseries_of_reversed_points :
    Point.Separate scatteredPoints ∧
      ∀ w ∈ [Window.mk "2025-01-01 10:07:00" "2025-01-01 12:30:00",
          Window.mk "2025-01-01 00:00:00" "2035-01-01 00:00:00"],
        (timeseries ⟨w, .timeseries hourlyLogs⟩ ⟨1735733400, false, 0⟩).runWith
            ⟨[.data (.timeseries scatteredPoints)], []⟩
          = (timeseries ⟨w, .timeseries hourlyLogs⟩ ⟨1735733400, false, 0⟩).runWith
            ⟨[.data (.timeseries scatteredPoints.reverse)], []⟩ := by
  have hseparate : Point.Separate scatteredPoints := by
    unfold Point.Separate
    decide +kernel
  refine ⟨hseparate, ?_⟩
  intro w _
  exact timeseries_of_perm hseparate (List.reverse_perm scatteredPoints).symm w hourlyLogs _ [] []

end Session

end QueryPanel
