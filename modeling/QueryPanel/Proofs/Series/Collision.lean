import QueryPanel.Proofs.Series.Normalization

/-!
# Series that take each other's columns

The names of series come from what users group by, so a series may have the very name of another
one's column for open buckets. Both are written into one row then, and what the row shows depends on
which of the two is marked last. The series are marked in the order of their names, and a name
stands before the name of its column (`lt_incompleteName`), so that is always the series with the
longer name.

A row still shows the value of a series, in one of its two columns, except in two cases
(`Hides`): in an open bucket, where a series with the name of the column clears it; and in a closed
bucket before the bridge, where the series itself has the name of another one's column and is
cleared for that one.

> `value_is_shown_iff`: of all that a store answers for a slot, exactly those values are lost.
-/

namespace QueryPanel

namespace Marker

/-! ## The order of marking -/

/-- A name stands before the name of its column. -/
theorem lt_incompleteName (name : String) : name < incompleteName name := by
  have hlist : ∀ (cs ds : List Char) (d : Char), cs < cs ++ d :: ds := by
    intro cs ds d
    induction cs with
    | nil => exact List.nil_lt_cons d ds
    | cons c cs ih => exact List.cons_lt_cons_iff.mpr (.inr ⟨rfl, ih⟩)
  rw [String.lt_iff_toList_lt]
  unfold incompleteName
  rw [String.toList_append]
  exact hlist name.toList _ '_'

variable {names : List String} {name : String} {place : Place} {p : Point}

/-- In an open bucket the column of every series is cleared. No later series writes it again: a name
behind this one is not the name that the column is made of. -/
theorem foldl_markSeries_openBucket (hascending : names.Pairwise (· < ·)) (hname : name ∈ names)
    (columns : Columns (Option Double)) :
    (names.foldl (markSeries .openBucket p) columns).get? name = some none := by
  induction names generalizing columns with
  | nil => exact absurd hname List.not_mem_nil
  | cons a names ih =>
    obtain ⟨hlater, hrest⟩ := List.pairwise_cons.mp hascending
    rw [List.foldl_cons]
    rcases List.mem_cons.mp hname with rfl | hmem
    · rw [foldl_markSeries_get?_of_ne _ _, markSeries_get?_name, if_pos rfl]
      intro b hb
      have hlt := hlater b hb
      constructor
      · intro _ heq
        exact String.lt_irrefl b (heq ▸ hlt)
      · intro heq
        exact String.lt_irrefl name
          (String.lt_trans hlt (heq.symm ▸ lt_incompleteName b))
    · exact ih hrest hmem _

/-! ## What a row shows -/

/-- One of the two columns of a series has the value. -/
def Shows (row : ChartRow) (name : String) (value : Double) : Prop :=
  row.columns.get? name = some (some value) ∨
    row.columns.get? (incompleteName name) = some (some value)

/-- At a place, no column is left for the value of a series. -/
def Hides (names : List String) (place : Place) (name : String) : Prop :=
  match place with
  | .openBucket => incompleteName name ∈ names
  | .bridge => False
  | .closed => ∃ other ∈ names, name = incompleteName other

/-- A marked row shows the value of a series unless its place hides it. -/
theorem markRow_shows_iff (hascending : names.Pairwise (· < ·)) (hname : name ∈ names)
    {value : Double} (hvalue : p.columns.get? name = some value) (place : Place) :
    Shows (markRow names place p) name value ↔ ¬ Hides names place name := by
  unfold Shows
  cases place with
  | openBucket =>
    have hown : (markRow names .openBucket p).columns.get? name = some none :=
      foldl_markSeries_openBucket hascending hname _
    rw [hown]
    by_cases hcollides : incompleteName name ∈ names
    · have hother : (markRow names .openBucket p).columns.get? (incompleteName name) = some none :=
        foldl_markSeries_openBucket hascending hcollides _
      rw [hother]
      exact iff_of_false (by simp) (fun h => h hcollides)
    · have hother : (markRow names .openBucket p).columns.get? (incompleteName name)
          = some (some value) := by
        rw [← hvalue]
        refine foldl_markSeries_get?_incompleteName ?_ hname _
        intro _ a ha heq
        exact hcollides (heq ▸ ha)
      exact iff_of_true (.inr hother) hcollides
  | bridge =>
    have hother : (markRow names .bridge p).columns.get? (incompleteName name)
        = some (some value) := by
      rw [← hvalue]
      exact foldl_markSeries_get?_incompleteName Place.noConfusion hname _
    exact iff_of_true (.inr hother) id
  | closed =>
    have hcleared : ∀ a ∈ names, (markRow names .closed p).columns.get? (incompleteName a)
        = some none :=
      fun a ha => foldl_markSeries_get?_incompleteName Place.noConfusion ha _
    rw [hcleared name hname]
    by_cases hcollides : ∃ other ∈ names, name = incompleteName other
    · obtain ⟨other, hmem, heq⟩ := hcollides
      have hown := hcleared other hmem
      rw [← heq] at hown
      rw [hown]
      exact iff_of_false (by simp) (fun h => h ⟨other, hmem, heq⟩)
    · have hown : (markRow names .closed p).columns.get? name = some (some value) := by
        refine (foldl_markSeries_get?_name ?_ hname _).trans ?_
        · intro a ha heq
          exact hcollides ⟨a, ha, heq⟩
        · rw [toChartRow_get?, hvalue]
          rfl
      exact iff_of_true (.inl hown) hcollides

end Marker

open Marker (Shows Hides Place)

namespace TimeseriesResult

open Timeline (filled)

variable {w : Window} {seconds : Nat} {points : List Point} {now : Instant}

/-- The rows on a grid: those of the joined points, marked if some bucket is open. -/
theorem ofPoints_rows (hgrid : 0 < (Timeline.build w.start w.stop seconds).length) :
    (ofPoints w seconds points now).rows
      = match Marker.firstOpen? (filled points (Timeline.build w.start w.stop seconds))
            now.millis with
        | none => (filled points (Timeline.build w.start w.stop seconds)).map Point.toChartRow
        | some cut => cutRows points (Timeline.build w.start w.stop seconds) cut := by
  unfold ofPoints
  simp only [Timeline.fill_of_grid hgrid]
  unfold Marker.mark
  rw [← filled]
  cases Marker.firstOpen? (filled points (Timeline.build w.start w.stop seconds)) now.millis <;> rfl

end TimeseriesResult

section Shown

variable {grid : List String} {points : List Point} {i : Nat} {slot : String} {p : Point}
  {name : String} {value : Double}

/-- The joined point of a slot has the values of the first point in it. -/
theorem Timeline.filled_of_point (hslot : grid[i]? = some slot)
    (hpoint : (points.find? fun p => Point.canonicalBucket p.bucket = slot) = some p)
    (hvalue : p.columns.get? name = some value) :
    ∃ q, (filled points grid)[i]? = some q ∧ q.bucket = slot ∧
      q.columns.get? name = some value ∧ name ∈ Point.seriesNames points := by
  have hname : Point.IsSeries points name :=
    ⟨p, List.mem_of_find?_eq_some hpoint, by rw [hvalue]; rfl⟩
  have hin : Point.valueIn points slot name = value := by
    unfold Point.valueIn
    rw [hpoint]
    show (p.columns.get? name).getD .zero = value
    rw [hvalue]
    rfl
  refine ⟨slotRow (labelled points) (.constant (Point.seriesNames points) .zero) slot, ?_,
    slotRow_bucket _ _ slot, ?_, (Point.mem_seriesNames_iff points name).mpr hname⟩
  · unfold filled
    rw [List.getElem?_map, hslot]
    rfl
  · rw [slotRow_get? hname, hin]

/-- Of the first point that a store answers for a slot, the row of the slot shows every value in one
of the two columns of its series, except for those that the place of the row hides. -/
theorem Session.value_is_shown_iff {request : StoreRequest} {seconds : Nat}
    (hseconds : request.query.bucketSeconds? = some seconds)
    (hgrid : Timeline.build request.window.start request.window.stop seconds = grid)
    (hslot : grid[i]? = some slot)
    (hpoint : (points.find? fun p => Point.canonicalBucket p.bucket = slot) = some p)
    (hvalue : p.columns.get? name = some value) (now : Instant) (replies : List StoreReply)
    (received : List StoreRequest) :
    ∃ result row, ((timeseries request now).runWith
        ⟨.data (.timeseries points) :: replies, received⟩).1 = .ok result ∧
      result.rows[i]? = some row ∧ row.bucket = slot ∧
      (Shows row name value ↔
        ∀ cut, Marker.firstOpen? (Timeline.filled points grid) now.millis = some cut →
          ¬ Hides (Point.seriesNames points) (.of cut i) name) := by
  obtain ⟨q, hq, hbucket, hvalue', hname⟩ := Timeline.filled_of_point hslot hpoint hvalue
  have hlength : 0 < grid.length := by
    have := (List.getElem?_eq_some_iff.mp hslot).1
    omega
  rw [← hgrid] at hlength
  have hrows : (TimeseriesResult.ofPoints request.window seconds points now).rows = _ :=
    TimeseriesResult.ofPoints_rows hlength
  rw [hgrid] at hrows
  rw [timeseries_answered hseconds]
  cases hfirst : Marker.firstOpen? (Timeline.filled points grid) now.millis with
  | none =>
    rw [hfirst] at hrows
    refine ⟨_, q.toChartRow, rfl, ?_, hbucket, ?_⟩
    · rw [hrows, List.getElem?_map, hq]
      rfl
    · have hown : q.toChartRow.columns.get? name = some (some value) := by
        show (q.columns.map some).get? name = some (some value)
        rw [Columns.get?_map, hvalue']
        rfl
      refine iff_of_true (.inl hown) ?_
      rintro cut ⟨⟩
  | some cut =>
    rw [hfirst] at hrows
    refine ⟨_, Marker.markRow (Point.seriesNames points) (.of cut i) q, rfl, ?_, hbucket, ?_⟩
    · rw [hrows]
      unfold TimeseriesResult.cutRows
      rw [List.getElem?_mapIdx, hq]
      rfl
    · rw [Marker.markRow_shows_iff (Point.seriesNames_ascending points) hname hvalue']
      constructor
      · rintro h _ ⟨⟩
        exact h
      · intro h
        exact h cut rfl

end Shown

namespace Session

/-- Two hours of two series, one of which has the name of the other one's column. -/
def collidingPoints : List Point :=
  [⟨"2025-01-01T10:00:00Z", .ofList [("a", .ofInt 1), ("a_incomplete", .ofInt 2)]⟩,
    ⟨"2025-01-01T11:00:00Z", .ofList [("a", .ofInt 3), ("a_incomplete", .ofInt 4)]⟩]

/-- Their hours. -/
def collidingRequest : StoreRequest :=
  ⟨⟨"2025-01-01 10:00:00", "2025-01-01 11:00:00"⟩, .timeseries hourlyLogs⟩

/-- Half past eleven, when the second hour is open. -/
def duringSecondHour : Instant := ⟨1735731000, false, Instant.withinSecond 0⟩

/-- In the bridge the value of the second series is shown, though its own column is taken. -/
theorem bridged_value_is_shown :
    ∃ result row, ((timeseries collidingRequest duringSecondHour).runWith
        ⟨[.data (.timeseries collidingPoints)], []⟩).1 = .ok result ∧
      result.rows[0]? = some row ∧ row.bucket = "2025-01-01T10:00:00.000Z" ∧
      Shows row "a_incomplete" (.ofInt 2) := by
  have hseconds : collidingRequest.query.bucketSeconds? = some 3600 := rfl
  have hgrid : Timeline.build collidingRequest.window.start collidingRequest.window.stop 3600
      = ["2025-01-01T10:00:00.000Z", "2025-01-01T11:00:00.000Z"] := by decide +kernel
  have hslot : ["2025-01-01T10:00:00.000Z", "2025-01-01T11:00:00.000Z"][0]?
      = some "2025-01-01T10:00:00.000Z" := rfl
  have hpoint : (collidingPoints.find? fun p =>
      Point.canonicalBucket p.bucket = "2025-01-01T10:00:00.000Z")
        = some ⟨"2025-01-01T10:00:00Z", .ofList [("a", .ofInt 1), ("a_incomplete", .ofInt 2)]⟩ := by
    decide +kernel
  have hvalue : (Columns.ofList [("a", Double.ofInt 1), ("a_incomplete", .ofInt 2)]).get?
      "a_incomplete" = some (.ofInt 2) := by decide +kernel
  obtain ⟨result, row, hresult, hrow, hbucket, hshown⟩ :=
    value_is_shown_iff hseconds hgrid hslot hpoint hvalue duringSecondHour [] []
  have hfirst : Marker.firstOpen? (Timeline.filled collidingPoints
      ["2025-01-01T10:00:00.000Z", "2025-01-01T11:00:00.000Z"]) duringSecondHour.millis
        = some 1 := by decide +kernel
  refine ⟨result, row, hresult, hrow, hbucket, hshown.mpr ?_⟩
  intro cut hcut
  rw [hfirst] at hcut
  rw [← Option.some.inj hcut]
  exact id

/-- In the open bucket behind it the value of the first series is lost. -/
theorem colliding_value_is_lost :
    (collidingPoints.find? fun p => Point.canonicalBucket p.bucket = "2025-01-01T11:00:00.000Z")
        = some ⟨"2025-01-01T11:00:00Z", .ofList [("a", .ofInt 3), ("a_incomplete", .ofInt 4)]⟩ ∧
      ∃ result row, ((timeseries collidingRequest duringSecondHour).runWith
          ⟨[.data (.timeseries collidingPoints)], []⟩).1 = .ok result ∧
        result.rows[1]? = some row ∧ row.bucket = "2025-01-01T11:00:00.000Z" ∧
        ¬ Shows row "a" (.ofInt 3) := by
  have hseconds : collidingRequest.query.bucketSeconds? = some 3600 := rfl
  have hrow : (TimeseriesResult.ofPoints collidingRequest.window 3600 collidingPoints
      duringSecondHour).rows[1]? = some ⟨"2025-01-01T11:00:00.000Z",
        .ofList [("a", none), ("a_incomplete", none),
          ("a_incomplete_incomplete", some (.ofInt 4))]⟩ := by decide +kernel
  refine ⟨by decide +kernel, _, _, ?_, hrow, rfl, ?_⟩
  · rw [timeseries_answered hseconds]
  · unfold Shows
    decide +kernel

end Session

end QueryPanel
