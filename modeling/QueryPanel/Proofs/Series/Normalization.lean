import QueryPanel.Proofs.Series.Grid
import QueryPanel.Proofs.Series.Marking
import QueryPanel.Proofs.Store.Running

/-!
# A timeseries that is ready to draw

Five steps stand between what a store answers and what a chart draws: a grid is built, the points
are given the labels of the grid, each slot takes the first point in it, the width of the buckets is
told once more from the first two rows, and the rows of open buckets are marked. The width is read
off texts and not passed along, so the steps fit together only because the labels of a grid are read
back as the instants they were written for (`build_spaced`). From there the rows are steady, the
width that is told is that of the request, and each row has the place that its own instant gives it.

> `timeseries_is_normalized`: a chart request that compiles gives a row for each slot, with the
> values of the slot in the columns where its bucket, open or not, wants them.

The theorem is about grids of at least two slots in the years 0 to 9999. Of a single slot no width
can be told, and labels of other years are not read back.
-/

namespace QueryPanel

namespace Timeline

/-- A bucket of some width that starts at the instant of its label ends after `now`. -/
def IsOpen (width now : Int) (slot : String) : Prop :=
  ∃ start, Instant.millisOfText? slot = some start ∧ now < start + width

end Timeline

namespace TimeseriesResult

open Marker (incompleteName)
open Timeline (IsOpen)

/-- What a chart needs of a timeseries: it has a row for each slot of the grid and shows the values
that the points have there. The values of open buckets stand in columns of their own, in which the
last closed row has its values as well and the other closed rows have none. -/
structure IsNormalized (result : TimeseriesResult) (grid : List String) (seconds : Nat)
    (points : List Point) (now : Instant) : Prop where
  bucketSeconds : result.bucketSeconds = seconds
  namesAscending : result.names.Pairwise (· < ·)
  names : ∀ name, name ∈ result.names ↔ Point.IsSeries points name
  buckets : result.rows.map (·.bucket) = grid
  instants : ∀ slot ∈ grid, (Instant.millisOfText? slot).isSome
  openRow : ∀ row ∈ result.rows, IsOpen (seconds * 1000) now.millis row.bucket →
    ∀ name ∈ result.names,
      row.columns.get? name = some none ∧
        row.columns.get? (incompleteName name)
          = some (some (Point.valueIn points row.bucket name))
  closedRow : ∀ row ∈ result.rows, ¬ IsOpen (seconds * 1000) now.millis row.bucket →
    ∀ name ∈ result.names,
      row.columns.get? name = some (some (Point.valueIn points row.bucket name))
  lastClosedRow : (∃ row ∈ result.rows, IsOpen (seconds * 1000) now.millis row.bucket) →
    ∀ (i : Nat) (row : ChartRow), result.rows[i]? = some row →
      ¬ IsOpen (seconds * 1000) now.millis row.bucket →
      (∀ (j : Nat) (later : ChartRow), i < j → result.rows[j]? = some later →
        IsOpen (seconds * 1000) now.millis later.bucket) →
      ∀ name ∈ result.names, row.columns.get? (incompleteName name)
        = some (some (Point.valueIn points row.bucket name))
  earlierClosedRow : (∃ row ∈ result.rows, IsOpen (seconds * 1000) now.millis row.bucket) →
    ∀ (i j : Nat) (row later : ChartRow), i < j → result.rows[i]? = some row →
      result.rows[j]? = some later →
      ¬ IsOpen (seconds * 1000) now.millis row.bucket →
      ¬ IsOpen (seconds * 1000) now.millis later.bucket →
      ∀ name ∈ result.names, row.columns.get? (incompleteName name) = some none
  hasIncomplete : result.hasIncomplete = true ↔
    ∃ slot, grid.getLast? = some slot ∧ IsOpen (seconds * 1000) now.millis slot

end TimeseriesResult

/-! ## Rows of a grid -/

namespace Timeline

open Marker (incompleteName Distinct Steady Draws Cut)

theorem isOpen_iff_marker {width now : Int} (p : Point) :
    Marker.isOpen width now p = true ↔ IsOpen width now p.bucket := by
  unfold Marker.isOpen IsOpen
  rw [Option.any_eq_true]
  simp only [decide_eq_true_eq]
  rfl

variable {grid : List String} {first width : Int} {points : List Point}

/-- The points of a grid on which every slot shows every series. -/
def filled (points : List Point) (grid : List String) : List Point :=
  grid.map (slotRow (labelled points) (.constant (Point.seriesNames points) .zero))

theorem filled_bucket {i : Nat} {p : Point} (hp : (filled points grid)[i]? = some p) :
    grid[i]? = some p.bucket := by
  unfold filled at hp
  rw [List.getElem?_map] at hp
  obtain ⟨slot, hslot, rfl⟩ := Option.map_eq_some_iff.mp hp
  rw [hslot, slotRow_bucket]

theorem map_bucket_filled (points : List Point) (grid : List String) :
    (filled points grid).map (·.bucket) = grid := by
  unfold filled
  rw [List.map_map]
  exact List.map_id'' (slotRow_bucket _ _) grid

theorem filled_get? {p : Point} (hp : p ∈ filled points grid) {name : String}
    (hname : Point.IsSeries points name) :
    p.columns.get? name = some (Point.valueIn points p.bucket name) := by
  obtain ⟨slot, -, rfl⟩ := List.mem_map.mp hp
  rw [slotRow_get? hname, slotRow_bucket]

/-- On a spaced grid the points are steady. -/
theorem filled_steady (h : Spaced grid first width) (points : List Point) :
    Steady (filled points grid) first width := by
  intro i p hp
  exact h i p.bucket (filled_bucket hp)

end Timeline

/-! ## Compiling and calling -/

/-- What compiles as a timeseries has buckets of some width. -/
theorem ChartRequest.bucketSeconds?_of_compile {s : Settings} {r : ChartRequest}
    {request : StoreRequest} (hmode : r.mode = .timeseries) (h : r.compile s = .ok request) :
    ∃ seconds, request.query.bucketSeconds? = some seconds := by
  cases compilesTo_of_compile h with
  | timeseries => exact ⟨_, rfl⟩
  | breakdown mode => exact nomatch mode.symm.trans hmode

namespace Session

/-- A chart request that compiles and is answered with points is worth the points on its grid. -/
theorem run_timeseries {s : Settings} {r : ChartRequest} {request : StoreRequest} {seconds : Nat}
    {points : List Point} {store : Store} (hmode : r.mode = .timeseries)
    (hcompile : r.compile s = .ok request)
    (hseconds : request.query.bucketSeconds? = some seconds)
    (hreply : store.replies.head? = some (.data (.timeseries points))) (now : Instant) :
    ((run s r now).runWith store).1
      = .ok (.timeseries (.ofPoints request.window seconds points now)) := by
  have hnext : store.next = .data (.timeseries points) := by
    unfold Store.next
    rw [List.headD_eq_head?_getD, hreply]
    rfl
  rw [runWith_run_of_ok hcompile, hnext]
  cases ChartRequest.compilesTo_of_compile hcompile with
  | timeseries =>
    rw [← Option.some.inj hseconds]
    rfl
  | breakdown mode => exact nomatch mode.symm.trans hmode

end Session

namespace TimeseriesResult

open Marker (Distinct Cut Draws Place)
open Timeline (IsOpen filled)

/-! ## Rows -/

variable {grid : List String} {points : List Point} {seconds : Nat} {now : Instant}

/-- Rows as they are joined, where no bucket is open. -/
theorem isNormalized_of_closed (hinstants : ∀ slot ∈ grid, (Instant.millisOfText? slot).isSome)
    (hclosed : ∀ p ∈ filled points grid, Marker.isOpen (seconds * 1000) now.millis p = false) :
    IsNormalized ⟨seconds, Point.seriesNames points,
      (filled points grid).map Point.toChartRow, false⟩ grid seconds points now := by
  have hrow : ∀ row ∈ (filled points grid).map Point.toChartRow,
      ¬ IsOpen (seconds * 1000) now.millis row.bucket := by
    intro row hrow hopen
    obtain ⟨p, hp, rfl⟩ := List.mem_map.mp hrow
    have hp' := (Timeline.isOpen_iff_marker p).mpr hopen
    rw [hclosed p hp] at hp'
    exact nomatch hp'
  have hbuckets : ((filled points grid).map Point.toChartRow).map (·.bucket) = grid := by
    rw [List.map_map]
    exact Timeline.map_bucket_filled points grid
  exact {
    bucketSeconds := rfl
    namesAscending := Columns.names_ascending _
    names := Point.mem_seriesNames_iff points
    buckets := hbuckets
    instants := hinstants
    openRow := fun row hmem hopen => absurd hopen (hrow row hmem)
    closedRow := by
      intro row hmem _ name hname
      obtain ⟨p, hp, rfl⟩ := List.mem_map.mp hmem
      rw [Marker.toChartRow_get?,
        Timeline.filled_get? hp ((Point.mem_seriesNames_iff points name).mp hname)]
      rfl
    lastClosedRow := by
      intro ⟨row, hmem, hopen⟩
      exact absurd hopen (hrow row hmem)
    earlierClosedRow := by
      intro ⟨row, hmem, hopen⟩
      exact absurd hopen (hrow row hmem)
    hasIncomplete := by
      refine iff_of_false Bool.false_ne_true ?_
      rintro ⟨slot, hslot, hopen⟩
      have hmem : slot ∈ ((filled points grid).map Point.toChartRow).map (·.bucket) := by
        rw [hbuckets]
        exact List.mem_of_getLast? hslot
      obtain ⟨row, hmem', rfl⟩ := List.mem_map.mp hmem
      exact hrow row hmem' hopen }

/-- The rows of a grid, marked with the buckets from `cut` on as the open ones. -/
def cutRows (points : List Point) (grid : List String) (cut : Nat) : List ChartRow :=
  (filled points grid).mapIdx fun i p =>
    Marker.markRow (Point.seriesNames points) (.of cut i) p

variable {cut : Nat}

/-- A row of these is the marked row of a point on the grid. -/
theorem cutRows_eq_some {i : Nat} {row : ChartRow} (h : (cutRows points grid cut)[i]? = some row) :
    ∃ p, (filled points grid)[i]? = some p ∧ row.bucket = p.bucket ∧
      row = Marker.markRow (Point.seriesNames points) (.of cut i) p := by
  unfold cutRows at h
  rw [List.getElem?_mapIdx] at h
  obtain ⟨p, hp, rfl⟩ := Option.map_eq_some_iff.mp h
  exact ⟨p, hp, rfl, rfl⟩

theorem map_bucket_cutRows (points : List Point) (grid : List String) (cut : Nat) :
    (cutRows points grid cut).map (·.bucket) = grid := by
  refine Eq.trans ?_ (Timeline.map_bucket_filled points grid)
  apply List.ext_getElem?
  intro i
  unfold cutRows
  rw [List.getElem?_map, List.getElem?_map, List.getElem?_mapIdx, Option.map_map]
  rfl

/-- A row draws every series as its place says, with the values of its bucket. -/
theorem cutRows_draws (hdistinct : Distinct (Point.seriesNames points)) {i : Nat} {row : ChartRow}
    (h : (cutRows points grid cut)[i]? = some row) {name : String}
    (hname : name ∈ Point.seriesNames points) :
    Draws (.of cut i) row name (Point.valueIn points row.bucket name) := by
  obtain ⟨p, hp, hbucket, rfl⟩ := cutRows_eq_some h
  have hvalue := Timeline.filled_get? (List.mem_of_getElem? hp)
    ((Point.mem_seriesNames_iff points name).mp hname)
  rw [hbucket]
  exact Marker.markRow_draws hdistinct hname hvalue _

/-- The buckets of the rows from `cut` on are the open ones. -/
theorem cutRows_isOpen_iff {width now : Int} (hcut : Cut (filled points grid) width now cut)
    {i : Nat} {row : ChartRow} (h : (cutRows points grid cut)[i]? = some row) :
    IsOpen width now row.bucket ↔ cut ≤ i := by
  obtain ⟨p, hp, hbucket, -⟩ := cutRows_eq_some h
  rw [hbucket, ← Timeline.isOpen_iff_marker]
  exact hcut.open_iff i p hp

/-- Marked rows, where some bucket is open. -/
theorem isNormalized_of_cut (hinstants : ∀ slot ∈ grid, (Instant.millisOfText? slot).isSome)
    (hdistinct : Distinct (Point.seriesNames points))
    (hcut : Cut (filled points grid) (seconds * 1000) now.millis cut) :
    IsNormalized ⟨seconds, Point.seriesNames points, cutRows points grid cut, true⟩
      grid seconds points now := by
  have hlength : (cutRows points grid cut).length = (filled points grid).length :=
    List.length_mapIdx
  have hinside := hcut.inside
  exact {
    bucketSeconds := rfl
    namesAscending := Columns.names_ascending _
    names := Point.mem_seriesNames_iff points
    buckets := map_bucket_cutRows points grid cut
    instants := hinstants
    openRow := by
      intro row hmem hopen name hname
      obtain ⟨i, hrow⟩ := List.getElem?_of_mem hmem
      obtain ⟨hvalue, hincomplete⟩ := cutRows_draws hdistinct hrow hname
      have hi := (cutRows_isOpen_iff hcut hrow).mp hopen
      have hplace : Place.of cut i = .openBucket := Marker.Place.of_eq_openBucket_iff.mpr hi
      rw [hplace] at hvalue hincomplete
      exact ⟨hvalue, hincomplete⟩
    closedRow := by
      intro row hmem hopen name hname
      obtain ⟨i, hrow⟩ := List.getElem?_of_mem hmem
      obtain ⟨hvalue, -⟩ := cutRows_draws hdistinct hrow hname
      rw [cutRows_isOpen_iff hcut hrow] at hopen
      rwa [if_neg (fun hplace => hopen (Marker.Place.of_eq_openBucket_iff.mp hplace))] at hvalue
    lastClosedRow := by
      intro _ i row hrow hopen hlater name hname
      obtain ⟨-, hincomplete⟩ := cutRows_draws hdistinct hrow hname
      -- The row before the first open one is closed, so it cannot come later.
      have hnext : ¬ i + 1 < cut := by
        intro hlt
        have hbefore := List.getElem?_eq_getElem
          (show cut - 1 < (cutRows points grid cut).length by omega)
        have := (cutRows_isOpen_iff hcut hbefore).mp (hlater (cut - 1) _ (by omega) hbefore)
        omega
      rwa [if_neg (fun hplace => hnext (Marker.Place.of_eq_closed_iff.mp hplace))] at hincomplete
    earlierClosedRow := by
      intro _ i j row later hij hrow hrow' _ hopen name hname
      obtain ⟨-, hincomplete⟩ := cutRows_draws hdistinct hrow hname
      rw [cutRows_isOpen_iff hcut hrow'] at hopen
      have hplace : Place.of cut i = .closed := Marker.Place.of_eq_closed_iff.mpr (by omega)
      rwa [if_pos hplace] at hincomplete
    hasIncomplete := by
      refine iff_of_true rfl ?_
      have hlast := List.getElem?_eq_getElem
        (show (cutRows points grid cut).length - 1 < (cutRows points grid cut).length by omega)
      refine ⟨_, ?_, (cutRows_isOpen_iff hcut hlast).mpr (by omega)⟩
      conv => lhs; rw [← map_bucket_cutRows points grid cut]
      rw [List.getLast?_map, List.getLast?_eq_getElem?, hlast]
      rfl }

/-! ## Results -/

/-- The points of a store on a grid of at least two slots in plain years. -/
theorem ofPoints_isNormalized {w : Window}
    (hlength : 2 ≤ (Timeline.build w.start w.stop seconds).length)
    (hyears : ∀ slot ∈ Timeline.build w.start w.stop seconds, Instant.HasPlainYear slot)
    (hdistinct : Distinct (Point.seriesNames points)) (now : Instant) :
    (ofPoints w seconds points now).IsNormalized (Timeline.build w.start w.stop seconds) seconds
      points now := by
  obtain ⟨first, hspaced⟩ := Timeline.build_spaced hyears
  have hseconds := Timeline.seconds_pos_of_build (Nat.lt_of_lt_of_le Nat.zero_lt_two hlength)
  generalize hgrid : Timeline.build w.start w.stop seconds = grid at hlength hspaced
  have hinstants : ∀ slot ∈ grid, (Instant.millisOfText? slot).isSome := by
    intro slot hslot
    obtain ⟨i, hi⟩ := List.getElem?_of_mem hslot
    rw [hspaced i slot hi]
    rfl
  have hfilled : Timeline.fill points grid (.constant (Point.seriesNames points) .zero)
      = filled points grid :=
    Timeline.fill_of_grid (Nat.lt_of_lt_of_le Nat.zero_lt_two hlength) points _
  have hsteady := Timeline.filled_steady hspaced points
  have hlength' : 2 ≤ (filled points grid).length := by
    unfold filled
    rwa [List.length_map]
  unfold ofPoints
  simp only [hgrid, hfilled]
  unfold Marker.mark
  -- The width that is told from the first two rows is that of the request.
  rcases Marker.firstOpen?_of_steady hsteady hlength' (by omega) now.millis with
    ⟨hnone, hclosed⟩ | ⟨cut, hfirst, hcut⟩
  · rw [hnone]
    exact isNormalized_of_closed hinstants hclosed
  · rw [hfirst]
    exact isNormalized_of_cut hinstants hdistinct hcut

end TimeseriesResult

/-- A chart request that compiles as a timeseries and is answered with points gives a result that is
ready to draw, on every grid of at least two slots in the years 0 to 9999 and for points none of
whose series has the name of another one's column for open buckets. -/
theorem timeseries_is_normalized {s : Settings} {r : ChartRequest} {request : StoreRequest}
    (hmode : r.mode = .timeseries) (hcompile : r.compile s = .ok request) :
    ∃ seconds, request.query.bucketSeconds? = some seconds ∧
      ∀ (grid : List String) (points : List Point) (store : Store) (now : Instant),
        grid = Timeline.build request.window.start request.window.stop seconds →
        2 ≤ grid.length → (∀ slot ∈ grid, Instant.HasPlainYear slot) →
        (∀ a b, Point.IsSeries points a → Point.IsSeries points b → a ≠ Marker.incompleteName b) →
        store.replies.head? = some (.data (.timeseries points)) →
        ∃ result, ((Session.run s r now).runWith store).1 = .ok (.timeseries result) ∧
          result.IsNormalized grid seconds points now := by
  obtain ⟨seconds, hseconds⟩ := ChartRequest.bucketSeconds?_of_compile hmode hcompile
  refine ⟨seconds, hseconds, ?_⟩
  rintro grid points store now rfl hlength hyears hnames hreply
  have hdistinct : Marker.Distinct (Point.seriesNames points) := by
    intro a ha b hb
    exact hnames a b ((Point.mem_seriesNames_iff points a).mp ha)
      ((Point.mem_seriesNames_iff points b).mp hb)
  exact ⟨_, Session.run_timeseries hmode hcompile hseconds hreply now,
    TimeseriesResult.ofPoints_isNormalized hlength hyears hdistinct now⟩

/-- A chart of a morning in hours, whose window begins and ends within one. -/
def morning : ChartRequest where
  draft := { source := .traces, aggregation := "count", step := "1h" }
  start := "2025-01-01 10:07:00"
  stop := "2025-01-01T14:30:00+02:00"

/-- Two points for the first hour, written differently, and one of another series for the last. -/
def morningPoints : List Point :=
  [⟨"2025-01-01 10:00:00", .ofList [("count", .ofInt 10)]⟩,
    ⟨"2025-01-01T10:00:00.000Z", .ofList [("count", .ofInt 99)]⟩,
    ⟨"2025-01-01T13:00:00+01:00", .ofList [("errors", .ofInt 2)]⟩]

/-- Ten past twelve. -/
def pastNoon : Instant := ⟨1735733400, false, Instant.withinSecond 0⟩

theorem morning_is_normalized :
    ∃ result, ((Session.run .embedded morning pastNoon).runWith
        { replies := [.data (.timeseries morningPoints)] }).1 = .ok (.timeseries result) ∧
      result.IsNormalized
        ["2025-01-01T10:00:00.000Z", "2025-01-01T11:00:00.000Z", "2025-01-01T12:00:00.000Z"] 3600
        morningPoints pastNoon := by
  have hcompiled : (morning.compile .embedded).toOption.map
      (fun request => (request.window, request.query.bucketSeconds?))
        = some (⟨morning.start, morning.stop⟩, some 3600) := by decide +kernel
  cases hcompile : morning.compile .embedded with
  | error e =>
    rw [hcompile] at hcompiled
    exact nomatch hcompiled
  | ok request =>
    rw [hcompile] at hcompiled
    obtain ⟨hwindow, hwidth⟩ := Prod.mk.inj (Option.some.inj hcompiled)
    obtain ⟨seconds, hseconds, hnormalized⟩ := timeseries_is_normalized rfl hcompile
    obtain rfl : seconds = 3600 := Option.some.inj (hseconds.symm.trans hwidth)
    have hgrid : ["2025-01-01T10:00:00.000Z", "2025-01-01T11:00:00.000Z",
        "2025-01-01T12:00:00.000Z"] = Timeline.build morning.start morning.stop 3600 := by
      decide +kernel
    have hyears : ∀ slot ∈ ["2025-01-01T10:00:00.000Z", "2025-01-01T11:00:00.000Z",
        "2025-01-01T12:00:00.000Z"], Instant.HasPlainYear slot := by
      intro slot hslot
      simp only [List.mem_cons, List.not_mem_nil, or_false] at hslot
      rcases hslot with rfl | rfl | rfl
      · exact ⟨⟨1735725600, false, Instant.withinSecond 0⟩, by decide +kernel, by decide +kernel⟩
      · exact ⟨⟨1735729200, false, Instant.withinSecond 0⟩, by decide +kernel, by decide +kernel⟩
      · exact ⟨⟨1735732800, false, Instant.withinSecond 0⟩, by decide +kernel, by decide +kernel⟩
    have hseries : Point.seriesNames morningPoints = ["count", "errors"] := by decide +kernel
    have hnames : ∀ a b, Point.IsSeries morningPoints a → Point.IsSeries morningPoints b →
        a ≠ Marker.incompleteName b := by
      intro a b ha hb
      rw [← Point.mem_seriesNames_iff, hseries] at ha hb
      have hall : ∀ a ∈ ["count", "errors"], ∀ b ∈ ["count", "errors"],
          a ≠ Marker.incompleteName b := by decide
      exact hall a ha b hb
    exact hnormalized _ morningPoints _ pastNoon (by rw [hwindow]; exact hgrid)
      (by decide) hyears hnames rfl

end QueryPanel
