import QueryPanel.Proofs.Series.Collision
import QueryPanel.Proofs.Series.Reordering

/-!
# Which buckets are taken for open

The marker is not told how wide a bucket is. It takes the distance of the first two rows for the
width, and from the first row on that is open by that width it moves the values of all rows. Both
steps are right on a grid, where the slots stand one width apart and in the order of time: what is
read from the label of a slot is the instant that it was made from, if anything is
(`eq_of_millisOfText?_label`).

Without a grid the rows are the points of the store, sorted as texts. The first two of them may be
several buckets apart, and then a bucket counts as open long after it has ended; and the text that
sorts later may name the earlier instant. Either shows in the last millisecond before the told end
of some bucket (`end_le_of_openFromFirst`).

> `timeseries_movesOpenOnly_iff`: at every time only open buckets have their values moved, exactly
> if there is a grid, or there is nothing to move, or no width is told, or the sorted points tell
> the width of the timeseries and stand in the order of time.
-/

namespace QueryPanel

/-- A bucket starts at a number of milliseconds: it is read as that, or it is the label of that, in
a year that is not read. -/
def Instant.StartsAt (bucket : String) (start : Int) : Prop :=
  millisOfText? bucket = some start ∨ labelOfMillis? start = some bucket

/-- A bucket that is read has no other start. -/
theorem Instant.StartsAt.eq_of_read {bucket : String} {start read : Int}
    (h : StartsAt bucket start) (hread : millisOfText? bucket = some read) : read = start := by
  rcases h with h | h
  · exact Option.some.inj (hread.symm.trans h)
  · exact eq_of_millisOfText?_label h hread

open Instant (StartsAt)

namespace Marker

/-! ## Moved rows -/

/-- All series of a row have been moved out of their columns. -/
def Moved (names : List String) (row : ChartRow) : Prop :=
  names ≠ [] ∧ ∀ name ∈ names, row.columns.get? name = some none

variable {names : List String} {p : Point} {place : Place}

/-- As it is joined, a row misses nothing. -/
theorem toChartRow_get?_ne (p : Point) (name : String) :
    p.toChartRow.columns.get? name ≠ some none := by
  rw [toChartRow_get?]
  cases p.columns.get? name with
  | none => exact nofun
  | some value => exact nofun

theorem not_moved_toChartRow (p : Point) : ¬ Moved names p.toChartRow := by
  rintro ⟨hnames, hmoved⟩
  obtain ⟨name, hname⟩ := List.exists_mem_of_ne_nil names hnames
  exact toChartRow_get?_ne p name (hmoved name hname)

/-- A marked row is moved exactly in open buckets: the first series of a row has the name of no
column for open buckets, so in another place nothing clears it. -/
theorem moved_markRow_iff (hascending : names.Pairwise (· < ·)) (hnames : names ≠ []) :
    Moved names (markRow names place p) ↔ place = .openBucket := by
  constructor
  · rintro ⟨-, hmoved⟩
    cases names with
    | nil => exact absurd rfl hnames
    | cons head rest =>
      have hlater := (List.pairwise_cons.mp hascending).1
      have hhead : ∀ a ∈ head :: rest, head ≠ incompleteName a := by
        intro a ha heq
        have hbehind : a < head := heq ▸ lt_incompleteName a
        rcases List.mem_cons.mp ha with rfl | hmem
        · exact String.lt_irrefl a hbehind
        · exact String.lt_irrefl a (String.lt_trans hbehind (hlater a hmem))
      have hcolumn := hmoved head List.mem_cons_self
      unfold markRow at hcolumn
      rw [foldl_markSeries_get?_name hhead List.mem_cons_self] at hcolumn
      by_cases hplace : place = .openBucket
      · exact hplace
      · rw [if_neg hplace] at hcolumn
        exact absurd hcolumn (toChartRow_get?_ne p head)
  · rintro rfl
    exact ⟨hnames, fun name hname => foldl_markSeries_openBucket hascending hname _⟩

/-- The moved rows are those of the points from the first open one on. -/
theorem forall_moved_iff (hascending : names.Pairwise (· < ·)) (hnames : names ≠ [])
    (points : List Point) (now : Instant) (holds : String → Prop) :
    (∀ row ∈ (mark points names now).rows, Moved names row → holds row.bucket) ↔
      ∀ cut, firstOpen? points now.millis = some cut →
        ∀ (i : Nat) (p : Point), cut ≤ i → points[i]? = some p → holds p.bucket := by
  unfold mark
  cases firstOpen? points now.millis with
  | none =>
    refine iff_of_true ?_ nofun
    intro row hrow hmoved
    obtain ⟨p, -, rfl⟩ := List.mem_map.mp hrow
    exact absurd hmoved (not_moved_toChartRow p)
  | some cut =>
    constructor
    · rintro h _ ⟨⟩ i p hi hp
      have hplace : Place.of cut i = .openBucket := Place.of_eq_openBucket_iff.mpr hi
      refine h (markRow names (.of cut i) p) ?_ ((moved_markRow_iff hascending hnames).mpr hplace)
      apply List.mem_of_getElem? (i := i)
      rw [List.getElem?_mapIdx, hp]
      rfl
    · intro h row hrow hmoved
      obtain ⟨i, hi⟩ := List.getElem?_of_mem hrow
      rw [List.getElem?_mapIdx] at hi
      obtain ⟨p, hp, rfl⟩ := Option.map_eq_some_iff.mp hi
      have hplace := (moved_markRow_iff hascending hnames).mp hmoved
      exact h cut rfl i p (Place.of_eq_openBucket_iff.mp hplace) hp

/-! ## The first open row -/

variable {points : List Point} {width now : Int}

/-- The width is the distance of the first two points. -/
theorem inferWidth?_eq_some (h : Point.inferWidth? points = some width) :
    ∃ p q a b, points[0]? = some p ∧ points[1]? = some q ∧ p.start? = some a ∧
      q.start? = some b ∧ a < b ∧ width = b - a := by
  rcases points with _ | ⟨p, _ | ⟨q, rest⟩⟩
  · exact nomatch h
  · exact nomatch h
  · simp only [Point.inferWidth?] at h
    split at h
    · next a b ha hb =>
      split at h
      · next hlt => exact ⟨p, q, a, b, rfl, rfl, ha, hb, hlt, (Option.some.inj h).symm⟩
      · cases h
    · cases h

/-- The first open row is open by the width that is told. -/
theorem firstOpen?_eq_some {cut : Nat} (h : firstOpen? points now = some cut) :
    ∃ width p start, Point.inferWidth? points = some width ∧ points[cut]? = some p ∧
      p.start? = some start ∧ now < start + width := by
  obtain ⟨width, hwidth, hcut⟩ := Option.bind_eq_some_iff.mp h
  obtain ⟨hinside, hopen, -⟩ := List.findIdx?_eq_some_iff_getElem.mp hcut
  obtain ⟨start, hstart, hlt⟩ := (Option.any_eq_true _ _).mp hopen
  exact ⟨width, points[cut], start, hwidth, List.getElem?_eq_getElem hinside, hstart,
    of_decide_eq_true hlt⟩

/-- A row that is open by that width is the first such row or a later one. -/
theorem exists_firstOpen?_le (hwidth : Point.inferWidth? points = some width) {i : Nat}
    (hp : points[i]? = some p) {start : Int} (hstart : p.start? = some start)
    (hopen : now < start + width) : ∃ cut ≤ i, firstOpen? points now = some cut := by
  have hmarked : isOpen width now p = true := (isOpen_iff hstart now).mpr hopen
  unfold firstOpen?
  rw [hwidth, Option.bind_some]
  cases hcut : points.findIdx? (isOpen width now) with
  | none =>
    have hclosed := List.findIdx?_eq_none_iff.mp hcut p (List.mem_of_getElem? hp)
    rw [hmarked] at hclosed
    exact nomatch hclosed
  | some cut =>
    obtain ⟨_, _, hbefore⟩ := List.findIdx?_eq_some_iff_getElem.mp hcut
    refine ⟨cut, ?_, rfl⟩
    rcases Nat.lt_or_ge i cut with hlt | hge
    · obtain ⟨hi, heq⟩ := List.getElem?_eq_some_iff.mp hp
      have hnot := hbefore i hlt
      rw [heq] at hnot
      exact absurd hmarked hnot
    · exact hge

end Marker

/-! ## On a grid -/

open Timeline (filled)

/-- On a grid the bucket of each row from the first open one on has a start and ends after `now`. -/
theorem Timeline.open_of_firstOpen?_le {start stop : String} {seconds : Nat} {points : List Point}
    {now : Int} {cut i : Nat} {p : Point}
    (hcut : Marker.firstOpen? (filled points (build start stop seconds)) now = some cut)
    (hi : cut ≤ i) (hp : (filled points (build start stop seconds))[i]? = some p) :
    ∃ start, StartsAt p.bucket start ∧ now < start + seconds * 1000 := by
  obtain ⟨first, hfirst⟩ := build_labels start stop seconds
  -- What is read from the label of a row is the number that its slot has.
  have hread : ∀ (j : Nat) (q : Point) (m : Int),
      (filled points (build start stop seconds))[j]? = some q → q.start? = some m →
        m = first + j * ((seconds : Int) * 1000) := by
    intro j q m hq hm
    exact Instant.eq_of_millisOfText?_label (hfirst j q.bucket (filled_bucket hq)) hm
  obtain ⟨width, q, m, hwidth, hq, hm, hlt⟩ := Marker.firstOpen?_eq_some hcut
  obtain ⟨p₀, p₁, a, b, h₀, h₁, ha, hb, -, hdistance⟩ := Marker.inferWidth?_eq_some hwidth
  have hslot₀ := hread 0 p₀ a h₀ ha
  have hslot₁ := hread 1 p₁ b h₁ hb
  have hslot := hread cut q m hq hm
  refine ⟨first + i * ((seconds : Int) * 1000), .inr (hfirst i p.bucket (filled_bucket hp)), ?_⟩
  have hlater : (cut : Int) * ((seconds : Int) * 1000) ≤ i * ((seconds : Int) * 1000) :=
    Int.mul_le_mul_of_nonneg_right (by omega) (by omega)
  rw [hslot] at hlt
  rw [Int.natCast_zero, Int.zero_mul] at hslot₀
  rw [Int.natCast_one, Int.one_mul] at hslot₁
  omega

/-! ## Without a grid -/

namespace Point

/-- Every point is in a bucket that is read as a multiple of a width. -/
def Aligned (points : List Point) (width : Int) : Prop :=
  ∀ p ∈ points, ∃ start, p.start? = some start ∧ width ∣ start

/-- The first two points are one width apart, and no later point is in an earlier bucket. -/
structure InStep (points : List Point) (width : Int) : Prop where
  told : inferWidth? points = some width
  chronological : points.Pairwise fun p q =>
    ∀ a b, p.start? = some a → q.start? = some b → a ≤ b

/-- At a time, the points from the first open one on are in buckets that end after it. -/
def OpenFromFirst (points : List Point) (width now : Int) : Prop :=
  ∀ cut, Marker.firstOpen? points now = some cut →
    ∀ (i : Nat) (p : Point), cut ≤ i → points[i]? = some p →
      ∃ start, StartsAt p.bucket start ∧ now < start + width

variable {points : List Point} {width : Int}

theorem InStep.start_le (h : InStep points width) {i j : Nat} (hij : i ≤ j) {p q : Point}
    {a b : Int} (hp : points[i]? = some p) (hq : points[j]? = some q) (ha : p.start? = some a)
    (hb : q.start? = some b) : a ≤ b := by
  rcases Nat.eq_or_lt_of_le hij with rfl | hlt
  · obtain rfl : p = q := Option.some.inj (hp.symm.trans hq)
    exact Int.le_of_eq (Option.some.inj (ha.symm.trans hb))
  · obtain ⟨hi, rfl⟩ := List.getElem?_eq_some_iff.mp hp
    obtain ⟨hj, rfl⟩ := List.getElem?_eq_some_iff.mp hq
    exact List.pairwise_iff_getElem.mp h.chronological i j hi hj hlt a b ha hb

theorem InStep.openFromFirst (h : InStep points width)
    (hread : ∀ p ∈ points, ∃ start, p.start? = some start) (now : Int) :
    OpenFromFirst points width now := by
  intro cut hcut i p hi hp
  obtain ⟨told, q, start, htold, hq, hstart, hlt⟩ := Marker.firstOpen?_eq_some hcut
  obtain rfl : told = width := Option.some.inj (htold.symm.trans h.told)
  obtain ⟨start', hstart'⟩ := hread p (List.mem_of_getElem? hp)
  have hle := h.start_le hi hq hp hstart hstart'
  exact ⟨start', .inl hstart', by omega⟩

/-- If it is so at every time, a bucket that is told to end after another one's end is not in front
of it. The time that shows it is the last millisecond before the first of the two ends. -/
theorem end_le_of_openFromFirst (h : ∀ now, OpenFromFirst points width now) {told : Int}
    (htold : inferWidth? points = some told) {i j : Nat} (hij : i ≤ j) {p q : Point} {a b : Int}
    (hp : points[i]? = some p) (hq : points[j]? = some q) (ha : p.start? = some a)
    (hb : q.start? = some b) : a + told ≤ b + width := by
  obtain ⟨cut, hle, hcut⟩ :=
    Marker.exists_firstOpen?_le htold hp ha (show a + told - 1 < a + told by omega)
  obtain ⟨start, hstart, hlt⟩ := h _ cut hcut j q (Nat.le_trans hle hij) hq
  obtain rfl : b = start := hstart.eq_of_read hb
  omega

theorem inStep_of_openFromFirst (h : ∀ now, OpenFromFirst points width now)
    (haligned : Aligned points width) {told : Int} (htold : inferWidth? points = some told) :
    InStep points width := by
  obtain ⟨p, q, a, b, hp, hq, ha, hb, hlt, hdistance⟩ := Marker.inferWidth?_eq_some htold
  have hle := end_le_of_openFromFirst h htold (Nat.le_refl 0) hp hp ha ha
  have hmultiple : width ∣ told := by
    obtain ⟨a', ha', hdvd⟩ := haligned p (List.mem_of_getElem? hp)
    obtain ⟨b', hb', hdvd'⟩ := haligned q (List.mem_of_getElem? hq)
    obtain rfl : a = a' := Option.some.inj (ha.symm.trans ha')
    obtain rfl : b = b' := Option.some.inj (hb.symm.trans hb')
    rw [hdistance]
    exact Int.dvd_sub hdvd' hdvd
  have hge : width ≤ told := Int.le_of_dvd (by omega) hmultiple
  obtain rfl : told = width := by omega
  refine ⟨htold, List.pairwise_iff_getElem.mpr ?_⟩
  intro i j hi hj hij a b ha hb
  have hends := end_le_of_openFromFirst h htold (Nat.le_of_lt hij) (List.getElem?_eq_getElem hi)
    (List.getElem?_eq_getElem hj) ha hb
  omega

/-- For aligned points it is so at every time exactly if no width is told or they are in step. -/
theorem openFromFirst_iff (haligned : Aligned points width) :
    (∀ now, OpenFromFirst points width now) ↔
      inferWidth? points = none ∨ InStep points width := by
  constructor
  · intro h
    cases htold : inferWidth? points with
    | none => exact .inl rfl
    | some told => exact .inr (inStep_of_openFromFirst h haligned htold)
  · rintro (htold | hstep) now
    · intro cut hcut
      obtain ⟨width, -, -, hwidth, -⟩ := Marker.firstOpen?_eq_some hcut
      rw [htold] at hwidth
      exact nomatch hwidth
    · refine hstep.openFromFirst ?_ now
      intro p hp
      obtain ⟨start, hstart, -⟩ := haligned p hp
      exact ⟨start, hstart⟩

end Point

/-! ## Results -/

/-- Each row whose values have been moved is that of a bucket that ends after `now`. -/
def TimeseriesResult.MovesOpenOnly (result : TimeseriesResult) (now : Instant) : Prop :=
  ∀ row ∈ result.rows, Marker.Moved result.names row →
    ∃ start, StartsAt row.bucket start ∧ now.millis < start + result.bucketSeconds * 1000

namespace TimeseriesResult

variable {w : Window} {seconds : Nat} {points : List Point} {now : Instant}

theorem ofPoints_movesOpenOnly_of_nil (hnames : Point.seriesNames points = []) :
    (ofPoints w seconds points now).MovesOpenOnly now := by
  intro row _ hmoved
  exact absurd hnames hmoved.1

theorem ofPoints_movesOpenOnly_of_grid
    (hgrid : 0 < (Timeline.build w.start w.stop seconds).length) :
    (ofPoints w seconds points now).MovesOpenOnly now := by
  by_cases hnames : Point.seriesNames points = []
  · exact ofPoints_movesOpenOnly_of_nil hnames
  · refine (Marker.forall_moved_iff (Point.seriesNames_ascending points) hnames _ now fun bucket =>
      ∃ start, StartsAt bucket start ∧ now.millis < start + seconds * 1000).mpr ?_
    rw [Timeline.fill_of_grid hgrid]
    intro cut hcut i p hi hp
    exact Timeline.open_of_firstOpen?_le hcut hi hp

theorem ofPoints_movesOpenOnly_iff (hgrid : Timeline.build w.start w.stop seconds = [])
    (hnames : Point.seriesNames points ≠ []) :
    (ofPoints w seconds points now).MovesOpenOnly now ↔
      Point.OpenFromFirst (Timeline.sortedPoints points) (seconds * 1000) now.millis := by
  refine (Marker.forall_moved_iff (Point.seriesNames_ascending points) hnames _ now fun bucket =>
    ∃ start, StartsAt bucket start ∧ now.millis < start + seconds * 1000).trans ?_
  rw [Timeline.fill_of_no_grid hgrid]
  rfl

end TimeseriesResult

namespace Session

open Timeline (sortedPoints)

/-- For points in buckets that are multiples of the width of a timeseries: at every time only open
buckets have their values moved, exactly if there is a grid, or there are no values, or no width is
told from the sorted points, or they are in step with the timeseries. -/
theorem timeseries_movesOpenOnly_iff {request : StoreRequest} {seconds : Nat} {points : List Point}
    (hseconds : request.query.bucketSeconds? = some seconds)
    (haligned : Point.Aligned points (seconds * 1000)) :
    (∀ now replies received, ∃ result, ((timeseries request now).runWith
        ⟨.data (.timeseries points) :: replies, received⟩).1 = .ok result ∧
          result.MovesOpenOnly now) ↔
      Timeline.build request.window.start request.window.stop seconds ≠ [] ∨
        Point.seriesNames points = [] ∨ Point.inferWidth? (sortedPoints points) = none ∨
          Point.InStep (sortedPoints points) (seconds * 1000) := by
  have hsorted : Point.Aligned (sortedPoints points) (seconds * 1000) := by
    intro p hp
    exact haligned p (Timeline.mem_sortedPoints_iff.mp hp)
  rw [← Point.openFromFirst_iff hsorted]
  constructor
  · intro h
    by_cases hgrid : Timeline.build request.window.start request.window.stop seconds = []
    · by_cases hnames : Point.seriesNames points = []
      · exact .inr (.inl hnames)
      · refine .inr (.inr ?_)
        intro m
        obtain ⟨now, rfl⟩ := Instant.exists_millis m
        obtain ⟨result, hresult, hmoves⟩ := h now [] []
        rw [timeseries_answered hseconds] at hresult
        rw [← Except.ok.inj hresult] at hmoves
        exact (TimeseriesResult.ofPoints_movesOpenOnly_iff hgrid hnames).mp hmoves
    · exact .inl hgrid
  · intro h now replies received
    rw [timeseries_answered hseconds]
    refine ⟨_, rfl, ?_⟩
    by_cases hgrid : Timeline.build request.window.start request.window.stop seconds = []
    · by_cases hnames : Point.seriesNames points = []
      · exact TimeseriesResult.ofPoints_movesOpenOnly_of_nil hnames
      · rw [TimeseriesResult.ofPoints_movesOpenOnly_iff hgrid hnames]
        have hopen := (h.resolve_left (absurd hgrid)).resolve_left hnames
        exact hopen now.millis
    · exact TimeseriesResult.ofPoints_movesOpenOnly_of_grid (List.length_pos_iff.mpr hgrid)

/-- Two years by the hour, which are too long for a grid. -/
def twoYears : StoreRequest :=
  ⟨⟨"2025-01-01 00:00:00", "2027-01-01 00:00:00"⟩, .timeseries hourlyLogs⟩

/-- Points of two hours in a row. -/
def nextHours : List Point :=
  [⟨"2025-01-01T10:00:00Z", .ofList [("count", .ofInt 1)]⟩,
    ⟨"2025-01-01T11:00:00Z", .ofList [("count", .ofInt 2)]⟩]

theorem nextHours_movesOpenOnly :
    Point.Aligned nextHours ((3600 : Nat) * 1000) ∧
      ∀ now replies received, ∃ result, ((timeseries twoYears now).runWith
        ⟨.data (.timeseries nextHours) :: replies, received⟩).1 = .ok result ∧
          result.MovesOpenOnly now := by
  have hfirst : Instant.millisOfText? "2025-01-01T10:00:00Z" = some 1735725600000 := by
    decide +kernel
  have hsecond : Instant.millisOfText? "2025-01-01T11:00:00Z" = some 1735729200000 := by
    decide +kernel
  have haligned : Point.Aligned nextHours ((3600 : Nat) * 1000) := by
    intro p hp
    rcases List.mem_pair.mp hp with rfl | rfl
    · exact ⟨_, hfirst, by decide⟩
    · exact ⟨_, hsecond, by decide⟩
  have hstep : Point.InStep nextHours ((3600 : Nat) * 1000) := by
    refine ⟨by decide +kernel, List.pairwise_pair.mpr ?_⟩
    intro a b ha hb
    obtain rfl : 1735725600000 = a := Option.some.inj (hfirst.symm.trans ha)
    obtain rfl : 1735729200000 = b := Option.some.inj (hsecond.symm.trans hb)
    decide
  refine ⟨haligned, (timeseries_movesOpenOnly_iff rfl haligned).mpr ?_⟩
  rw [Timeline.sortedPoints_of_ascending (by decide +kernel)]
  exact .inr (.inr (.inr hstep))

/-- Points of two hours that are ten hours apart. -/
def distantHours : List Point :=
  [⟨"2025-01-01T01:00:00Z", .ofList [("count", .ofInt 1)]⟩,
    ⟨"2025-01-01T11:00:00Z", .ofList [("count", .ofInt 2)]⟩]

/-- One o'clock, when both hours are over. -/
def atOne : Instant := ⟨1735736400, false, Instant.withinSecond 0⟩

/-- An hour that ended at noon has its value moved at one o'clock. -/
theorem ended_hour_is_moved :
    Point.Aligned distantHours ((3600 : Nat) * 1000) ∧ (distantHours.map Point.start?).Nodup ∧
      ∃ result row, ((timeseries twoYears atOne).runWith
        ⟨[.data (.timeseries distantHours)], []⟩).1 = .ok result ∧ result.rows[1]? = some row ∧
          row.columns.get? "count" = some none ∧
            row.columns.get? "count_incomplete" = some (some (.ofInt 2)) ∧
              ¬ result.MovesOpenOnly atOne := by
  have hfirst : Instant.millisOfText? "2025-01-01T01:00:00Z" = some 1735693200000 := by
    decide +kernel
  have hsecond : Instant.millisOfText? "2025-01-01T11:00:00Z" = some 1735729200000 := by
    decide +kernel
  have hgrid : Timeline.build twoYears.window.start twoYears.window.stop 3600 = [] := by
    decide +kernel
  have hsorted : sortedPoints distantHours = distantHours :=
    Timeline.sortedPoints_of_ascending (by decide +kernel)
  have hrow : (TimeseriesResult.ofPoints twoYears.window 3600 distantHours atOne).rows[1]?
      = some ⟨"2025-01-01T11:00:00Z",
        .ofList [("count", none), ("count_incomplete", some (.ofInt 2))]⟩ := by
    unfold TimeseriesResult.ofPoints
    simp only [Timeline.fill_of_no_grid hgrid, hsorted]
    decide +kernel
  have hnames : Point.seriesNames distantHours = ["count"] := by decide +kernel
  refine ⟨?_, ?_, _, _, ?_, hrow, by decide +kernel, by decide +kernel, ?_⟩
  · intro p hp
    rcases List.mem_pair.mp hp with rfl | rfl
    · exact ⟨_, hfirst, by decide⟩
    · exact ⟨_, hsecond, by decide⟩
  · show [Instant.millisOfText? _, Instant.millisOfText? _].Nodup
    rw [hfirst, hsecond]
    decide
  · rw [timeseries_answered rfl]
    rfl
  · intro hmoves
    obtain ⟨start, hstart, hlt⟩ := hmoves _ (List.mem_of_getElem? hrow) (by
      show Marker.Moved (Point.seriesNames distantHours) _
      rw [hnames]
      refine ⟨List.cons_ne_nil _ _, ?_⟩
      intro name hname
      obtain rfl := List.mem_singleton.mp hname
      decide +kernel)
    have hstart := hstart.eq_of_read hsecond
    have hnow : atOne.millis = 1735736400000 := by decide +kernel
    rw [hnow, ← hstart] at hlt
    exact absurd hlt (by decide)

end Session

end QueryPanel
