import QueryPanel.Proofs.Series.OpenBuckets

/-!
# Where marking cuts

Marking cuts the points in two. The cut is the first point whose bucket is still open by the width
that the first two points tell, and it is a matter of position from there on: the points before it
keep their values, and those behind it have them moved, whatever their own buckets say. Nothing is
asked of the points. They may be in any order, their buckets may be no instants, and a point need
not have a value of every series.

What a row holds then follows from how far it is from the cut (`IsMarked`). The columns of the
series are told apart by their names alone, so the two assumptions are about names: no series has
the name of another one's column for open buckets, and no point has a value there.

> `mark_from_cut_on`: the rows are the points as they are, or marked from the cut on, and the cut
> does not move back as time goes on.

Times are compared in whole milliseconds, as marking compares them. In a leap second there are more
than a thousand of these, so that it reaches into the second behind it.
-/

namespace QueryPanel.Marker

open Timeline (IsOpen)

variable {points : List Point} {names : List String} {name : String} {p : Point} {row : ChartRow}
  {now : Int} {cut i : Nat}

/-! ## The cut -/

/-- The first point with an open bucket, by the width that the first two points tell. -/
def IsCut (points : List Point) (now : Int) (cut : Nat) : Prop :=
  ∃ width, Point.inferWidth? points = some width ∧
    (∃ p, points[cut]? = some p ∧ IsOpen width now p.bucket) ∧
    ∀ (i : Nat) (p : Point), i < cut → points[i]? = some p → ¬ IsOpen width now p.bucket

theorem firstOpen?_eq_some_iff : firstOpen? points now = some cut ↔ IsCut points now cut := by
  unfold firstOpen? IsCut
  rw [Option.bind_eq_some_iff]
  refine exists_congr fun width => and_congr_right fun _ => ?_
  rw [List.findIdx?_eq_some_iff_getElem]
  constructor
  · rintro ⟨hinside, hopen, hbefore⟩
    refine ⟨⟨points[cut], List.getElem?_eq_getElem hinside,
      (Timeline.isOpen_iff_marker _).mp hopen⟩, ?_⟩
    intro i p hi hp
    obtain ⟨_, rfl⟩ := List.getElem?_eq_some_iff.mp hp
    rw [← Timeline.isOpen_iff_marker]
    exact hbefore i hi
  · rintro ⟨⟨p, hp, hopen⟩, hbefore⟩
    obtain ⟨hinside, rfl⟩ := List.getElem?_eq_some_iff.mp hp
    refine ⟨hinside, (Timeline.isOpen_iff_marker _).mpr hopen, ?_⟩
    intro i hi
    rw [Timeline.isOpen_iff_marker]
    exact hbefore i _ hi (List.getElem?_eq_getElem (by omega))

theorem IsCut.unique {cut' : Nat} (h : IsCut points now cut) (h' : IsCut points now cut') :
    cut = cut' := by
  rw [← firstOpen?_eq_some_iff] at h h'
  exact Option.some.inj (h.symm.trans h')

/-- What is open is open earlier as well, so the cut was there then or before it. -/
theorem IsCut.earlier {earlier : Int} (h : IsCut points now cut) (hle : earlier ≤ now) :
    ∃ cut' ≤ cut, IsCut points earlier cut' := by
  obtain ⟨width, hwidth, ⟨p, hp, start, hstart, hlt⟩, -⟩ := h
  obtain ⟨cut', hcut', hfirst⟩ :=
    exists_firstOpen?_le hwidth hp hstart (show earlier < start + width by omega)
  exact ⟨cut', hcut', firstOpen?_eq_some_iff.mp hfirst⟩

/-! ## Rows -/

/-- The row of a point in place `i`, where marking cuts in front of place `cut`. -/
structure IsMarked (names : List String) (cut i : Nat) (p : Point) (row : ChartRow) : Prop where
  kept : i < cut → ∀ name ∈ names, row.columns.get? name = (p.columns.get? name).map some
  moved : cut ≤ i → ∀ name ∈ names, row.columns.get? name = some none ∧
    row.columns.get? (incompleteName name) = some (p.columns.get? name)
  bridge : i + 1 = cut → ∀ name ∈ names,
    row.columns.get? (incompleteName name) = some (p.columns.get? name)
  earlier : i + 1 < cut → ∀ name ∈ names, row.columns.get? (incompleteName name) = some none
  others : ∀ other, (∀ name ∈ names, other ≠ name ∧ other ≠ incompleteName name) →
    row.columns.get? other = (p.columns.get? other).map some

/-- The value of a series in a row: what stands in its column, or else in the other one. -/
def reading (row : ChartRow) (name : String) : Option Double :=
  (row.columns.get? name).join.or (row.columns.get? (incompleteName name)).join

theorem markRow_isMarked (hdistinct : Distinct names) (cut i : Nat) (p : Point) :
    IsMarked names cut i p (markRow names (.of cut i) p) := by
  have hown : ∀ name ∈ names, (markRow names (.of cut i) p).columns.get? name
      = if Place.of cut i = .openBucket then some none else (p.columns.get? name).map some := by
    intro name hname
    rw [← toChartRow_get?]
    exact foldl_markSeries_get?_name (hdistinct name hname) hname _
  have hother : ∀ name ∈ names, (markRow names (.of cut i) p).columns.get? (incompleteName name)
      = some (if Place.of cut i = .closed then none else p.columns.get? name) := by
    intro name hname
    exact foldl_markSeries_get?_incompleteName
      (fun _ a ha heq => hdistinct a ha name hname heq.symm) hname _
  constructor
  case kept =>
    intro hi name hname
    rw [hown name hname, if_neg]
    rw [Place.of_eq_openBucket_iff]
    omega
  case moved =>
    intro hi name hname
    have hplace : Place.of cut i = .openBucket := Place.of_eq_openBucket_iff.mpr hi
    rw [hown name hname, hother name hname, hplace]
    exact ⟨rfl, rfl⟩
  case bridge =>
    intro hi name hname
    rw [hother name hname, if_neg]
    rw [Place.of_eq_closed_iff]
    omega
  case earlier =>
    intro hi name hname
    rw [hother name hname, if_pos (Place.of_eq_closed_iff.mpr hi)]
  case others =>
    intro other hfresh
    rw [← toChartRow_get?]
    refine foldl_markSeries_get?_of_ne ?_ _
    intro name hname
    obtain ⟨hname', hincomplete⟩ := hfresh name hname
    exact ⟨fun _ => hname', hincomplete⟩

/-- Only the last row before the cut can have values in both columns of a series. -/
theorem IsMarked.eq_of_both (h : IsMarked names cut i p row) (hname : name ∈ names)
    {v w : Double} (hown : row.columns.get? name = some (some v))
    (hother : row.columns.get? (incompleteName name) = some (some w)) : i + 1 = cut := by
  rcases Nat.lt_or_ge i cut with hlt | hge
  · by_contra hne
    rw [h.earlier (by omega) name hname] at hother
    exact nomatch hother
  · rw [(h.moved hge name hname).1] at hown
    exact nomatch hown

/-- No value of a series is lost. -/
theorem IsMarked.reading_eq (h : IsMarked names cut i p row) (hname : name ∈ names) :
    reading row name = p.columns.get? name := by
  unfold reading
  rcases Nat.lt_or_ge i cut with hlt | hge
  · rw [h.kept hlt name hname]
    rcases Nat.lt_or_ge (i + 1) cut with hearlier | hbridge
    · rw [h.earlier hearlier name hname]
      cases p.columns.get? name <;> rfl
    · rw [h.bridge (by omega) name hname]
      cases p.columns.get? name <;> rfl
  · obtain ⟨hown, hother⟩ := h.moved hge name hname
    rw [hown, hother]
    rfl

/-- A row that is not marked shows the values of its point, if the point has none in the other
columns. -/
theorem reading_toChartRow (h : p.columns.get? (incompleteName name) = none) :
    reading p.toChartRow name = p.columns.get? name := by
  unfold reading
  rw [toChartRow_get?, toChartRow_get?, h]
  cases p.columns.get? name <;> rfl

/-! ## All rows -/

/-- What the rows of points are at a time: the points as they are, if there is no cut, and otherwise
marked from the cut on. -/
structure IsMarking (points : List Point) (names : List String) (now : Int) (marked : Marked) :
    Prop where
  buckets : marked.rows.map (·.bucket) = points.map (·.bucket)
  asTheyAre : marked.hasIncomplete = false →
    marked.rows = points.map Point.toChartRow ∧ ∀ cut, ¬ IsCut points now cut
  fromCut : marked.hasIncomplete = true → ∃ cut, IsCut points now cut ∧
    ∀ (i : Nat) (p : Point) (row : ChartRow), points[i]? = some p → marked.rows[i]? = some row →
      IsMarked names cut i p row
  both : ∀ (i : Nat) (row : ChartRow), marked.rows[i]? = some row → ∀ name ∈ names, ∀ v w,
    row.columns.get? name = some (some v) →
      row.columns.get? (incompleteName name) = some (some w) → IsCut points now (i + 1)
  readings : ∀ (i : Nat) (p : Point) (row : ChartRow), points[i]? = some p →
    marked.rows[i]? = some row → ∀ name ∈ names, reading row name = p.columns.get? name

/-- No point has a value where those of open buckets are moved to. -/
def Unused (points : List Point) (names : List String) : Prop :=
  ∀ p ∈ points, ∀ name ∈ names, p.columns.get? (incompleteName name) = none

theorem mark_of_no_cut {now : Instant} (h : firstOpen? points now.millis = none) :
    mark points names now = ⟨points.map Point.toChartRow, false⟩ := by
  unfold mark
  rw [h]

theorem mark_of_cut {now : Instant} (h : firstOpen? points now.millis = some cut) :
    mark points names now = ⟨points.mapIdx fun i p => markRow names (.of cut i) p, true⟩ := by
  unfold mark
  rw [h]

theorem isMarking_of_no_cut (hunused : Unused points names) (h : firstOpen? points now = none) :
    IsMarking points names now ⟨points.map Point.toChartRow, false⟩ := by
  have hrow : ∀ (i : Nat) (row : ChartRow), (points.map Point.toChartRow)[i]? = some row →
      ∃ p, points[i]? = some p ∧ row = p.toChartRow := by
    intro i row hrow
    rw [List.getElem?_map] at hrow
    obtain ⟨p, hp, rfl⟩ := Option.map_eq_some_iff.mp hrow
    exact ⟨p, hp, rfl⟩
  constructor
  case buckets =>
    rw [List.map_map]
    rfl
  case asTheyAre =>
    intro _
    refine ⟨rfl, ?_⟩
    intro cut hcut
    rw [← firstOpen?_eq_some_iff, h] at hcut
    exact nomatch hcut
  case fromCut => exact nofun
  case both =>
    intro i row hi name hname v w _ hother
    obtain ⟨p, hp, rfl⟩ := hrow i row hi
    rw [toChartRow_get?, hunused p (List.mem_of_getElem? hp) name hname] at hother
    exact nomatch hother
  case readings =>
    intro i p row hp hi name hname
    obtain ⟨q, hq, rfl⟩ := hrow i row hi
    obtain rfl : p = q := Option.some.inj (hp.symm.trans hq)
    exact reading_toChartRow (hunused p (List.mem_of_getElem? hp) name hname)

theorem isMarking_of_cut (hdistinct : Distinct names) (h : firstOpen? points now = some cut) :
    IsMarking points names now ⟨points.mapIdx fun i p => markRow names (.of cut i) p, true⟩ := by
  have hcut := firstOpen?_eq_some_iff.mp h
  have hrow : ∀ (i : Nat) (row : ChartRow),
      (points.mapIdx fun i p => markRow names (.of cut i) p)[i]? = some row →
        ∃ p, points[i]? = some p ∧ IsMarked names cut i p row := by
    intro i row hrow
    rw [List.getElem?_mapIdx] at hrow
    obtain ⟨p, hp, rfl⟩ := Option.map_eq_some_iff.mp hrow
    exact ⟨p, hp, markRow_isMarked hdistinct cut i p⟩
  have hmarked : ∀ (i : Nat) (p : Point) (row : ChartRow), points[i]? = some p →
      (points.mapIdx fun i p => markRow names (.of cut i) p)[i]? = some row →
        IsMarked names cut i p row := by
    intro i p row hp hi
    obtain ⟨q, hq, hq'⟩ := hrow i row hi
    rwa [Option.some.inj (hp.symm.trans hq)]
  constructor
  case buckets =>
    apply List.ext_getElem?
    intro i
    rw [List.getElem?_map, List.getElem?_map, List.getElem?_mapIdx, Option.map_map]
    rfl
  case asTheyAre => exact nofun
  case fromCut => exact fun _ => ⟨cut, hcut, hmarked⟩
  case both =>
    intro i row hi name hname v w hown hother
    obtain ⟨p, -, hp⟩ := hrow i row hi
    rw [hp.eq_of_both hname hown hother]
    exact hcut
  case readings =>
    intro i p row hp hi name hname
    exact (hmarked i p row hp hi).reading_eq hname

/-- For points of any kind, marking moves the values of the named series from the cut on, and at a
later time it cuts no further in front. -/
theorem mark_from_cut_on (hdistinct : Distinct names) (hunused : Unused points names)
    (now : Instant) :
    IsMarking points names now.millis (mark points names now) ∧
      ∀ earlier : Instant, earlier.millis ≤ now.millis →
        (mark points names now).hasIncomplete = true →
          (mark points names earlier).hasIncomplete = true ∧
            ∀ cut cut', IsCut points earlier.millis cut → IsCut points now.millis cut' →
              cut ≤ cut' := by
  cases hfirst : firstOpen? points now.millis with
  | none =>
    rw [mark_of_no_cut hfirst]
    exact ⟨isMarking_of_no_cut hunused hfirst, fun _ _ => nofun⟩
  | some cut =>
    rw [mark_of_cut hfirst]
    refine ⟨isMarking_of_cut hdistinct hfirst, ?_⟩
    intro earlier hle _
    have hcut := firstOpen?_eq_some_iff.mp hfirst
    obtain ⟨before, hbefore, hcut'⟩ := hcut.earlier hle
    rw [mark_of_cut (firstOpen?_eq_some_iff.mpr hcut')]
    refine ⟨rfl, ?_⟩
    intro c c' hc hc'
    rw [hc.unique hcut', hc'.unique hcut]
    exact hbefore

/-- Points of a noon with gaps, one of them in no bucket. -/
def gappedPoints : List Point :=
  [⟨"2025-01-01T10:00:00Z", .ofList [("count", .ofInt 1), ("load", .ofInt 7)]⟩,
    ⟨"2025-01-01T11:00:00Z", .ofList [("errors", .ofInt 2)]⟩,
    ⟨"soon", .ofList [("count", .ofInt 3)]⟩,
    ⟨"2025-01-01T12:00:00Z", .ofList [("count", .ofInt 4), ("errors", .ofInt 5)]⟩]

/-- At half past eleven all but the first hour are open, and an hour later only the last one is. -/
theorem gappedPoints_from_cut_on :
    Distinct ["count", "errors"] ∧ Unused gappedPoints ["count", "errors"] ∧
      IsMarking gappedPoints ["count", "errors"] 1735734600000
        (mark gappedPoints ["count", "errors"] ⟨1735734600, false, 0⟩) ∧
      (mark gappedPoints ["count", "errors"] ⟨1735731000, false, 0⟩).hasIncomplete = true ∧
      IsCut gappedPoints 1735731000000 1 ∧ IsCut gappedPoints 1735734600000 3 ∧
      ∀ cut cut', IsCut gappedPoints 1735731000000 cut → IsCut gappedPoints 1735734600000 cut' →
        cut ≤ cut' := by
  have hdistinct : Distinct ["count", "errors"] := by
    unfold Distinct
    decide
  have hunused : Unused gappedPoints ["count", "errors"] := by
    unfold Unused
    decide +kernel
  have hnow : (⟨1735734600, false, 0⟩ : Instant).millis = 1735734600000 := by decide
  have hearlier : (⟨1735731000, false, 0⟩ : Instant).millis = 1735731000000 := by decide
  obtain ⟨hmarking, hback⟩ := mark_from_cut_on hdistinct hunused ⟨1735734600, false, 0⟩
  rw [hnow] at hmarking hback
  obtain ⟨hopen, hcuts⟩ := hback ⟨1735731000, false, 0⟩ (by decide) (by decide +kernel)
  rw [hearlier] at hcuts
  have hcut : IsCut gappedPoints 1735731000000 1 := firstOpen?_eq_some_iff.mp (by decide +kernel)
  have hcut' : IsCut gappedPoints 1735734600000 3 := firstOpen?_eq_some_iff.mp (by decide +kernel)
  exact ⟨hdistinct, hunused, hmarking, hopen, hcut, hcut', hcuts⟩

end QueryPanel.Marker
