import QueryPanel.Proofs.Series.Canonical
import QueryPanel.Proofs.Series.Grid
import QueryPanel.Proofs.Series.Reordering

/-!
# A filled grid is not filled again

Points that have been joined to a grid are its slots in order, one point each. To join them once
more changes nothing, for two reasons. The label of a slot is its own canonical form, in whatever
year it is (`canonicalBucket_label`). So the point that is found for a slot is the one that was made
for it. And to write values over columns that have them already leaves the columns as they are
(`updatedWith_updatedWith`). It does not matter whether a slot comes twice, as both of its points
are alike.

Without a grid the points are only sorted, and sorted points stay as they are.

> `build_filled_twice`: filling the grid of a window twice is filling it once.
-/

namespace QueryPanel

namespace Columns

variable {α : Type}

/-- An entry is found under its name. -/
theorem get?_eq_some_iff (c : Columns α) (name : String) (value : α) :
    c.get? name = some value ↔ (name, value) ∈ c.entries := by
  obtain ⟨es, h⟩ := c
  show es.lookup name = some value ↔ (name, value) ∈ es
  induction es with
  | nil => exact iff_of_false nofun List.not_mem_nil
  | cons e es ih =>
    obtain ⟨hhead, htail⟩ := List.pairwise_cons.mp h
    rw [lookup_cons, List.mem_cons]
    by_cases hname : name = e.1
    · rw [if_pos hname]
      constructor
      · intro heq
        exact .inl (Prod.ext hname (Option.some.inj heq).symm)
      · rintro (rfl | hmem)
        · rfl
        · exact absurd (hname ▸ hhead _ hmem) (String.lt_irrefl _)
    · rw [if_neg hname, ih htail]
      constructor
      · exact .inr
      · intro h
        exact h.resolve_left fun heq => hname (congrArg Prod.fst heq)

/-- Columns in which every name has the same value are equal. -/
theorem ext_get? {c d : Columns α} (h : ∀ name, c.get? name = d.get? name) : c = d := by
  have hirrefl : Std.Irrefl fun a b : String × α => a.1 < b.1 := ⟨fun a => String.lt_irrefl a.1⟩
  have hantisymm : Std.Antisymm fun a b : String × α => a.1 < b.1 :=
    ⟨fun a b hab hba => absurd (String.lt_trans hab hba) (String.lt_irrefl a.1)⟩
  apply Columns.ext
  apply List.Pairwise.eq_of_mem_iff c.ascending d.ascending
  rintro ⟨name, value⟩
  rw [← get?_eq_some_iff, ← get?_eq_some_iff, h]

theorem updatedWith_self (c : Columns α) : c.updatedWith c = c := by
  apply ext_get?
  intro name
  rw [get?_updatedWith, Option.or_self]

/-- Values that have been written over columns are written over them again. -/
theorem updatedWith_updatedWith (c others : Columns α) :
    c.updatedWith (c.updatedWith others) = c.updatedWith others := by
  apply ext_get?
  intro name
  rw [get?_updatedWith, get?_updatedWith, Option.or_assoc, Option.or_self]

end Columns

namespace Timeline

variable {points : List Point} {grid : List String} {zero : Columns Double} {slot : String}

/-- Every slot of a grid is the one label of its bucket. -/
def Canonical (grid : List String) : Prop :=
  ∀ slot ∈ grid, Point.canonicalBucket slot = slot

theorem canonical_build (start stop : String) (seconds : Nat) :
    Canonical (build start stop seconds) := by
  intro slot hslot
  obtain ⟨first, hfirst⟩ := build_labels start stop seconds
  obtain ⟨i, hi⟩ := List.getElem?_of_mem hslot
  exact Point.canonicalBucket_label (hfirst i slot hi)

/-- Among the rows of a canonical grid, the row of a slot is the one that is found for it. -/
theorem find?_row (hgrid : Canonical grid) {row : String → Point}
    (hbucket : ∀ slot, (row slot).bucket = slot) (hslot : slot ∈ grid) :
    ((grid.map row).find? fun p => Point.canonicalBucket p.bucket = slot) = some (row slot) := by
  cases hfound : (grid.map row).find? fun p => Point.canonicalBucket p.bucket = slot with
  | none =>
    have hnone := List.find?_eq_none.mp hfound (row slot) (List.mem_map_of_mem hslot)
    rw [hbucket, hgrid slot hslot, decide_eq_true rfl] at hnone
    exact absurd rfl hnone
  | some p =>
    obtain ⟨other, hother, rfl⟩ := List.mem_map.mp (List.mem_of_find?_eq_some hfound)
    have heq : Point.canonicalBucket (row other).bucket = slot := by
      simpa using List.find?_some hfound
    rw [hbucket, hgrid other hother] at heq
    rw [heq]

/-- Each row has the values of `zero`, or others in their place. -/
theorem updatedWith_slotRow (points : List (String × Point)) (zero : Columns Double)
    (slot : String) : zero.updatedWith (slotRow points zero slot).columns
      = (slotRow points zero slot).columns := by
  unfold slotRow
  cases points.lookup slot with
  | none => exact zero.updatedWith_self
  | some p => exact zero.updatedWith_updatedWith p.columns

/-- The row of a slot, made from the rows of the grid, is the row of the slot. -/
theorem slotRow_filled (hgrid : Canonical grid) (hslot : slot ∈ grid) :
    slotRow (labelled (grid.map (slotRow (labelled points) zero))) zero slot
      = slotRow (labelled points) zero slot := by
  have hfound := find?_row hgrid (slotRow_bucket (labelled points) zero) hslot
  rw [slotRow, lookup_labelled, hfound]
  show (⟨slot, zero.updatedWith (slotRow (labelled points) zero slot).columns⟩ : Point) = _
  rw [updatedWith_slotRow]
  exact congrArg (Row.mk · (slotRow (labelled points) zero slot).columns)
    (slotRow_bucket (labelled points) zero slot).symm

theorem fill_fill (hgrid : Canonical grid) (points : List Point) (zero : Columns Double) :
    fill (fill points grid zero) grid zero = fill points grid zero := by
  by_cases hempty : grid = []
  · rw [fill_of_no_grid hempty, fill_of_no_grid hempty]
    exact sortedPoints_of_ascending (sortedPoints_ascending points)
  · have hlength : 0 < grid.length := List.length_pos_iff.mpr hempty
    rw [fill_of_grid hlength, fill_of_grid hlength]
    exact List.map_congr_left fun slot hslot => slotRow_filled hgrid hslot

/-- A row has every name that `zero` has. -/
theorem mem_names_slotRow (points : List (String × Point)) (slot : String) {name : String}
    (h : name ∈ zero.names) : name ∈ (slotRow points zero slot).columns.names := by
  rw [Columns.mem_names_iff] at *
  rw [← updatedWith_slotRow, Columns.get?_updatedWith, Option.isSome_or, h, Bool.or_true]

/-- Points that fill the grid of a window fill it again as they are. If there is a grid, they stand
in its buckets, and each has every value that a missing point would have. -/
theorem build_filled_twice (points : List Point) (start stop : String) (seconds : Nat)
    (zero : Columns Double) :
    let grid := build start stop seconds
    fill (fill points grid zero) grid zero = fill points grid zero ∧
      (grid ≠ [] → (fill points grid zero).map (·.bucket) = grid ∧
        ∀ row ∈ fill points grid zero, ∀ name ∈ zero.names, name ∈ row.columns.names) := by
  intro grid
  refine ⟨fill_fill (canonical_build start stop seconds) points zero, ?_⟩
  intro hsome
  rw [fill_of_grid (List.length_pos_iff.mpr hsome)]
  constructor
  · rw [List.map_map]
    exact List.map_id'' (slotRow_bucket _ _) grid
  · intro row hrow name hname
    obtain ⟨slot, -, rfl⟩ := List.mem_map.mp hrow
    exact mem_names_slotRow _ slot hname

/-- Two points in one hour and one in none, on a grid of three hours. -/
theorem build_filled_twice_morning :
    let grid := build "2025-01-01 10:07:00" "2025-01-01 12:30:00" 3600
    let points : List Point := [⟨"soon", .ofList [("count", .ofInt 9)]⟩,
      ⟨"2025-01-01T12:00:00+01:00", .ofList [("errors", .ofInt 1)]⟩,
      ⟨"2025-01-01 11:00:00", .ofList [("count", .ofInt 3)]⟩]
    let zero := Columns.constant ["count"] Double.zero
    grid ≠ [] ∧ "count" ∈ zero.names ∧
      fill (fill points grid zero) grid zero = fill points grid zero ∧
      (fill points grid zero).map (·.bucket) = grid ∧
      ∀ row ∈ fill points grid zero, "count" ∈ row.columns.names := by
  intro grid points zero
  have hgrid : grid ≠ [] := by decide +kernel
  have hname : "count" ∈ zero.names := by decide +kernel
  obtain ⟨htwice, hsome⟩ :=
    build_filled_twice points "2025-01-01 10:07:00" "2025-01-01 12:30:00" 3600 zero
  obtain ⟨hbuckets, hnames⟩ := hsome hgrid
  exact ⟨hgrid, hname, htwice, hbuckets, fun row hrow => hnames row hrow "count" hname⟩

end Timeline

end QueryPanel
