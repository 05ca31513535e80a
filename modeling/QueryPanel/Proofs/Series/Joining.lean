import Mathlib
import QueryPanel.Series.Timeline
import QueryPanel.Store.Session

/-!
# Points joined to a grid

What a slot of a grid shows, series by series (`Point.valueIn`): the value of the first point whose
bucket is that slot, however the point writes it, and zero where there is none or it lacks the
series. Everything goes through look-ups by name, so columns come first: each way to make columns
has one lemma that says what is under a name afterwards.

> `slotRow_get?`: the row of a slot has `valueIn` under the name of every series.
-/

namespace QueryPanel

namespace Columns

variable {α β : Type}

/-! ## Look-ups -/

/-- A name has a value exactly if it is one of the names. -/
theorem mem_names_iff (c : Columns α) (name : String) : name ∈ c.names ↔ (c.get? name).isSome := by
  rw [← Option.not_isNone, Bool.not_eq_true', ← Bool.not_eq_true, Option.isNone_iff_eq_none]
  unfold names get?
  rw [List.lookup_eq_none_iff]
  constructor
  · intro hmem hnone
    obtain ⟨e, he, heq⟩ := List.mem_map.mp hmem
    exact absurd heq.symm (by simpa using hnone e he)
  · intro hsome
    by_cases hmem : name ∈ c.entries.map (·.1)
    · exact hmem
    · refine absurd ?_ hsome
      intro e he
      have hne : name ≠ e.1 := fun heq => hmem (heq ▸ List.mem_map_of_mem he)
      simpa using hne

theorem names_ascending (c : Columns α) : c.names.Pairwise (· < ·) :=
  List.pairwise_map.mpr c.ascending

/-- A changed column is looked up by changing what is looked up. -/
theorem get?_map (f : α → β) (c : Columns α) (name : String) :
    (c.map f).get? name = (c.get? name).map f := by
  obtain ⟨es, h⟩ := c
  show (es.map fun e => (e.1, f e.2)).lookup name = (es.lookup name).map f
  clear h
  induction es with
  | nil => rfl
  | cons e es ih =>
    rw [List.map_cons, lookup_cons, lookup_cons, ih]
    by_cases hname : name = e.1
    · rw [if_pos hname, if_pos hname]
      rfl
    · rw [if_neg hname, if_neg hname]

/-- What entries put into columns is found there, and what was there before is found under other
names. The names differ, so it does not matter which entry comes last. -/
theorem get?_foldl_insert {es : List (String × α)} (h : es.Pairwise fun a b => a.1 < b.1)
    (c : Columns α) (name : String) :
    (es.foldl (fun c e => c.insert e.1 e.2) c).get? name = (es.lookup name).or (c.get? name) := by
  induction es generalizing c with
  | nil => rfl
  | cons e es ih =>
    obtain ⟨hhead, htail⟩ := List.pairwise_cons.mp h
    rw [List.foldl_cons, ih htail, get?_insert, lookup_cons]
    by_cases hname : name = e.1
    · have hlater : es.lookup name = none := by
        rw [List.lookup_eq_none_iff]
        intro e' he'
        have hne : name ≠ e'.1 := fun heq => String.lt_irrefl _ (heq ▸ hname ▸ hhead e' he')
        simpa using hne
      rw [if_pos hname, if_pos hname, hlater]
      rfl
    · rw [if_neg hname, if_neg hname]

theorem get?_updatedWith (c others : Columns α) (name : String) :
    (c.updatedWith others).get? name = (others.get? name).or (c.get? name) :=
  get?_foldl_insert others.ascending c name

theorem get?_constant (names : List String) (value : α) (name : String) :
    (constant names value).get? name = if name ∈ names then some value else none := by
  have hfold : ∀ c : Columns α,
      ((names.map (·, value)).foldl (fun c e => c.insert e.1 e.2) c).get? name
        = if name ∈ names then some value else c.get? name := by
    induction names with
    | nil => exact fun c => rfl
    | cons n names ih =>
      intro c
      rw [List.map_cons, List.foldl_cons, ih, get?_insert]
      by_cases hmem : name ∈ names
      · rw [if_pos hmem, if_pos (List.mem_cons_of_mem n hmem)]
      · rw [if_neg hmem]
        by_cases hname : name = n
        · rw [if_pos hname, if_pos (by rw [hname]; exact List.mem_cons_self)]
        · rw [if_neg hname, if_neg (by simp [hname, hmem])]
  exact hfold empty

end Columns

namespace Point

/-- Some point has a value of the series. -/
def IsSeries (points : List Point) (name : String) : Prop :=
  ∃ p ∈ points, (p.columns.get? name).isSome

/-- The value of a series in a slot of a grid. -/
def valueIn (points : List Point) (slot name : String) : Double :=
  match points.find? fun p => canonicalBucket p.bucket = slot with
  | some p => (p.columns.get? name).getD .zero
  | none => .zero

theorem mem_seriesNames_iff (points : List Point) (name : String) :
    name ∈ seriesNames points ↔ IsSeries points name := by
  unfold seriesNames IsSeries
  rw [Columns.mem_names_iff, Columns.get?_constant]
  simp only [← Columns.mem_names_iff]
  by_cases hmem : name ∈ points.flatMap fun p => p.columns.names
  · rw [if_pos hmem]
    exact iff_of_true rfl (List.mem_flatMap.mp hmem)
  · rw [if_neg hmem]
    exact iff_of_false Bool.false_ne_true fun h => hmem (List.mem_flatMap.mpr h)

theorem seriesNames_ascending (points : List Point) : (seriesNames points).Pairwise (· < ·) :=
  Columns.names_ascending _

end Point

namespace Timeline

/-! ## Joining -/

/-- The point of a slot is the first one whose bucket it is. -/
theorem lookup_labelled (points : List Point) (slot : String) :
    (labelled points).lookup slot
      = points.find? fun p => Point.canonicalBucket p.bucket = slot := by
  unfold labelled
  induction points with
  | nil => rfl
  | cons p points ih =>
    rw [List.map_cons, Columns.lookup_cons, List.find?_cons, ih]
    by_cases hslot : slot = Point.canonicalBucket p.bucket
    · rw [if_pos hslot, decide_eq_true hslot.symm]
    · rw [if_neg hslot, decide_eq_false (Ne.symm hslot)]

theorem slotRow_bucket (points : List (String × Point)) (zero : Columns Double) (slot : String) :
    (slotRow points zero slot).bucket = slot := by
  unfold slotRow
  split <;> rfl

/-- The row of a slot shows the value of every series. -/
theorem slotRow_get? {points : List Point} {name : String} (hname : Point.IsSeries points name)
    (slot : String) :
    (slotRow (labelled points) (.constant (Point.seriesNames points) .zero) slot).columns.get? name
      = some (Point.valueIn points slot name) := by
  have hzero : (Columns.constant (Point.seriesNames points) Double.zero).get? name
      = some .zero := by
    rw [Columns.get?_constant, if_pos ((Point.mem_seriesNames_iff points name).mpr hname)]
  unfold slotRow Point.valueIn
  rw [lookup_labelled]
  cases points.find? fun p => Point.canonicalBucket p.bucket = slot with
  | none => exact hzero
  | some p =>
    show (Columns.updatedWith _ p.columns).get? name = some ((p.columns.get? name).getD .zero)
    rw [Columns.get?_updatedWith, hzero]
    cases p.columns.get? name with
    | none => rfl
    | some v => rfl

/-- On a grid there is one row for each slot. -/
theorem fill_of_grid {grid : List String} (h : 0 < grid.length) (points : List Point)
    (zero : Columns Double) :
    fill points grid zero = grid.map (slotRow (labelled points) zero) := by
  unfold fill
  rw [if_neg]
  intro hempty
  rw [List.isEmpty_iff.mp hempty] at h
  exact absurd h (Nat.lt_irrefl 0)

/-- Without a grid the rows are the points themselves. -/
theorem fill_of_no_grid {grid : List String} (h : grid = []) (points : List Point)
    (zero : Columns Double) : fill points grid zero = sortedPoints points := by
  rw [h]
  rfl

end Timeline

namespace Session

/-! ## Answers -/

/-- A timeseries that is answered with points is worth the points on its grid. -/
theorem timeseries_answered {request : StoreRequest} {seconds : Nat}
    (hseconds : request.query.bucketSeconds? = some seconds) (points : List Point)
    (replies : List StoreReply) (received : List StoreRequest) (now : Instant) :
    (timeseries request now).runWith ⟨.data (.timeseries points) :: replies, received⟩
      = (.ok (.ofPoints request.window seconds points now), ⟨replies, received ++ [request]⟩) := by
  unfold timeseries
  rw [hseconds]
  rfl

/-- Log records counted by the hour. -/
def hourlyLogs : TimeseriesSpec :=
  .logs ⟨.count, none, .ofBag {}, 3600⟩

end Session

end QueryPanel
