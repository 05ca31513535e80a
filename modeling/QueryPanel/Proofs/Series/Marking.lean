import QueryPanel.Proofs.Series.Joining

/-!
# What marking does to a row

Marking a row writes two columns for each series, and as no series has the name of another one's
second column, the columns of one series are not touched again for the others. So the two are what
the place of the row says (`Draws`), whatever the order of the series.

Where the points start one width after the other (`Steady`), the width that is told from the first
two is theirs, and the open buckets are those from some point on (`Cut`). The place of a row then
says exactly whether its bucket is open, and whether it is the last one that is not.
-/

namespace QueryPanel.Marker

/-! ## Names -/

theorem incompleteName_ne (name : String) : incompleteName name ≠ name := by
  intro h
  have hlength := congrArg String.length h
  unfold incompleteName at hlength
  rw [String.length_append] at hlength
  have hsuffix : "_incomplete".length = 11 := by decide
  omega

theorem incompleteName_injective {a b : String} (h : incompleteName a = incompleteName b) :
    a = b :=
  (String.append_left_inj _).mp h

/-- No series has the name of another one's column for open buckets. -/
def Distinct (names : List String) : Prop :=
  ∀ a ∈ names, ∀ b ∈ names, a ≠ incompleteName b

/-! ## The columns of a series -/

variable {names : List String} {name : String} {place : Place} {p : Point}

/-- Marking one series leaves every column but its own two, and writes the first of them in open
buckets only. -/
theorem markSeries_get?_of_ne {other : String} (columns : Columns (Option Double))
    (hname : place = .openBucket → other ≠ name) (hincomplete : other ≠ incompleteName name) :
    (markSeries place p columns name).get? other = columns.get? other := by
  cases place with
  | openBucket =>
    show ((columns.insert name none).insert (incompleteName name) _).get? other = _
    rw [Columns.get?_insert, if_neg hincomplete, Columns.get?_insert, if_neg (hname rfl)]
  | bridge =>
    show (columns.insert (incompleteName name) _).get? other = _
    rw [Columns.get?_insert, if_neg hincomplete]
  | closed =>
    show (columns.insert (incompleteName name) _).get? other = _
    rw [Columns.get?_insert, if_neg hincomplete]

theorem markSeries_get?_name (columns : Columns (Option Double)) :
    (markSeries place p columns name).get? name
      = if place = .openBucket then some none else columns.get? name := by
  have hne := (incompleteName_ne name).symm
  cases place with
  | openBucket =>
    show ((columns.insert name none).insert (incompleteName name) _).get? name = some none
    rw [Columns.get?_insert, if_neg hne, Columns.get?_insert, if_pos rfl]
  | bridge =>
    show (columns.insert (incompleteName name) _).get? name = columns.get? name
    rw [Columns.get?_insert, if_neg hne]
  | closed =>
    show (columns.insert (incompleteName name) _).get? name = columns.get? name
    rw [Columns.get?_insert, if_neg hne]

theorem markSeries_get?_incompleteName (columns : Columns (Option Double)) :
    (markSeries place p columns name).get? (incompleteName name)
      = some (if place = .closed then none else p.columns.get? name) := by
  cases place with
  | openBucket =>
    show ((columns.insert name none).insert (incompleteName name) _).get? _ = _
    rw [Columns.get?_insert, if_pos rfl, if_neg Place.noConfusion]
  | bridge =>
    show (columns.insert (incompleteName name) _).get? _ = _
    rw [Columns.get?_insert, if_pos rfl, if_neg Place.noConfusion]
  | closed =>
    show (columns.insert (incompleteName name) _).get? _ = _
    rw [Columns.get?_insert, if_pos rfl, if_pos rfl]

/-! ## All series of a row -/

/-- A column that is written for none of the series stays as it is. -/
theorem foldl_markSeries_get?_of_ne {other : String}
    (h : ∀ a ∈ names, (place = .openBucket → other ≠ a) ∧ other ≠ incompleteName a)
    (columns : Columns (Option Double)) :
    (names.foldl (markSeries place p) columns).get? other = columns.get? other := by
  induction names generalizing columns with
  | nil => rfl
  | cons a names ih =>
    obtain ⟨hname, hincomplete⟩ := h a List.mem_cons_self
    rw [List.foldl_cons, ih (fun b hb => h b (List.mem_cons_of_mem a hb)),
      markSeries_get?_of_ne columns hname hincomplete]

/-- The column of a series after all of them have been marked. -/
theorem foldl_markSeries_get?_name (hdistinct : ∀ a ∈ names, name ≠ incompleteName a)
    (hname : name ∈ names) (columns : Columns (Option Double)) :
    (names.foldl (markSeries place p) columns).get? name
      = if place = .openBucket then some none else columns.get? name := by
  induction names generalizing columns with
  | nil => exact absurd hname List.not_mem_nil
  | cons a names ih =>
    have hrest : ∀ b ∈ names, name ≠ incompleteName b :=
      fun b hb => hdistinct b (List.mem_cons_of_mem a hb)
    rw [List.foldl_cons]
    -- A name that comes again is marked again in the same way.
    by_cases hlater : name ∈ names
    · rw [ih hrest hlater]
      by_cases ha : name = a
      · rw [← ha, markSeries_get?_name]
        split <;> rfl
      · rw [markSeries_get?_of_ne columns (fun _ => ha) (hdistinct a List.mem_cons_self)]
    · obtain rfl : name = a := (List.mem_cons.mp hname).resolve_right hlater
      rw [foldl_markSeries_get?_of_ne _ _, markSeries_get?_name]
      intro b hb
      exact ⟨fun _ heq => hlater (heq ▸ hb), hrest b hb⟩

/-- The other column of a series after all of them have been marked. In open buckets it may be the
column of another series. -/
theorem foldl_markSeries_get?_incompleteName
    (hdistinct : place = .openBucket → ∀ a ∈ names, incompleteName name ≠ a)
    (hname : name ∈ names) (columns : Columns (Option Double)) :
    (names.foldl (markSeries place p) columns).get? (incompleteName name)
      = some (if place = .closed then none else p.columns.get? name) := by
  induction names generalizing columns with
  | nil => exact absurd hname List.not_mem_nil
  | cons a names ih =>
    have hrest : place = .openBucket → ∀ b ∈ names, incompleteName name ≠ b :=
      fun hplace b hb => hdistinct hplace b (List.mem_cons_of_mem a hb)
    rw [List.foldl_cons]
    by_cases hlater : name ∈ names
    · exact ih hrest hlater _
    · obtain rfl : name = a := (List.mem_cons.mp hname).resolve_right hlater
      rw [foldl_markSeries_get?_of_ne _ _, markSeries_get?_incompleteName]
      intro b hb
      exact ⟨fun hplace => hrest hplace b hb,
        fun heq => hlater (incompleteName_injective heq ▸ hb)⟩

theorem toChartRow_get? (p : Point) (name : String) :
    p.toChartRow.columns.get? name = (p.columns.get? name).map some :=
  Columns.get?_map some p.columns name

/-- What the two columns of a series with a value are in a row at a place. -/
def Draws (place : Place) (row : ChartRow) (name : String) (value : Double) : Prop :=
  row.columns.get? name = some (if place = .openBucket then none else some value) ∧
    row.columns.get? (incompleteName name) = some (if place = .closed then none else some value)

/-- A marked row draws every series as its place says. -/
theorem markRow_draws (hdistinct : Distinct names) (hname : name ∈ names) {value : Double}
    (hvalue : p.columns.get? name = some value) (place : Place) :
    Draws place (markRow names place p) name value := by
  have hbefore : p.toChartRow.columns.get? name = some (some value) := by
    rw [toChartRow_get?, hvalue]
    rfl
  refine ⟨?_, ?_⟩
  · show (names.foldl (markSeries place p) p.toChartRow.columns).get? name = _
    rw [foldl_markSeries_get?_name (hdistinct name hname) hname, hbefore]
    split <;> rfl
  · show (names.foldl (markSeries place p) p.toChartRow.columns).get? (incompleteName name) = _
    rw [foldl_markSeries_get?_incompleteName (fun _ a ha => (hdistinct a ha name hname).symm) hname,
      hvalue]

/-! ## Open buckets -/

/-- Points that start one width after the other. -/
def Steady (points : List Point) (first width : Int) : Prop :=
  ∀ (i : Nat) (p : Point), points[i]? = some p → p.start? = some (first + i * width)

variable {points : List Point} {first width : Int}

/-- The width of steady points is told from the first two. -/
theorem inferWidth?_of_steady (h : Steady points first width) (hlength : 2 ≤ points.length)
    (hwidth : 0 < width) : Point.inferWidth? points = some width := by
  rcases points with _ | ⟨p, _ | ⟨q, rest⟩⟩
  · exact absurd hlength (by decide)
  · exact absurd hlength (by simp)
  · simp only [Point.inferWidth?, h 0 p rfl, h 1 q rfl]
    rw [if_pos (by omega)]
    exact congrArg some (by omega)

theorem isOpen_iff {start : Int} (h : p.start? = some start) (now : Int) :
    isOpen width now p = true ↔ now < start + width := by
  unfold isOpen
  rw [h, Option.any_some, decide_eq_true_iff]

/-- The buckets from some point on are open, and no others. -/
structure Cut (points : List Point) (width now : Int) (cut : Nat) : Prop where
  inside : cut < points.length
  open_iff : ∀ (i : Nat) (p : Point), points[i]? = some p → (isOpen width now p = true ↔ cut ≤ i)

/-- Of steady points either none is open, or all from the first open one on are. -/
theorem firstOpen?_of_steady (h : Steady points first width) (hlength : 2 ≤ points.length)
    (hwidth : 0 < width) (now : Int) :
    (firstOpen? points now = none ∧ ∀ p ∈ points, isOpen width now p = false) ∨
      ∃ cut, firstOpen? points now = some cut ∧ Cut points width now cut := by
  unfold firstOpen?
  rw [inferWidth?_of_steady h hlength hwidth, Option.bind_some]
  cases hcut : points.findIdx? (isOpen width now) with
  | none => exact .inl ⟨rfl, List.findIdx?_eq_none_iff.mp hcut⟩
  | some cut =>
    obtain ⟨hinside, hopen, hbefore⟩ := List.findIdx?_eq_some_iff_getElem.mp hcut
    refine .inr ⟨cut, rfl, hinside, ?_⟩
    intro i p hp
    constructor
    · intro hi
      rcases Nat.lt_or_ge i cut with hlt | hge
      · have hlast := hbefore i hlt
        obtain ⟨hi', heq⟩ := List.getElem?_eq_some_iff.mp hp
        rw [heq] at hlast
        exact absurd hi hlast
      · exact hge
    · intro hle
      -- Later buckets end later.
      have hcutStart := h cut points[cut] (List.getElem?_eq_getElem hinside)
      rw [isOpen_iff hcutStart] at hopen
      rw [isOpen_iff (h i p hp)]
      have hmul : (cut : Int) * width ≤ i * width :=
        Int.mul_le_mul_of_nonneg_right (by omega) (by omega)
      omega

/-- The place of a row says whether its bucket is open. -/
theorem Place.of_eq_openBucket_iff {cut i : Nat} : Place.of cut i = .openBucket ↔ cut ≤ i := by
  unfold Place.of
  by_cases h : cut ≤ i
  · rw [if_pos h]
    exact iff_of_true rfl h
  · rw [if_neg h]
    split <;> exact iff_of_false Place.noConfusion h

theorem Place.of_eq_closed_iff {cut i : Nat} : Place.of cut i = .closed ↔ i + 1 < cut := by
  unfold Place.of
  by_cases h : cut ≤ i
  · rw [if_pos h]
    exact iff_of_false Place.noConfusion (by omega)
  · rw [if_neg h]
    by_cases h' : i + 1 = cut
    · rw [if_pos h']
      exact iff_of_false Place.noConfusion (by omega)
    · rw [if_neg h']
      exact iff_of_true rfl (by omega)

end QueryPanel.Marker
