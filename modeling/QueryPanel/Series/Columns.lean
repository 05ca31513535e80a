/-!
# Columns by name

Values by name, in the order of the names. Names are unique because they are strictly ascending, and
that invariant is part of the type: two collections of columns that look up alike are equal.
-/

namespace QueryPanel

/-- Values by name, with the names strictly ascending. -/
@[ext]
structure Columns (α : Type) where
  entries : List (String × α)
  ascending : entries.Pairwise fun a b => a.1 < b.1

namespace Columns

variable {α β : Type}

instance [DecidableEq α] : DecidableEq (Columns α) := fun a b =>
  decidable_of_iff (a.entries = b.entries) Columns.ext_iff.symm

/-- No columns. -/
def empty : Columns α := ⟨[], .nil⟩

instance : Inhabited (Columns α) := ⟨empty⟩

/-- Puts a value into a list of entries, in the place of its name. -/
def insertEntry (name : String) (value : α) : List (String × α) → List (String × α)
  | [] => [(name, value)]
  | e :: es =>
    if name < e.1 then (name, value) :: e :: es
    else if name = e.1 then (name, value) :: es
    else e :: insertEntry name value es

theorem mem_insertEntry {name : String} {value : α} {es : List (String × α)} {e : String × α}
    (h : e ∈ insertEntry name value es) : e = (name, value) ∨ e ∈ es := by
  induction es with
  | nil => simpa [insertEntry] using h
  | cons f es ih =>
    simp only [insertEntry] at h
    split at h
    · simpa using h
    · split at h
      · rcases List.mem_cons.mp h with h | h
        · exact .inl h
        · exact .inr (List.mem_cons_of_mem _ h)
      · rcases List.mem_cons.mp h with rfl | h
        · exact .inr List.mem_cons_self
        · exact (ih h).imp_right (List.mem_cons_of_mem _)

theorem insertEntry_ascending (name : String) (value : α) {es : List (String × α)}
    (h : es.Pairwise fun a b => a.1 < b.1) :
    (insertEntry name value es).Pairwise fun a b => a.1 < b.1 := by
  induction es with
  | nil => simp [insertEntry]
  | cons e es ih =>
    obtain ⟨head, tail⟩ := List.pairwise_cons.mp h
    simp only [insertEntry]
    split
    · next lt =>
      refine List.pairwise_cons.mpr ⟨fun f hf => ?_, h⟩
      rcases List.mem_cons.mp hf with rfl | hf
      · exact lt
      · exact String.lt_trans lt (head f hf)
    · next nlt =>
      split
      · next eq => exact List.pairwise_cons.mpr ⟨fun f hf => eq ▸ head f hf, tail⟩
      · next ne =>
        refine List.pairwise_cons.mpr ⟨fun f hf => ?_, ih tail⟩
        rcases mem_insertEntry hf with rfl | hf
        · rcases Std.lt_trichotomy name e.1 with lt | eq | gt
          · exact absurd lt nlt
          · exact absurd eq ne
          · exact gt
        · exact head f hf

/-- The columns with a value under a name, in place of any that was there. -/
def insert (c : Columns α) (name : String) (value : α) : Columns α :=
  ⟨insertEntry name value c.entries, insertEntry_ascending name value c.ascending⟩

/-- The value under a name. -/
def get? (c : Columns α) (name : String) : Option α :=
  c.entries.lookup name

/-- The names, ascending. -/
def names (c : Columns α) : List String :=
  c.entries.map (·.1)

/-- Columns of a list of entries. Of two with the same name the later one counts. -/
def ofList (entries : List (String × α)) : Columns α :=
  entries.foldl (fun c e => c.insert e.1 e.2) empty

/-- The columns with all of `others` in place of those of the same names. -/
def updatedWith (c others : Columns α) : Columns α :=
  others.entries.foldl (fun c e => c.insert e.1 e.2) c

/-- The columns with every value changed by a function. -/
def map (f : α → β) (c : Columns α) : Columns β :=
  ⟨c.entries.map fun e => (e.1, f e.2), List.pairwise_map.mpr c.ascending⟩

/-- The same value under each of some names. -/
def constant (names : List String) (value : α) : Columns α :=
  ofList (names.map (·, value))

/-- A look-up compares with one entry after the other. -/
theorem lookup_cons (name : String) (e : String × α) (es : List (String × α)) :
    (e :: es).lookup name = if name = e.1 then some e.2 else es.lookup name := by
  rw [show e = (e.1, e.2) from rfl, List.lookup_cons]
  by_cases h : name = e.1
  · simp [h]
  · have : (name == e.1) = false := by simpa using h
    simp [this, h]

/-- Inserting sets one look-up and leaves the others. -/
theorem get?_insert (c : Columns α) (name : String) (value : α) (other : String) :
    (c.insert name value).get? other = if other = name then some value else c.get? other := by
  obtain ⟨es, h⟩ := c
  simp only [insert, get?]
  induction es with
  | nil => simp [insertEntry, lookup_cons]
  | cons e es ih =>
    have ih := ih (List.pairwise_cons.mp h).2
    simp only [insertEntry]
    split
    · simp only [lookup_cons]
    · split
      · next eq => simp only [lookup_cons, ← eq]; split <;> rfl
      · next ne =>
        simp only [lookup_cons, ih]
        by_cases eq : other = e.1
        · simp [eq, Ne.symm ne]
        · simp [eq]

end Columns

end QueryPanel
