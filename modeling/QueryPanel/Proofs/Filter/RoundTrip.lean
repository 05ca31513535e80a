import QueryPanel.Draft.Basic
import QueryPanel.Proofs.Filter.Recording

/-!
# Written fields are read back

`render` writes thirteen fields, each as one clause or not at all. Every clause is whole, so the
text falls apart into the very clauses it was made of, and each of them records its own field. What
is read is `canonical`: the fields without what a text cannot say.

The reading is followed slot by slot. `addClause?` is a step over an optional clause, and the lemmas
`addClause?_text`, `addClause?_attr` and so on say what each slot leaves in the fields.
-/

namespace QueryPanel

open FilterFields

namespace ParsedFilter

/-- What a text says after one more clause, if there is one. -/
def addClause? (p : ParsedFilter) : Option (List Char) → ParsedFilter
  | some clause => p.addClause clause
  | none => p

theorem foldl_filterMap (slots : List (Option (List Char))) (p : ParsedFilter) :
    (slots.filterMap id).foldl addClause p = slots.foldl addClause? p := by
  induction slots generalizing p with
  | nil => rfl
  | cons slot slots ih => cases slot <;> exact ih _

/-! ## What each slot leaves -/

theorem isWord_true : Clause.IsWord "true".toList := by decide

theorem isWord_false : Clause.IsWord "false".toList := by decide

variable (G F : FilterFields) (incomplete : Bool)

theorem addClause_of_record {G fields : FilterFields} {incomplete : Bool} {clause : List Char}
    (h : G.record clause = some fields) :
    addClause ⟨G, incomplete⟩ clause = ⟨fields, incomplete⟩ := by
  rw [addClause, h]

theorem addClause?_text (f : TextField) :
    addClause? ⟨G, incomplete⟩ (F.textClause? f)
      = ⟨G.setText (((F.text f).filter (· ≠ "")).or (G.text f)) f, incomplete⟩ := by
  unfold textClause?
  cases hvalue : (F.text f).filter (· ≠ "") with
  | none =>
    have hsame : G.setText (G.text f) f = G := by cases f <;> rfl
    rw [Option.none_or, hsame]
    rfl
  | some value =>
    have hne : value ≠ "" := of_decide_eq_true (Option.filter_eq_some_iff.mp hvalue).2
    exact addClause_of_record (record_text G f hne)

theorem addClause?_hasError :
    addClause? ⟨G, incomplete⟩
        (if F.hasError = some true then some "has_error = true".toList else none)
      = ⟨{ G with hasError := (F.hasError.filter (· = true)).or G.hasError }, incomplete⟩ := by
  have hrecord : G.record "has_error = true".toList = some { G with hasError := some true } :=
    have hclassify : FilterKey.classify "has_error" = some .hasError := by decide +kernel
    record_clauseText G (by decide) hclassify (.word isWord_true)
  match hvalue : F.hasError with
  | some true => exact addClause_of_record hrecord
  | some false => rfl
  | none => rfl

theorem addClause?_rootOnly :
    addClause? ⟨G, incomplete⟩
        (if F.rootOnly = some false then some "root_only = false".toList else none)
      = ⟨{ G with rootOnly := (F.rootOnly.filter (· = false)).or G.rootOnly }, incomplete⟩ := by
  have hrecord : G.record "root_only = false".toList = some { G with rootOnly := some false } :=
    have hclassify : FilterKey.classify "root_only" = some .rootOnly := by decide +kernel
    record_clauseText G (by decide) hclassify (.word isWord_false)
  match hvalue : F.rootOnly with
  | some true => rfl
  | some false => exact addClause_of_record hrecord
  | none => rfl

theorem addClause?_minDuration :
    addClause? ⟨G, incomplete⟩ (durationClause? "min_duration_ms" F.minDuration)
      = ⟨{ G with minDuration := (F.minDuration.filter (·.isFinite)).or G.minDuration },
        incomplete⟩ := by
  unfold durationClause?
  cases hvalue : F.minDuration.filter (·.isFinite) with
  | none => rfl
  | some d =>
    have hfinite := (Option.filter_eq_some_iff.mp hvalue).2
    exact addClause_of_record (record_minDuration G hfinite)

theorem addClause?_maxDuration :
    addClause? ⟨G, incomplete⟩ (durationClause? "max_duration_ms" F.maxDuration)
      = ⟨{ G with maxDuration := (F.maxDuration.filter (·.isFinite)).or G.maxDuration },
        incomplete⟩ := by
  unfold durationClause?
  cases hvalue : F.maxDuration.filter (·.isFinite) with
  | none => rfl
  | some d =>
    have hfinite := (Option.filter_eq_some_iff.mp hvalue).2
    exact addClause_of_record (record_maxDuration G hfinite)

/-- The first clause on an attribute counts, so the slot has to be free. -/
theorem addClause?_attr (hkey : ∀ a, F.attr = some a → FilterKey.IsName a.key)
    (hnone : G.attr = none) :
    addClause? ⟨G, incomplete⟩ (attributeClause? FilterKey.attributeHead F.attr)
      = ⟨{ G with attr := F.attr.filter (·.value ≠ "") }, incomplete⟩ := by
  unfold attributeClause?
  cases hvalue : F.attr with
  | none =>
    show (⟨G, incomplete⟩ : ParsedFilter) = ⟨{ G with attr := none }, incomplete⟩
    rw [← hnone]
  | some a => exact addClause_of_record (record_attr G a (hkey a hvalue) hnone)

theorem addClause?_resource (hkey : ∀ a, F.resource = some a → FilterKey.IsName a.key)
    (hnone : G.resource = none) :
    addClause? ⟨G, incomplete⟩ (attributeClause? FilterKey.resourceHead F.resource)
      = ⟨{ G with resource := F.resource.filter (·.value ≠ "") }, incomplete⟩ := by
  unfold attributeClause?
  cases hvalue : F.resource with
  | none =>
    show (⟨G, incomplete⟩ : ParsedFilter) = ⟨{ G with resource := none }, incomplete⟩
    rw [← hnone]
  | some a => exact addClause_of_record (record_resource G a (hkey a hvalue) hnone)

end ParsedFilter

namespace FilterFields

/-! ## The whole text -/

/-- The clauses of a filter as they are written, each in its place or not at all. -/
def slots (fields : FilterFields) : List (Option (List Char)) :=
  TextField.all.map fields.textClause? ++
    [if fields.hasError = some true then some "has_error = true".toList else none,
      if fields.rootOnly = some false then some "root_only = false".toList else none,
      durationClause? "min_duration_ms" fields.minDuration,
      durationClause? "max_duration_ms" fields.maxDuration,
      attributeClause? FilterKey.attributeHead fields.attr,
      attributeClause? FilterKey.resourceHead fields.resource]

theorem clauses_eq (fields : FilterFields) : fields.clauses = fields.slots.filterMap id := by
  rw [clauses, slots, List.filterMap_append, List.filterMap_map]
  rfl

/-- The names of the two attributes can stand in a key. -/
structure Named (F : FilterFields) : Prop where
  attr : ∀ a, F.attr = some a → FilterKey.IsName a.key
  resource : ∀ a, F.resource = some a → FilterKey.IsName a.key

section Named

variable {F : FilterFields}

/-- The seven texts come first. -/
theorem foldl_textClauses (F : FilterFields) :
    (TextField.all.map F.textClause?).foldl ParsedFilter.addClause? ⟨.empty, false⟩
      = ⟨{ F.canonical with
          hasError := none, rootOnly := none, minDuration := none, maxDuration := none,
          attr := none, resource := none }, false⟩ := by
  simp only [TextField.all, List.map_cons, List.map_nil, List.foldl_cons, List.foldl_nil]
  rw [ParsedFilter.addClause?_text, ParsedFilter.addClause?_text, ParsedFilter.addClause?_text,
    ParsedFilter.addClause?_text, ParsedFilter.addClause?_text, ParsedFilter.addClause?_text,
    ParsedFilter.addClause?_text]
  simp [setText, text, canonical, FilterFields.empty]

/-- Reading the clauses one after the other leaves what a text can say of the fields. -/
theorem ofClauses_clauses (h : F.Named) :
    ParsedFilter.ofClauses F.clauses = ⟨F.canonical, false⟩ := by
  rw [clauses_eq, ParsedFilter.ofClauses, ParsedFilter.foldl_filterMap, slots, List.foldl_append,
    foldl_textClauses]
  -- The slots of the two attributes are still free when their clauses come.
  simp only [List.foldl_cons, List.foldl_nil]
  rw [ParsedFilter.addClause?_hasError, ParsedFilter.addClause?_rootOnly,
    ParsedFilter.addClause?_minDuration, ParsedFilter.addClause?_maxDuration,
    ParsedFilter.addClause?_attr _ _ _ h.attr rfl,
    ParsedFilter.addClause?_resource _ _ _ h.resource rfl]
  simp [canonical]

theorem whole_textClause? {f : TextField} {c : List Char} (h : F.textClause? f = some c) :
    Clause.Whole c := by
  obtain ⟨value, _, rfl⟩ := Option.map_eq_some_iff.mp h
  exact Clause.whole_textOf (FilterKey.isWord_key f) (.quoted _)

theorem whole_durationClause? {key : String} (hkey : Clause.IsWord key.toList)
    {duration : Option Double} {c : List Char} (h : durationClause? key duration = some c) :
    Clause.Whole c := by
  obtain ⟨d, hd, rfl⟩ := Option.map_eq_some_iff.mp h
  exact Clause.whole_textOf hkey (.word (isWord_plain (Option.filter_eq_some_iff.mp hd).2))

theorem whole_attributeClause? {head : String} {attr : Option AttributeFilter} {c : List Char}
    (hkey : ∀ a, attr = some a → Clause.IsWord (head ++ a.key).toList)
    (h : attributeClause? head attr = some c) : Clause.Whole c := by
  obtain ⟨a, ha, rfl⟩ := Option.map_eq_some_iff.mp h
  exact Clause.whole_textOf (hkey a ha) (.quoted _)

/-- Every clause of a filter stays one clause between the others. -/
theorem whole_clauses (h : F.Named) : ∀ c ∈ F.clauses, Clause.Whole c := by
  intro c hc
  rw [clauses_eq] at hc
  obtain ⟨slot, hmem, hslot⟩ := List.mem_filterMap.mp hc
  have herror : Clause.IsWord "has_error".toList := by decide
  have hroot : Clause.IsWord "root_only".toList := by decide
  rcases List.mem_append.mp hmem with htext | hmem
  · obtain ⟨f, _, rfl⟩ := List.mem_map.mp htext
    exact whole_textClause? hslot
  · simp only [List.mem_cons, List.not_mem_nil, or_false] at hmem
    rcases hmem with rfl | rfl | rfl | rfl | rfl | rfl
    · split at hslot
      · rw [← Option.some.inj hslot]
        exact Clause.whole_textOf herror (.word ParsedFilter.isWord_true)
      · cases hslot
    · split at hslot
      · rw [← Option.some.inj hslot]
        exact Clause.whole_textOf hroot (.word ParsedFilter.isWord_false)
      · cases hslot
    · exact whole_durationClause? (by decide) hslot
    · exact whole_durationClause? (by decide) hslot
    · exact whole_attributeClause? (fun a ha => FilterKey.isWord_attribute (h.attr a ha)) hslot
    · exact whole_attributeClause? (fun a ha => FilterKey.isWord_resource (h.resource a ha)) hslot

end Named

theorem toList_render (F : FilterFields) : F.render.toList = joinClauses F.clauses := by
  unfold render render?
  split
  · next hnil =>
    rw [List.isEmpty_iff.mp hnil]
    rfl
  · exact String.toList_ofList

/-- What is written is read back, as far as a text can say it. -/
theorem read_render {F : FilterFields} (h : F.Named) : read F.render = ⟨F.canonical, false⟩ := by
  rw [read, toList_render, Clause.split_joinClauses (whole_clauses h), ofClauses_clauses h]

end FilterFields

/-! ## Filters of a draft -/

theorem FilterFields.empty_mergedWith (F : FilterFields) : FilterFields.empty.mergedWith F = F := by
  simp [mergedWith, FilterFields.empty]

/-- Without fields there is nothing that a text could leave in place. -/
theorem FilterBag.apply_of_empty {bag : FilterBag} (h : bag.fields = .empty) (expression : String) :
    (bag.apply expression).bag = { bag with fields := (FilterFields.read expression).fields } := by
  unfold FilterBag.apply
  split
  · next hblank =>
    have hsplit : Clause.split expression.toList = [] := by rw [Clause.split, hblank]; rfl
    rw [FilterFields.read, hsplit]
    rfl
  · dsimp only
    rw [h, FilterFields.empty_mergedWith]

theorem Draft.filterBag_setFilters (d : Draft) {F : FilterFields} (h : F.Named) :
    (d.setFilters F).filterBag
      = { fields := F.canonical, metricName := d.metricName, metricType := d.metricType } := by
  rw [filterBag, FilterBag.apply_of_empty rfl, setFilters, FilterFields.read_render h]

/-- Writing a filter and reading it again changes nothing but what no text can say: reading gives
`canonical` with every clause complete, and so does a draft whose filters are set and asked for. -/
theorem FilterFields.written_filter_is_read_back (F : FilterFields) (h : F.Named) :
    read F.render = ⟨F.canonical, false⟩ ∧
      ∀ d : Draft, (d.setFilters F).filterBag
        = { fields := F.canonical, metricName := d.metricName, metricType := d.metricType } :=
  ⟨read_render h, fun d => d.filterBag_setFilters h⟩

/-- A filter whose values are made of what the text form uses itself, beside fields that a text
cannot carry. -/
def FilterFields.troublesome : FilterFields where
  service := some "a\" and severity = \"b\\"
  spanName := some ""
  severity := some "\n AND \t"
  hasError := some false
  rootOnly := some false
  minDuration := some (.ofInt (-3))
  maxDuration := some (.ofCode false Double.infinityCode)
  attr := some ⟨"Http.Route-1", " x = 'y' AND "⟩
  resource := some ⟨"and", ""⟩

theorem FilterFields.troublesome_is_read_back :
    read troublesome.render = ⟨{ troublesome with
      spanName := none, hasError := none, maxDuration := none, resource := none }, false⟩ :=
  (written_filter_is_read_back troublesome
    ⟨by rintro a ⟨⟩; decide, by rintro a ⟨⟩; decide⟩).1.trans (by decide +kernel)

end QueryPanel
