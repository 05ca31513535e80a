import QueryPanel.Completion.Completer
import QueryPanel.Proofs.Filter.Recording

/-!
# What is offered

Every suggestion comes from a candidate of its slot (`candidate_of_mem_suggest`), so ranking and the
limit do not matter for what a suggestion can be. A key that is offered ends in a point and is a
beginning only, or it can be selected: `Selectable` keys are words, and none of them is an
attribute's key without a name. What is offered as the value of a selectable key is a literal as it
is written, and one that the key can take.
-/

namespace QueryPanel

open Clause (IsWord Written isKeyChar)

/-- Catalogs whose keys are made of the characters of keys, and whose metric types are words. -/
structure Catalogs.Plain (catalogs : Catalogs) : Prop where
  attributeKeys : ∀ k ∈ catalogs.attributeKeys, ∀ c ∈ k.toList, isKeyChar c = true
  resourceKeys : ∀ k ∈ catalogs.resourceKeys, ∀ c ∈ k.toList, isKeyChar c = true
  metricTypes : ∀ t ∈ catalogs.metricTypes, IsWord t.toList

/-- The text ends in a point, so that nothing separates it from what is typed next. -/
def EndsInPoint (s : String) : Prop :=
  s.toList.getLast? = some '.'

instance (s : String) : Decidable (EndsInPoint s) :=
  inferInstanceAs (Decidable (s.toList.getLast? = some '.'))

/-- A whole key: a word that names no attribute without a name. -/
structure Selectable (key : String) : Prop where
  word : IsWord key.toList
  attr : FilterKey.classify key ≠ some (.attr "")
  resource : FilterKey.classify key ≠ some (.resource "")

namespace Completer

variable {c : Completer} {scope : Scope} {catalogs : Catalogs}

/-! ## Candidates -/

theorem candidate_of_mem_suggest {slot : Slot} {s : Suggestion}
    (h : s ∈ c.suggest scope slot catalogs) :
    ∃ candidate ∈ c.candidates scope slot catalogs, candidate.suggestion = s := by
  have hrank := List.mem_of_mem_take h
  obtain ⟨⟨place, s'⟩, hsorted, rfl⟩ := List.mem_map.mp hrank
  obtain ⟨candidate, hmem, hplaced⟩ := List.mem_filterMap.mp (List.mem_mergeSort.mp hsorted)
  obtain ⟨_, _, heq⟩ := Option.map_eq_some_iff.mp hplaced
  exact ⟨candidate, hmem, (Prod.mk.inj heq).2⟩

/-- The candidates that fit what a slot holds, with their places. -/
def placed (c : Completer) (scope : Scope) (slot : Slot) (catalogs : Catalogs) :=
  (c.candidates scope slot catalogs).filterMap
    (Candidate.placed? (Text.lower (Text.trim slot.query.toList)))

/-- Candidates that stand in the order of their places are offered as they stand. -/
theorem suggest_of_ordered {slot : Slot} (h : (c.placed scope slot catalogs).Pairwise
      fun a b => (a.1 ≤ b.1 : Bool) = true) :
    c.suggest scope slot catalogs
      = ((c.placed scope slot catalogs).map (·.2)).take c.limit := by
  unfold suggest Candidate.rank
  dsimp only
  rw [show List.filterMap _ _ = c.placed scope slot catalogs from rfl,
    List.mergeSort_of_pairwise h]

theorem mem_distinct_iff {entries : List String} {e : String} :
    e ∈ distinct entries ↔ e ∈ entries ∧ e ≠ "" := by
  rw [distinct, List.mem_eraseDups, List.mem_filter, decide_eq_true_iff]

/-! ## Keys -/

/-- What is offered where a key may stand. -/
structure KeyOffer (s : Suggestion) : Prop where
  kind : s.kind = .key
  chars : ∀ c ∈ s.insertText.toList, isKeyChar c = true
  selectable : EndsInPoint s.insertText ∨ Selectable s.insertText

theorem entries_offered (scope : Scope) : ∀ e ∈ scope.entries,
    EndsInPoint e.key ∨ Selectable e.key := by
  have hall : ∀ e ∈ scope.entries, EndsInPoint e.key ∨
      (IsWord e.key.toList ∧ FilterKey.classify e.key ≠ some (.attr "") ∧
        FilterKey.classify e.key ≠ some (.resource "")) := by
    cases scope <;> decide +kernel
  intro e he
  rcases hall e he with hpoint | ⟨hword, hattr, hresource⟩
  · exact .inl hpoint
  · exact .inr ⟨hword, hattr, hresource⟩

theorem isKeyChar_entries (scope : Scope) :
    ∀ e ∈ scope.entries, ∀ c ∈ e.key.toList, isKeyChar c = true := by
  have hall : ∀ e ∈ scope.entries, e.key.toList.all isKeyChar = true := by
    cases scope <;> decide +kernel
  intro e he
  exact List.all_eq_true.mp (hall e he)

theorem keyOffer_attribute {name : String} (h : FilterKey.IsName name) :
    KeyOffer ⟨.key, FilterKey.attributeHead ++ name, FilterKey.attributeHead ++ name, none⟩ := by
  have hword := FilterKey.isWord_attribute h
  have hclassify := FilterKey.classify_attribute h.chars
  refine ⟨rfl, hword.chars, .inr ⟨hword, ?_, ?_⟩⟩
  · rw [hclassify]
    simpa using h.nonempty
  · rw [hclassify]
    simp

theorem keyOffer_resource {name : String} (h : FilterKey.IsName name) :
    KeyOffer ⟨.key, FilterKey.resourceHead ++ name, FilterKey.resourceHead ++ name, none⟩ := by
  have hword := FilterKey.isWord_resource h
  have hclassify := FilterKey.classify_resource h.chars
  refine ⟨rfl, hword.chars, .inr ⟨hword, ?_, ?_⟩⟩
  · rw [hclassify]
    simp
  · rw [hclassify]
    simpa using h.nonempty

theorem keyOffer_of_mem {slot : Slot} (hkind : slot.kind = .key) (hc : catalogs.Plain)
    {s : Suggestion} (h : s ∈ c.suggest scope slot catalogs) : KeyOffer s := by
  obtain ⟨candidate, hmem, rfl⟩ := candidate_of_mem_suggest h
  rw [candidates, hkind] at hmem
  dsimp only at hmem
  unfold keyCandidates at hmem
  dsimp only at hmem
  -- Behind the head of an attribute's key come the names of a catalog, and else the known keys.
  split at hmem
  · obtain ⟨name, hname, rfl⟩ := List.mem_map.mp hmem
    obtain ⟨hfound, hne⟩ := mem_distinct_iff.mp hname
    exact keyOffer_attribute ⟨hne, hc.attributeKeys name hfound⟩
  · split at hmem
    · obtain ⟨name, hname, rfl⟩ := List.mem_map.mp hmem
      obtain ⟨hfound, hne⟩ := mem_distinct_iff.mp hname
      exact keyOffer_resource ⟨hne, hc.resourceKeys name hfound⟩
    · obtain ⟨e, he, rfl⟩ := List.mem_map.mp hmem
      exact ⟨rfl, isKeyChar_entries scope e he, entries_offered scope e he⟩

/-! ## Values -/

/-- What is offered as the value of a key. -/
structure ValueOffer (key : String) (s : Suggestion) : Prop where
  kind : s.kind = .value
  written : ∃ literal, Written s.insertText.toList literal
  closed : ¬ EndsInPoint s.insertText
  recorded : ∀ fields : FilterFields,
    (fields.record (FilterFields.clauseText key s.insertText.toList)).isSome

variable {key : String}

theorem valueOffer_quoted (hkey : Selectable key) {k : FilterKey}
    (hclassify : FilterKey.classify key = some k)
    (hrecord : ∀ (fields : FilterFields) (value : List Char), (fields.recordValue value k).isSome)
    {values : List String} {candidate : Candidate} (h : candidate ∈ quotedValues values) :
    ValueOffer key candidate.suggestion := by
  obtain ⟨v, _, rfl⟩ := List.mem_map.mp h
  have htext : (String.ofList (Quote.quoteDouble v.toList)).toList = Quote.quoteDouble v.toList :=
    String.toList_ofList
  have hwritten : Written (String.ofList (Quote.quoteDouble v.toList)).toList
      (.quoted .double (Quote.escape v.toList)) := by
    rw [htext]
    exact .quoted v.toList
  refine ⟨rfl, ⟨_, hwritten⟩, ?_, ?_⟩
  · rw [EndsInPoint, htext, Quote.quoteDouble, List.getLast?_concat]
    decide
  · intro fields
    rw [htext, FilterFields.record_clauseText fields hkey.word hclassify (.quoted _)]
    exact hrecord fields _

theorem isSome_recordAttribute (slot : Option AttributeFilter) {name : String} (h : name ≠ "")
    (value : String) : (FilterFields.recordAttribute slot name value).isSome := by
  rw [FilterFields.recordAttribute, if_neg h]
  split <;> rfl

theorem valueOffer_bare {v : String} (hv : IsWord v.toList) (hclosed : ¬ EndsInPoint v)
    (hrecord : ∀ fields : FilterFields,
      (fields.record (FilterFields.clauseText key v.toList)).isSome) :
    ValueOffer key (bareValue v).suggestion :=
  ⟨rfl, ⟨_, .word hv⟩, hclosed, hrecord⟩

theorem valueOffer_flag (hkey : Selectable key) {k : FilterKey}
    (hclassify : FilterKey.classify key = some k) (hk : k = .hasError ∨ k = .rootOnly)
    {candidate : Candidate} (h : candidate ∈ ["true", "false"].map bareValue) :
    ValueOffer key candidate.suggestion := by
  obtain ⟨v, hv, rfl⟩ := List.mem_map.mp h
  have hword : IsWord v.toList ∧ ¬ EndsInPoint v ∧ (FilterFields.boolOfText? v.toList).isSome := by
    simp only [List.mem_cons, List.not_mem_nil, or_false] at hv
    rcases hv with rfl | rfl
    · exact ⟨by decide, by decide, by decide⟩
    · exact ⟨by decide, by decide, by decide⟩
  refine valueOffer_bare hword.1 hword.2.1 ?_
  intro fields
  rw [FilterFields.record_clauseText fields hkey.word hclassify (.word hword.1)]
  rcases hk with rfl | rfl
  · rw [FilterFields.recordValue, Option.isSome_map]
    exact hword.2.2
  · rw [FilterFields.recordValue, Option.isSome_map]
    exact hword.2.2

/-- Of the catalogs only metric types are inserted as they are, so only they may end in a point. -/
theorem valueOffer_metricType (hkey : Selectable key)
    (hnormal : FilterKey.normalize key = "metric.type") (hc : catalogs.Plain)
    (hpoint : ∀ t ∈ catalogs.metricTypes, ¬ EndsInPoint t) {candidate : Candidate}
    (h : candidate ∈ (if catalogs.metricTypes.isEmpty then MetricType.all.map MetricType.name
      else catalogs.metricTypes).map bareValue) : ValueOffer key candidate.suggestion := by
  obtain ⟨v, hv, rfl⟩ := List.mem_map.mp h
  have hclassify : FilterKey.classify key = none := by
    rw [FilterKey.classify, hnormal]
    decide +kernel
  have hword : IsWord v.toList ∧ ¬ EndsInPoint v := by
    split at hv
    · obtain ⟨t, _, rfl⟩ := List.mem_map.mp hv
      cases t <;> exact ⟨by decide, by decide⟩
    · exact ⟨hc.metricTypes v hv, hpoint v hv⟩
  refine valueOffer_bare hword.1 hword.2 fun fields => ?_
  rw [FilterFields.record_unknown fields hkey.word hclassify (.word hword.1)]
  rfl

theorem valueOffer_of_mem {slot : Slot} (hkind : slot.kind = .value)
    (hslot : slot.key = some key) (hkey : Selectable key) (hc : catalogs.Plain)
    (hpoint : ∀ t ∈ catalogs.metricTypes, ¬ EndsInPoint t) {s : Suggestion}
    (h : s ∈ c.suggest scope slot catalogs) : ValueOffer key s := by
  obtain ⟨candidate, hmem, rfl⟩ := candidate_of_mem_suggest h
  rw [candidates, hkind] at hmem
  dsimp only at hmem
  rw [hslot, Option.map_some, Option.getD_some] at hmem
  unfold valueCandidates at hmem
  dsimp only at hmem
  split at hmem
  · next hnormal => exact valueOffer_metricType hkey hnormal hc hpoint hmem
  · split at hmem
    · next name hk =>
      have hname : name ≠ "" := by
        rintro rfl
        exact hkey.attr hk
      refine valueOffer_quoted hkey hk ?_ hmem
      intro fields value
      rw [FilterFields.recordValue, Option.isSome_map]
      exact isSome_recordAttribute _ hname _
    · next name hk =>
      have hname : name ≠ "" := by
        rintro rfl
        exact hkey.resource hk
      refine valueOffer_quoted hkey hk ?_ hmem
      intro fields value
      rw [FilterFields.recordValue, Option.isSome_map]
      exact isSome_recordAttribute _ hname _
    · next hk => exact valueOffer_flag hkey hk (.inl rfl) hmem
    · next hk => exact valueOffer_flag hkey hk (.inr rfl) hmem
    · next hk => exact valueOffer_quoted hkey hk (fun _ _ => rfl) hmem
    · cases hmem

/-! ## Values in quotes -/

theorem length_le_escape (cs : List Char) : cs.length ≤ (Quote.escape cs).length := by
  induction cs with
  | nil => exact Nat.le_refl 0
  | cons c cs ih =>
    rw [Quote.escape]
    split
    · simp only [List.length_cons]
      omega
    · simp only [List.length_cons]
      omega

/-- What is inserted as it stands is not in quotes. -/
theorem ne_quoteDouble (cs : List Char) : cs ≠ Quote.quoteDouble cs := by
  intro h
  have hlength := congrArg List.length h
  have hescape := length_le_escape cs
  simp only [Quote.quoteDouble, List.length_append, List.length_cons, List.length_nil] at hlength
  omega

/-- A value that is inserted in quotes comes from a catalog, and its key can hold any text. -/
structure QuotedOffer (key : String) (s : Suggestion) : Prop where
  kind : s.kind = .value
  nonempty : s.label ≠ ""
  holds : ∃ k fields, FilterKey.classify key = some k ∧
    FilterFields.holding? s.label k = some fields

theorem quotedOffer_of_mem {slot : Slot} (hkind : slot.kind = .value) (hslot : slot.key = some key)
    {s : Suggestion} (h : s ∈ c.suggest scope slot catalogs)
    (hquoted : s.insertText = String.ofList (Quote.quoteDouble s.label.toList)) :
    QuotedOffer key s := by
  have hbare {v : String} (heq : v = String.ofList (Quote.quoteDouble v.toList)) : False := by
    apply ne_quoteDouble v.toList
    rw [← String.toList_ofList (l := Quote.quoteDouble v.toList), ← heq]
  obtain ⟨candidate, hmem, rfl⟩ := candidate_of_mem_suggest h
  rw [candidates, hkind] at hmem
  dsimp only at hmem
  rw [hslot, Option.map_some, Option.getD_some] at hmem
  have hcatalog {values : List String} (hvalues : candidate ∈ quotedValues values) {k : FilterKey}
      (hk : FilterKey.classify key = some k)
      (hholds : ∀ v, ∃ fields, FilterFields.holding? v k = some fields) :
      QuotedOffer key candidate.suggestion := by
    obtain ⟨v, hv, rfl⟩ := List.mem_map.mp hvalues
    obtain ⟨fields, hfields⟩ := hholds v
    exact ⟨rfl, (mem_distinct_iff.mp hv).2, k, fields, hk, hfields⟩
  unfold valueCandidates at hmem
  dsimp only at hmem
  split at hmem
  · obtain ⟨v, _, rfl⟩ := List.mem_map.mp hmem
    exact (hbare hquoted).elim
  · split at hmem
    · next hk => exact hcatalog hmem hk fun _ => ⟨_, rfl⟩
    · next hk => exact hcatalog hmem hk fun _ => ⟨_, rfl⟩
    · obtain ⟨v, _, rfl⟩ := List.mem_map.mp hmem
      exact (hbare hquoted).elim
    · obtain ⟨v, _, rfl⟩ := List.mem_map.mp hmem
      exact (hbare hquoted).elim
    · next hk => exact hcatalog hmem hk fun _ => ⟨_, rfl⟩
    · cases hmem

/-! ## The operator and the conjunction -/

theorem eq_equals_of_mem {slot : Slot} (hkind : slot.kind = .operator) {s : Suggestion}
    (h : s ∈ c.suggest scope slot catalogs) : s = equals := by
  obtain ⟨candidate, hmem, rfl⟩ := candidate_of_mem_suggest h
  rw [candidates, hkind] at hmem
  rw [List.mem_singleton.mp hmem]

theorem eq_conjunction_of_mem {slot : Slot} (hkind : slot.kind = .conjunction) {s : Suggestion}
    (h : s ∈ c.suggest scope slot catalogs) : s = conjunction := by
  obtain ⟨candidate, hmem, rfl⟩ := candidate_of_mem_suggest h
  rw [candidates, hkind] at hmem
  rw [List.mem_singleton.mp hmem]

end Completer

end QueryPanel
