import QueryPanel.Filter.Text
import QueryPanel.Proofs.Clause.Written
import QueryPanel.Proofs.Number.ReadBack

/-!
# What one clause records

A clause says something by its key, which is brought to its one spelling first: by the head it
begins with in lower case, or else by its alias (`normalize_eq`). The keys that are written for
fields are classified as those fields again, and the name behind the head of an attribute's key
comes back as it is, whatever its case (`classify_attribute`, `classify_resource`). In the other
direction, the name of an attribute that any text at all can record is a part of that text's key
(`name_of_classify`).
-/

namespace QueryPanel

namespace FilterKey

/-! ## The heads of attributes' keys -/

/-- What the keys of attributes begin with, those of resources last. -/
def heads : List String := [attributeHead, resourceHead]

/-- The head that a text in lower case begins with. -/
def headOf? (low : List Char) : Option String :=
  heads.find? fun head => Text.beginsWith head.toList low

theorem headOf?_eq_some {low : List Char} {head : String} (h : headOf? low = some head) :
    head ∈ heads ∧ Text.beginsWith head.toList low = true := by
  have hbegins := List.find?_some h
  exact ⟨List.mem_of_find?_eq_some h, hbegins⟩

theorem headOf?_eq_none_iff {low : List Char} :
    headOf? low = none ↔ ∀ head ∈ heads, ¬ head.toList <+: low := by
  simp only [headOf?, List.find?_eq_none, Text.beginsWith, List.isPrefixOf_iff_prefix]

theorem headOf?_lower_append {head : String} (h : head ∈ heads) (name : List Char) :
    headOf? (Text.lower (head.toList ++ name)) = some head := by
  rcases List.mem_pair.mp h with rfl | rfl <;> rfl

/-- No text begins with both heads. -/
theorem eq_of_heads {head head' : String} (h : head ∈ heads) (h' : head' ∈ heads)
    {xs ys : List Char} (heq : head.toList ++ xs = head'.toList ++ ys) : head = head' := by
  rcases List.mem_pair.mp h with rfl | rfl <;> rcases List.mem_pair.mp h' with rfl | rfl
  · rfl
  · cases (List.cons.inj heq).1
  · cases (List.cons.inj heq).1
  · rfl

/-- A key is brought to its one spelling by its head or, if it has none, by its alias. -/
theorem normalize_eq (raw : String) :
    normalize raw =
      match headOf? (Text.lower (Text.trim raw.toList)) with
      | some head => String.ofList (head.toList ++ (Text.trim raw.toList).drop head.length)
      | none => (aliases.lookup (String.ofList (Text.lower (Text.trim raw.toList)))).getD
          (String.ofList (Text.lower (Text.trim raw.toList))) := by
  unfold normalize headOf? heads
  dsimp only
  rw [List.find?_cons, List.find?_cons]
  cases Text.beginsWith attributeHead.toList (Text.lower (Text.trim raw.toList)) <;>
    cases Text.beginsWith resourceHead.toList (Text.lower (Text.trim raw.toList)) <;> rfl

/-! ## Classifying the keys that are written -/

theorem classify_key (f : TextField) : classify f.key = some (.text f) := by
  cases f <;> decide +kernel

theorem trim_key {cs : List Char} (h : ∀ c ∈ cs, Clause.isKeyChar c = true) :
    Text.trim cs = cs := by
  rcases List.eq_nil_or_concat cs with rfl | ⟨_, _, rfl⟩
  · rfl
  · exact (Text.solid_of_no_blank (by simp)
      fun c hc => Clause.not_blank_of_isKeyChar (h c hc)).trim_eq

theorem beginsWith_append (head rest : List Char) : Text.beginsWith head (head ++ rest) = true :=
  List.isPrefixOf_iff_prefix.mpr (List.prefix_append ..)

theorem after?_append (head rest : List Char) : Text.after? head (head ++ rest) = some rest := by
  rw [Text.after?, if_pos (beginsWith_append head rest), List.drop_left]

section Headed

variable {head name : String}

theorem trim_append (hhead : ∀ c ∈ head.toList, Clause.isKeyChar c = true)
    (h : ∀ c ∈ name.toList, Clause.isKeyChar c = true) :
    Text.trim (head ++ name).toList = head.toList ++ name.toList := by
  rw [String.toList_append]
  apply trim_key
  intro c hc
  rcases List.mem_append.mp hc with hc | hc
  · exact hhead c hc
  · exact h c hc

/-- No key with one spelling begins with the head of an attribute's key. -/
theorem lookup_simpleKeys_append
    (hkeys : ∀ p ∈ simpleKeys, Text.beginsWith head.toList p.1.toList = false) :
    simpleKeys.lookup (head ++ name) = none := by
  rw [List.lookup_eq_none_iff]
  intro p hp
  rw [bne_iff_ne]
  intro heq
  have hfalse := hkeys p hp
  rw [← heq, String.toList_append, beginsWith_append] at hfalse
  cases hfalse

theorem ofList_drop_append :
    String.ofList (head.toList ++ (head.toList ++ name.toList).drop head.length)
      = head ++ name := by
  rw [show head.length = head.toList.length from String.length_toList.symm, List.drop_left,
    ← String.toList_append, String.ofList_toList]

end Headed

theorem ofNormal?_attribute (name : String) :
    ofNormal? (attributeHead ++ name) = some (.attr name) := by
  rw [ofNormal?, lookup_simpleKeys_append (by decide +kernel), String.toList_append, after?_append]
  simp

theorem ofNormal?_resource (name : String) :
    ofNormal? (resourceHead ++ name) = some (.resource name) := by
  have hattr : Text.after? attributeHead.toList (resourceHead.toList ++ name.toList) = none := rfl
  rw [ofNormal?, lookup_simpleKeys_append (by decide +kernel), String.toList_append, after?_append,
    hattr]
  simp

/-- The name behind the head keeps its case. -/
theorem normalize_append {head name : String} (hhead : head ∈ heads)
    (h : ∀ c ∈ name.toList, Clause.isKeyChar c = true) :
    normalize (head ++ name) = head ++ name := by
  have hchars : ∀ head ∈ heads, head.toList.all Clause.isKeyChar = true := by
    decide +kernel
  rw [normalize_eq, trim_append (List.all_eq_true.mp (hchars head hhead)) h,
    headOf?_lower_append hhead]
  exact ofList_drop_append

theorem classify_attribute {name : String} (h : ∀ c ∈ name.toList, Clause.isKeyChar c = true) :
    classify (attributeHead ++ name) = some (.attr name) := by
  rw [classify, normalize_append List.mem_cons_self h, ofNormal?_attribute]

theorem classify_resource {name : String} (h : ∀ c ∈ name.toList, Clause.isKeyChar c = true) :
    classify (resourceHead ++ name) = some (.resource name) := by
  rw [classify, normalize_append (List.mem_cons_of_mem _ List.mem_cons_self) h, ofNormal?_resource]

/-! ## Names that a text can record -/

theorem eq_append_of_after? {head text rest : List Char} (h : Text.after? head text = some rest) :
    text = head ++ rest := by
  unfold Text.after? at h
  split at h
  · next hbegins =>
    obtain ⟨tail, rfl⟩ := List.isPrefixOf_iff_prefix.mp hbegins
    rw [List.drop_left] at h
    rw [Option.some.inj h]
  · cases h

theorem mem_of_lookup_eq_some {α : Type} {l : List (String × α)} {k : String} {v : α}
    (h : l.lookup k = some v) : (k, v) ∈ l := by
  obtain ⟨before, behind, rfl, _⟩ := List.lookup_eq_some_iff.mp h
  simp

/-- What stands behind the head of an attribute's key in its one spelling stood there in the raw
key: no alias and no letter case makes such a head out of something else. -/
theorem suffix_of_normalize {raw head : String} {name : List Char} (hhead : head ∈ heads)
    (h : (normalize raw).toList = head.toList ++ name) : name <:+ Text.trim raw.toList := by
  have hbegins : head.toList <+: (normalize raw).toList := by
    rw [h]
    exact List.prefix_append _ _
  rw [normalize_eq] at h hbegins
  cases hfound : headOf? (Text.lower (Text.trim raw.toList)) with
  | some head' =>
    simp only [hfound, String.toList_ofList] at h
    obtain rfl := eq_of_heads (headOf?_eq_some hfound).1 hhead h
    rw [← List.append_cancel_left h]
    exact List.drop_suffix _ _
  | none =>
    simp only [hfound] at hbegins
    cases halias : aliases.lookup (String.ofList (Text.lower (Text.trim raw.toList))) with
    | none =>
      rw [halias, Option.getD_none, String.toList_ofList] at hbegins
      exact absurd hbegins (headOf?_eq_none_iff.mp hfound head hhead)
    | some target =>
      rw [halias, Option.getD_some] at hbegins
      -- No alias stands for a key with such a head.
      have hnone : ∀ p ∈ aliases, headOf? p.2.toList = none := by decide +kernel
      have htarget := hnone _ (mem_of_lookup_eq_some halias)
      exact absurd hbegins (headOf?_eq_none_iff.mp htarget head hhead)

theorem ne_of_mem_simpleKeys {p : String × FilterKey} (h : p ∈ simpleKeys) (name : String) :
    p.2 ≠ .attr name ∧ p.2 ≠ .resource name := by
  simp [simpleKeys, TextField.all] at h
  rcases h with rfl | rfl | rfl | rfl | rfl | rfl | rfl | rfl | rfl | rfl | rfl <;> simp

/-- Only a key with the head names an attribute. -/
theorem ofNormal?_eq_attr_iff {canonical name : String} :
    ofNormal? canonical = some (.attr name) ↔ canonical = attributeHead ++ name := by
  constructor
  · intro h
    unfold ofNormal? at h
    split at h
    · next key hkey =>
      exact absurd (Option.some.inj h) (ne_of_mem_simpleKeys (mem_of_lookup_eq_some hkey) name).1
    · split at h
      · next hafter =>
        cases h
        rw [← String.toList_inj, String.toList_append, String.toList_ofList]
        exact eq_append_of_after? hafter
      · cases h
      · cases h
  · rintro rfl
    exact ofNormal?_attribute name

theorem ofNormal?_eq_resource_iff {canonical name : String} :
    ofNormal? canonical = some (.resource name) ↔ canonical = resourceHead ++ name := by
  constructor
  · intro h
    unfold ofNormal? at h
    split at h
    · next key hkey =>
      exact absurd (Option.some.inj h) (ne_of_mem_simpleKeys (mem_of_lookup_eq_some hkey) name).2
    · split at h
      · cases h
      · next hafter =>
        cases h
        rw [← String.toList_inj, String.toList_append, String.toList_ofList]
        exact eq_append_of_after? hafter
      · cases h
  · rintro rfl
    exact ofNormal?_resource name

/-- The name of an attribute is the end of the trimmed key it was read from. -/
theorem name_of_classify {raw name : String}
    (h : classify raw = some (.attr name) ∨ classify raw = some (.resource name)) :
    name.toList <:+ Text.trim raw.toList := by
  rcases h with h | h
  · apply suffix_of_normalize List.mem_cons_self
    rw [ofNormal?_eq_attr_iff.mp h, String.toList_append]
  · apply suffix_of_normalize (List.mem_cons_of_mem _ List.mem_cons_self)
    rw [ofNormal?_eq_resource_iff.mp h, String.toList_append]

/-- The name of an attribute that a key can carry. -/
structure IsName (name : String) : Prop where
  nonempty : name ≠ ""
  chars : ∀ c ∈ name.toList, Clause.isKeyChar c = true

instance (name : String) : Decidable (IsName name) :=
  decidable_of_iff (name ≠ "" ∧ name.toList.all Clause.isKeyChar = true)
    ⟨fun ⟨hne, hall⟩ => ⟨hne, List.all_eq_true.mp hall⟩,
      fun h => ⟨h.nonempty, List.all_eq_true.mpr h.chars⟩⟩

/-! ## Keys are words -/

theorem isWord_key (f : TextField) : Clause.IsWord f.key.toList := by
  cases f <;> decide

/-- A name behind a head that is longer than the conjunction. -/
theorem isWord_append {head name : String} (hhead : Clause.IsWord head.toList)
    (hlong : 3 < head.toList.length) (h : IsName name) :
    Clause.IsWord (head ++ name).toList := by
  rw [String.toList_append]
  refine ⟨List.append_ne_nil_of_left_ne_nil hhead.nonempty _, ?_, ?_⟩
  · intro c hc
    rcases List.mem_append.mp hc with hc | hc
    · exact hhead.chars c hc
    · exact h.chars c hc
  · apply Clause.eqIgnoreCase_of_length_ne
    rw [List.length_append]
    show _ ≠ 3
    omega

theorem isWord_attribute {name : String} (h : IsName name) :
    Clause.IsWord (attributeHead ++ name).toList :=
  isWord_append (by decide) (by decide) h

theorem isWord_resource {name : String} (h : IsName name) :
    Clause.IsWord (resourceHead ++ name).toList :=
  isWord_append (by decide) (by decide) h

end FilterKey

namespace FilterFields

open Clause (Written)

/-! ## Recording a written clause -/

/-- A clause of any head and a literal is recorded by the key of the head. -/
theorem record_head (fields : FilterFields) (head : Clause.Head) {text : List Char}
    {literal : Literal} {k : FilterKey}
    (hclassify : FilterKey.classify (String.ofList head.key) = some k)
    (h : Clause.Spells text literal) :
    fields.record (head.text ++ text) = fields.recordValue literal.value k := by
  have hread : Clause.ofText? (head.text ++ text) = some ⟨head.key, literal⟩ :=
    Clause.ofText?_eq_some_iff.mpr ⟨head, text, rfl, h, rfl⟩
  rw [record, hread, Option.bind_some]
  dsimp only
  rw [hclassify]

theorem record_clauseText (fields : FilterFields) {key : String} {text : List Char}
    {literal : Literal} {k : FilterKey} (hkey : Clause.IsWord key.toList)
    (hclassify : FilterKey.classify key = some k) (h : Written text literal) :
    fields.record (clauseText key text) = fields.recordValue literal.value k := by
  have hhead : FilterKey.classify (String.ofList hkey.head.key) = some k := by
    rwa [show hkey.head.key = key.toList from rfl, String.ofList_toList]
  have hrecord := record_head fields hkey.head hhead h.spells
  rwa [hkey.head_text_append] at hrecord

/-- A written clause on an unknown key is whole, and asks for nothing. -/
theorem record_unknown (fields : FilterFields) {key : String} {text : List Char}
    {literal : Literal} (hkey : Clause.IsWord key.toList)
    (hclassify : FilterKey.classify key = none) (h : Written text literal) :
    fields.record (clauseText key text) = some fields := by
  have hread : Clause.ofText? (clauseText key text) = some ⟨key.toList, literal⟩ :=
    Clause.ofText?_written hkey h
  rw [record, hread, Option.bind_some]
  dsimp only
  rw [String.ofList_toList, hclassify]

theorem value_quoted (value : List Char) :
    (Literal.quoted .double (Quote.escape value)).value = value :=
  Quote.unescape_escape value

/-! ## Fields that hold one text -/

/-- The fields that ask for one text at a key and for nothing else, if the key can hold any text. -/
def holding? (value : String) : FilterKey → Option FilterFields
  | .text f => some (FilterFields.empty.setText (some value) f)
  | .attr name => some { attr := some ⟨name, value⟩ }
  | .resource name => some { resource := some ⟨name, value⟩ }
  | .hasError | .rootOnly | .minDuration | .maxDuration => none

theorem recordValue_text (fields : FilterFields) (f : TextField) {value : String} (h : value ≠ "") :
    fields.recordValue value.toList (.text f) = some (fields.setText (some value) f) := by
  have hne : ¬ value.toList.isEmpty = true := by
    rwa [List.isEmpty_iff, String.toList_eq_nil_iff]
  rw [recordValue, if_neg hne, String.ofList_toList]

theorem recordValue_of_holding? {value : String} (hvalue : value ≠ "") {k : FilterKey}
    (hattr : k ≠ .attr "") (hresource : k ≠ .resource "") {fields : FilterFields}
    (h : holding? value k = some fields) :
    FilterFields.empty.recordValue value.toList k = some fields := by
  have hset {name : String} (hname : name ≠ "") :
      recordAttribute none name (String.ofList value.toList) = some (some ⟨name, value⟩) := by
    rw [String.ofList_toList, recordAttribute, if_neg hname, if_pos ⟨rfl, hvalue⟩]
  cases k with
  | text f =>
    rw [recordValue_text empty f hvalue]
    exact h
  | attr name =>
    have hname : name ≠ "" := fun heq => hattr (congrArg FilterKey.attr heq)
    show (recordAttribute none name _).map _ = _
    rw [hset hname]
    exact h
  | resource name =>
    have hname : name ≠ "" := fun heq => hresource (congrArg FilterKey.resource heq)
    show (recordAttribute none name _).map _ = _
    rw [hset hname]
    exact h
  | hasError => cases h
  | rootOnly => cases h
  | minDuration => cases h
  | maxDuration => cases h

/-- A clause with a value in quotes, read on its own, asks for that value at its key. -/
theorem read_head_quoteDouble (head : Clause.Head) {value : String} (hvalue : value ≠ "")
    {k : FilterKey} (hclassify : FilterKey.classify (String.ofList head.key) = some k)
    (hattr : k ≠ .attr "") (hresource : k ≠ .resource "") {fields : FilterFields}
    (h : holding? value k = some fields) :
    read (String.ofList (head.text ++ Quote.quoteDouble value.toList)) = ⟨fields, false⟩ := by
  have hwritten : Written (Quote.quoteDouble value.toList)
      (.quoted .double (Quote.escape value.toList)) := .quoted value.toList
  have hrecord : FilterFields.empty.record (head.text ++ Quote.quoteDouble value.toList)
      = some fields := by
    rw [record_head empty head hclassify hwritten.spells, value_quoted,
      recordValue_of_holding? hvalue hattr hresource h]
  rw [read, String.toList_ofList, Clause.split_clause head hwritten.spells, ParsedFilter.ofClauses,
    List.foldl_cons, ParsedFilter.addClause, hrecord]
  rfl

/-! ## Each clause of a written filter -/

theorem record_text (fields : FilterFields) (f : TextField) {value : String} (h : value ≠ "") :
    fields.record (clauseText f.key (Quote.quoteDouble value.toList))
      = some (fields.setText (some value) f) := by
  rw [record_clauseText fields (FilterKey.isWord_key f) (FilterKey.classify_key f) (.quoted _),
    value_quoted, recordValue_text fields f h]

theorem isWord_plain {d : Double} (h : d.isFinite = true) : Clause.IsWord d.plain := by
  obtain ⟨hne, hchars⟩ := Double.plain_chars h
  refine ⟨hne, ?_, ?_⟩
  · intro c hc
    rcases hchars c hc with hdigit | rfl | rfl
    · simp [Clause.isKeyChar, Char.isAlphanum, hdigit]
    · rfl
    · rfl
  · -- It begins with a digit, a point or a sign, and the conjunction with a letter.
    obtain ⟨c, cs, hcs⟩ := List.exists_cons_of_ne_nil hne
    rw [hcs] at hchars ⊢
    rw [Text.eqIgnoreCase, beq_eq_false_iff_ne]
    intro heq
    have hhead : c.toLower = 'a' := (List.cons.inj heq).1
    rcases hchars c List.mem_cons_self with hdigit | rfl | rfl
    · rw [Double.toLower_of_isDigit hdigit] at hhead
      rw [hhead] at hdigit
      cases hdigit
    · cases hhead
    · cases hhead

/-- The text of a finite duration is read as that duration. -/
theorem durationOfText?_plain {d : Double} (h : d.isFinite = true) :
    durationOfText? d.plain = some d := by
  rw [durationOfText?, (isWord_plain h).solid.trim_eq, Double.ofText?_plain h, Option.filter_some,
    h]
  rfl

theorem record_minDuration (fields : FilterFields) {d : Double} (h : d.isFinite = true) :
    fields.record (clauseText "min_duration_ms" d.plain)
      = some { fields with minDuration := some d } := by
  rw [record_clauseText fields (k := .minDuration) (by decide)
    (by decide +kernel) (.word (isWord_plain h)), recordValue, Literal.value,
    durationOfText?_plain h, Option.map_some]

theorem record_maxDuration (fields : FilterFields) {d : Double} (h : d.isFinite = true) :
    fields.record (clauseText "max_duration_ms" d.plain)
      = some { fields with maxDuration := some d } := by
  rw [record_clauseText fields (k := .maxDuration) (by decide)
    (by decide +kernel) (.word (isWord_plain h)), recordValue, Literal.value,
    durationOfText?_plain h, Option.map_some]

/-- The first attribute is recorded, unless its value is empty. -/
theorem recordAttribute_none {name : String} (h : FilterKey.IsName name) (value : String) :
    recordAttribute none name value
      = some ((some (AttributeFilter.mk name value)).filter (·.value ≠ "")) := by
  rw [recordAttribute, if_neg h.nonempty]
  by_cases hvalue : value = "" <;> simp [hvalue, Option.filter]

theorem record_attr (fields : FilterFields) (a : AttributeFilter) (h : FilterKey.IsName a.key)
    (hnone : fields.attr = none) :
    fields.record (clauseText (FilterKey.attributeHead ++ a.key) (Quote.quoteDouble a.value.toList))
      = some { fields with attr := (some a).filter (·.value ≠ "") } := by
  rw [record_clauseText fields (FilterKey.isWord_attribute h) (FilterKey.classify_attribute h.chars)
    (.quoted _), value_quoted, recordValue, hnone, String.ofList_toList, recordAttribute_none h,
    Option.map_some]

theorem record_resource (fields : FilterFields) (a : AttributeFilter) (h : FilterKey.IsName a.key)
    (hnone : fields.resource = none) :
    fields.record (clauseText (FilterKey.resourceHead ++ a.key) (Quote.quoteDouble a.value.toList))
      = some { fields with resource := (some a).filter (·.value ≠ "") } := by
  rw [record_clauseText fields (FilterKey.isWord_resource h) (FilterKey.classify_resource h.chars)
    (.quoted _), value_quoted, recordValue, hnone, String.ofList_toList, recordAttribute_none h,
    Option.map_some]

end FilterFields

end QueryPanel
