import QueryPanel.Proofs.Completion.AcceptedValue
import QueryPanel.Proofs.Completion.Typing
import QueryPanel.Proofs.Filter.Spelling
import QueryPanel.Proofs.Ranking.Suggestions

/-!
# Typing ahead

A user who knows a value of a catalog types its beginning behind an opening mark, each character as
it is written in a literal, and can stop anywhere: the value is among the suggestions, and accepting
it is as good as having typed all of it.

> `type_ahead_reaches_value`: the value is offered once, before everything that does not begin with
> what has been typed, and with it in place the expression asks for it.

Four things come together. The key may be an alias, in any case and with blanks around it; without
them it is a word (`FilterKey.isWord_of_normalize`), so the clause is cut and its sign found. The
slot knows the characters typed so far (`Slot.ofText_halfQuoted`). They are compared in lower case
and without the blanks that they end with, and the value begins with them still
(`Text.lower_trim_isPrefix`). And the value goes in place of the open literal, at the end of the
last clause, which is the last one to be recorded (`Editor.text_accept_value`).
-/

namespace QueryPanel

open Clause (Compared Head IsKey IsWord textOf pieces lastSegment beginsWithConjunction)

/-! ## The slot of a literal that is open -/

/-- The clause of a closed literal has no conjunction in it, so that of an open one has none. -/
theorem Clause.Head.no_others_halfQuoted (head : Head) (query : List Char) :
    (pieces .start (head.text ++ '"' :: Quote.escape query)).2 = [] := by
  have hwritten : Written (Quote.quoteDouble query) _ := .quoted query
  have hclosed := congrArg Prod.snd (pieces_clause head hwritten.spells)
  rw [Quote.quoteDouble, ← List.append_assoc] at hclosed
  exact no_others_of_append hclosed

namespace Slot

variable {front key : List Char}

theorem trimStart_lastSegment_behind {cs : List Char} (h : ClosedPrefix front)
    (begins : beginsWithConjunction cs = false) :
    Text.trimStart (lastSegment (front ++ cs)) = Text.trimStart (lastSegment cs) := by
  cases h with
  | nothing => rfl
  | conjunction bare => exact Clause.trimStart_lastSegment_join bare begins

/-- Behind an opening mark the slot is a value, whatever has been typed of it. -/
theorem ofText_halfQuoted (hfront : ClosedPrefix front) (hkey : IsWord (Text.trim key))
    (query : List Char) :
    ofText (front ++ textOf key ('"' :: Quote.escape query))
      = onRange .value (String.ofList query) (some (String.ofList (Text.trim key)))
          ('"' :: Quote.escape query)
          (Text.byteLength (front ++ textOf key ('"' :: Quote.escape query))) := by
  obtain ⟨lead, head, hlead, hhead, hbefore, hbehind, htext⟩ := Clause.exists_head_of_trim hkey
  have hbegins : beginsWithConjunction (head.text ++ '"' :: Quote.escape query) = false :=
    head.beginsWithConjunction_text (hhead ▸ hkey.isKey) hbefore _
  have hlong := Clause.beginsWithConjunction_blanks hlead hbegins
  have hbody : Text.trimStart (lastSegment (front ++ textOf key ('"' :: Quote.escape query)))
      = head.text ++ '"' :: Quote.escape query := by
    rw [htext, trimStart_lastSegment_behind hfront hlong,
      Clause.trimStart_lastSegment_blanks hlead hbegins,
      Clause.lastSegment_of_no_others (head.no_others_halfQuoted query), Head.text,
      List.append_assoc, head.solid_key.trimStart_append]
  have hopen : Quote.double.split? (Quote.escape query) = none :=
    Quote.open_iff.mp (Quote.open_of_encloses (Quote.escaped_escape query))
  have hvalue : Quote.double.value (Quote.escape query) = query := Quote.unescape_escape query
  rw [ofText_head head hbody, hhead, hbehind]
  refine (afterEquals_quote isBlank_of_mem_space .double (Quote.escape query)).trans ?_
  rw [hopen, hvalue]
  rfl

end Slot

/-! ## The values of a catalog -/

namespace Completer

/-- A value of a catalog as it is offered. -/
def quotedValue (value : String) : Suggestion :=
  ⟨.value, value, String.ofList (Quote.quoteDouble value.toList), none⟩

variable {c : Completer} {scope : Scope} {slot : Slot} {catalogs : Catalogs}

/-- So many entries are left of a catalog as it has different ones that are not empty. -/
theorem length_distinct (entries : List String) :
    (distinct entries).length = (entries.toFinset.erase "").card := by
  rw [← List.toFinset_card_of_nodup (nodup_distinct entries)]
  congr 1
  ext e
  rw [List.mem_toFinset, mem_distinct_iff, Finset.mem_erase, List.mem_toFinset, and_comm]

theorem labels_quotedValues (values : List String) :
    (quotedValues values).map (·.suggestion.label) = distinct values := by
  rw [quotedValues, List.map_map]
  exact List.map_id _

/-- The candidates for the value of a text field are its catalog. -/
theorem candidates_of_text (hkind : slot.kind = .value) {key : String} (hkey : slot.key = some key)
    {f : TextField} (hnormal : FilterKey.normalize key = f.key) :
    c.candidates scope slot catalogs = quotedValues (catalogOf scope catalogs f) := by
  have htype : f.key ≠ "metric.type" := by cases f <;> decide
  have hclassify : FilterKey.ofNormal? f.key = some (.text f) := by
    have := FilterKey.classify_of_normalize hnormal
    rwa [FilterKey.classify, hnormal] at this
  rw [candidates, hkind]
  simp only [hkey, Option.map_some, Option.getD_some, valueCandidates]
  rw [hnormal, if_neg htype, hclassify]

/-- A value that begins with what has been typed is offered once, and what stands before it begins
with that as well. -/
theorem exists_suggest_of_begins {values : List String}
    (hcandidates : c.candidates scope slot catalogs = quotedValues values)
    (hlimit : (values.toFinset.erase "").card ≤ c.limit) {value : String} (hmem : value ∈ values)
    (hne : value ≠ "") (hbegins : (quotedValue value).Begins slot.needle) :
    ∃ before behind, c.suggest scope slot catalogs = before ++ quotedValue value :: behind ∧
      (∀ s ∈ before ++ behind, s.label ≠ value) ∧ ∀ s ∈ before, s.Begins slot.needle := by
  have hcandidate : { suggestion := quotedValue value } ∈ quotedValues values :=
    List.mem_map.mpr ⟨value, mem_distinct_iff.mpr ⟨hmem, hne⟩, rfl⟩
  obtain ⟨better, worse, hranked, hbetter⟩ :=
    Candidate.exists_ranked_of_begins slot.needle hcandidate hbegins
  have hperm := Candidate.ranked_perm slot.needle (quotedValues values)
  have hall : (Candidate.ranked slot.needle (quotedValues values)).length ≤ c.limit := by
    rw [hperm.length_eq]
    refine Nat.le_trans (List.length_filter_le _ _) ?_
    rwa [quotedValues, List.length_map, length_distinct]
  have hlabels : ((Candidate.ranked slot.needle (quotedValues values)).map
      (·.suggestion.label)).Nodup := by
    refine (hperm.map _).nodup_iff.mpr (List.Nodup.sublist (List.filter_sublist.map _) ?_)
    rw [labels_quotedValues]
    exact nodup_distinct values
  refine ⟨better.map (·.suggestion), worse.map (·.suggestion), ?_, ?_, ?_⟩
  · rw [suggest_eq, ranked, hcandidates, List.take_of_length_le hall, hranked, List.map_append,
      List.map_cons]
  · rw [hranked, List.map_append, List.map_cons, List.nodup_middle, ← List.map_append] at hlabels
    rw [← List.map_append]
    rintro s hs rfl
    obtain ⟨d, hd, rfl⟩ := List.mem_map.mp hs
    exact (List.nodup_cons.mp hlabels).1 (List.mem_map.mpr ⟨d, hd, rfl⟩)
  · intro s hs
    obtain ⟨d, hd, rfl⟩ := List.mem_map.mp hs
    exact hbetter d hd

end Completer

/-! ## Accepting a value -/

namespace Editor

/-- Accepting a value in quotes at the end of an expression puts it behind the equals sign of the
last clause. -/
theorem exists_accept_value {expression : String} (hkind : (Slot.atEnd expression).kind = .value)
    {s : Suggestion} (hs : s.kind = .value) {value : List Char}
    (hquoted : s.insertText = String.ofList (Quote.quoteDouble value)) :
    ∃ front key tail behind, Compared front key tail ∧
      (Slot.atEnd expression).key = some (String.ofList (Text.trim key)) ∧
      (∀ c ∈ behind, Text.isBlank c = true) ∧
      accept expression (Slot.atEnd expression) s
        = atEnd (front ++ (key ++ '=' :: (behind ++ (Quote.quoteDouble value ++ [' '])))) := by
  have hparts := Slot.exists_parts_of_value (Slot.atEnd_eq expression ▸ hkind)
  rw [← Slot.atEnd_eq] at hparts
  obtain ⟨front, key, behind, typed, htext, hbehind, hcompared, hkey, hstart, hstop⟩ := hparts
  obtain ⟨behind', hbehind', hsplice⟩ := exists_spliceTerm_value front key hbehind value
  have hexpression : String.ofList (front ++ (key ++ '=' :: behind) ++ (typed ++ []))
      = expression := by
    rw [List.append_nil, ← htext, String.ofList_toList]
  refine ⟨front, key, _, behind', hcompared, hkey, hbehind', ?_⟩
  have haccept := accept_parts hstart hstop [] s
  rw [hexpression, hs] at haccept
  dsimp only at haccept
  rw [haccept, hquoted, String.toList_ofList, hsplice, atEnd]

end Editor

namespace FilterFields

/-- A clause with a value in quotes sets the field of its key. -/
theorem record_head_quoteDouble (fields : FilterFields) (head : Head) {value : String}
    (hvalue : value ≠ "") {f : TextField}
    (hclassify : FilterKey.classify (String.ofList head.key) = some (.text f)) :
    fields.record (head.text ++ Quote.quoteDouble value.toList)
      = some (fields.setText (some value) f) := by
  have hwritten : Clause.Written (Quote.quoteDouble value.toList) _ := .quoted value.toList
  rw [record_head fields head hclassify hwritten.spells, value_quoted,
    recordValue_text fields f hvalue]

/-- What the last clause of a text sets stays. -/
theorem text_read_of_split {expression : String} {earlier : List (List Char)} {clause : List Char}
    (h : Clause.split expression.toList = earlier ++ [clause]) {f : TextField} {value : String}
    (hrecord : ∀ fields : FilterFields,
      fields.record clause = some (fields.setText (some value) f)) :
    (read expression).fields.text f = some value := by
  rw [read, h, ParsedFilter.ofClauses, List.foldl_append, List.foldl_cons, List.foldl_nil,
    ParsedFilter.addClause, hrecord]
  exact text_setText_self _ _ f

end FilterFields

/-- The expression with a value of a text field in it asks for that value. -/
theorem Editor.text_accept_value {expression : String} {key : String} {f : TextField}
    (hkind : (Slot.atEnd expression).kind = .value)
    (hkey : (Slot.atEnd expression).key = some key) (hword : IsWord key.toList)
    (hclassify : FilterKey.classify key = some (.text f)) {s : Suggestion} (hs : s.kind = .value)
    {value : String} (hvalue : value ≠ "")
    (hquoted : s.insertText = String.ofList (Quote.quoteDouble value.toList)) :
    (FilterFields.read (accept expression (Slot.atEnd expression) s).expression).fields.text f
      = some value := by
  obtain ⟨front, raw, tail, behind, hcompared, hraw, hbehind, haccept⟩ :=
    exists_accept_value hkind hs hquoted
  obtain rfl : String.ofList (Text.trim raw) = key := Option.some.inj (hraw.symm.trans hkey)
  rw [String.toList_ofList] at hword
  obtain ⟨-, earlier, -, hsplit⟩ := hcompared.finished hbehind value.toList
  obtain ⟨head, hhead, htext⟩ := hcompared.exists_head hword.nonempty hword.chars hbehind
  rw [← toList_expression_atEnd (front ++ _), ← haccept] at hsplit
  apply FilterFields.text_read_of_split hsplit
  intro fields
  rw [← htext]
  exact FilterFields.record_head_quoteDouble fields head hvalue (hhead ▸ hclassify)

/-! ## Every value can be typed ahead -/

/-- Whatever beginning of a value has been typed behind its opening mark, the value is offered once,
and before everything that does not begin with what has been typed; and with the value accepted, the
expression asks for it. -/
theorem type_ahead_reaches_value (c : Completer) (scope : Scope) (catalogs : Catalogs)
    {front key value : String} {f : TextField} {query : List Char}
    (hfront : Slot.ClosedPrefix front.toList) (hkey : FilterKey.normalize key = f.key)
    (hmem : value ∈ Completer.catalogOf scope catalogs f)
    (hascii : ∀ ch ∈ value.toList, ch.toNat < 128) (hne : value ≠ "")
    (hstart : Text.trimStart value.toList = value.toList) (hquery : query <+: value.toList)
    (hlimit : ((Completer.catalogOf scope catalogs f).toFinset.erase "").card ≤ c.limit) :
    let typed := Slot.withLiteral front key (Quote.quoteDouble query).dropLast
    (∃ before behind,
      c.suggest scope (Slot.atEnd typed) catalogs
          = before ++ Completer.quotedValue value :: behind ∧
        (∀ s ∈ before ++ behind, s.label ≠ value) ∧
        ∀ s ∈ before, s.Begins (Text.lower (Text.trim query))) ∧
      (FilterFields.read (Editor.accept typed (Slot.atEnd typed)
          (Completer.quotedValue value)).expression).fields.text f = some value := by
  intro typed
  have hword := FilterKey.isWord_of_normalize hkey
  have hslot : Slot.atEnd typed = Slot.onRange .value (String.ofList query)
      (some (String.ofList (Text.trim key.toList))) ('"' :: Quote.escape query)
      (Text.byteLength typed.toList) := by
    rw [Slot.atEnd_eq, Slot.toList_withLiteral, Quote.quoteDouble, List.dropLast_concat,
      Slot.ofText_halfQuoted hfront hword]
  have htrimmed : FilterKey.normalize (String.ofList (Text.trim key.toList)) = f.key := by
    rw [← hkey, FilterKey.normalize, FilterKey.normalize, String.toList_ofList, Text.trim_trim]
  have hneedle : (Slot.atEnd typed).needle = Text.lower (Text.trim query) := by
    rw [hslot, Slot.needle, Slot.onRange, String.toList_ofList]
  have hbegins : (Completer.quotedValue value).Begins (Slot.atEnd typed).needle := by
    rw [hneedle]
    exact .inl (Text.lower_trim_isPrefix hquery hascii hstart)
  constructor
  · rw [← hneedle]
    refine Completer.exists_suggest_of_begins ?_ hlimit hmem hne hbegins
    rw [hslot]
    exact Completer.candidates_of_text rfl rfl htrimmed
  · have hkind : (Slot.atEnd typed).kind = .value := by rw [hslot]; rfl
    have hslotKey : (Slot.atEnd typed).key = some (String.ofList (Text.trim key.toList)) := by
      rw [hslot]
      rfl
    refine Editor.text_accept_value hkind hslotKey ?_ (FilterKey.classify_of_normalize htrimmed)
      rfl hne rfl
    rwa [String.toList_ofList]

/-- Environments, one of them twice and one with no name. -/
def oddEnvironments : Catalogs where
  environments := ["a\\ \"B", "A\\ \"b AND c", "", "no a\\ \"", "A\\ \"b AND c"]

/-- An alias in capitals with blanks around it, and a value up to the second of the two characters
that need a backslash. -/
def halfEscaped : String :=
  "k = 'x' and AND  ENV  = \"A\\\\ \\\""

theorem halfEscaped_reaches_value :
    (∃ before behind, Completer.suggest ⟨3, []⟩ .logs (Slot.atEnd halfEscaped) oddEnvironments
        = before ++ Completer.quotedValue "A\\ \"b AND c" :: behind ∧
      (∀ s ∈ before ++ behind, s.label ≠ "A\\ \"b AND c") ∧
      ∀ s ∈ before, s.Begins "a\\ \"".toList) ∧
    (FilterFields.read (Editor.accept halfEscaped (Slot.atEnd halfEscaped)
        (Completer.quotedValue "A\\ \"b AND c")).expression).fields.environment
      = some "A\\ \"b AND c" := by
  have hfront : Slot.ClosedPrefix "k = 'x' and AND ".toList :=
    have bare : (Scan.start.run "k = 'x' and".toList).isBare = true := by decide
    .conjunction bare
  have hkey : FilterKey.normalize " ENV " = TextField.environment.key := by decide +kernel
  have hascii : ∀ ch ∈ "A\\ \"b AND c".toList, ch.toNat < 128 := by
    have hall : ("A\\ \"b AND c".toList.all fun ch => ch.toNat < 128) = true := by decide +kernel
    exact fun ch hch => of_decide_eq_true (List.all_eq_true.mp hall ch hch)
  have hquery : "A\\ \"".toList <+: "A\\ \"b AND c".toList := by decide +kernel
  have htyped : Slot.withLiteral "k = 'x' and AND " " ENV "
      (Quote.quoteDouble "A\\ \"".toList).dropLast = halfEscaped := by decide +kernel
  have hreaches := type_ahead_reaches_value ⟨3, []⟩ .logs oddEnvironments hfront hkey
    (List.mem_cons_of_mem _ List.mem_cons_self) hascii (by decide) (by decide +kernel) hquery
    (by decide +kernel)
  rw [htyped] at hreaches
  have hneedle : Text.lower (Text.trim "A\\ \"".toList) = "a\\ \"".toList := by decide +kernel
  rw [hneedle] at hreaches
  exact hreaches

end QueryPanel
