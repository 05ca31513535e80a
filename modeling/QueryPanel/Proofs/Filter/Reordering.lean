import QueryPanel.Proofs.Clause.Quoted
import QueryPanel.Proofs.Filter.Conjoining
import QueryPanel.Proofs.Filter.Recording

/-!
# Clauses in another order

The order of the clauses in a filter text counts only where two of them are about one field: of two
texts the later one stays, of two attributes the earlier one. A clause asks for something at the
field that its key names and nowhere else (`sameField_of_asksAt`), so what two clauses on different
fields ask for can be read in either order (`followedBy_comm`). Which field that is, is decided by
`FilterKey.classify`: an alias or another case of a letter makes no other field of it, all
attributes share one field whatever their names, and a key that is not known names none.

> `read_of_reordered`: a text of clauses with values in quotes, no two of them on one field, says
> the same in any order of its clauses.

That the clauses of the text are the ones it was made of, in their order, is a part of the result:
no value, whatever quotes and conjunctions are in it, reaches into the clause beside it.
-/

namespace QueryPanel

namespace FilterKey

/-- Two keys that name the same field. -/
def SameField : FilterKey → FilterKey → Prop
  | .attr _, .attr _ => True
  | .resource _, .resource _ => True
  | k, k' => k = k'

instance : DecidableRel SameField := fun k k' => by
  unfold SameField
  split <;> infer_instance

theorem SameField.refl (k : FilterKey) : SameField k k := by
  cases k <;> simp [SameField]

/-- Two keys that name the field of a third one name the same. -/
theorem SameField.of_both {k k' k'' : FilterKey} (h : k.SameField k'') (h' : k'.SameField k'') :
    k.SameField k' := by
  cases k'' <;> cases k <;> cases k' <;> simp_all [SameField]

/-- Two raw keys of which not both are known, or which name different fields. -/
def Apart (a b : String) : Prop :=
  ∀ k ∈ classify a, ∀ k' ∈ classify b, ¬ k.SameField k'

instance (a b : String) : Decidable (Apart a b) :=
  inferInstanceAs (Decidable (∀ k ∈ classify a, ∀ k' ∈ classify b, ¬ k.SameField k'))

end FilterKey

open FilterKey (SameField Apart)

namespace FilterFields

/-! ## Where a filter asks for something -/

/-- The fields ask for something at the field that a key names. -/
def asksAt (fields : FilterFields) : FilterKey → Bool
  | .text f => (fields.text f).isSome
  | .hasError => fields.hasError.isSome
  | .rootOnly => fields.rootOnly.isSome
  | .minDuration => fields.minDuration.isSome
  | .maxDuration => fields.maxDuration.isSome
  | .attr _ => fields.attr.isSome
  | .resource _ => fields.resource.isSome

theorem asksAt_empty (k : FilterKey) : empty.asksAt k = false := by
  cases k with
  | text f => cases f <;> rfl
  | _ => rfl

theorem asksAt_setText {value : Option String} {f : TextField} {k : FilterKey}
    (h : (empty.setText value f).asksAt k = true) : SameField (.text f) k := by
  cases k with
  | text g =>
    by_cases hg : g = f
    · rw [hg]
      exact SameField.refl (.text f)
    · rw [asksAt, text_setText_of_ne _ _ hg] at h
      exact absurd ((asksAt_empty (.text g)).symm.trans h) Bool.false_ne_true
  | _ => cases f <;> cases h

/-- What a clause on a known key asks for is at the field of the key. -/
theorem sameField_of_recordValue {value : List Char} {k k' : FilterKey} {fields : FilterFields}
    (h : empty.recordValue value k = some fields) (hasks : fields.asksAt k' = true) :
    k.SameField k' := by
  have hne : fields ≠ empty := by
    rintro rfl
    rw [asksAt_empty] at hasks
    cases hasks
  cases k with
  | text f =>
    rw [recordValue] at h
    split at h
    · exact absurd (Option.some.inj h).symm hne
    · rw [← Option.some.inj h] at hasks
      exact asksAt_setText hasks
  | hasError =>
    obtain ⟨b, -, rfl⟩ := Option.map_eq_some_iff.mp h
    cases b with
    | false => exact absurd rfl hne
    | true => cases k' with
      | text f => cases f <;> cases hasks
      | hasError => exact SameField.refl _
      | _ => cases hasks
  | rootOnly =>
    obtain ⟨b, -, rfl⟩ := Option.map_eq_some_iff.mp h
    cases b with
    | true => exact absurd rfl hne
    | false => cases k' with
      | text f => cases f <;> cases hasks
      | rootOnly => exact SameField.refl _
      | _ => cases hasks
  | minDuration =>
    obtain ⟨d, -, rfl⟩ := Option.map_eq_some_iff.mp h
    cases k' with
    | text f => cases f <;> cases hasks
    | minDuration => exact SameField.refl _
    | _ => cases hasks
  | maxDuration =>
    obtain ⟨d, -, rfl⟩ := Option.map_eq_some_iff.mp h
    cases k' with
    | text f => cases f <;> cases hasks
    | maxDuration => exact SameField.refl _
    | _ => cases hasks
  | attr name =>
    obtain ⟨a, -, rfl⟩ := Option.map_eq_some_iff.mp h
    cases k' with
    | text f => cases f <;> cases hasks
    | attr name' => trivial
    | _ => cases hasks
  | resource name =>
    obtain ⟨a, -, rfl⟩ := Option.map_eq_some_iff.mp h
    cases k' with
    | text f => cases f <;> cases hasks
    | resource name' => trivial
    | _ => cases hasks

/-- Fields that ask for nothing in common can be read in either order. -/
theorem followedBy_comm {a b : FilterFields}
    (h : ∀ k, a.asksAt k = true → b.asksAt k = true → False) :
    a.followedBy b = b.followedBy a := by
  have hor {α : Type} (x y : Option α) (hxy : x.isSome = true → y.isSome = true → False) :
      x.or y = y.or x := by
    cases x with
    | none => rw [Option.none_or, Option.or_none]
    | some v =>
      cases y with
      | none => rfl
      | some w => exact (hxy rfl rfl).elim
  have htext (f : TextField) : (a.text f).or (b.text f) = (b.text f).or (a.text f) :=
    hor _ _ (h (.text f))
  simp only [followedBy, mergedWith, mk.injEq]
  exact ⟨(htext .service).symm, (htext .spanName).symm, (htext .environment).symm,
    (htext .commitSha).symm, (htext .severity).symm, (htext .httpMethod).symm,
    (htext .httpStatusCode).symm, (hor _ _ (h .hasError)).symm, (hor _ _ (h .rootOnly)).symm,
    (hor _ _ (h .minDuration)).symm, (hor _ _ (h .maxDuration)).symm, hor _ _ (h (.attr "")),
    hor _ _ (h (.resource ""))⟩

/-! ## Clauses with values in quotes -/

/-- The clause of a key and a value in quotes. -/
def quotedClause (c : String × String) : List Char :=
  clauseText c.1 (Quote.quoteDouble c.2.toList)

/-- The text of such clauses. -/
def joined (clauses : List (String × String)) : String :=
  String.ofList (joinClauses (clauses.map quotedClause))

theorem trim_quotedClause {key : String} (hkey : Clause.IsWord key.toList) (value : String) :
    Text.trim (quotedClause (key, value)) = quotedClause (key, value) :=
  (hkey.solid.append " = ".toList (Clause.Written.quoted value.toList).solid).trim_eq

/-- Without a key there is nothing that is read. -/
theorem ofText?_trim_no_key (value : String) :
    Clause.ofText? (Text.trim (quotedClause ("", value))) = none := by
  have hsolid : Text.Solid ('=' :: ' ' :: Quote.quoteDouble value.toList) :=
    ⟨⟨'=', _, rfl, rfl⟩, ⟨'=' :: ' ' :: '"' :: Quote.escape value.toList, '"', by
      rw [Quote.quoteDouble]
      simp, rfl⟩⟩
  have htrim : Text.trim (quotedClause ("", value))
      = '=' :: ' ' :: Quote.quoteDouble value.toList := by
    show Text.trim (' ' :: '=' :: ' ' :: Quote.quoteDouble value.toList) = _
    rw [Text.trim_cons_blank Text.isBlank_space, hsolid.trim_eq]
  rw [htrim, Clause.ofText?]
  rfl

/-- A clause asks for something only if its key is known, and then at the field of the key. -/
theorem sameField_of_asksAt {key value : String} (hkey : Clause.IsKey key.toList) {k' : FilterKey}
    (h : (asked (Text.trim (quotedClause (key, value)))).asksAt k' = true) :
    ∃ k, FilterKey.classify key = some k ∧ k.SameField k' := by
  have hsilent : ¬ empty.asksAt k' = true := by
    rw [asksAt_empty]
    exact Bool.false_ne_true
  by_cases hempty : key = ""
  · rw [hempty, asked, record, ofText?_trim_no_key] at h
    exact absurd h hsilent
  · have hword : Clause.IsWord key.toList :=
      ⟨fun hnil => hempty (String.toList_eq_nil_iff.mp hnil), hkey.chars, hkey.notConjunction⟩
    rw [trim_quotedClause hword, asked, quotedClause] at h
    cases hclassify : FilterKey.classify key with
    | none =>
      rw [record_unknown empty hword hclassify (.quoted value.toList)] at h
      exact absurd h hsilent
    | some k =>
      refine ⟨k, rfl, ?_⟩
      rw [record_clauseText empty hword hclassify (.quoted value.toList)] at h
      cases hrecord : empty.recordValue
          (Literal.quoted .double (Quote.escape value.toList)).value k with
      | none =>
        rw [hrecord] at h
        exact absurd h hsilent
      | some fields =>
        rw [hrecord] at h
        exact sameField_of_recordValue hrecord h

/-- The clauses of such a text are the ones it is made of. -/
theorem split_joined {clauses : List (String × String)}
    (h : ∀ c ∈ clauses, Clause.IsKey c.1.toList) :
    Clause.split (joined clauses).toList = clauses.map fun c => Text.trim (quotedClause c) := by
  have hsealed : ∀ text ∈ clauses.map quotedClause, Clause.Sealed text := by
    intro text htext
    obtain ⟨c, hc, rfl⟩ := List.mem_map.mp htext
    exact (h c hc).sealed_quoted c.2.toList
  rw [joined, String.toList_ofList, Clause.split_joinClauses_of_sealed hsealed, List.flatMap_map,
    List.map_eq_flatMap]
  exact List.flatMap_congr fun c hc => (h c hc).split_quoted c.2.toList

end FilterFields

/-! ## Reordering -/

namespace ParsedFilter

open FilterFields (asked)

/-- Two clauses that ask for the same in either order. -/
def Commute (c d : List Char) : Prop :=
  (asked c).followedBy (asked d) = (asked d).followedBy (asked c)

instance : Std.Symm Commute := ⟨fun _ _ h => h.symm⟩

theorem Commute.addClause {c d : List Char} (h : Commute c d) (p : ParsedFilter) :
    (p.addClause c).addClause d = (p.addClause d).addClause c := by
  have hboth : (ofClauses [c]).followedBy (ofClauses [d])
      = (ofClauses [d]).followedBy (ofClauses [c]) := by
    rw [followedBy, followedBy, fields_ofClauses_singleton, fields_ofClauses_singleton, h,
      Bool.or_comm]
  calc (p.addClause c).addClause d
      = p.followedBy ((ofClauses [c]).followedBy (ofClauses [d])) := by
        rw [addClause_eq, addClause_eq p, followedBy_assoc]
    _ = p.followedBy ((ofClauses [d]).followedBy (ofClauses [c])) := by rw [hboth]
    _ = (p.addClause d).addClause c := by
        rw [addClause_eq, addClause_eq p, followedBy_assoc]

/-- Clauses of which any two commute say the same in any order. -/
theorem ofClauses_of_perm {cs ds : List (List Char)} (hperm : cs.Perm ds)
    (hcomm : cs.Pairwise Commute) : ofClauses ds = ofClauses cs := by
  have hmem : ∀ ⦃c⦄, c ∈ cs → ∀ ⦃d⦄, d ∈ cs → Commute c d :=
    hcomm.forall_of_forall fun _ _ => rfl
  exact (hperm.foldl_eq' (fun c hc d hd p => (hmem hc hd).addClause p) _).symm

end ParsedFilter

namespace FilterFields

/-- Clauses whose keys name different fields commute. -/
theorem commute_quotedClause {c d : String × String} (hc : Clause.IsKey c.1.toList)
    (hd : Clause.IsKey d.1.toList) (hapart : Apart c.1 d.1) :
    ParsedFilter.Commute (Text.trim (quotedClause c)) (Text.trim (quotedClause d)) := by
  refine followedBy_comm fun k hasksC hasksD => ?_
  obtain ⟨kc, hclassifyC, hsameC⟩ := sameField_of_asksAt hc hasksC
  obtain ⟨kd, hclassifyD, hsameD⟩ := sameField_of_asksAt hd hasksD
  exact hapart kc hclassifyC kd hclassifyD (hsameC.of_both hsameD)

/-- A text of clauses with values in quotes, of which no two name the same field, has those clauses
and says the same in any order of them. -/
theorem read_of_reordered {clauses clauses' : List (String × String)}
    (hperm : clauses.Perm clauses') (hkeys : ∀ c ∈ clauses, Clause.IsKey c.1.toList)
    (hapart : clauses.Pairwise fun c d => Apart c.1 d.1) :
    Clause.split (joined clauses').toList
        = clauses'.map (fun c => Text.trim (quotedClause c)) ∧
      read (joined clauses') = read (joined clauses) := by
  have hsplit' := split_joined fun c hc => hkeys c (hperm.mem_iff.mpr hc)
  refine ⟨hsplit', ?_⟩
  rw [read, read, hsplit', split_joined hkeys]
  refine ParsedFilter.ofClauses_of_perm (hperm.map _) (List.pairwise_map.mpr ?_)
  exact hapart.imp_of_mem fun hc hd => commute_quotedClause (hkeys _ hc) (hkeys _ hd)

/-- Clauses on six fields, with an alias, a bare head, keys that are not known and one that is
missing. -/
def sixFields : List (String × String) :=
  [("Env", "a\" AND service.name = \"b"), ("x", "1"), ("RESOURCE.Zone", "\\"), ("", "and"),
    ("has_error", "TRUE"), ("attr.", "y"), ("max_duration_ms", "soon"), ("x", "2"),
    ("http.method", "")]

theorem read_of_reordered_sixFields :
    (∀ c ∈ sixFields, Clause.IsKey c.1.toList) ∧
      sixFields.Pairwise (fun c d => Apart c.1 d.1) ∧
      read (joined sixFields.reverse)
        = ⟨{ environment := some "a\" AND service.name = \"b", hasError := some true,
             resource := some ⟨"Zone", "\\"⟩ }, true⟩ := by
  have hkeys : ∀ c ∈ sixFields, Clause.IsKey c.1.toList := by decide +kernel
  have hapart : sixFields.Pairwise fun c d => Apart c.1 d.1 := by decide +kernel
  obtain ⟨-, hread⟩ := read_of_reordered (List.reverse_perm sixFields).symm hkeys hapart
  refine ⟨hkeys, hapart, hread.trans ?_⟩
  decide +kernel

end FilterFields

end QueryPanel
