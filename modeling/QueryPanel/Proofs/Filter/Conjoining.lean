import QueryPanel.Filter.Text
import QueryPanel.Proofs.Clause.Joining

/-!
# Reading filter texts joined by a conjunction

Reading goes over the clauses of a text with one state, what has been asked for so far, and treats
its members in different ways: a later text field or duration replaces an earlier one, an earlier
attribute stays, the two truth values are only ever set to what is not their default. All of that is
`FilterFields.followedBy`: what a clause asks for can be told without the state before it
(`record_eq`), and is read behind that. As `followedBy` is associative, a list of clauses says what
its parts say, one after the other (`ofClauses_append`).

With that, joining two filter texts by a conjunction means joining what they say.

> `read_of_joined`: for two texts that are not blank and make no other conjunction at the seam, the
> joined text has the clauses of both, is incomplete if one of them is, and asks for what the second
> asks for and, where that is silent, for what the first does; for attributes it is the other way
> round.

The second text may leave a literal open, and a quote in the middle of a word opens none in either.
-/

namespace QueryPanel

open Clause (split)

namespace FilterFields

/-! ## What a clause asks for -/

/-- What a clause asks for on its own. -/
def asked (clause : List Char) : FilterFields :=
  (FilterFields.empty.record clause).getD .empty

/-- What is asked for when `later` is read after `fields`. -/
def followedBy (fields later : FilterFields) : FilterFields :=
  { fields.mergedWith later with
    attr := fields.attr.or later.attr
    resource := fields.resource.or later.resource }

theorem followedBy_empty (fields : FilterFields) : fields.followedBy .empty = fields := by
  simp [followedBy, mergedWith, empty]

theorem followedBy_assoc (a b c : FilterFields) :
    (a.followedBy b).followedBy c = a.followedBy (b.followedBy c) := by
  simp only [followedBy, mergedWith, Option.or_assoc]

theorem recordAttribute_eq (slot : Option AttributeFilter) (name value : String) :
    recordAttribute slot name value = (recordAttribute none name value).map slot.or := by
  unfold recordAttribute
  by_cases hname : name = ""
  · rw [if_pos hname, if_pos hname]
    rfl
  · rw [if_neg hname, if_neg hname]
    cases slot with
    | none => split <;> rfl
    | some a =>
      rw [if_neg fun h => Bool.false_ne_true h.1]
      split <;> rfl

theorem map_eq_map_followedBy {α : Type} {fields : FilterFields} {f g : α → FilterFields}
    (h : ∀ a, f a = fields.followedBy (g a)) (o : Option α) :
    o.map f = (o.map g).map fields.followedBy := by
  rw [Option.map_map]
  exact congrArg (Option.map · o) (funext h)

theorem recordValue_eq (fields : FilterFields) (value : List Char) (key : FilterKey) :
    fields.recordValue value key
      = (FilterFields.empty.recordValue value key).map fields.followedBy := by
  cases key with
  | text f =>
    rw [recordValue, recordValue]
    by_cases hvalue : value.isEmpty = true
    · rw [if_pos hvalue, if_pos hvalue, Option.map_some, followedBy_empty]
    · rw [if_neg hvalue, if_neg hvalue]
      cases f <;> simp [setText, followedBy, mergedWith, empty]
  | hasError =>
    refine map_eq_map_followedBy (fun b => ?_) (boolOfText? value)
    cases b <;> simp [followedBy, mergedWith, empty]
  | rootOnly =>
    refine map_eq_map_followedBy (fun b => ?_) (boolOfText? value)
    cases b <;> simp [followedBy, mergedWith, empty]
  | minDuration =>
    refine map_eq_map_followedBy (fun d => ?_) (durationOfText? value)
    simp [followedBy, mergedWith, empty]
  | maxDuration =>
    refine map_eq_map_followedBy (fun d => ?_) (durationOfText? value)
    simp [followedBy, mergedWith, empty]
  | attr name =>
    rw [recordValue, recordAttribute_eq, Option.map_map]
    refine map_eq_map_followedBy (fun a => ?_) (recordAttribute none name (String.ofList value))
    simp [followedBy, mergedWith, empty]
  | resource name =>
    rw [recordValue, recordAttribute_eq, Option.map_map]
    refine map_eq_map_followedBy (fun a => ?_) (recordAttribute none name (String.ofList value))
    simp [followedBy, mergedWith, empty]

/-- A clause asks for the same whatever has been read before it. -/
theorem record_eq (fields : FilterFields) (clause : List Char) :
    fields.record clause = (FilterFields.empty.record clause).map fields.followedBy := by
  unfold record
  cases Clause.ofText? clause with
  | none => rfl
  | some c =>
    rw [Option.bind_some, Option.bind_some]
    cases FilterKey.classify (String.ofList c.key) with
    | none => exact congrArg some (followedBy_empty fields).symm
    | some key => exact recordValue_eq fields c.literal.value key

end FilterFields

/-! ## What clauses say one after the other -/

namespace ParsedFilter

open FilterFields (asked)

/-- What two texts say when `later` is read after the one that says `p`. -/
def followedBy (p later : ParsedFilter) : ParsedFilter where
  fields := p.fields.followedBy later.fields
  incomplete := p.incomplete || later.incomplete

theorem followedBy_assoc (a b c : ParsedFilter) :
    (a.followedBy b).followedBy c = a.followedBy (b.followedBy c) := by
  simp only [followedBy, FilterFields.followedBy_assoc, Bool.or_assoc]

theorem followedBy_ofClauses_nil (p : ParsedFilter) : p.followedBy (ofClauses []) = p := by
  show ⟨p.fields.followedBy .empty, p.incomplete || false⟩ = p
  rw [FilterFields.followedBy_empty, Bool.or_false]

/-- One more clause says what it says alone. -/
theorem addClause_eq (p : ParsedFilter) (clause : List Char) :
    p.addClause clause = p.followedBy (ofClauses [clause]) := by
  show p.addClause clause = p.followedBy (addClause ⟨.empty, false⟩ clause)
  unfold addClause
  rw [FilterFields.record_eq]
  cases FilterFields.empty.record clause with
  | none =>
    show ⟨p.fields, true⟩ = ParsedFilter.mk (p.fields.followedBy .empty) (p.incomplete || true)
    rw [FilterFields.followedBy_empty, Bool.or_true]
  | some later =>
    show ⟨p.fields.followedBy later, p.incomplete⟩
      = ParsedFilter.mk (p.fields.followedBy later) (p.incomplete || false)
    rw [Bool.or_false]

theorem fields_ofClauses_singleton (clause : List Char) :
    (ofClauses [clause]).fields = asked clause := by
  show (addClause ⟨.empty, false⟩ clause).fields = asked clause
  unfold addClause asked
  cases FilterFields.empty.record clause <;> rfl

theorem addClause_fields (p : ParsedFilter) (clause : List Char) :
    (p.addClause clause).fields = p.fields.followedBy (asked clause) := by
  rw [addClause_eq, ← fields_ofClauses_singleton]
  rfl

/-- More clauses say what they say alone. -/
theorem foldl_addClause (p : ParsedFilter) (clauses : List (List Char)) :
    clauses.foldl addClause p = p.followedBy (ofClauses clauses) := by
  induction clauses generalizing p with
  | nil => exact (followedBy_ofClauses_nil p).symm
  | cons c cs ih =>
    -- The other clauses are read behind the first in both, once behind `p` and once behind nothing.
    have halone : ofClauses (c :: cs) = (ofClauses [c]).followedBy (ofClauses cs) :=
      ih (ofClauses [c])
    rw [List.foldl_cons, ih, addClause_eq, followedBy_assoc, ← halone]

theorem ofClauses_append (xs ys : List (List Char)) :
    ofClauses (xs ++ ys) = (ofClauses xs).followedBy (ofClauses ys) := by
  show (xs ++ ys).foldl addClause _ = _
  rw [List.foldl_append]
  exact foldl_addClause (ofClauses xs) ys

end ParsedFilter

namespace FilterFields

/-- Reading two texts with a conjunction between them is reading the one and then the other, if the
first is outside every literal at its end, the first does not end with the word of a conjunction and
the second does not begin with it. -/
theorem read_of_joined (e₁ e₂ : String) (full₁ : e₁.toList.all Text.isBlank = false)
    (full₂ : e₂.toList.all Text.isBlank = false)
    (bare : (Scan.start.run e₁.toList).isBare = true)
    (ends : Clause.endsWithConjunction e₁.toList = false)
    (begins : Clause.beginsWithConjunction e₂.toList = false) :
    split (e₁ ++ " AND " ++ e₂).toList = split e₁.toList ++ split e₂.toList ∧
      (read (e₁ ++ " AND " ++ e₂)).incomplete
        = ((read e₁).incomplete || (read e₂).incomplete) ∧
      (read (e₁ ++ " AND " ++ e₂)).fields
        = { (read e₁).fields.mergedWith (read e₂).fields with
            attr := (read e₁).fields.attr.or (read e₂).fields.attr
            resource := (read e₁).fields.resource.or (read e₂).fields.resource } := by
  have hsplit : split (e₁ ++ " AND " ++ e₂).toList = split e₁.toList ++ split e₂.toList := by
    rw [String.toList_append, String.toList_append]
    exact Clause.split_join full₁ full₂ bare ends begins
  have hread : read (e₁ ++ " AND " ++ e₂) = (read e₁).followedBy (read e₂) := by
    rw [read, hsplit]
    exact ParsedFilter.ofClauses_append _ _
  refine ⟨hsplit, ?_, ?_⟩
  · rw [hread]
    rfl
  · rw [hread]
    rfl

/-- A text with an apostrophe in a word, which opens no literal. -/
def ofUser : String := "service.name = cart AND attr.user = O'Brien"

/-- A text whose last clause is still being typed. -/
def inZone : String :=
  "resource.zone = a AND attr.user = x and service.name = api AND span.name = \"b and "

/-- Of the two services the later one counts, of the two users the earlier one. -/
theorem read_of_joined_ofUser_inZone :
    split (ofUser ++ " AND " ++ inZone).toList
        = ["service.name = cart", "attr.user = O'Brien", "resource.zone = a", "attr.user = x",
          "service.name = api", "span.name = \"b and"].map String.toList ∧
      (read (ofUser ++ " AND " ++ inZone)).incomplete = true ∧
      (read (ofUser ++ " AND " ++ inZone)).fields
        = { service := some "api", attr := some ⟨"user", "O'Brien"⟩,
            resource := some ⟨"zone", "a"⟩ } := by
  obtain ⟨hsplit, hincomplete, hfields⟩ := read_of_joined ofUser inZone (by decide +kernel)
    (by decide +kernel) (by decide +kernel) (by decide +kernel) (by decide +kernel)
  have hfirst : read ofUser
      = ⟨{ service := some "cart", attr := some ⟨"user", "O'Brien"⟩ }, false⟩ := by
    decide +kernel
  have hsecond : read inZone
      = ⟨{ service := some "api", attr := some ⟨"user", "x"⟩,
           resource := some ⟨"zone", "a"⟩ }, true⟩ := by
    decide +kernel
  have hclauses : split ofUser.toList ++ split inZone.toList
      = ["service.name = cart", "attr.user = O'Brien", "resource.zone = a", "attr.user = x",
          "service.name = api", "span.name = \"b and"].map String.toList := by
    decide +kernel
  rw [hfirst, hsecond] at hincomplete hfields
  exact ⟨hsplit.trans hclauses, hincomplete, hfields⟩

end FilterFields

end QueryPanel
