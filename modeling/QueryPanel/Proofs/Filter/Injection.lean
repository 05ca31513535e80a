import QueryPanel.Proofs.Clause.Quoted
import QueryPanel.Proofs.Filter.Conjoining
import QueryPanel.Proofs.Filter.RoundTrip

/-!
# Names that break out of their clause

Every value in a written filter is quoted, whatever it is made of. The name of an attribute is not:
it is spliced into its key as it is. A name with a conjunction in it cuts its clause in two, and
what it says behind the conjunction is read as a clause of its own; a name that leaves a literal
open leaves it to the value to close it, and then the value says what is read (`Harmless.isBare`).

What a clause asks for does not depend on what has been read before it (`record_eq`), and no later
clause takes it back. So a name is harmless if the clause of its attribute is so on its own, and
then the clauses around it stay what they are.

> `keeps_read_render_iff`: filters with names of a given set keep their texts when they are written
> and read again, and ask for nothing new, exactly if each name of the set is harmless.

A name is harmless if it leaves no literal open and has no conjunction in it (`harmless_of_closed`).
-/

namespace QueryPanel

open Clause (split Sealed textOf)

open FilterFields (asked)

/-! ## The two slots -/

/-- The slots of a filter that hold an attribute. -/
inductive AttributeSlot where
  | attr
  | resource

namespace AttributeSlot

/-- What the keys of the slot begin with. -/
def head : AttributeSlot → String
  | .attr => FilterKey.attributeHead
  | .resource => FilterKey.resourceHead

/-- The attribute in the slot. -/
def get : AttributeSlot → FilterFields → Option AttributeFilter
  | .attr, fields => fields.attr
  | .resource, fields => fields.resource

/-- The fields with another attribute in the slot. -/
def set : AttributeSlot → FilterFields → Option AttributeFilter → FilterFields
  | .attr, fields, value => { fields with attr := value }
  | .resource, fields, value => { fields with resource := value }

/-- The fields ask for nothing outside the slot. -/
def Only (slot : AttributeSlot) (fields : FilterFields) : Prop :=
  fields = slot.set .empty (slot.get fields)

variable (slot : AttributeSlot)

theorem only_empty : slot.Only .empty := by
  cases slot <;> rfl

theorem only_followedBy_iff (fields later : FilterFields) :
    slot.Only (fields.followedBy later) ↔ slot.Only fields ∧ slot.Only later := by
  obtain ⟨⟩ := fields
  obtain ⟨⟩ := later
  cases slot <;>
    simp only [Only, set, get, FilterFields.followedBy, FilterFields.mergedWith,
      FilterFields.empty, FilterFields.mk.injEq, Option.or_eq_none_iff, and_true] <;>
    tauto

theorem followedBy_of_only (fields : FilterFields) {later : FilterFields} (h : slot.Only later) :
    fields.followedBy later = slot.set fields ((slot.get fields).or (slot.get later)) := by
  obtain ⟨value, rfl⟩ : ∃ value, later = slot.set .empty value := ⟨_, h⟩
  cases slot with
  | attr =>
    simp [set, get, FilterFields.followedBy, FilterFields.mergedWith, FilterFields.empty]
  | resource =>
    simp [set, get, FilterFields.followedBy, FilterFields.mergedWith, FilterFields.empty]

theorem text_set (fields : FilterFields) (value : Option AttributeFilter) (f : TextField) :
    (slot.set fields value).text f = fields.text f := by
  cases slot <;> cases f <;> rfl

theorem set_set (fields : FilterFields) (a b : Option AttributeFilter) :
    slot.set (slot.set fields a) b = slot.set fields b := by
  cases slot <;> rfl

theorem set_get (fields : FilterFields) : slot.set fields (slot.get fields) = fields := by
  cases slot <;> rfl

/-! ## Reading clauses on one slot -/

/-- Nothing outside a slot is asked for by a list of clauses exactly if none of them does so: no
clause takes back what another one has asked for. -/
theorem only_foldl_iff (cs : List (List Char)) (p : ParsedFilter) :
    slot.Only (cs.foldl ParsedFilter.addClause p).fields ↔
      slot.Only p.fields ∧ ∀ c ∈ cs, slot.Only (asked c) := by
  induction cs generalizing p with
  | nil => simp
  | cons c cs ih =>
    rw [List.foldl_cons, ih, ParsedFilter.addClause_fields, only_followedBy_iff,
      List.forall_mem_cons, and_assoc]

/-- Clauses on one slot leave the others as they are. -/
theorem foldl_of_only {cs : List (List Char)} (h : ∀ c ∈ cs, slot.Only (asked c))
    (p : ParsedFilter) :
    ∃ value, (cs.foldl ParsedFilter.addClause p).fields = slot.set p.fields value := by
  induction cs generalizing p with
  | nil => exact ⟨slot.get p.fields, (slot.set_get p.fields).symm⟩
  | cons c cs ih =>
    obtain ⟨value, hvalue⟩ := ih (fun d hd => h d (List.mem_cons_of_mem c hd)) (p.addClause c)
    rw [ParsedFilter.addClause_fields, slot.followedBy_of_only _ (h c List.mem_cons_self),
      set_set] at hvalue
    exact ⟨value, hvalue⟩

/-- The clause of an attribute in the slot. -/
def clause (key value : String) : List Char :=
  FilterFields.clauseText (slot.head ++ key) (Quote.quoteDouble value.toList)

/-- A key of the slot is harmless if the clause of an attribute under it, whatever the value, is
read as clauses on the slot alone. -/
def Harmless (key : String) : Prop :=
  ∀ value, ∀ c ∈ split (slot.clause key value), slot.Only (asked c)

variable {slot} {key : String}

theorem clause_eq (key value : String) : slot.clause key value
    = (slot.head ++ key).toList ++ ' ' :: '=' :: ' ' :: Quote.quoteDouble value.toList :=
  Clause.textOf_eq _ _

/-! ## Clauses of attributes -/

theorem isKeyChar_head : ∀ c ∈ slot.head.toList, Clause.isKeyChar c = true := by
  cases slot <;> exact List.all_eq_true.mp rfl

theorem solid_head : Text.Solid slot.head.toList := by
  apply Text.solid_of_no_blank
  · cases slot <;> exact List.cons_ne_nil _ _
  · intro c hc
    exact Clause.not_blank_of_isKeyChar (slot.isKeyChar_head c hc)

/-- The head of the slot stands in front of its clauses, whatever the key. -/
theorem clause_eq_head (key value : String) :
    ∃ rest, slot.clause key value = slot.head.toList ++ rest := by
  rw [clause_eq, String.toList_append, List.append_assoc]
  exact ⟨_, rfl⟩

theorem clause_not_blank (key value : String) :
    (slot.clause key value).all Text.isBlank = false := by
  obtain ⟨rest, hrest⟩ := slot.clause_eq_head key value
  rw [hrest]
  exact slot.solid_head.not_all_blank rest

/-- A clause with the head in front that is read is one on the slot. -/
theorem only_asked_of_head (rest : List Char) : slot.Only (asked (slot.head.toList ++ rest)) := by
  unfold asked FilterFields.record
  cases hread : Clause.ofText? (slot.head.toList ++ rest) with
  | none => exact slot.only_empty
  | some c =>
    -- The key of the clause goes on behind the head as far as there are characters for keys.
    have hkey : c.key = slot.head.toList ++ rest.takeWhile Clause.isKeyChar := by
      rw [Clause.key_of_ofText? hread, List.takeWhile_append_of_pos slot.isKeyChar_head]
    have hname : ∀ d ∈ (String.ofList (rest.takeWhile Clause.isKeyChar)).toList,
        Clause.isKeyChar d = true := by
      rw [String.toList_ofList]
      exact fun d hd => List.mem_takeWhile_imp hd
    rw [Option.bind_some, hkey, String.ofList_append, String.ofList_toList]
    cases slot with
    | attr =>
      rw [head, FilterKey.classify_attribute hname]
      show AttributeSlot.attr.Only (((FilterFields.recordAttribute none _ _).map _).getD _)
      cases FilterFields.recordAttribute none (String.ofList (rest.takeWhile Clause.isKeyChar))
        (String.ofList c.literal.value) <;> rfl
    | resource =>
      rw [head, FilterKey.classify_resource hname]
      show AttributeSlot.resource.Only (((FilterFields.recordAttribute none _ _).map _).getD _)
      cases FilterFields.recordAttribute none (String.ofList (rest.takeWhile Clause.isKeyChar))
        (String.ofList c.literal.value) <;> rfl

/-- Behind a key that leaves no literal open, the clause leaves none open either, and it makes no
conjunction with its neighbours. -/
theorem sealed_clause (h : (Scan.start.run (slot.head ++ key).toList).isBare = true)
    (value : String) : Sealed (slot.clause key value) := by
  apply Clause.sealed_quoted h
  obtain ⟨rest, hrest⟩ := slot.clause_eq_head key value
  show Clause.beginsWithConjunction (slot.clause key value) = false
  rw [hrest]
  cases slot <;> rfl

/-! ## Keys that leave a literal open -/

/-- A value that ends whatever literal a key has left open, and asks for a service. -/
def closing : String := "' AND service.name = x AND "

/-- The value closes a literal that is open behind the key, and what follows in it is read as a
clause. -/
theorem mem_split_clause_closing
    (h : ¬ (Scan.start.run (slot.head ++ key).toList).isBare = true) :
    "service.name = x".toList ∈ split (slot.clause key closing) := by
  have htext : slot.clause key closing = ((slot.head ++ key).toList ++ " = \"'".toList)
      ++ " AND ".toList ++ "service.name = x AND \"".toList := by
    rw [clause_eq, List.append_assoc, List.append_assoc]
    rfl
  have hbare : (Scan.start.run ((slot.head ++ key).toList ++ " = \"'".toList)).isBare = true := by
    rw [Scan.run_append]
    cases hstate : Scan.start.run (slot.head ++ key).toList with
    | bare previous =>
      rw [hstate] at h
      exact absurd rfl h
    | single => rfl
    | double => rfl
    | escaped => rfl
  have hends :
      Clause.endsWithConjunction ((slot.head ++ key).toList ++ " = \"'".toList) = false := by
    rw [show " = \"'".toList = " = \"".toList ++ ['\''] from rfl, ← List.append_assoc]
    exact Clause.endsWithConjunction_append_of_ne _ (by decide)
  rw [split, slot.clause_not_blank, htext]
  show _ ∈ (Clause.segments _).map Text.trim
  rw [Clause.map_trim_segments_join hbare hends (by decide)]
  apply List.mem_append_right
  decide +kernel

/-- A harmless key leaves no literal open. -/
theorem Harmless.isBare (h : slot.Harmless key) :
    (Scan.start.run (slot.head ++ key).toList).isBare = true := by
  by_cases hbare : (Scan.start.run (slot.head ++ key).toList).isBare = true
  · exact hbare
  · have honly := h closing _ (mem_split_clause_closing hbare)
    have hasked : (asked "service.name = x".toList).service = some "x" := by decide +kernel
    rw [honly] at hasked
    cases slot <;> exact nomatch hasked

/-! ## Keys without a conjunction -/

/-- The clause of an attribute stays one clause if its key is closed. -/
theorem split_clause_of_closed (h : Clause.Closed (slot.head ++ key).toList) (value : String) :
    split (slot.clause key value) = [slot.clause key value] := by
  have hspells := (Clause.Written.quoted value.toList).spells
  have hpieces : Clause.pieces .start (slot.clause key value) = (slot.clause key value, []) :=
    Clause.pieces_quoted_of_closed h value.toList
  have hsolid : Text.Solid (slot.clause key value) := by
    have hsolid := slot.solid_head.append (key.toList ++ [' ', '=', ' ']) hspells.solid
    rw [clause_eq, String.toList_append, List.append_assoc]
    rwa [List.append_assoc, List.append_assoc] at hsolid
  rw [(sealed_clause h.bare value).split_eq, Clause.segments, hpieces]
  simp [hsolid.trim_eq]

theorem harmless_of_closed (h : Clause.Closed (slot.head ++ key).toList) : slot.Harmless key := by
  intro value c hc
  rw [split_clause_of_closed h, List.mem_singleton] at hc
  obtain ⟨rest, hrest⟩ := slot.clause_eq_head key value
  rw [hc, hrest]
  exact only_asked_of_head rest

end AttributeSlot

namespace FilterFields

/-! ## Reading written fields -/

/-- The fields without their attributes. -/
def withoutAttributes (fields : FilterFields) : FilterFields :=
  { fields with attr := none, resource := none }

/-- The clause of the attribute in a slot, if there is one. -/
def slotClauses (fields : FilterFields) (slot : AttributeSlot) : List (List Char) :=
  ((slot.get fields).map fun a => slot.clause a.key a.value).toList

variable {F : FilterFields}

theorem clauses_eq_append (F : FilterFields) :
    F.clauses = F.withoutAttributes.clauses ++
      (F.slotClauses .attr ++ F.slotClauses .resource) := by
  have hslots : F.slots = F.slots.take 11 ++
      [(AttributeSlot.attr.get F).map fun a => AttributeSlot.attr.clause a.key a.value,
        (AttributeSlot.resource.get F).map fun a =>
          AttributeSlot.resource.clause a.key a.value] := rfl
  have hplain : F.withoutAttributes.slots = F.slots.take 11 ++ [none, none] := rfl
  have hnone : [(none : Option (List Char)), none].filterMap id = [] := rfl
  rw [clauses_eq, clauses_eq, hslots, hplain, List.filterMap_append, List.filterMap_append, hnone,
    List.append_nil]
  congr 1
  unfold slotClauses
  cases AttributeSlot.attr.get F <;> cases AttributeSlot.resource.get F <;> rfl

theorem named_withoutAttributes (F : FilterFields) : F.withoutAttributes.Named := by
  constructor <;> exact nofun

theorem split_render (h : ∀ slot a, AttributeSlot.get slot F = some a → slot.Harmless a.key) :
    split F.render.toList = F.withoutAttributes.clauses ++
      ((F.slotClauses .attr).flatMap split ++ (F.slotClauses .resource).flatMap split) := by
  have hwhole := whole_clauses F.named_withoutAttributes
  have hslot : ∀ slot, ∀ c ∈ F.slotClauses slot, Sealed c := by
    intro slot c hc
    obtain ⟨a, ha, rfl⟩ := Option.map_eq_some_iff.mp (Option.mem_toList.mp hc)
    exact AttributeSlot.sealed_clause (h slot a ha).isBare a.value
  have hsealed : ∀ c ∈ F.clauses, Sealed c := by
    rw [clauses_eq_append]
    intro c hc
    rcases List.mem_append.mp hc with hc | hc
    · exact (hwhole c hc).isSealed
    · rcases List.mem_append.mp hc with hc | hc
      · exact hslot .attr c hc
      · exact hslot .resource c hc
  rw [toList_render, Clause.split_joinClauses_of_sealed hsealed, clauses_eq_append,
    List.flatMap_append, List.flatMap_append, Clause.flatMap_split_of_whole hwhole]

/-- The clause of a slot leaves all other fields as they are, and without it the slot as well. -/
theorem foldl_slotClauses (slot : AttributeSlot)
    (h : ∀ a, slot.get F = some a → slot.Harmless a.key) (p : ParsedFilter) :
    ∃ value, (((F.slotClauses slot).flatMap split).foldl ParsedFilter.addClause p).fields
        = slot.set p.fields value ∧ (slot.get F = none → value = slot.get p.fields) := by
  unfold slotClauses
  cases hget : slot.get F with
  | none => exact ⟨slot.get p.fields, (slot.set_get p.fields).symm, fun _ => rfl⟩
  | some a =>
    have honly := h a hget a.value
    obtain ⟨value, hvalue⟩ := slot.foldl_of_only honly p
    refine ⟨value, ?_, nofun⟩
    rw [← hvalue]
    simp

/-- What is read of written fields keeps their texts and asks for nothing that they do not ask
for. -/
structure Keeps (fields written : FilterFields) : Prop where
  text : ∀ f value, fields.text f = some value → value ≠ "" → written.text f = some value
  noText : ∀ f, fields.text f = none → written.text f = none
  hasError : fields.hasError = none → written.hasError = none
  rootOnly : fields.rootOnly = none → written.rootOnly = none
  minDuration : fields.minDuration = none → written.minDuration = none
  maxDuration : fields.maxDuration = none → written.maxDuration = none
  slot : ∀ slot, AttributeSlot.get slot fields = none → AttributeSlot.get slot written = none

theorem keeps_read_of_harmless
    (h : ∀ slot a, AttributeSlot.get slot F = some a → slot.Harmless a.key) :
    F.Keeps (read F.render).fields := by
  -- The clauses of the attributes are read last, and each changes its own slot.
  have hfirst := ofClauses_clauses F.named_withoutAttributes
  unfold ParsedFilter.ofClauses at hfirst
  obtain ⟨attr, hattr, hnoAttr⟩ := foldl_slotClauses .attr (h .attr)
    ⟨F.withoutAttributes.canonical, false⟩
  obtain ⟨resource, hresource, hnoResource⟩ := foldl_slotClauses .resource (h .resource)
    (((F.slotClauses .attr).flatMap split).foldl ParsedFilter.addClause
      ⟨F.withoutAttributes.canonical, false⟩)
  rw [hattr] at hresource hnoResource
  have hread : (read F.render).fields = AttributeSlot.resource.set
      (AttributeSlot.attr.set F.withoutAttributes.canonical attr) resource := by
    rw [read, split_render h, ParsedFilter.ofClauses, List.foldl_append, List.foldl_append, hfirst,
      hresource]
  have htext : ∀ f, (read F.render).fields.text f = (F.text f).filter (· ≠ "") := by
    intro f
    have hsame : F.withoutAttributes.text f = F.text f := by cases f <;> rfl
    rw [hread, AttributeSlot.text_set, AttributeSlot.text_set, text_canonical, hsame]
  rw [hread] at htext ⊢
  have hfilter {α : Type} {field : Option α} (accepted : α → Bool) (hnone : field = none) :
      field.filter accepted = none := by
    rw [hnone]
    rfl
  exact {
    text := by
      intro f value hvalue hne
      rw [htext, hvalue, Option.filter_some, if_pos (decide_eq_true hne)]
    noText := by
      intro f hnone
      rw [htext, hnone]
      rfl
    hasError := hfilter _
    rootOnly := hfilter _
    minDuration := hfilter _
    maxDuration := hfilter _
    slot := by
      intro slot hnone
      cases slot with
      | attr => exact hnoAttr hnone
      | resource => exact hnoResource hnone }

/-- Fields with one attribute and nothing else are written as its clause. -/
theorem render_set_empty (slot : AttributeSlot) (key value : String) :
    (slot.set .empty (some ⟨key, value⟩)).render.toList = slot.clause key value := by
  rw [toList_render]
  cases slot <;> rfl

/-- What keeps fields with one attribute asks for nothing outside its slot. -/
theorem Keeps.only {slot : AttributeSlot} {a : AttributeFilter} {written : FilterFields}
    (h : (slot.set .empty (some a)).Keeps written) : slot.Only written := by
  have htext : ∀ f, written.text f = none := by
    intro f
    refine h.noText f ?_
    cases slot <;> cases f <;> rfl
  have herror : written.hasError = none := h.hasError (by cases slot <;> rfl)
  have hroot : written.rootOnly = none := h.rootOnly (by cases slot <;> rfl)
  have hmin : written.minDuration = none := h.minDuration (by cases slot <;> rfl)
  have hmax : written.maxDuration = none := h.maxDuration (by cases slot <;> rfl)
  obtain ⟨⟩ := written
  obtain rfl := htext .service
  obtain rfl := htext .spanName
  obtain rfl := htext .environment
  obtain rfl := htext .commitSha
  obtain rfl := htext .severity
  obtain rfl := htext .httpMethod
  obtain rfl := htext .httpStatusCode
  obtain rfl := herror
  obtain rfl := hroot
  obtain rfl := hmin
  obtain rfl := hmax
  cases slot with
  | attr =>
    obtain rfl := h.slot .resource rfl
    rfl
  | resource =>
    obtain rfl := h.slot .attr rfl
    rfl

/-- Whatever names are allowed for attributes: all fields with such names keep their texts when they
are written and read again, and nothing is asked for that they do not ask for, exactly if each of
the names is harmless. -/
theorem keeps_read_render_iff (names : AttributeSlot → Set String) :
    (∀ F : FilterFields, (∀ slot a, AttributeSlot.get slot F = some a → a.key ∈ names slot) →
        F.Keeps (read F.render).fields) ↔
      ∀ slot, ∀ key ∈ names slot, AttributeSlot.Harmless slot key := by
  constructor
  · intro h slot key hkey value
    have hnames : ∀ slot' a,
        AttributeSlot.get slot' (slot.set .empty (some ⟨key, value⟩)) = some a →
          a.key ∈ names slot' := by
      intro slot' a ha
      cases slot <;> cases slot' <;> cases ha <;> exact hkey
    have honly := (h _ hnames).only
    rw [read, render_set_empty, ParsedFilter.ofClauses, AttributeSlot.only_foldl_iff] at honly
    exact honly.2
  · intro h F hnames
    exact keeps_read_of_harmless fun slot a ha => h slot a.key (hnames slot a ha)

/-- A filter with names that no key can have, which are closed all the same. -/
def oddlyNamed : FilterFields where
  service := some "cart"
  attr := some ⟨"a b=\"c AND d\"", "' AND severity = x AND "⟩
  resource := some ⟨"", "\" AND span.name = x AND "⟩

theorem oddlyNamed_is_kept : oddlyNamed.Keeps (read oddlyNamed.render).fields := by
  refine (keeps_read_render_iff fun slot => {key | Clause.Closed (slot.head ++ key).toList}).mpr
    (fun slot key h => AttributeSlot.harmless_of_closed h) oddlyNamed ?_
  intro slot a ha
  cases slot with
  | attr =>
    obtain rfl := Option.some.inj ha
    show Clause.Closed _
    decide +kernel
  | resource =>
    obtain rfl := Option.some.inj ha
    show Clause.Closed _
    decide +kernel

/-- A filter for one attribute, with a conjunction in its name. -/
def breakingOut : FilterFields where
  attr := some ⟨"x = 1 AND service.name", "cart"⟩

/-- It is read as a filter for a service as well. -/
theorem service_is_injected :
    breakingOut.service = none ∧ (read breakingOut.render).fields.service = some "cart" ∧
      ¬ breakingOut.Keeps (read breakingOut.render).fields := by
  have hservice : (read breakingOut.render).fields.service = some "cart" := by decide +kernel
  refine ⟨rfl, hservice, ?_⟩
  intro hkeeps
  have hnone : (read breakingOut.render).fields.service = none := hkeeps.noText .service rfl
  rw [hservice] at hnone
  exact nomatch hnone

end FilterFields

end QueryPanel
