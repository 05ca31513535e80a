import QueryPanel.Proofs.Filter.RoundTrip

/-!
# Fields that survive being written

`Representable` fields are those that a text can say in full, so that writing and reading them
again changes nothing. Whatever text a user applies, and however far it is typed, the fields read
from it are representable (`representable_read`): no branch of `recordValue` stores an empty text,
the wrong truth value, a duration that is no finite number, or a name that no key can carry. Merging
and clearing keep the invariant, and so does every run:

> `run_stays_representable`: in each state that a bag of filters can reach, rereading its fields
> leaves it as it is, with no clause incomplete.
-/

namespace QueryPanel

namespace FilterFields

/-- The fields are what a text can say in full. -/
structure Representable (F : FilterFields) : Prop where
  text : ∀ f, F.text f ≠ some ""
  hasError : F.hasError ≠ some false
  rootOnly : F.rootOnly ≠ some true
  minDuration : ∀ d, F.minDuration = some d → d.isFinite = true
  maxDuration : ∀ d, F.maxDuration = some d → d.isFinite = true
  attr : ∀ a, F.attr = some a → FilterKey.IsName a.key ∧ a.value ≠ ""
  resource : ∀ a, F.resource = some a → FilterKey.IsName a.key ∧ a.value ≠ ""

/-! ## Representable fields are canonical -/

theorem filter_eq_self {α : Type} {o : Option α} {p : α → Bool}
    (h : ∀ a, o = some a → p a = true) : o.filter p = o := by
  cases o with
  | none => rfl
  | some a => rw [Option.filter_some, h a rfl]; rfl

theorem Representable.named {F : FilterFields} (h : F.Representable) : F.Named :=
  ⟨fun a ha => (h.attr a ha).1, fun a ha => (h.resource a ha).1⟩

theorem Representable.canonical_eq {F : FilterFields} (h : F.Representable) : F.canonical = F := by
  have htext : ∀ f, (F.text f).filter (· ≠ "") = F.text f := by
    intro f
    apply filter_eq_self
    intro a ha
    rw [decide_eq_true_eq]
    intro hempty
    exact h.text f (hempty ▸ ha)
  have herror : F.hasError.filter (· = true) = F.hasError := by
    apply filter_eq_self
    intro b hb
    cases b with
    | true => rfl
    | false => exact absurd hb h.hasError
  have hroot : F.rootOnly.filter (· = false) = F.rootOnly := by
    apply filter_eq_self
    intro b hb
    cases b with
    | true => exact absurd hb h.rootOnly
    | false => rfl
  have hmin := filter_eq_self h.minDuration
  have hmax := filter_eq_self h.maxDuration
  have hattr : F.attr.filter (·.value ≠ "") = F.attr :=
    filter_eq_self fun a ha => decide_eq_true (h.attr a ha).2
  have hresource : F.resource.filter (·.value ≠ "") = F.resource :=
    filter_eq_self fun a ha => decide_eq_true (h.resource a ha).2
  have hservice : F.service.filter (· ≠ "") = F.service := htext .service
  have hspan : F.spanName.filter (· ≠ "") = F.spanName := htext .spanName
  have henvironment : F.environment.filter (· ≠ "") = F.environment := htext .environment
  have hcommit : F.commitSha.filter (· ≠ "") = F.commitSha := htext .commitSha
  have hseverity : F.severity.filter (· ≠ "") = F.severity := htext .severity
  have hmethod : F.httpMethod.filter (· ≠ "") = F.httpMethod := htext .httpMethod
  have hstatus : F.httpStatusCode.filter (· ≠ "") = F.httpStatusCode := htext .httpStatusCode
  rw [canonical, hservice, hspan, henvironment, hcommit, hseverity, hmethod, hstatus, herror, hroot,
    hmin, hmax, hattr, hresource]

/-- Writing representable fields and reading them again changes nothing. -/
theorem read_render_of_representable {F : FilterFields} (h : F.Representable) :
    read F.render = ⟨F, false⟩ := by
  rw [read_render h.named, h.canonical_eq]

/-! ## The operations keep fields representable -/

theorem representable_empty : FilterFields.empty.Representable where
  text f := by cases f <;> simp [text, FilterFields.empty]
  hasError := by simp [FilterFields.empty]
  rootOnly := by simp [FilterFields.empty]
  minDuration := by simp [FilterFields.empty]
  maxDuration := by simp [FilterFields.empty]
  attr := by simp [FilterFields.empty]
  resource := by simp [FilterFields.empty]

/-- A value of a merged field comes from one of the two sides. -/
theorem of_or_eq_some {α : Type} {a b : Option α} {v : α} (h : a.or b = some v) :
    a = some v ∨ b = some v := by
  cases a with
  | none => exact .inr h
  | some w => exact .inl h

theorem Representable.mergedWith {F patch : FilterFields} (h : F.Representable)
    (hp : patch.Representable) : (F.mergedWith patch).Representable where
  text f heq := by
    rw [text_mergedWith] at heq
    rcases of_or_eq_some heq with heq | heq
    · exact hp.text f heq
    · exact h.text f heq
  hasError heq := (of_or_eq_some heq).elim hp.hasError h.hasError
  rootOnly heq := (of_or_eq_some heq).elim hp.rootOnly h.rootOnly
  minDuration d hd := (of_or_eq_some hd).elim (hp.minDuration d) (h.minDuration d)
  maxDuration d hd := (of_or_eq_some hd).elim (hp.maxDuration d) (h.maxDuration d)
  attr a ha := (of_or_eq_some ha).elim (hp.attr a) (h.attr a)
  resource a ha := (of_or_eq_some ha).elim (hp.resource a) (h.resource a)

theorem Representable.setText {F : FilterFields} (h : F.Representable) {value : String}
    (hvalue : value ≠ "") (f : TextField) : (F.setText (some value) f).Representable where
  text g := by
    by_cases hg : g = f
    · rw [hg, text_setText_self]
      intro heq
      exact hvalue (Option.some.inj heq)
    · rw [text_setText_of_ne F _ hg]
      exact h.text g
  hasError := by cases f <;> exact h.hasError
  rootOnly := by cases f <;> exact h.rootOnly
  minDuration := by cases f <;> exact h.minDuration
  maxDuration := by cases f <;> exact h.maxDuration
  attr := by cases f <;> exact h.attr
  resource := by cases f <;> exact h.resource

theorem isFinite_of_durationOfText? {cs : List Char} {d : Double}
    (h : durationOfText? cs = some d) : d.isFinite = true :=
  (Option.filter_eq_some_iff.mp h).2

/-- An attribute that is recorded has a name and a value, or it was there before. -/
theorem of_recordAttribute {slot : Option AttributeFilter} {name value : String}
    {recorded : Option AttributeFilter} (h : recordAttribute slot name value = some recorded)
    (hname : ∀ c ∈ name.toList, Clause.isKeyChar c = true)
    (hslot : ∀ a, slot = some a → FilterKey.IsName a.key ∧ a.value ≠ "") :
    ∀ a, recorded = some a → FilterKey.IsName a.key ∧ a.value ≠ "" := by
  unfold recordAttribute at h
  split at h
  · cases h
  · next hne =>
    split at h
    · next hset =>
      cases h
      rintro a ⟨⟩
      exact ⟨⟨hne, hname⟩, hset.2⟩
    · cases h
      exact hslot

theorem isKeyChar_of_ofText? {cs : List Char} {c : Clause} (h : Clause.ofText? cs = some c) :
    ∀ x ∈ c.key, Clause.isKeyChar x = true := by
  unfold Clause.ofText? at h
  dsimp only at h
  split at h
  · split at h
    · cases h
    · obtain ⟨_, _, rfl⟩ := Option.map_eq_some_iff.mp h
      exact List.all_eq_true.mp List.all_takeWhile
  · cases h

theorem isKeyChar_of_classify {key name : String}
    (hkey : ∀ c ∈ key.toList, Clause.isKeyChar c = true)
    (h : FilterKey.classify key = some (.attr name) ∨
      FilterKey.classify key = some (.resource name)) :
    ∀ c ∈ name.toList, Clause.isKeyChar c = true := by
  intro c hc
  have hsuffix := FilterKey.name_of_classify h
  rw [FilterKey.trim_key hkey] at hsuffix
  exact hkey c (hsuffix.subset hc)

/-- What a clause records is representable, whatever stands in it. -/
theorem Representable.record {F G : FilterFields} (h : F.Representable) {clause : List Char}
    (hrecord : F.record clause = some G) : G.Representable := by
  obtain ⟨c, hc, hvalue⟩ := Option.bind_eq_some_iff.mp hrecord
  have hkey : ∀ x ∈ (String.ofList c.key).toList, Clause.isKeyChar x = true := by
    rw [String.toList_ofList]
    exact isKeyChar_of_ofText? hc
  split at hvalue
  · rw [← Option.some.inj hvalue]
    exact h
  · next k hk =>
    cases k with
    | text f =>
      rw [recordValue] at hvalue
      split at hvalue
      · rw [← Option.some.inj hvalue]
        exact h
      · next hne =>
        rw [← Option.some.inj hvalue]
        -- An empty value was refused before.
        refine h.setText (fun hempty => hne ?_) f
        rw [List.isEmpty_iff, ← String.toList_ofList (l := c.literal.value), hempty]
        rfl
    | hasError =>
      obtain ⟨b, _, rfl⟩ := Option.map_eq_some_iff.mp hvalue
      cases b with
      | true => exact { h with hasError := by simp }
      | false => exact h
    | rootOnly =>
      obtain ⟨b, _, rfl⟩ := Option.map_eq_some_iff.mp hvalue
      cases b with
      | true => exact h
      | false => exact { h with rootOnly := by simp }
    | minDuration =>
      obtain ⟨d, hd, rfl⟩ := Option.map_eq_some_iff.mp hvalue
      exact { h with minDuration := by rintro _ ⟨⟩; exact isFinite_of_durationOfText? hd }
    | maxDuration =>
      obtain ⟨d, hd, rfl⟩ := Option.map_eq_some_iff.mp hvalue
      exact { h with maxDuration := by rintro _ ⟨⟩; exact isFinite_of_durationOfText? hd }
    | attr name =>
      obtain ⟨a, ha, rfl⟩ := Option.map_eq_some_iff.mp hvalue
      exact { h with attr := of_recordAttribute ha (isKeyChar_of_classify hkey (.inl hk)) h.attr }
    | resource name =>
      obtain ⟨a, ha, rfl⟩ := Option.map_eq_some_iff.mp hvalue
      exact { h with
        resource := of_recordAttribute ha (isKeyChar_of_classify hkey (.inr hk)) h.resource }

theorem representable_foldl_addClause {clauses : List (List Char)} {p : ParsedFilter}
    (h : p.fields.Representable) :
    (clauses.foldl ParsedFilter.addClause p).fields.Representable := by
  induction clauses generalizing p with
  | nil => exact h
  | cons clause clauses ih =>
    refine ih ?_
    unfold ParsedFilter.addClause
    split
    · next hrecord => exact h.record hrecord
    · exact h

/-- Every text, finished or not, is read as representable fields. -/
theorem representable_read (expression : String) : (read expression).fields.Representable :=
  representable_foldl_addClause representable_empty

end FilterFields

namespace FilterBag

/-! ## Runs -/

/-- A change whose patch, if it has one, is representable. -/
def Step.Representable : Step → Prop
  | .merge patch => patch.Representable
  | _ => True

theorem representable_step {bag : FilterBag} (h : bag.fields.Representable) {s : Step}
    (hs : s.Representable) : (bag.step s).1.fields.Representable := by
  cases s with
  | apply expression =>
    show (bag.apply expression).bag.fields.Representable
    unfold FilterBag.apply
    split
    · exact FilterFields.representable_empty
    · exact h.mergedWith (FilterFields.representable_read expression)
  | merge patch => exact h.mergedWith hs
  | reread => exact FilterFields.representable_read _

/-- A change is one of the fields alone. -/
theorem step_others (bag : FilterBag) (s : Step) :
    (bag.step s).1.metricName = bag.metricName ∧ (bag.step s).1.metricType = bag.metricType ∧
      (bag.step s).1.search = bag.search := by
  cases s with
  | apply expression =>
    show (bag.apply expression).bag.metricName = _ ∧ (bag.apply expression).bag.metricType = _ ∧
      (bag.apply expression).bag.search = _
    unfold FilterBag.apply
    split <;> exact ⟨rfl, rfl, rfl⟩
  | merge patch => exact ⟨rfl, rfl, rfl⟩
  | reread => exact ⟨rfl, rfl, rfl⟩

theorem representable_run {bag : FilterBag} (h : bag.fields.Representable) {steps : List Step}
    (hs : ∀ s ∈ steps, s.Representable) : (bag.run steps).fields.Representable := by
  induction steps generalizing bag with
  | nil => exact h
  | cons s steps ih =>
    exact ih (representable_step h (hs s List.mem_cons_self))
      fun t ht => hs t (List.mem_cons_of_mem s ht)

theorem run_others (bag : FilterBag) (steps : List Step) :
    (bag.run steps).metricName = bag.metricName ∧ (bag.run steps).metricType = bag.metricType ∧
      (bag.run steps).search = bag.search := by
  induction steps generalizing bag with
  | nil => exact ⟨rfl, rfl, rfl⟩
  | cons s steps ih =>
    obtain ⟨hname, htype, hsearch⟩ := ih (bag.step s).1
    obtain ⟨hname', htype', hsearch'⟩ := step_others bag s
    exact ⟨hname.trans hname', htype.trans htype', hsearch.trans hsearch'⟩

/-- Rereading representable fields leaves the bag as it is. -/
theorem step_reread {bag : FilterBag} (h : bag.fields.Representable) :
    bag.step .reread = (bag, some false) := by
  unfold step
  rw [FilterFields.read_render_of_representable h]

/-- In every state that a bag of filters reaches by applied texts, merged patches and rereading, its
fields are representable, rereading them changes nothing and finds no clause incomplete, and the
members that are no fields are what they were. -/
theorem run_stays_representable (bag : FilterBag) (h : bag.fields.Representable) (steps : List Step)
    (hs : ∀ s ∈ steps, s.Representable) :
    (bag.run steps).fields.Representable ∧
      (bag.run steps).step .reread = (bag.run steps, some false) ∧
      (bag.run steps).metricName = bag.metricName ∧
      (bag.run steps).metricType = bag.metricType ∧ (bag.run steps).search = bag.search :=
  have hrun := representable_run h hs
  ⟨hrun, step_reread hrun, run_others bag steps⟩

/-- A text whose last clause is still being typed, a patch, and a rereading. -/
def unfinishedEdit : List Step :=
  [.apply "ATTR.a = \"x\\\"\" and min_duration_ms = inf AND env = 'q\"' AND svc = \"",
    .merge { hasError := some true, minDuration := some (.ofInt 5) }, .reread]

theorem unfinishedEdit_stays_representable :
    (∀ s ∈ unfinishedEdit, s.Representable) ∧
      (FilterBag.run {} unfinishedEdit).step .reread
        = (FilterBag.run {} unfinishedEdit, some false) := by
  have hsteps : ∀ s ∈ unfinishedEdit, s.Representable := by
    intro s hs
    simp only [unfinishedEdit, List.mem_cons, List.not_mem_nil, or_false] at hs
    rcases hs with rfl | rfl | rfl
    · trivial
    · refine ⟨?_, by simp, by simp, ?_, by simp, by simp, by simp⟩
      · intro f
        cases f <;> simp [FilterFields.text]
      · intro d hd
        rw [← Option.some.inj hd]
        decide +kernel
    · trivial
  exact ⟨hsteps, (run_stays_representable {} FilterFields.representable_empty _ hsteps).2.1⟩

end FilterBag

end QueryPanel
