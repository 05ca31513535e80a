import Mathlib.Data.List.Infix
import Mathlib.Data.List.Nodup
import QueryPanel.Completion.Completer
import QueryPanel.Proofs.Ranking.Stable

/-!
# Which suggestions are offered, and in which order

Of the candidates for a slot those are offered that have in them what has been typed. `ranked` puts
them in order without sorting: the ones that begin with it and then the others, of each kind the
clean ones and then the demoted ones, and otherwise as they came. Sorting by the places that
`placed?` gives comes to the same, as a place is one of four levels (`rank_eq`).

> `suggest_best`: the suggestions are the first of the ranked candidates, as many as the limit
> allows; a candidate that fits is left out only for better ones; and no two suggestions have the
> same id.

The last holds because the candidates for a slot are all of its kind and each inserts another text:
catalogs are read without their repetitions, and quoting can be undone (`nodup_insertTexts`). Metric
types are the exception, as they are taken from their catalog as they stand.
-/

namespace QueryPanel

/-! ## What fits -/

/-- What has been typed, as it is looked for. -/
def Slot.needle (slot : Slot) : List Char :=
  Text.lower (Text.trim slot.query.toList)

namespace Suggestion

variable {needle : List Char} {s : Suggestion}

/-- The label or what is inserted has the text in it, in lower case. -/
def Has (needle : List Char) (s : Suggestion) : Prop :=
  needle <:+: Text.lower s.label.toList ∨ needle <:+: Text.lower s.insertText.toList

/-- The label or what is inserted begins with the text, in lower case. -/
def Begins (needle : List Char) (s : Suggestion) : Prop :=
  needle <+: Text.lower s.label.toList ∨ needle <+: Text.lower s.insertText.toList

instance (needle : List Char) (s : Suggestion) : Decidable (s.Has needle) :=
  inferInstanceAs (Decidable (_ ∨ _))

instance (needle : List Char) (s : Suggestion) : Decidable (s.Begins needle) :=
  inferInstanceAs (Decidable (_ ∨ _))

theorem Begins.has (h : s.Begins needle) : s.Has needle :=
  h.imp List.IsPrefix.isInfix List.IsPrefix.isInfix

theorem begins_nil (s : Suggestion) : s.Begins [] :=
  .inl List.nil_prefix

end Suggestion

theorem Tier.of?_eq (needle : List Char) (s : Suggestion) :
    Tier.of? needle s
      = if s.Begins needle then some .beginning else if s.Has needle then some .part else none := by
  unfold Tier.of?
  dsimp only
  simp only [Text.beginsWith, Bool.or_eq_true, List.isPrefixOf_iff_prefix, Text.contains_iff]
  cases needle with
  | nil => rw [if_pos s.begins_nil]; rfl
  | cons _ _ => rfl

/-! ## The order of candidates -/

namespace Candidate

variable (needle : List Char)

/-- The clean candidates, and then the demoted ones. -/
def cleanFirst (candidates : List Candidate) : List Candidate :=
  candidates.filter (!·.demoted) ++ candidates.filter (·.demoted)

/-- The candidates that fit, the best first. -/
def ranked (candidates : List Candidate) : List Candidate :=
  let fitting := candidates.filter (·.suggestion.Has needle)
  cleanFirst (fitting.filter (·.suggestion.Begins needle))
    ++ cleanFirst (fitting.filter fun c => ¬ c.suggestion.Begins needle)

/-- The level on which a candidate is sorted. -/
def level (c : Candidate) : Nat :=
  (if c.suggestion.Begins needle then 0 else 2) + if c.demoted then 1 else 0

theorem level_lt (c : Candidate) : c.level needle < 4 := by
  unfold level
  split <;> split <;> decide

theorem placed?_eq (c : Candidate) :
    placed? needle c
      = if c.suggestion.Has needle then some (c.level needle, c.suggestion) else none := by
  rw [placed?, Tier.of?_eq]
  by_cases hbegins : c.suggestion.Begins needle
  · simp [hbegins, hbegins.has, level, Tier.order]
  · by_cases hhas : c.suggestion.Has needle
    · simp [hbegins, hhas, level, Tier.order]
    · simp [hbegins, hhas]

theorem filterMap_placed? (candidates : List Candidate) :
    candidates.filterMap (placed? needle)
      = (candidates.filter (·.suggestion.Has needle)).map fun c =>
          (c.level needle, c.suggestion) := by
  induction candidates with
  | nil => rfl
  | cons c cs ih =>
    by_cases h : c.suggestion.Has needle
    · simp only [List.filterMap_cons, placed?_eq needle c, List.filter_cons, ih, h, if_true,
        decide_true, List.map_cons]
    · simp only [List.filterMap_cons, placed?_eq needle c, List.filter_cons, ih, h, if_false,
        decide_false, Bool.false_eq_true]

theorem level_iff (c : Candidate) :
    (c.level needle = 0 ↔ c.suggestion.Begins needle ∧ c.demoted = false) ∧
      (c.level needle = 1 ↔ c.suggestion.Begins needle ∧ c.demoted = true) ∧
      (c.level needle = 2 ↔ ¬ c.suggestion.Begins needle ∧ c.demoted = false) ∧
      (c.level needle = 3 ↔ ¬ c.suggestion.Begins needle ∧ c.demoted = true) := by
  unfold level
  by_cases h : c.suggestion.Begins needle
  · cases c.demoted <;> simp [h]
  · cases c.demoted <;> simp [h]

theorem filter_level (candidates : List Candidate) {k : Nat} {p q : Candidate → Bool}
    (h : ∀ c, c.level needle = k ↔ p c = true ∧ q c = true) :
    candidates.filter (fun c => c.level needle = k) = (candidates.filter p).filter q := by
  rw [List.filter_filter]
  refine List.filter_congr fun c _ => ?_
  rw [Bool.eq_iff_iff, decide_eq_true_iff, h c, Bool.and_eq_true, and_comm]

/-- Sorting by level is ranking. -/
theorem mergeSort_level (candidates : List Candidate) :
    ((candidates.filter (·.suggestion.Has needle)).mergeSort fun a b =>
        a.level needle ≤ b.level needle) = ranked needle candidates := by
  unfold ranked cleanFirst
  dsimp only
  generalize candidates.filter (·.suggestion.Has needle) = fitting
  rw [Ranking.mergeSort_eq_flatMap_range fun c _ => c.level_lt needle,
    ← filter_level needle fitting fun c => by simpa using (c.level_iff needle).1,
    ← filter_level needle fitting fun c => by simpa using (c.level_iff needle).2.1,
    ← filter_level needle fitting fun c => by simpa using (c.level_iff needle).2.2.1,
    ← filter_level needle fitting fun c => by simpa using (c.level_iff needle).2.2.2]
  simp [List.range_succ]

/-- What has been typed and the candidates decide which suggestions are offered in which order. -/
theorem rank_eq (candidates : List Candidate) (query : String) :
    rank candidates query
      = (ranked (Text.lower (Text.trim query.toList)) candidates).map (·.suggestion) := by
  unfold rank
  dsimp only
  rw [filterMap_placed?, ← mergeSort_level, ← List.map_mergeSort
    (r := fun a b : Candidate => a.level _ ≤ b.level _) (by intros; rfl), List.map_map]
  rfl

theorem mem_cleanFirst {candidates : List Candidate} {c : Candidate} :
    c ∈ cleanFirst candidates ↔ c ∈ candidates := by
  unfold cleanFirst
  cases h : c.demoted <;> simp [h]

/-- A candidate that begins with the text stands behind others that do, and behind no others. -/
theorem exists_ranked_of_begins {candidates : List Candidate} {c : Candidate}
    (hmem : c ∈ candidates) (hbegins : c.suggestion.Begins needle) :
    ∃ better worse, ranked needle candidates = better ++ c :: worse ∧
      ∀ d ∈ better, d.suggestion.Begins needle := by
  have hfirst : ∀ d, d ∈ cleanFirst ((candidates.filter (·.suggestion.Has needle)).filter
      (·.suggestion.Begins needle)) ↔ d ∈ candidates ∧ d.suggestion.Begins needle := by
    intro d
    rw [mem_cleanFirst, List.mem_filter, List.mem_filter, decide_eq_true_iff, decide_eq_true_iff,
      and_assoc]
    exact and_congr_right fun _ => and_iff_right_of_imp Suggestion.Begins.has
  obtain ⟨better, rest, hsplit⟩ := List.append_of_mem ((hfirst c).mpr ⟨hmem, hbegins⟩)
  rw [hsplit] at hfirst
  unfold ranked
  dsimp only
  rw [hsplit, List.append_assoc, List.cons_append]
  exact ⟨better, _, rfl, fun d hd => ((hfirst d).mp (List.mem_append_left _ hd)).2⟩

theorem ranked_perm (candidates : List Candidate) :
    (ranked needle candidates).Perm (candidates.filter (·.suggestion.Has needle)) := by
  rw [← mergeSort_level]
  exact List.mergeSort_perm _ _

end Candidate

/-! ## Ids -/

theorem Quote.quoteDouble_inj {cs ds : List Char} :
    quoteDouble cs = quoteDouble ds ↔ cs = ds := by
  refine ⟨fun h => ?_, fun h => h ▸ rfl⟩
  have hbody : escape cs = escape ds :=
    List.append_cancel_right (List.cons.inj (h : '"' :: (escape cs ++ ['"']) = _)).2
  rw [← unescape_escape cs, hbody, unescape_escape]

theorem nodup_eraseDups (l : List String) : l.eraseDups.Nodup := by
  generalize hn : l.length = n
  induction n using Nat.strong_induction_on generalizing l with
  | _ n ih =>
    cases l with
    | nil => exact List.nodup_nil
    | cons a l =>
      rw [List.eraseDups_cons, List.nodup_cons]
      refine ⟨fun hmem => ?_, ih _ ?_ _ rfl⟩
      · simpa using List.mem_eraseDups.mp hmem
      · rw [← hn, List.length_cons]
        exact Nat.lt_succ_of_le (List.length_filter_le _ l)

namespace Completer

variable (c : Completer) (scope : Scope) (slot : Slot) (catalogs : Catalogs)

theorem nodup_distinct (entries : List String) : (distinct entries).Nodup :=
  nodup_eraseDups _

/-- The ids of some candidates. -/
def ids (candidates : List Candidate) : List String :=
  candidates.map (·.suggestion.id)

/-- Candidates of one kind have different ids if they insert different texts. -/
theorem nodup_ids_map {α : Type} (kind : SlotKind) {l : List α} (hl : l.Nodup)
    {f : α → Candidate} {text : α → String}
    (hid : ∀ a, (f a).suggestion.id = kind.name ++ ":" ++ text a)
    (htext : Function.Injective text) : (ids (l.map f)).Nodup := by
  unfold ids
  rw [List.map_map]
  refine hl.map fun a b h => htext ?_
  rw [Function.comp_apply, Function.comp_apply, hid, hid] at h
  exact (String.append_right_inj _).mp h

theorem nodup_foundKeys (head : String) (names : List String) :
    (ids (c.foundKeys head names)).Nodup :=
  nodup_ids_map .key (nodup_distinct names) (fun _ => rfl)
    fun _ _ h => (String.append_right_inj head).mp h

theorem nodup_keyCandidates (typed : String) :
    (ids (c.keyCandidates scope typed catalogs)).Nodup := by
  unfold keyCandidates
  dsimp only
  split
  · exact nodup_foundKeys c _ _
  · split
    · exact nodup_foundKeys c _ _
    · cases scope <;> decide

theorem nodup_bareValues {values : List String} (h : values.Nodup) :
    (ids (values.map bareValue)).Nodup :=
  nodup_ids_map .value h (fun _ => rfl) Function.injective_id

theorem nodup_quotedValues (values : List String) : (ids (quotedValues values)).Nodup :=
  nodup_ids_map .value (nodup_distinct values) (fun _ => rfl) fun _ _ h =>
    String.toList_inj.mp (Quote.quoteDouble_inj.mp (String.ofList_inj.mp h))

theorem nodup_valueCandidates (key : String) (h : catalogs.metricTypes.Nodup) :
    (ids (valueCandidates scope key catalogs)).Nodup := by
  unfold valueCandidates
  dsimp only
  split
  · apply nodup_bareValues
    split
    · decide
    · exact h
  · split
    · exact nodup_quotedValues _
    · exact nodup_quotedValues _
    · decide
    · decide
    · exact nodup_quotedValues _
    · exact List.nodup_nil

/-- No two candidates for a slot have the same id, if no metric type is listed twice. -/
theorem nodup_candidates (h : catalogs.metricTypes.Nodup) :
    (ids (c.candidates scope slot catalogs)).Nodup := by
  unfold candidates
  split
  · exact nodup_keyCandidates c scope catalogs slot.query
  · exact List.nodup_singleton _
  · cases slot.key with
    | none => exact List.nodup_nil
    | some key => exact nodup_valueCandidates scope catalogs key h
  · exact List.nodup_singleton _

/-! ## What is offered -/

/-- The candidates for a slot that fit, the best first. -/
def ranked : List Candidate :=
  Candidate.ranked slot.needle (c.candidates scope slot catalogs)

theorem suggest_eq :
    c.suggest scope slot catalogs
      = ((c.ranked scope slot catalogs).take c.limit).map (·.suggestion) := by
  unfold suggest
  rw [Candidate.rank_eq, List.map_take]
  rfl

/-- What is offered stands before a candidate that is left out. -/
theorem mem_or_forall_mem_of_ranked {better worse : List Candidate} {candidate : Candidate}
    (h : c.ranked scope slot catalogs = better ++ candidate :: worse) :
    candidate.suggestion ∈ c.suggest scope slot catalogs ∨
      ∀ s ∈ c.suggest scope slot catalogs, s ∈ better.map (·.suggestion) := by
  rw [suggest_eq, h]
  rcases Nat.lt_or_ge better.length c.limit with hlt | hle
  · left
    refine List.mem_map.mpr ⟨candidate, ?_, rfl⟩
    rw [List.take_append, List.mem_append]
    right
    obtain ⟨k, hk⟩ := Nat.exists_eq_succ_of_ne_zero (Nat.sub_ne_zero_of_lt hlt)
    rw [hk]
    exact List.mem_cons_self
  · right
    rw [List.take_append_of_le_length hle]
    exact fun s hs => List.map_subset _ (List.take_subset _ _) hs

theorem nodup_suggest (h : catalogs.metricTypes.Nodup) :
    ((c.suggest scope slot catalogs).map Suggestion.id).Nodup := by
  have hranked : (ids (c.ranked scope slot catalogs)).Nodup := by
    have hperm := Candidate.ranked_perm slot.needle (c.candidates scope slot catalogs)
    exact (hperm.map _).nodup_iff.mpr
      ((nodup_candidates c scope slot catalogs h).sublist (List.filter_sublist.map _))
  rw [suggest_eq, List.map_map]
  exact hranked.sublist ((List.take_sublist _ _).map _)

/-- The suggestions for a slot are its best candidates, no better one is left out, and no two of
them have the same id, if no metric type is listed twice. -/
theorem suggest_best :
    c.suggest scope slot catalogs
        = ((Candidate.ranked slot.needle (c.candidates scope slot catalogs)).take c.limit).map
            (·.suggestion) ∧
      (∀ better candidate worse,
        Candidate.ranked slot.needle (c.candidates scope slot catalogs)
            = better ++ candidate :: worse →
          candidate.suggestion ∈ c.suggest scope slot catalogs ∨
            ∀ s ∈ c.suggest scope slot catalogs, s ∈ better.map (·.suggestion)) ∧
      (catalogs.metricTypes.Nodup → ((c.suggest scope slot catalogs).map Suggestion.id).Nodup) :=
  ⟨suggest_eq c scope slot catalogs,
    fun _ _ _ h => mem_or_forall_mem_of_ranked c scope slot catalogs h,
    nodup_suggest c scope slot catalogs⟩

/-- A completer that offers four suggestions, and attributes of HTTP last. -/
def fourAtMost : Completer :=
  ⟨4, ["http.".toList]⟩

/-- Attributes that have been found, one of them twice, and types of metrics. -/
def foundInLogs : Catalogs where
  attributeKeys := ["http.route", "Host", "old.attr.host", "Host", "http.path", "hop"]
  metricTypes := ["gauge", "sum", "histogram"]

/-- The slot of an attribute's key, of which the head and a letter have been typed. -/
def halfTypedAttribute : Slot :=
  ⟨.key, "Attr.H", none, 0, 6⟩

/-- What begins with the text comes first, and there what is noisy comes last. For the name that has
the text in its middle there is no place left. -/
theorem halfTypedAttribute_best :
    foundInLogs.metricTypes.Nodup ∧
      (fourAtMost.suggest .logs halfTypedAttribute foundInLogs).map (·.label)
        = ["attr.Host", "attr.hop", "attr.http.route", "attr.http.path"] ∧
      (∀ s ∈ fourAtMost.suggest .logs halfTypedAttribute foundInLogs,
        s.label ∈ ["attr.Host", "attr.hop", "attr.http.route", "attr.http.path"]) ∧
      ((fourAtMost.suggest .logs halfTypedAttribute foundInLogs).map Suggestion.id).Nodup := by
  have htypes : foundInLogs.metricTypes.Nodup := by decide
  obtain ⟨hsuggest, hout, hids⟩ := suggest_best fourAtMost .logs halfTypedAttribute foundInLogs
  have hranked : Candidate.ranked halfTypedAttribute.needle
        (fourAtMost.candidates .logs halfTypedAttribute foundInLogs)
      = fourAtMost.foundKeys "attr." ["Host", "hop", "http.route", "http.path"]
        ++ ⟨⟨.key, "attr.old.attr.host", "attr.old.attr.host", none⟩, false⟩ :: [] := by
    decide +kernel
  have hlabels : (fourAtMost.suggest .logs halfTypedAttribute foundInLogs).map (·.label)
      = ["attr.Host", "attr.hop", "attr.http.route", "attr.http.path"] := by
    rw [hsuggest, hranked]
    decide +kernel
  refine ⟨htypes, hlabels, ?_, hids htypes⟩
  rcases hout _ _ _ hranked with hin | hbetter
  · have hmem := List.mem_map_of_mem (f := Suggestion.label) hin
    rw [hlabels] at hmem
    exact absurd hmem (by decide)
  · intro s hs
    have hmem := List.mem_map_of_mem (f := Suggestion.label) (hbetter s hs)
    rw [List.map_map] at hmem
    exact hmem

end Completer

end QueryPanel
