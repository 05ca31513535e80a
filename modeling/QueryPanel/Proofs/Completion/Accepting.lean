import QueryPanel.Proofs.Completion.Growing
import QueryPanel.Proofs.Completion.Offers
import QueryPanel.Proofs.Completion.Splicing

/-!
# Editing by suggestions alone

From an empty expression a user accepts one suggestion after another and types nothing. One grammar
invariant, `Stands`, carries every such run: the expression is a list of whole clauses and a
`Growing` one, the cursor is behind all of it, and the clauses that are whole are those that the
accepted suggestions say, each of them recorded by the reader of filters. `Stands.accept` is the
step: whatever is offered at the cursor, accepting it moves the growing clause to its next stage.

> `accepted_text_is_well_formed`: after every step the cursor is at the end, the slot moves along
> the grammar, and where a clause is finished the text is read without a fault, clause by clause as
> it was accepted.

A suggestion that ends in a point is followed by no blank, so that the name of an attribute can go
on. The same holds for a value, and so a metric type that ends in a point is never finished:
`pointed_type_stays_a_value`.
-/

namespace QueryPanel

open Clause (IsWord Written Whole textOf isKeyChar)
open FilterFields (joinClauses clauseText)

/-! ## What accepted suggestions say -/

/-- The clauses said so far, and the key that the next value belongs to. -/
def enter : List (List Char) × String → Suggestion → List (List Char) × String
  | (clauses, key), s =>
    match s.kind with
    | .key => (clauses, s.insertText)
    | .value => (clauses ++ [clauseText key s.insertText.toList], key)
    | _ => (clauses, key)

/-- The clauses that accepted suggestions say and the key accepted last. -/
def entered (accepted : List Suggestion) : List (List Char) × String :=
  accepted.foldl enter ([], "")

/-- One clause for each accepted value, on the key that was accepted last before it. -/
def enteredClauses (accepted : List Suggestion) : List (List Char) :=
  (entered accepted).1

theorem entered_concat (accepted : List Suggestion) (s : Suggestion) :
    entered (accepted ++ [s]) = enter (entered accepted) s := by
  rw [entered, List.foldl_append]
  rfl

theorem length_foldl_enter (accepted : List Suggestion) (p : List (List Char) × String) :
    (accepted.foldl enter p).1.length = p.1.length + accepted.countP (·.kind = .value) := by
  induction accepted generalizing p with
  | nil => rfl
  | cons s accepted ih =>
    rw [List.foldl_cons, ih, List.countP_cons, enter]
    cases s.kind with
    | value =>
      rw [List.length_append, List.length_singleton]
      simp only [decide_true, if_true]
      omega
    | key => rfl
    | operator => rfl
    | conjunction => rfl

theorem length_enteredClauses (accepted : List Suggestion) :
    (enteredClauses accepted).length = accepted.countP (·.kind = .value) := by
  rw [enteredClauses, entered, length_foldl_enter]
  exact Nat.zero_add _

/-! ## The invariant -/

namespace Growing

/-- The clause itself, once it is finished. -/
def current : Growing → List (List Char)
  | .finished k literal => [textOf k literal]
  | _ => []

end Growing

/-- The expression consists of the clauses `done` and a growing one, and says what was accepted. -/
structure Stands (accepted : List Suggestion) (e : Editor) (done : List (List Char))
    (g : Growing) : Prop where
  atEnd : e = .atEnd (joinClauses (done ++ [g.text]))
  sound : g.Sound
  whole : ∀ c ∈ done, Whole c
  recorded : ∀ c ∈ done ++ g.current, ∀ fields : FilterFields, (fields.record c).isSome
  clauses : enteredClauses accepted = done ++ g.current
  chosen : ∀ key, g.chosen = some key → (entered accepted).2 = key ∧ Selectable key

/-- How the slot at the cursor moves when a suggestion is accepted. -/
inductive Moves : SlotKind → Suggestion → SlotKind → Prop
  | begun {s : Suggestion} (h : EndsInPoint s.insertText) : Moves .key s .key
  | chosen {s : Suggestion} : Moves .key s .operator
  | compared {s : Suggestion} : Moves .operator s .value
  | finished {s : Suggestion} : Moves .value s .conjunction
  | joined {s : Suggestion} : Moves .conjunction s .key

theorem stands_empty : Stands [] ⟨"", 0⟩ [] (.key []) where
  atEnd := rfl
  sound := .key (by simp)
  whole := by simp
  recorded := by simp [Growing.current]
  clauses := rfl
  chosen := by simp [Growing.chosen]

section Step

variable {accepted : List Suggestion} {e : Editor} {done : List (List Char)} {g : Growing}

theorem Stands.slot_eq (h : Stands accepted e done g) :
    e.slot = Slot.typed g.kind g.chosen g.typed
      (Text.byteLength (joinClauses (done ++ [g.text]))) := by
  rw [h.atEnd, Editor.slot_atEnd, ofText_growing h.whole h.sound]

theorem Stands.kind_eq (h : Stands accepted e done g) : e.slot.kind = g.kind := by
  rw [h.slot_eq]
  rfl

/-- The clause before the one that grows is the text up to what has been typed. -/
theorem Stands.accept_eq (h : Stands accepted e done g) {front : List Char}
    (hfront : joinClauses (done ++ [g.text]) = front ++ g.typed) (s : Suggestion) :
    Editor.accept e.expression e.slot s
      = match s.kind with
        | .operator | .conjunction => .atEnd (Editor.spliceWord front s.insertText.toList)
        | .key | .value => .atEnd (Editor.spliceTerm front s.insertText.toList []) := by
  rw [h.slot_eq, h.atEnd, hfront]
  exact Editor.accept_typed front g.typed g.kind g.chosen s

theorem gap_beforeLast (done : List (List Char)) :
    Editor.gap ((beforeLast done).getLast?.any fun c => !Text.isBlank c) = [] := by
  rcases getLast?_beforeLast done with hnone | hblank
  · rw [hnone]
    rfl
  · rw [hblank]
    decide

/-- Behind a suggestion that ends in a point no blank is put. -/
theorem gap_of_endsInPoint {text : String} (h : EndsInPoint text) :
    Editor.gap (text.toList.getLast? != some '.' && !([] : List Char).head?.any Text.isBlank)
      = [] := by
  rw [show text.toList.getLast? = some '.' from h]
  rfl

theorem gap_of_not_endsInPoint {text : String} (h : ¬ EndsInPoint text) :
    Editor.gap (text.toList.getLast? != some '.' && !([] : List Char).head?.any Text.isBlank)
      = [' '] := by
  rw [bne_iff_ne.mpr h]
  rfl

/-- A key that ends in a point is a beginning: the slot stays where it is. -/
theorem Stands.accept_beginning {typed : List Char} (h : Stands accepted e done (.key typed))
    {s : Suggestion} (hs : Completer.KeyOffer s) (hpoint : EndsInPoint s.insertText) :
    Stands (accepted ++ [s]) (Editor.accept e.expression e.slot s) done
      (.key s.insertText.toList) where
  atEnd := by
    rw [h.accept_eq (joinClauses_concat done typed), hs.kind]
    dsimp only
    rw [Editor.spliceTerm, gap_beforeLast, gap_of_endsInPoint hpoint, List.append_nil,
      List.append_nil, joinClauses_concat]
    rfl
  sound := .key hs.chars
  whole := h.whole
  recorded := h.recorded
  clauses := by
    rw [enteredClauses, entered_concat, enter, hs.kind]
    exact h.clauses
  chosen := by simp [Growing.chosen]

/-- Any other key is whole. -/
theorem Stands.accept_key {typed : List Char} (h : Stands accepted e done (.key typed))
    {s : Suggestion} (hs : Completer.KeyOffer s) (hpoint : ¬ EndsInPoint s.insertText)
    (hselect : Selectable s.insertText) :
    Stands (accepted ++ [s]) (Editor.accept e.expression e.slot s) done
      (.operator s.insertText.toList) where
  atEnd := by
    rw [h.accept_eq (joinClauses_concat done typed), hs.kind]
    dsimp only
    rw [Editor.spliceTerm, gap_beforeLast, gap_of_not_endsInPoint hpoint, List.append_nil,
      joinClauses_concat, List.append_assoc]
    rfl
  sound := .operator hselect.word
  whole := h.whole
  recorded := h.recorded
  clauses := by
    rw [enteredClauses, entered_concat, enter, hs.kind]
    exact h.clauses
  chosen key hkey := by
    have heq : s.insertText = key := by
      rw [← String.ofList_toList (s := s.insertText)]
      exact Option.some.inj hkey
    rw [entered_concat, enter, hs.kind, ← heq]
    exact ⟨rfl, hselect⟩

theorem Stands.accept_equals {k : List Char} (h : Stands accepted e done (.operator k)) :
    Stands (accepted ++ [Completer.equals]) (Editor.accept e.expression e.slot Completer.equals)
      done (.value k) where
  atEnd := by
    have hword : IsWord k := by
      cases h.sound with
      | operator hk => exact hk
    rw [h.accept_eq (List.append_nil _).symm, joinClauses_concat, joinClauses_concat]
    show Editor.atEnd (Editor.spliceWord (beforeLast done ++ (k ++ [' '])) ['=']) = _
    rw [Editor.spliceWord_append_blank _ hword.solid, Growing.text, Clause.textOf_eq]
    rfl
  sound := by
    cases h.sound with
    | operator hk => exact .value hk
  whole := h.whole
  recorded := h.recorded
  clauses := by
    rw [enteredClauses, entered_concat]
    exact h.clauses
  chosen key hkey := by
    rw [entered_concat]
    exact h.chosen key hkey

theorem Stands.accept_value {k : List Char} (h : Stands accepted e done (.value k))
    {s : Suggestion} (hs : Completer.ValueOffer (String.ofList k) s) :
    Stands (accepted ++ [s]) (Editor.accept e.expression e.slot s) done
      (.finished k s.insertText.toList) where
  atEnd := by
    have hlast : Editor.gap ((beforeLast done ++ textOf k []).getLast?.any
        fun c => !Text.isBlank c) = [] := by
      rw [Clause.textOf_eq,
        show (' ' :: '=' :: ' ' :: ([] : List Char)) = [' ', '='] ++ [' '] from rfl,
        ← List.append_assoc, ← List.append_assoc, List.getLast?_concat]
      decide
    rw [h.accept_eq (List.append_nil _).symm, hs.kind, joinClauses_concat, joinClauses_concat]
    dsimp only
    rw [Growing.text, Editor.spliceTerm, hlast, gap_of_not_endsInPoint hs.closed, Growing.text,
      textOf, textOf]
    simp
  sound := by
    obtain ⟨literal, hl⟩ := hs.written
    cases h.sound with
    | value hk => exact .finished hk hl
  whole := h.whole
  recorded := by
    intro c hc
    rcases List.mem_append.mp hc with hd | hd
    · exact h.recorded c (List.mem_append_left _ hd)
    · rw [List.mem_singleton.mp hd]
      have hrecord := hs.recorded
      rw [clauseText, String.toList_ofList] at hrecord
      exact hrecord
  clauses := by
    have hkey := (h.chosen (String.ofList k) rfl).1
    have hdone : (entered accepted).1 = done := by
      rw [← List.append_nil done]
      exact h.clauses
    rw [enteredClauses, entered_concat, enter, hs.kind]
    dsimp only
    rw [hdone, hkey, clauseText, String.toList_ofList]
    rfl
  chosen key hkey := by
    rw [entered_concat, enter, hs.kind]
    exact h.chosen key hkey

theorem Stands.accept_conjunction {k literal : List Char}
    (h : Stands accepted e done (.finished k literal)) :
    Stands (accepted ++ [Completer.conjunction])
      (Editor.accept e.expression e.slot Completer.conjunction) (done ++ [textOf k literal])
      (.key []) where
  atEnd := by
    have hsolid : Text.Solid (textOf k literal) := by
      cases h.sound with
      | finished hk hl => exact (Clause.whole_textOf hk hl).solid
    rw [h.accept_eq (List.append_nil _).symm, joinClauses_concat, joinClauses_concat]
    show Editor.atEnd (Editor.spliceWord (beforeLast done ++ (textOf k literal ++ [' ']))
      "AND".toList) = _
    rw [Editor.spliceWord_append_blank _ hsolid, Growing.text, List.append_nil, beforeLast_concat,
      List.append_assoc]
    rfl
  sound := .key (by simp)
  whole := by
    intro c hc
    rcases List.mem_append.mp hc with hd | hd
    · exact h.whole c hd
    · rw [List.mem_singleton.mp hd]
      cases h.sound with
      | finished hk hl => exact Clause.whole_textOf hk hl
  recorded := by
    rw [show (Growing.key []).current = [] from rfl, List.append_nil]
    exact h.recorded
  clauses := by
    rw [enteredClauses, entered_concat, show (Growing.key []).current = [] from rfl,
      List.append_nil]
    exact h.clauses
  chosen := by simp [Growing.chosen]

variable {c : Completer} {scope : Scope} {catalogs : Catalogs}

/-- Accepting whatever is offered at the cursor keeps the invariant, and the slot moves along the
grammar. -/
theorem Stands.accept (h : Stands accepted e done g) (hc : catalogs.Plain)
    (hpoint : ∀ t ∈ catalogs.metricTypes, ¬ EndsInPoint t) {s : Suggestion}
    (hs : s ∈ e.suggestions c scope catalogs) :
    ∃ done' g', Stands (accepted ++ [s]) (Editor.accept e.expression e.slot s) done' g' ∧
      Moves g.kind s g'.kind := by
  have hkind := h.kind_eq
  -- The stage of the clause decides what can be offered, and what is offered the next stage.
  cases g with
  | key typed =>
    have hoffer := Completer.keyOffer_of_mem hkind hc hs
    by_cases hend : EndsInPoint s.insertText
    · exact ⟨_, _, h.accept_beginning hoffer hend, .begun hend⟩
    · have hselect := hoffer.selectable.resolve_left hend
      exact ⟨_, _, h.accept_key hoffer hend hselect, .chosen⟩
  | operator k =>
    have heq := Completer.eq_equals_of_mem hkind hs
    subst heq
    exact ⟨_, _, h.accept_equals, .compared⟩
  | value k =>
    have hslot : e.slot.key = some (String.ofList k) := by
      rw [h.slot_eq]
      rfl
    have hselect := (h.chosen (String.ofList k) rfl).2
    have hoffer := Completer.valueOffer_of_mem hkind hslot hselect hc hpoint hs
    exact ⟨_, _, h.accept_value hoffer, .finished⟩
  | finished k literal =>
    have heq := Completer.eq_conjunction_of_mem hkind hs
    subst heq
    exact ⟨_, _, h.accept_conjunction, .joined⟩

end Step

/-! ## Runs -/

/-- The editor after accepting suggestions from an empty expression on, and what was accepted. -/
inductive Accepts (c : Completer) (scope : Scope) (catalogs : Catalogs) :
    Editor → List Suggestion → Prop
  | start : Accepts c scope catalogs ⟨"", 0⟩ []
  | accept {e : Editor} {accepted : List Suggestion} (h : Accepts c scope catalogs e accepted)
    {index : Nat} {s : Suggestion} (hs : (e.suggestions c scope catalogs)[index]? = some s) :
    Accepts c scope catalogs (e.step c scope catalogs (.accept index)).1 (accepted ++ [s])

section Runs

variable {c : Completer} {scope : Scope} {catalogs : Catalogs} {e : Editor}
  {accepted : List Suggestion}

theorem step_accept {index : Nat} {s : Suggestion}
    (hs : (e.suggestions c scope catalogs)[index]? = some s) :
    (e.step c scope catalogs (.accept index)).1 = Editor.accept e.expression e.slot s := by
  rw [Editor.step, hs]

theorem Accepts.stands (h : Accepts c scope catalogs e accepted) (hc : catalogs.Plain)
    (hpoint : ∀ t ∈ catalogs.metricTypes, ¬ EndsInPoint t) :
    ∃ done g, Stands accepted e done g := by
  induction h with
  | start => exact ⟨_, _, stands_empty⟩
  | accept _ hs ih =>
    obtain ⟨done, g, hstands⟩ := ih
    obtain ⟨done', g', hnext, _⟩ := hstands.accept hc hpoint (List.mem_of_getElem? hs)
    rw [step_accept hs]
    exact ⟨done', g', hnext⟩

theorem incomplete_foldl_addClause {clauses : List (List Char)} {p : ParsedFilter}
    (h : ∀ c ∈ clauses, ∀ fields : FilterFields, (fields.record c).isSome) :
    (clauses.foldl ParsedFilter.addClause p).incomplete = p.incomplete := by
  induction clauses generalizing p with
  | nil => rfl
  | cons clause clauses ih =>
    rw [List.foldl_cons, ih fun c hc => h c (List.mem_cons_of_mem clause hc)]
    obtain ⟨fields, hrecord⟩ := Option.isSome_iff_exists.mp
      (h clause List.mem_cons_self p.fields)
    rw [ParsedFilter.addClause, hrecord]

/-- Where a clause is finished, the text splits into the clauses that were entered. -/
theorem Stands.split_eq {done : List (List Char)} {k literal : List Char}
    (h : Stands accepted e done (.finished k literal)) :
    Clause.split e.expression.toList = enteredClauses accepted := by
  have hwhole : Whole (textOf k literal) := by
    cases h.sound with
    | finished hk hl => exact Clause.whole_textOf hk hl
  have hlast : (Clause.segments (textOf k literal ++ [' '])).map Text.trim
      = [textOf k literal] := by
    have hpieces : Clause.pieces .start (textOf k literal ++ [' '])
        = (textOf k literal ++ [' '], []) := Growing.pieces_text h.sound
    rw [Clause.segments, hpieces, List.map_nil, List.map_singleton,
      Text.trim_append_blank Text.isBlank_space, hwhole.solid.trim_eq]
  have hsegments :
      (Clause.segments (joinClauses (done ++ [textOf k literal ++ [' ']]))).map Text.trim
      = done ++ (Clause.segments (textOf k literal ++ [' '])).map Text.trim :=
    Clause.map_trim_segments_joinClauses h.whole (Growing.begins_text h.sound)
  have hblank : (joinClauses (done ++ [textOf k literal ++ [' ']])).all Text.isBlank = false := by
    rw [joinClauses_concat, List.all_append, hwhole.solid.not_all_blank, Bool.and_false]
  rw [h.clauses, h.atEnd, Editor.toList_expression_atEnd]
  show Clause.split (joinClauses (done ++ [textOf k literal ++ [' ']])) = done ++ [textOf k literal]
  rw [Clause.split, hblank, hsegments, hlast]
  rfl

/-- From an empty expression, whatever suggestions are accepted one after the other: the cursor is
at the end of the expression; the slot goes from a key to the operator, to the value, to the
conjunction and to the next key, and stays a key only behind a suggestion that ends in a point; and
where a conjunction may stand, every clause is complete and the text has exactly the clauses that
were entered, one for each accepted value. -/
theorem accepted_text_is_well_formed (hc : catalogs.Plain)
    (hpoint : ∀ t ∈ catalogs.metricTypes, ¬ EndsInPoint t)
    (h : Accepts c scope catalogs e accepted) :
    e.cursor = Text.byteLength e.expression.toList ∧
      (∀ index s, (e.suggestions c scope catalogs)[index]? = some s →
        Moves e.slot.kind s (e.step c scope catalogs (.accept index)).1.slot.kind) ∧
      (e.slot.kind = .conjunction →
        (FilterFields.read e.expression).incomplete = false ∧
          Clause.split e.expression.toList = enteredClauses accepted ∧
          (enteredClauses accepted).length = accepted.countP (·.kind = .value)) := by
  obtain ⟨done, g, hstands⟩ := h.stands hc hpoint
  refine ⟨?_, ?_, ?_⟩
  · rw [hstands.atEnd, Editor.cursor_atEnd]
  · intro index s hs
    obtain ⟨done', g', hnext, hmoves⟩ := hstands.accept hc hpoint (List.mem_of_getElem? hs)
    rw [step_accept hs, hnext.kind_eq, hstands.kind_eq]
    exact hmoves
  · intro hkind
    rw [hstands.kind_eq] at hkind
    -- Only behind a finished clause may a conjunction stand.
    cases g with
    | finished k literal =>
      have hsplit := hstands.split_eq
      refine ⟨?_, hsplit, length_enteredClauses accepted⟩
      rw [FilterFields.read, hsplit, hstands.clauses]
      exact incomplete_foldl_addClause hstands.recorded
    | key typed => cases hkind
    | operator k => cases hkind
    | value k => cases hkind

end Runs

/-! ## Two runs -/

/-- One more suggestion, picked from candidates that stand in the order of their places. -/
theorem Accepts.pick {c : Completer} {scope : Scope} {catalogs : Catalogs} {e e' : Editor}
    {accepted : List Suggestion} (h : Accepts c scope catalogs e accepted) (index : Nat)
    {s : Suggestion} (hordered : (c.placed scope e.slot catalogs).Pairwise
      fun a b => (a.1 ≤ b.1 : Bool) = true)
    (hs : (((c.placed scope e.slot catalogs).map (·.2)).take c.limit)[index]? = some s)
    (he : Editor.accept e.expression e.slot s = e') :
    Accepts c scope catalogs e' (accepted ++ [s]) := by
  rw [← Completer.suggest_of_ordered hordered] at hs
  have hstep := h.accept hs
  rwa [step_accept hs, he] at hstep

/-- One attribute, with a value that looks like two clauses. -/
def routeCatalogs : Catalogs where
  attributeKeys := ["Http.route"]
  attributeValues := [("Http.route", ["/a\" AND b = \"c"])]

/-- The suggestions accepted on the way to that value. -/
def routeSuggestions : List Suggestion :=
  [⟨.key, "attr.", "attr.", some "Filter on a span or log attribute"⟩,
    ⟨.key, "attr.Http.route", "attr.Http.route", none⟩, Completer.equals,
    ⟨.value, "/a\" AND b = \"c", "\"/a\\\" AND b = \\\"c\"", none⟩]

/-- The expression once the value is accepted. -/
def routeEditor : Editor :=
  ⟨"attr.Http.route = \"/a\\\" AND b = \\\"c\" ", 37⟩

theorem accepts_route : Accepts ⟨8, []⟩ .traces routeCatalogs routeEditor routeSuggestions := by
  have hhead : Accepts ⟨8, []⟩ .traces routeCatalogs ⟨"attr.", 5⟩ (routeSuggestions.take 1) := by
    exact Accepts.start.pick 6 (by decide +kernel) (by decide +kernel) (by decide +kernel)
  have hkey : Accepts ⟨8, []⟩ .traces routeCatalogs ⟨"attr.Http.route ", 16⟩
      (routeSuggestions.take 2) := by
    exact hhead.pick 0 (by decide +kernel) (by decide +kernel) (by decide +kernel)
  have hequals : Accepts ⟨8, []⟩ .traces routeCatalogs ⟨"attr.Http.route = ", 18⟩
      (routeSuggestions.take 3) := by
    exact hkey.pick 0 (by decide +kernel) (by decide +kernel) (by decide +kernel)
  exact hequals.pick 0 (by decide +kernel) (by decide +kernel) (by decide +kernel)

theorem route_text_is_well_formed :
    Accepts ⟨8, []⟩ .traces routeCatalogs routeEditor routeSuggestions ∧
      (FilterFields.read routeEditor.expression).incomplete = false ∧
      Clause.split routeEditor.expression.toList
        = [clauseText "attr.Http.route" "\"/a\\\" AND b = \\\"c\"".toList] := by
  have hkeys : ∀ k ∈ routeCatalogs.attributeKeys, k.toList.all isKeyChar = true := by decide
  have hplain : routeCatalogs.Plain :=
    ⟨fun k hk => List.all_eq_true.mp (hkeys k hk), by simp [routeCatalogs], by simp [routeCatalogs]⟩
  have hpoint : ∀ t ∈ routeCatalogs.metricTypes, ¬ EndsInPoint t := by simp [routeCatalogs]
  have hkind : routeEditor.slot.kind = .conjunction := by decide +kernel
  obtain ⟨hincomplete, hsplit, _⟩ :=
    (accepted_text_is_well_formed hplain hpoint accepts_route).2.2 hkind
  exact ⟨accepts_route, hincomplete, hsplit⟩

/-- A metric type that ends in a point. -/
def pointedCatalogs : Catalogs where
  metricTypes := ["gauge."]

theorem accepts_pointed : Accepts ⟨8, []⟩ .metrics pointedCatalogs ⟨"metric.type = ", 14⟩
    [⟨.key, "metric.type", "metric.type", some "Instrument type of the metric"⟩,
      Completer.equals] := by
  have hkey : Accepts ⟨8, []⟩ .metrics pointedCatalogs ⟨"metric.type ", 12⟩
      [⟨.key, "metric.type", "metric.type", some "Instrument type of the metric"⟩] := by
    exact Accepts.start.pick 1 (by decide +kernel) (by decide +kernel) (by decide +kernel)
  exact hkey.pick 0 (by decide +kernel) (by decide +kernel) (by decide +kernel)

/-- Plain catalogs alone are not enough: behind a metric type that ends in a point stands no blank,
and the slot is still that of a value. -/
theorem pointed_type_stays_a_value :
    pointedCatalogs.Plain ∧
      Accepts ⟨8, []⟩ .metrics pointedCatalogs ⟨"metric.type = ", 14⟩
        [⟨.key, "metric.type", "metric.type", some "Instrument type of the metric"⟩,
          Completer.equals] ∧
      (Editor.suggestions ⟨"metric.type = ", 14⟩ ⟨8, []⟩ .metrics pointedCatalogs)[0]?
        = some ⟨.value, "gauge.", "gauge.", none⟩ ∧
      ¬ Moves (Editor.slot ⟨"metric.type = ", 14⟩).kind ⟨.value, "gauge.", "gauge.", none⟩
        (Editor.step ⟨8, []⟩ .metrics pointedCatalogs ⟨"metric.type = ", 14⟩
          (.accept 0)).1.slot.kind := by
  have hoffer : (Editor.suggestions ⟨"metric.type = ", 14⟩ ⟨8, []⟩ .metrics pointedCatalogs)[0]?
      = some ⟨.value, "gauge.", "gauge.", none⟩ := by
    rw [Editor.suggestions, Completer.suggest_of_ordered (by decide +kernel)]
    decide +kernel
  refine ⟨⟨by simp [pointedCatalogs], by simp [pointedCatalogs], ?_⟩, accepts_pointed, hoffer, ?_⟩
  · intro t ht
    rw [List.mem_singleton.mp ht]
    decide
  · rw [step_accept hoffer]
    have hbefore : (Editor.slot ⟨"metric.type = ", 14⟩).kind = .value := by decide +kernel
    have hafter : (Editor.accept "metric.type = " (Editor.slot ⟨"metric.type = ", 14⟩)
        ⟨.value, "gauge.", "gauge.", none⟩).slot.kind = .value := by decide +kernel
    rw [hbefore]
    dsimp only
    rw [hafter]
    intro hmoves
    cases hmoves

end QueryPanel
