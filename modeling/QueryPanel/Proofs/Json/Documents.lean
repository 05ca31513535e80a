import QueryPanel.Json.Reader
import QueryPanel.Proofs.Json.Tokens

/-!
# A written document is read back

The reader of documents is a machine that takes tokens. Wherever a value may begin, it takes the
tokens of a text that spells the value for that value, whatever arrays and objects are open around
it (`Spells`). For a scalar that is one token. An array and an object are the same thing twice, a
list of parts with commas in between and brackets around (`Bracket`): if each part is taken for its
item or member, the whole is taken for the array or object, however much blank stands between the
parts.

> `ofText?_compact` and `ofText?_pretty`: both texts of a value are read as that value.

The values are those whose text says all of it (`Faithful`): a number that is not finite is written
as `null`, so it cannot be had back.
-/

namespace QueryPanel.Json

/-! ## What a text is taken for -/

/-- A state in which a value may begin. -/
def Expected.beginsValue (e : Expected) : Prop :=
  e = .value ∨ e = .itemOrClose

/-- A text is cut into tokens that the machine takes for a value, wherever one may begin. -/
def Spells (cs : List Char) (v : Json) : Prop :=
  ∃ ts, Cut EndsNumber cs ts ∧ ∀ frames e, e.beginsValue →
    ts.foldlM Reader.step ⟨frames, e⟩ = Reader.complete v frames

/-- A text that spells a value is a document of that value. -/
theorem Spells.ofText?_eq {cs : List Char} {v : Json} (h : Spells cs v) : ofText? cs = some v := by
  obtain ⟨ts, hcut, htakes⟩ := h
  rw [ofText?, hcut.tokens?_eq nofun]
  show (ts.foldlM Reader.step ⟨[], .value⟩).bind _ = _
  rw [htakes [] .value (.inl rfl)]
  rfl

/-- One token that is a value. -/
theorem Cut.spells {cs : List Char} {v : Json} {t : Token} (h : Cut EndsNumber cs [t])
    (htakes : ∀ frames, Reader.beginValue frames t = Reader.complete v frames) : Spells cs v := by
  have hclose : t ≠ .arrayClose := by
    rintro rfl
    exact nomatch htakes []
  have hstep : ∀ frames e, e.beginsValue →
      Reader.step ⟨frames, e⟩ t = Reader.complete v frames := by
    rintro frames e (rfl | rfl)
    · exact htakes frames
    · rw [← htakes frames]
      cases t with
      | arrayClose => exact absurd rfl hclose
      | _ => rfl
  refine ⟨[t], h, fun frames e he => ?_⟩
  rw [List.foldlM_cons, hstep frames e he]
  cases Reader.complete v frames <;> rfl

/-! ## Brackets -/

/-- An array or an object: the brackets, the frame that holds the parts read so far, last first, and
what the machine expects behind the opening bracket and behind a comma. -/
structure Bracket (α : Type) where
  opening : Char
  closing : Char
  openToken : Token
  closeToken : Token
  frame : List α → Frame
  first : Expected
  next : Expected
  value : List α → Json
  cut_opening : Cut Anything [opening] [openToken]
  cut_closing : Cut Anything [closing] [closeToken]
  endsNumber_closing : EndsNumber [closing]
  opens : ∀ frames e, e.beginsValue →
    Reader.step ⟨frames, e⟩ openToken = some ⟨frame [] :: frames, first⟩
  comma : ∀ parts frames,
    Reader.step ⟨frame parts :: frames, .separator⟩ .comma = some ⟨frame parts :: frames, next⟩
  closes_empty : ∀ frames,
    Reader.step ⟨frame [] :: frames, first⟩ closeToken = Reader.complete (value []) frames
  closes : ∀ parts frames, Reader.step ⟨frame parts :: frames, .separator⟩ closeToken
    = Reader.complete (value parts.reverse) frames

theorem endsNumber_blank {pad rest : List Char} (hpad : ∀ c ∈ pad, isSpace c = true)
    (hrest : EndsNumber rest) : EndsNumber (pad ++ rest) := by
  cases pad with
  | nil => exact hrest
  | cons c cs =>
    rintro k ⟨⟩
    have hc := hpad c List.mem_cons_self
    simp only [isSpace, Bool.or_eq_true, decide_eq_true_eq] at hc
    rcases hc with ((rfl | rfl) | rfl) | rfl <;> decide

theorem cut_comma : Cut Anything [','] [.comma] :=
  .token rfl fun _ _ => rfl

/-- An object is closed with its members in the order they came. -/
theorem closeObject_map (ms : List (String × Json)) :
    Reader.closeObject (ms.map fun m => (some m.1, m.2)) = .object ms.reverse := by
  have hmembers : ∀ ms : List (String × Json),
      (ms.map fun m => (some m.1, m.2)).mapM (fun m => m.1.map (·, m.2)) = some ms := by
    intro ms
    induction ms with
    | nil => rfl
    | cons m ms ih =>
      rw [List.map_cons, List.mapM_cons, ih]
      rfl
  rw [Reader.closeObject, ← List.map_reverse, hmembers]

namespace Bracket

/-- Arrays. -/
def array : Bracket Json where
  opening := '['
  closing := ']'
  openToken := .arrayOpen
  closeToken := .arrayClose
  frame := .array
  first := .itemOrClose
  next := .value
  value := .array
  cut_opening := .token rfl fun _ _ => rfl
  cut_closing := .token rfl fun _ _ => rfl
  endsNumber_closing := by rintro c ⟨⟩; decide
  opens := by rintro frames e (rfl | rfl) <;> rfl
  comma := fun _ _ => rfl
  closes_empty := fun _ => rfl
  closes := fun _ _ => rfl

/-- Objects. All names of members have a value. -/
def object : Bracket (String × Json) where
  opening := '\x7b'
  closing := '\x7d'
  openToken := .objectOpen
  closeToken := .objectClose
  frame := fun ms => .object (ms.map fun m => (some m.1, m.2))
  first := .nameOrClose
  next := .name
  value := .object
  cut_opening := .token rfl fun _ _ => rfl
  cut_closing := .token rfl fun _ _ => rfl
  endsNumber_closing := by rintro c ⟨⟩; decide
  opens := by rintro frames e (rfl | rfl) <;> rfl
  comma := fun _ _ => rfl
  closes_empty := fun _ => rfl
  closes := fun ms frames => congrArg (Reader.complete · frames) (closeObject_map ms)

variable {α : Type} (b : Bracket α)

/-- A text is cut into tokens that the machine takes for parts more, behind the opening bracket or
behind a comma. -/
def SpellsParts (cs : List Char) (xs : List α) : Prop :=
  ∃ ts, Cut EndsNumber cs ts ∧ ∀ parts frames e, e = b.first ∨ e = b.next →
    ts.foldlM Reader.step ⟨b.frame parts :: frames, e⟩
      = some ⟨b.frame (xs.reverse ++ parts) :: frames, .separator⟩

variable {b}

/-- Parts with commas in between. -/
theorem spellsParts_joined {pad : List Char} (hpad : ∀ c ∈ pad, isSpace c = true)
    {texts : List (List Char)} {xs : List α}
    (h : List.Forall₂ (fun cs x => b.SpellsParts cs [x]) texts xs) (hne : xs ≠ []) :
    b.SpellsParts (joined (',' :: pad) texts) xs := by
  induction h with
  | nil => exact absurd rfl hne
  | @cons t x texts xs hpart hparts ih =>
    cases hparts with
    | nil => exact hpart
    | @cons t' x' texts xs hpart' hparts =>
      obtain ⟨ts, hcut, htakes⟩ := hpart
      obtain ⟨us, hcut', htakes'⟩ := ih (List.cons_ne_nil _ _)
      have hcomma : Cut EndsNumber (',' :: (pad ++ joined (',' :: pad) (t' :: texts)))
          (.comma :: us) :=
        cut_comma.anything_append ((Cut.blank hpad).anything_append hcut')
      have htext : joined (',' :: pad) (t :: t' :: texts)
          = t ++ ',' :: (pad ++ joined (',' :: pad) (t' :: texts)) := by
        simp [joined]
      rw [htext]
      refine ⟨ts ++ .comma :: us, hcut.append hcomma fun rest _ => ?_, fun parts frames e he => ?_⟩
      · rintro c ⟨⟩
        decide
      · rw [List.foldlM_append, htakes parts frames e he]
        show (Reader.step ⟨b.frame ([x].reverse ++ parts) :: frames, .separator⟩ .comma).bind _ = _
        rw [b.comma]
        show us.foldlM Reader.step _ = _
        rw [htakes' _ _ _ (.inr rfl)]
        simp

/-- Parts in brackets, with blanks around them. -/
theorem spells {pad pad' cs : List Char} (hpad : ∀ c ∈ pad, isSpace c = true)
    (hpad' : ∀ c ∈ pad', isSpace c = true) {xs : List α} (h : b.SpellsParts cs xs) :
    Spells (b.opening :: (pad ++ (cs ++ (pad' ++ [b.closing])))) (b.value xs) := by
  obtain ⟨ts, hcut, htakes⟩ := h
  have hclose : Cut Anything (pad' ++ [b.closing]) [b.closeToken] :=
    (Cut.blank hpad').anything_append b.cut_closing
  have hinner : Cut Anything (cs ++ (pad' ++ [b.closing])) (ts ++ [b.closeToken]) := by
    refine hcut.append hclose fun rest _ => ?_
    rw [List.append_assoc]
    exact endsNumber_blank hpad' b.endsNumber_closing
  have hwhole : Cut Anything (b.opening :: (pad ++ (cs ++ (pad' ++ [b.closing]))))
      (b.openToken :: (ts ++ [b.closeToken])) :=
    b.cut_opening.anything_append ((Cut.blank hpad).anything_append hinner)
  refine ⟨_, hwhole.of_anything, fun frames e he => ?_⟩
  rw [List.foldlM_cons, b.opens frames e he]
  show (ts ++ [b.closeToken]).foldlM Reader.step ⟨b.frame [] :: frames, b.first⟩ = _
  rw [List.foldlM_append, htakes [] frames b.first (.inl rfl)]
  show [b.closeToken].foldlM Reader.step ⟨b.frame (xs.reverse ++ []) :: frames, .separator⟩ = _
  rw [List.foldlM_cons, b.closes, List.append_nil, List.reverse_reverse]
  exact bind_pure _

/-- Brackets with nothing in them. -/
theorem spells_nil : Spells [b.opening, b.closing] (b.value []) := by
  have hwhole : Cut Anything [b.opening, b.closing] [b.openToken, b.closeToken] :=
    b.cut_opening.anything_append b.cut_closing
  refine ⟨_, hwhole.of_anything, fun frames e he => ?_⟩
  rw [List.foldlM_cons, b.opens frames e he]
  show [b.closeToken].foldlM Reader.step ⟨b.frame [] :: frames, b.first⟩ = _
  rw [List.foldlM_cons, b.closes_empty]
  exact bind_pure _

end Bracket

/-! ## Items and members -/

/-- A text that spells a value is taken for an item. -/
theorem Spells.item {cs : List Char} {v : Json} (h : Spells cs v) :
    Bracket.array.SpellsParts cs [v] := by
  obtain ⟨ts, hcut, htakes⟩ := h
  exact ⟨ts, hcut, fun items frames e he => htakes (.array items :: frames) e he.symm⟩

/-- A name, a colon and a text that spells a value are taken for a member. -/
theorem Spells.member {cs gap : List Char} {v : Json} (h : Spells cs v)
    (hgap : ∀ c ∈ gap, isSpace c = true) (name : String) :
    Bracket.object.SpellsParts (quoted name ++ ':' :: (gap ++ cs)) [(name, v)] := by
  obtain ⟨ts, hcut, htakes⟩ := h
  have hcolon : Cut Anything [':'] [.colon] := .token rfl fun _ _ => rfl
  have hwhole : Cut EndsNumber (quoted name ++ ':' :: (gap ++ cs))
      (.string (some name) :: .colon :: ts) :=
    (Cut.quoted name).anything_append
      (hcolon.anything_append ((Cut.blank hgap).anything_append hcut))
  refine ⟨_, hwhole, fun members frames e he => ?_⟩
  have hname : Reader.step ⟨Bracket.object.frame members :: frames, e⟩ (.string (some name))
      = some ⟨Bracket.object.frame members :: frames, .colon (some name)⟩ := by
    rcases he with rfl | rfl <;> rfl
  rw [List.foldlM_cons, hname]
  show ts.foldlM Reader.step ⟨.member (some name) :: Bracket.object.frame members :: frames, .value⟩
    = _
  rw [htakes _ .value (.inl rfl)]
  rfl

/-! ## Both texts of a value -/

/-- A value whose text says all of it: whole numbers keep to sixty-four bits, the other numbers are
finite, and nothing in it has no value. -/
inductive Faithful : Json → Prop
  | null : Faithful .null
  | bool (b : Bool) : Faithful (.bool b)
  | integer {n : Int} (low : -(Word.size63 : Int) ≤ n) (high : n < Word.size64) :
    Faithful (.integer n)
  | real {d : Double} (finite : d.isFinite = true) : Faithful (.real d)
  | string (s : String) : Faithful (.string s)
  | array {items : List Json} (h : ∀ v ∈ items, Faithful v) : Faithful (.array items)
  | object {members : List (String × Json)} (h : ∀ m ∈ members, Faithful m.2) :
    Faithful (.object members)

theorem compactItems_eq (vs : List Json) : compactItems vs = vs.map compact := by
  induction vs with
  | nil => rfl
  | cons v vs ih => rw [compactItems, ih, List.map_cons]

theorem compactMembers_eq (ms : List (String × Json)) :
    compactMembers ms = ms.map fun m => quoted m.1 ++ ':' :: compact m.2 := by
  induction ms with
  | nil => rfl
  | cons m ms ih => rw [compactMembers, ih, List.map_cons]

theorem prettyItems_eq (depth : Nat) (vs : List Json) :
    prettyItems depth vs = vs.map (prettyAt depth) := by
  induction vs with
  | nil => rfl
  | cons v vs ih => rw [prettyItems, ih, List.map_cons]

theorem prettyMembers_eq (depth : Nat) (ms : List (String × Json)) :
    prettyMembers depth ms = ms.map fun m => quoted m.1 ++ ':' :: ' ' :: prettyAt depth m.2 := by
  induction ms with
  | nil => rfl
  | cons m ms ih => rw [prettyMembers, ih, List.map_cons]

/-- The parts of an array or an object, each written as a text that is taken for it. -/
theorem Bracket.spells_map {α : Type} {b : Bracket α} {pad pad' : List Char}
    (hpad : ∀ c ∈ pad, isSpace c = true) (hpad' : ∀ c ∈ pad', isSpace c = true) {xs : List α}
    {text : α → List Char} (h : ∀ x ∈ xs, b.SpellsParts (text x) [x]) (hne : xs ≠ []) :
    Spells (b.opening :: (pad ++ (joined (',' :: pad) (xs.map text) ++ (pad' ++ [b.closing]))))
      (b.value xs) := by
  refine Bracket.spells hpad hpad' (spellsParts_joined hpad ?_ hne)
  rw [List.forall₂_map_left_iff, List.forall₂_same]
  exact h

theorem spells_null : Spells (scalarText .null) .null :=
  Cut.null.of_anything.spells fun _ => rfl

theorem spells_bool (b : Bool) : Spells (scalarText (.bool b)) (.bool b) :=
  (Cut.bool b).of_anything.spells fun _ => rfl

theorem spells_integer {n : Int} (low : -(Word.size63 : Int) ≤ n) (high : n < Word.size64) :
    Spells (scalarText (.integer n)) (.integer n) :=
  (Cut.integer low high).spells fun _ => rfl

theorem spells_real {d : Double} (finite : d.isFinite = true) :
    Spells (scalarText (.real d)) (.real d) :=
  (Cut.real finite).spells fun _ => rfl

theorem spells_string (s : String) : Spells (scalarText (.string s)) (.string s) :=
  (Cut.quoted s).of_anything.spells fun _ => rfl

theorem isSpace_nil : ∀ c ∈ ([] : List Char), isSpace c = true :=
  nofun

theorem isSpace_blank : ∀ c ∈ [' '], isSpace c = true := by
  simp [isSpace]

theorem isSpace_newLine (depth : Nat) : ∀ c ∈ newLine depth, isSpace c = true := by
  intro c hc
  rcases List.mem_cons.mp hc with rfl | hc
  · rfl
  · rw [List.eq_of_mem_replicate hc]
    rfl

theorem spells_compact {v : Json} (h : Faithful v) : Spells v.compact v := by
  induction h with
  | null => exact spells_null
  | bool b => exact spells_bool b
  | integer low high => exact spells_integer low high
  | real finite => exact spells_real finite
  | string s => exact spells_string s
  | @array items _ ih =>
    rw [compact, compactItems_eq]
    rcases eq_or_ne items [] with rfl | hne
    · exact Bracket.array.spells_nil
    · exact Bracket.array.spells_map isSpace_nil isSpace_nil (fun v hv => (ih v hv).item) hne
  | @object members _ ih =>
    rw [compact, compactMembers_eq]
    rcases eq_or_ne members [] with rfl | hne
    · exact Bracket.object.spells_nil
    · exact Bracket.object.spells_map isSpace_nil isSpace_nil
        (fun m hm => (ih m hm).member isSpace_nil m.1) hne

/-- Parts on lines of their own. -/
theorem Bracket.spells_bracketed {α : Type} {b : Bracket α} (depth : Nat) {xs : List α}
    {text : α → List Char} (h : ∀ x ∈ xs, b.SpellsParts (text x) [x]) :
    Spells (bracketed b.opening b.closing depth (xs.map text)) (b.value xs) := by
  rcases eq_or_ne xs [] with rfl | hne
  · exact b.spells_nil
  · have hparts : (xs.map text).isEmpty = false := by simpa using hne
    have h := b.spells_map (isSpace_newLine (depth + 1)) (isSpace_newLine depth) h hne
    rw [bracketed, hparts]
    simpa using h

theorem spells_prettyAt {v : Json} (h : Faithful v) (depth : Nat) :
    Spells (prettyAt depth v) v := by
  induction h generalizing depth with
  | null => exact spells_null
  | bool b => exact spells_bool b
  | integer low high => exact spells_integer low high
  | real finite => exact spells_real finite
  | string s => exact spells_string s
  | @array items _ ih =>
    rw [prettyAt, prettyItems_eq]
    exact Bracket.array.spells_bracketed depth fun v hv => (ih v hv (depth + 1)).item
  | @object members _ ih =>
    rw [prettyAt, prettyMembers_eq]
    exact Bracket.object.spells_bracketed depth fun m hm =>
      (ih m hm (depth + 1)).member isSpace_blank m.1

/-- A document without blanks is read as what it was written for. -/
theorem ofText?_compact {v : Json} (h : Faithful v) : ofText? v.compact = some v :=
  (spells_compact h).ofText?_eq

/-- A document with one member or item a line is read as what it was written for. -/
theorem ofText?_pretty {v : Json} (h : Faithful v) : ofText? v.pretty = some v :=
  (spells_prettyAt h 0).ofText?_eq

end QueryPanel.Json
