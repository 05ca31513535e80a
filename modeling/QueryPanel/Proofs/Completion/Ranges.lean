import QueryPanel.Proofs.Completion.Slots

/-!
# The range that a completion replaces

A slot is found in the last clause of the text before the cursor, and its offsets are counted back
from where that text ends. So it lies on a range at the end of the clause: kind, key and query come
from the clause alone, and only the two offsets know of the text around it.

> `ranged_ofBody`: the slot of a clause lies on a range that the clause ends with, and `Says` tells
> what the query makes of that range.

Behind a conjunction a text is read as from its start, so what stands in front of it moves the range
and changes nothing else:

> `ofCursor_joined`: the slot at a cursor behind a joined text is the one in the second part alone,
> moved by what stands in front of it.
-/

namespace QueryPanel

/-! ## Literals that go on -/

/-- A body whose closing mark is still missing: nowhere in it a mark stands behind a text that the
mark can enclose. -/
def Quote.Open (quote : Quote) (body : List Char) : Prop :=
  ∀ inner rest, quote.Encloses inner → body ≠ inner ++ quote.char :: rest

theorem Quote.open_iff {quote : Quote} {body : List Char} :
    quote.Open body ↔ quote.split? body = none := by
  constructor
  · intro h
    cases hsplit : quote.split? body with
    | none => rfl
    | some parts =>
      obtain ⟨hencloses, hbody⟩ := Quote.split?_eq_some_iff.mp hsplit
      exact absurd hbody (h _ _ hencloses)
  · intro h inner rest hencloses hbody
    rw [Quote.split?_eq_some_iff.mpr ⟨hencloses, hbody⟩] at h
    cases h

/-- A text that the mark can enclose has no closing mark in it. -/
theorem Quote.open_of_encloses {quote : Quote} {body : List Char} (h : quote.Encloses body) :
    quote.Open body := by
  intro inner rest hinner hbody
  have hclosed : quote.split? (body ++ [quote.char]) = some (body, []) :=
    Quote.split?_eq_some_iff.mpr ⟨h, rfl⟩
  have hearlier : quote.split? (body ++ [quote.char]) = some (inner, rest ++ [quote.char]) :=
    Quote.split?_eq_some_iff.mpr ⟨hinner, by simp [hbody]⟩
  rw [hclosed] at hearlier
  exact absurd (congrArg Prod.snd (Option.some.inj hearlier)) (by simp)

namespace Slot

open Clause (lastSegment beginsWithConjunction)

/-! ## Slots on a range -/

/-- A slot on the range that a text ends with, where the text ends at `stop`. -/
def onRange (kind : SlotKind) (query : String) (key : Option String) (range : List Char)
    (stop : Nat) : Slot :=
  ⟨kind, query, key, stop - Text.byteLength range, stop⟩

theorem onRange_append (kind : SlotKind) (query : String) (key : Option String)
    (front range : List Char) :
    onRange kind query key range (Text.byteLength (front ++ range))
      = ⟨kind, query, key, Text.byteLength front, Text.byteLength (front ++ range)⟩ := by
  rw [onRange, Text.byteLength_append, Nat.add_sub_cancel]

/-- What a slot makes of its range: the query is the text of the range, but for a value with an
opening mark, of which it is what the literal says so far. -/
inductive Says : SlotKind → List Char → String → Prop
  | plain {kind : SlotKind} {range : List Char}
    (h : kind = .value → ∀ quote : Quote, range.head? ≠ some quote.char) :
    Says kind range (String.ofList range)
  | literal {quote : Quote} {body : List Char} (h : quote.Open body) :
    Says .value (quote.char :: body) (String.ofList (quote.value body))

/-- Wherever the text ends, the slot lies on the same range at the end of `body`. -/
def Ranged (body : List Char) (slotAt : Nat → Slot) : Prop :=
  ∃ kind query key range, range <:+ body ∧ Says kind range query ∧
    ∀ stop, slotAt stop = onRange kind query key range stop

section Ranged

variable {body : List Char} {slotAt : Nat → Slot}

theorem Ranged.of_suffix {body' : List Char} (h : Ranged body slotAt) (hsuffix : body <:+ body') :
    Ranged body' slotAt := by
  obtain ⟨kind, query, key, range, hrange, hquery, hslot⟩ := h
  exact ⟨kind, query, key, range, hrange.trans hsuffix, hquery, hslot⟩

theorem ranged_typed (kind : SlotKind) (key : Option String) {query : List Char}
    (hsuffix : query <:+ body)
    (hkind : kind = .value → ∀ quote : Quote, query.head? ≠ some quote.char)
    (hslot : ∀ stop, slotAt stop = typed kind key query stop) : Ranged body slotAt :=
  ⟨kind, _, key, query, hsuffix, .plain hkind, hslot⟩

/-- Where no value stands, nothing is asked of what has been typed. -/
theorem ranged_typed_of_ne (kind : SlotKind) (hkind : kind ≠ .value) (key : Option String)
    {query : List Char} (hsuffix : query <:+ body)
    (hslot : ∀ stop, slotAt stop = typed kind key query stop) : Ranged body slotAt :=
  ranged_typed kind key hsuffix (fun h => absurd h hkind) hslot

theorem spanWord_suffix {cs word rest : List Char} (h : spanWord cs = (word, rest)) :
    Text.trimStart rest <:+ cs := by
  have hcs := spanWord_append cs
  rw [h] at hcs
  exact (List.dropWhile_suffix _).trans ⟨word, hcs⟩

theorem ranged_beforeEquals (body : List Char) : Ranged body (beforeEquals body) := by
  rcases hspan : spanWord body with ⟨word, _ | ⟨b, rest⟩⟩
  · refine ranged_typed_of_ne .key (by decide) none List.suffix_rfl ?_
    intro stop
    rw [beforeEquals, hspan]
  · have hsuffix := spanWord_suffix hspan
    refine ranged_typed_of_ne .operator (by decide) (some (String.ofList word)) hsuffix ?_
    intro stop
    rw [beforeEquals, hspan]

theorem ranged_afterEquals (key : String) (tail : List Char) :
    Ranged tail (afterEquals key tail) := by
  have htrim : Text.trimStart tail <:+ tail := List.dropWhile_suffix _
  cases hvalue : Text.trimStart tail with
  | nil =>
    refine ranged_typed .value (some key) List.nil_suffix (by simp) ?_
    intro stop
    rw [afterEquals, hvalue]
  | cons c cs =>
    rw [hvalue] at htrim
    refine Ranged.of_suffix ?_ htrim
    cases hquote : Quote.ofChar? c with
    | some quote =>
      obtain rfl := Quote.eq_char_of_ofChar? hquote
      cases hsplit : quote.split? cs with
      | none =>
        refine ⟨.value, _, some key, _, List.suffix_rfl, .literal (Quote.open_iff.mpr hsplit), ?_⟩
        intro stop
        simp only [afterEquals, hvalue, hquote, hsplit, onRange]
      | some parts =>
        obtain ⟨inner, rest⟩ := parts
        obtain ⟨-, rfl⟩ := Quote.split?_eq_some_iff.mp hsplit
        have hrest : Text.trimStart rest <:+ quote.char :: (inner ++ quote.char :: rest) :=
          (List.dropWhile_suffix _).trans ⟨quote.char :: (inner ++ [quote.char]), by simp⟩
        refine ranged_typed_of_ne .conjunction (by decide) (some key) hrest ?_
        intro stop
        simp only [afterEquals, hvalue, hquote, hsplit]
    | none =>
      rcases hspan : spanWord (c :: cs) with ⟨word, _ | ⟨b, rest⟩⟩
      · refine ranged_typed .value (some key) List.suffix_rfl ?_ ?_
        · intro _ quote hhead
          rw [Option.some.inj hhead, Quote.ofChar?_char] at hquote
          cases hquote
        · intro stop
          simp only [afterEquals, hvalue, hquote, hspan]
      · refine ranged_typed_of_ne .conjunction (by decide) (some key) (spanWord_suffix hspan) ?_
        intro stop
        simp only [afterEquals, hvalue, hquote, hspan]

/-- The slot of the clause that a text ends with. -/
def ofBody (body : List Char) (stop : Nat) : Slot :=
  if body.isEmpty then typed .key none [] stop
  else
    match Scan.start.splitAtEquals? body with
    | none => beforeEquals body stop
    | some (key, tail) => afterEquals (String.ofList (Text.trim key)) tail stop

theorem ofText_eq (text : List Char) :
    ofText text = ofBody (Text.trimStart (lastSegment text)) (Text.byteLength text) :=
  rfl

/-- The slot of a clause lies on a range that the clause ends with. -/
theorem ranged_ofBody (body : List Char) : Ranged body (ofBody body) := by
  cases body with
  | nil => exact ranged_typed_of_ne .key (by decide) none List.suffix_rfl fun _ => rfl
  | cons c cs =>
    cases hsplit : Scan.start.splitAtEquals? (c :: cs) with
    | none =>
      have hbefore : ofBody (c :: cs) = beforeEquals (c :: cs) := by
        funext stop
        simp only [ofBody, hsplit, List.isEmpty_cons, Bool.false_eq_true, if_false]
      rw [hbefore]
      exact ranged_beforeEquals (c :: cs)
    | some parts =>
      obtain ⟨key, tail⟩ := parts
      have hafter : ofBody (c :: cs) = afterEquals (String.ofList (Text.trim key)) tail := by
        funext stop
        simp only [ofBody, hsplit, List.isEmpty_cons, Bool.false_eq_true, if_false]
      have hbody := (Scan.eq_of_splitAtEquals? hsplit).1
      rw [hafter]
      exact (ranged_afterEquals _ tail).of_suffix ⟨key ++ ['='], by simp [hbody]⟩

end Ranged

/-! ## Moving a slot -/

/-- The slot that stands `n` bytes further back in a text. -/
def shift (s : Slot) (n : Nat) : Slot :=
  { s with start := s.start + n, stop := s.stop + n }

theorem onRange_shift (kind : SlotKind) (query : String) (key : Option String) {range : List Char}
    {stop : Nat} (h : Text.byteLength range ≤ stop) (n : Nat) :
    onRange kind query key range (stop + n) = (onRange kind query key range stop).shift n := by
  rw [onRange, onRange, shift, Nat.sub_add_comm h]

/-- What stands in front of a text moves the slot of its last clause. -/
theorem ofBody_shift {body : List Char} {stop : Nat} (h : Text.byteLength body ≤ stop) (n : Nat) :
    ofBody body (stop + n) = (ofBody body stop).shift n := by
  obtain ⟨kind, query, key, range, hrange, -, hslot⟩ := ranged_ofBody body
  have hle : Text.byteLength range ≤ stop := (Text.byteLength_le_of_suffix hrange).trans h
  rw [hslot, hslot, onRange_shift kind query key hle]

theorem byteLength_lastClause_le (text : List Char) :
    Text.byteLength (Text.trimStart (lastSegment text)) ≤ Text.byteLength text := by
  obtain ⟨front, htext, -⟩ := Clause.exists_front text
  exact Text.byteLength_le_of_suffix ⟨front, htext.symm⟩

/-! ## Behind a conjunction -/

/-- Behind a conjunction, what stands in front of it is out of sight. -/
theorem ofText_joined {front cs : List Char} (bare : (Scan.start.run front).isBare = true)
    (begins : beginsWithConjunction cs = false) :
    ofText (front ++ " AND ".toList ++ cs) = (ofText cs).shift (Text.byteLength front + 5) := by
  have hlength : Text.byteLength (front ++ " AND ".toList ++ cs)
      = Text.byteLength cs + (Text.byteLength front + 5) := by
    rw [Text.byteLength_append, Text.byteLength_append, Nat.add_comm]
    rfl
  rw [ofText_eq, ofText_eq, Clause.trimStart_lastSegment_join bare begins, hlength,
    ofBody_shift (byteLength_lastClause_le cs)]

/-- A text behind which a clause may begin: none at all, or one that leaves no literal open and a
conjunction. -/
inductive ClosedPrefix : List Char → Prop
  | nothing : ClosedPrefix []
  | conjunction {front : List Char} (bare : (Scan.start.run front).isBare = true) :
    ClosedPrefix (front ++ " AND ".toList)

theorem ofText_behind {front cs : List Char} (h : ClosedPrefix front)
    (begins : beginsWithConjunction cs = false) :
    ofText (front ++ cs) = (ofText cs).shift (Text.byteLength front) := by
  cases h with
  | nothing => rfl
  | conjunction bare =>
    rw [ofText_joined bare begins, Text.byteLength_append]
    rfl

/-- The slot at a cursor in the second of two joined texts is the slot there in the second text
alone, moved by what stands in front of it. The first text may end as it likes, as long as it leaves
no literal open. -/
theorem ofCursor_joined (e₁ e₂ : String) (cursor : Nat)
    (bare : (Scan.start.run e₁.toList).isBare = true)
    (begins : beginsWithConjunction e₂.toList = false) :
    ofCursor (e₁ ++ " AND " ++ e₂) (Text.byteLength e₁.toList + 5 + cursor)
      = (ofCursor e₂ cursor).shift (Text.byteLength e₁.toList + 5) := by
  have hfront : Text.byteLength (e₁.toList ++ " AND ".toList) = Text.byteLength e₁.toList + 5 := by
    rw [Text.byteLength_append]
    rfl
  have hcut : Text.takeBytes (Text.byteLength e₁.toList + 5 + cursor) (e₁ ++ " AND " ++ e₂).toList
      = e₁.toList ++ " AND ".toList ++ Text.takeBytes cursor e₂.toList := by
    rw [String.toList_append, String.toList_append, ← hfront, Text.takeBytes_append]
  have hbegins : beginsWithConjunction (Text.takeBytes cursor e₂.toList) = false := by
    rw [← Text.takeBytes_append_dropBytes cursor e₂.toList] at begins
    exact Clause.beginsWithConjunction_of_append begins
  rw [ofCursor, hcut, ofText_joined bare hbegins, ofCursor]

/-- The first text ends with the word of a conjunction, the second has another conjunction inside
its literal and one behind it, and the cursor stands in the middle of a character. -/
theorem ofCursor_joined_midCharacter :
    ((Scan.start.run "env = \"a b\" and".toList).isBare = true ∧
      beginsWithConjunction "k = \"x AND y\" and né".toList = false) ∧
    ofCursor ("env = \"a b\" and" ++ " AND " ++ "k = \"x AND y\" and né")
        (Text.byteLength "env = \"a b\" and".toList + 5 + 20)
      = ⟨.key, "n", none, 38, 39⟩ := by
  have bare : (Scan.start.run "env = \"a b\" and".toList).isBare = true := by decide
  have begins : beginsWithConjunction "k = \"x AND y\" and né".toList = false := by decide
  have hjoined := ofCursor_joined _ _ 20 bare begins
  have halone : ofCursor "k = \"x AND y\" and né" 20 = ⟨.key, "n", none, 18, 19⟩ := by
    decide +kernel
  rw [halone] at hjoined
  exact ⟨⟨bare, begins⟩, hjoined⟩

end Slot

end QueryPanel
