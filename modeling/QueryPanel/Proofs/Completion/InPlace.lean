import QueryPanel.Proofs.Completion.Ranges
import QueryPanel.Proofs.Text.Slicing

/-!
# Finding the slot in place

The slot at a cursor can be found without a copy of any part of the text: by offsets into it, with a
slice taken wherever a part is looked at and a difference wherever a part is measured from its end.
`ofCursor?` does so, and gives nothing as soon as a slice leaves the text or cuts a character in
two, or a difference falls below zero.

> `ofCursor?_eq`: none of that happens, and the slot is the one of `ofCursor`.

> `ofCursor_exact`: the range of that slot, sliced out of the expression, is what its query says.

Each step has one lemma that says which part of the text its offset ends. Offsets of characters are
lengths of what stands before them, and behind a conjunction it matters that its word, which is
compared as bytes, has three characters of one byte each (`wordAt?_append`).
-/

namespace QueryPanel.Slot

open Clause (pieces lastSegment beginsWithConjunction startsConjunction)

/-! ## The steps -/

/-- The word of a conjunction stands at an offset, with a blank behind it. -/
def wordAt? (text : List Char) (offset : Nat) : Option Bool :=
  if Text.byteLength text > offset + 3 then do
    let word ← Text.byteSlice? text offset (offset + 3)
    if word.map Text.lowerByte = Text.bytes ['a', 'n', 'd'] then
      let behind ← Text.from? text (offset + 3)
      return behind.head?.any Text.isBlank
    else
      return false
  else
    some false

/-- A conjunction begins with the character at an offset. Its bytes are looked at only where a scan
stands behind a blank and the character is its first letter. -/
def startsConjunction? (text : List Char) (s : Scan) (offset : Nat) (c : Char) : Option Bool :=
  if s.isAfterBlank ∧ c.toLower = 'a' then wordAt? text offset else some false

/-- The offsets of the conjunctions in what is left of a text. -/
def conjunctions? (text : List Char) : Scan → Nat → List Char → Option (List Nat)
  | _, _, [] => some []
  | s, offset, c :: cs => do
    let here ← startsConjunction? text s offset c
    let others ← conjunctions? text (s.step c) (offset + c.utf8Size) cs
    return if here then offset :: others else others

/-- The offset of the first equals sign outside every literal. -/
def findEquals? : Scan → Nat → List Char → Option Nat
  | _, _, [] => none
  | s, offset, c :: cs =>
    if s.isOutside c ∧ c = '=' then some offset
    else findEquals? (s.step c) (offset + c.utf8Size) cs

/-- The offset of the mark that closes a literal. -/
def closing? (quote : Quote) : (escaped : Bool) → Nat → List Char → Option Nat
  | _, _, [] => none
  | true, offset, c :: cs => closing? quote false (offset + c.utf8Size) cs
  | false, offset, c :: cs =>
    if c = '\\' ∧ quote = .double then closing? quote true (offset + c.utf8Size) cs
    else if c = quote.char then some offset
    else closing? quote false (offset + c.utf8Size) cs

/-- The slot over what a text ends with, but for blanks in front. -/
def typed? (kind : SlotKind) (key : String) (rest : List Char) (cursor : Nat) : Option Slot := do
  let query := Text.trimStart rest
  let start ← cursor.psub (Text.byteLength query)
  return ⟨kind, String.ofList query, some key, start, cursor⟩

/-- The slot of a clause with no equals sign. -/
def beforeEquals? (body : List Char) (bodyStart cursor : Nat) : Option Slot :=
  match Text.find? Text.isBlank body with
  | none => some ⟨.key, String.ofList body, none, bodyStart, cursor⟩
  | some split => do
    let key ← Text.upTo? body split
    let rest ← Text.from? body split
    typed? .operator (String.ofList key) rest cursor

/-- The slot of a clause with text behind its equals sign. -/
def afterEquals? (key : String) (tail : List Char) (cursor : Nat) : Option Slot := do
  let value := Text.trimStart tail
  let start ← cursor.psub (Text.byteLength value)
  match value with
  | [] => return ⟨.value, "", some key, cursor, cursor⟩
  | first :: _ =>
    match Quote.ofChar? first with
    | some quote =>
      let inner ← Text.from? value first.utf8Size
      match closing? quote false 0 inner with
      | none => return ⟨.value, String.ofList (quote.value inner), some key, start, cursor⟩
      | some close =>
        let rest ← Text.from? inner (close + first.utf8Size)
        typed? .conjunction key rest cursor
    | none =>
      match Text.find? Text.isBlank value with
      | none => return ⟨.value, String.ofList value, some key, start, cursor⟩
      | some split =>
        let rest ← Text.from? value split
        typed? .conjunction key rest cursor

/-- The slot of the clause that a text ends with. -/
def ofBody? (body : List Char) (bodyStart cursor : Nat) : Option Slot :=
  if body.isEmpty then some ⟨.key, "", none, cursor, cursor⟩
  else
    match findEquals? .start 0 body with
    | none => beforeEquals? body bodyStart cursor
    | some sign => do
      let key ← Text.upTo? body sign
      let tail ← Text.from? body (sign + 1)
      afterEquals? (String.ofList (Text.trim key)) tail cursor

/-- The slot at the end of a text. -/
def ofText? (text : List Char) (cursor : Nat) : Option Slot := do
  let positions ← conjunctions? text .start 0 text
  let segmentStart := (positions.getLast?.map (· + 3)).getD 0
  let segment ← Text.from? text segmentStart
  let blanks ← (Text.byteLength segment).psub (Text.byteLength (Text.trimStart segment))
  let body ← Text.from? text (segmentStart + blanks)
  ofBody? body (segmentStart + blanks) cursor

/-- The slot at a byte offset of an expression. -/
def ofCursor? (expression : String) (cursor : Nat) : Option Slot := do
  let text := expression.toList
  let cursor := Text.floorBoundary text (min cursor (Text.byteLength text))
  let before ← Text.upTo? text cursor
  ofText? before cursor

/-! ## Conjunctions -/

theorem isLower_word : ∀ l ∈ ['a', 'n', 'd'], l.isLower = true :=
  List.all_eq_true.mp rfl

/-- What is found at an offset is what the text goes on with behind it. -/
theorem wordAt?_append (front cs : List Char) :
    wordAt? (front ++ cs) (Text.byteLength front) = some (beginsWithConjunction cs) := by
  have hspells : ((Text.bytes cs).take 3).map Text.lowerByte = Text.bytes ['a', 'n', 'd']
      ↔ Text.eqIgnoreCase (cs.take 3) ['a', 'n', 'd'] = true :=
    Text.map_lowerByte_take_bytes isLower_word cs
  have hsplit : Text.byteLength cs = Text.byteLength (cs.take 3) + Text.byteLength (cs.drop 3) := by
    rw [← Text.byteLength_append, List.take_append_drop]
  rw [wordAt?, Text.byteLength_append, Clause.beginsWithConjunction_eq]
  cases hword : Text.eqIgnoreCase (cs.take 3) ['a', 'n', 'd'] with
  | false =>
    rw [hword] at hspells
    split
    · next hlong =>
      rw [Text.byteSlice?_append (by omega), Option.bind_eq_bind, Option.bind_some,
        if_neg fun h => Bool.false_ne_true (hspells.mp h), Bool.false_and]
      rfl
    · rw [Bool.false_and]
  | true =>
    rw [hword] at hspells
    have hthree : Text.byteLength (cs.take 3) = 3 :=
      Text.byteLength_of_eqIgnoreCase isLower_word hword
    rw [Bool.true_and]
    split
    · next hlong =>
      -- The word is three bytes long, so the slice behind it begins with a whole character.
      have hfrom := Text.from?_append_append front (cs.take 3) (cs.drop 3)
      rw [List.take_append_drop, hthree] at hfrom
      rw [Text.byteSlice?_append (by omega), Option.bind_eq_bind, Option.bind_some,
        if_pos (hspells.mpr rfl), hfrom]
      rfl
    · next hshort =>
      have hnone : cs.drop 3 = [] := by
        cases hdrop : cs.drop 3 with
        | nil => rfl
        | cons b rest =>
          have hb : 0 < b.utf8Size := b.utf8Size_pos
          rw [hdrop, Text.byteLength] at hsplit
          omega
      rw [hnone]
      rfl

theorem startsConjunction?_append (s : Scan) (front : List Char) (c : Char) (cs : List Char) :
    startsConjunction? (front ++ c :: cs) s (Text.byteLength front) c
      = some (startsConjunction s (c :: cs)) := by
  rw [startsConjunction?, Clause.startsConjunction_eq]
  split
  · next h => rw [wordAt?_append, h.1, Bool.true_and]
  · next h =>
    rw [not_and_or, Bool.not_eq_true] at h
    rcases h with h | h
    · rw [h, Bool.false_and]
    · rw [Clause.beginsWithConjunction_cons h, Bool.and_false]

/-- Where pieces begin, the first of them at `n`. -/
def offsets : Nat → List (List Char) → List Nat
  | _, [] => []
  | n, piece :: others => n :: offsets (n + Text.byteLength piece) others

theorem getLast?_offsets (n : Nat) (init : List (List Char)) (last : List Char) :
    (offsets n (init ++ [last])).getLast? = some (n + Text.byteLength init.flatten) := by
  induction init generalizing n with
  | nil => rfl
  | cons piece init ih =>
    rw [List.cons_append, offsets, List.getLast?_cons, ih, Option.getD_some, List.flatten_cons,
      Text.byteLength_append, Nat.add_assoc]

/-- The offsets are those of the pieces that begin with a conjunction. -/
theorem conjunctions?_append (s : Scan) (front cs : List Char) :
    conjunctions? (front ++ cs) s (Text.byteLength front) cs
      = some (offsets (Text.byteLength front + Text.byteLength (pieces s cs).1)
          (pieces s cs).2) := by
  induction cs generalizing s front with
  | nil => rfl
  | cons c cs ih =>
    have hnext := ih (s.step c) (front ++ [c])
    have hlength : Text.byteLength (front ++ [c]) = Text.byteLength front + c.utf8Size := by
      rw [Text.byteLength_append]
      rfl
    rw [List.append_assoc, List.singleton_append, hlength] at hnext
    rw [conjunctions?, startsConjunction?_append, hnext]
    cases hstarts : startsConjunction s (c :: cs) with
    | true =>
      rw [Clause.pieces_of_starts hstarts]
      simp [offsets, Text.byteLength, Nat.add_assoc]
    | false =>
      rw [Clause.pieces_of_not_starts hstarts]
      simp [Text.byteLength, Nat.add_assoc]

/-- The segment that a text ends with begins behind the word of its last conjunction. -/
theorem exists_segment (text : List Char) :
    ∃ positions, conjunctions? text .start 0 text = some positions ∧
      ∃ front, text = front ++ lastSegment text ∧
        (positions.getLast?.map (· + 3)).getD 0 = Text.byteLength front := by
  have hpositions := conjunctions?_append .start [] text
  refine ⟨_, hpositions, ?_⟩
  have hflat := Clause.flatten_pieces .start text
  rcases List.eq_nil_or_concat (pieces .start text).2 with hothers | ⟨init, last, hothers⟩
  · rw [hothers, List.flatten_nil, List.append_nil] at hflat
    refine ⟨[], ?_, ?_⟩
    · rw [lastSegment, hothers]
      exact hflat.symm
    · rw [hothers]
      rfl
  · rw [List.concat_eq_append] at hothers
    have hlast : (pieces .start text).2.getLast? = some last := by
      rw [hothers, List.getLast?_concat]
    obtain ⟨before, -, hstarts⟩ := Clause.exists_front_of_last_piece hlast
    rw [Clause.startsConjunction_eq, Bool.and_eq_true_iff, Clause.beginsWithConjunction_eq,
      Bool.and_eq_true_iff] at hstarts
    have hthree : Text.byteLength (last.take 3) = 3 :=
      Text.byteLength_of_eqIgnoreCase isLower_word hstarts.2.1
    have hall : text = (pieces .start text).1 ++ init.flatten ++ last := by
      rw [hothers] at hflat
      simpa using hflat.symm
    refine ⟨(pieces .start text).1 ++ init.flatten ++ last.take 3, ?_, ?_⟩
    · rw [lastSegment, hlast]
      dsimp only
      rw [List.append_assoc, List.take_append_drop]
      exact hall
    · rw [hothers, getLast?_offsets, Text.byteLength_append, Text.byteLength_append, hthree]
      simp [Text.byteLength]

/-! ## The clause -/

theorem findEquals?_eq (s : Scan) (offset : Nat) (cs : List Char) :
    findEquals? s offset cs
      = (s.splitAtEquals? cs).map fun (before, _) => offset + Text.byteLength before := by
  induction cs generalizing s offset with
  | nil => rfl
  | cons c cs ih =>
    rw [findEquals?, Scan.splitAtEquals?]
    split
    · rfl
    · rw [ih, Option.map_map]
      exact Option.map_congr fun parts _ => Nat.add_assoc _ _ _

theorem closing?_eq (quote : Quote) (offset : Nat) (cs : List Char) :
    closing? quote false offset cs
      = (quote.split? cs).map fun (body, _) => offset + Text.byteLength body := by
  cases quote with
  | single =>
    rw [Quote.split?]
    induction cs generalizing offset with
    | nil => rfl
    | cons c cs ih =>
      rw [closing?, if_neg fun h => Quote.noConfusion h.2, Quote.splitSingle?]
      by_cases hc : c = '\''
      · rw [if_pos (show c = Quote.single.char from hc), if_pos hc]
        rfl
      · rw [if_neg (show ¬ c = Quote.single.char from hc), if_neg hc, ih, Option.map_map]
        exact Option.map_congr fun parts _ => Nat.add_assoc _ _ _
  | double =>
    rw [Quote.split?]
    fun_induction Quote.splitDouble? cs generalizing offset with
    | case1 => rfl
    | case2 cs => rfl
    | case3 c cs ih =>
      rw [closing?, if_pos ⟨rfl, rfl⟩, closing?, ih, Option.map_map]
      refine Option.map_congr fun parts _ => ?_
      simp [Text.byteLength, Nat.add_assoc]
    | case4 c cs hquote hslash ih =>
      by_cases hc : c = '\\'
      · -- A backslash at the end escapes nothing, and closes nothing either.
        cases cs with
        | nil =>
          subst hc
          rfl
        | cons d cs => exact absurd rfl (hslash d cs hc)
      · rw [closing?, if_neg fun h => hc h.1, if_neg (show ¬ c = Quote.double.char from hquote),
          ih, Option.map_map]
        exact Option.map_congr fun parts _ => Nat.add_assoc _ _ _

theorem find?_isBlank (cs : List Char) :
    Text.find? Text.isBlank cs
      = if (spanWord cs).2 = [] then none else some (Text.byteLength (spanWord cs).1) := by
  induction cs with
  | nil => rfl
  | cons c cs ih =>
    cases hc : Text.isBlank c with
    | true => simp [Text.find?, spanWord, hc, Text.byteLength]
    | false =>
      have hcons : spanWord (c :: cs) = (c :: (spanWord cs).1, (spanWord cs).2) := by
        simp [spanWord, hc]
      rw [Text.find?, hc, if_neg Bool.false_ne_true, ih, hcons]
      split <;> rfl

theorem typed?_eq (kind : SlotKind) (key : String) {rest : List Char} {cursor : Nat}
    (h : Text.byteLength rest ≤ cursor) :
    typed? kind key rest cursor = some (typed kind (some key) (Text.trimStart rest) cursor) := by
  have hle : Text.byteLength (Text.trimStart rest) ≤ cursor :=
    (Text.byteLength_trimStart_le rest).trans h
  rw [typed?, Nat.psub_eq_sub hle]
  rfl

theorem beforeEquals?_eq {body : List Char} {cursor : Nat} (h : Text.byteLength body ≤ cursor) :
    beforeEquals? body (cursor - Text.byteLength body) cursor
      = some (beforeEquals body cursor) := by
  have hbody := spanWord_append body
  rw [beforeEquals?, find?_isBlank, beforeEquals]
  rcases hspan : spanWord body with ⟨word, _ | ⟨b, rest⟩⟩
  · rfl
  · rw [hspan] at hbody
    have hrest : Text.byteLength (b :: rest) ≤ cursor :=
      (Text.byteLength_le_of_suffix ⟨word, hbody⟩).trans h
    have hupTo := Text.upTo?_append word (b :: rest)
    have hfrom := Text.from?_append word (b :: rest)
    rw [hbody] at hupTo hfrom
    rw [if_neg (List.cons_ne_nil b rest)]
    simp only [hupTo, hfrom, Option.bind_eq_bind, Option.bind_some]
    exact typed?_eq .operator (String.ofList word) hrest

theorem afterEquals?_eq (key : String) {tail : List Char} {cursor : Nat}
    (h : Text.byteLength tail ≤ cursor) :
    afterEquals? key tail cursor = some (afterEquals key tail cursor) := by
  have hle : Text.byteLength (Text.trimStart tail) ≤ cursor :=
    (Text.byteLength_trimStart_le tail).trans h
  rw [afterEquals?, Nat.psub_eq_sub hle, afterEquals]
  cases hvalue : Text.trimStart tail with
  | nil => rfl
  | cons c cs =>
    rw [hvalue] at hle
    simp only [Option.bind_eq_bind, Option.bind_some]
    cases hquote : Quote.ofChar? c with
    | some quote =>
      have hinner : Text.from? (c :: cs) c.utf8Size = some cs := Text.from?_append [c] cs
      simp only [hinner, Option.bind_some, closing?_eq, Nat.zero_add]
      cases hsplit : quote.split? cs with
      | none => rfl
      | some parts =>
        obtain ⟨body, rest⟩ := parts
        obtain ⟨-, rfl⟩ := Quote.split?_eq_some_iff.mp hsplit
        obtain rfl := Quote.eq_char_of_ofChar? hquote
        have hbehind : Text.from? (body ++ quote.char :: rest)
            (Text.byteLength body + quote.char.utf8Size) = some rest :=
          Text.from?_append_append body [quote.char] rest
        have hrest : Text.byteLength rest ≤ cursor :=
          (Text.byteLength_le_of_suffix ⟨quote.char :: (body ++ [quote.char]), by simp⟩).trans hle
        simp only [Option.map_some, hbehind, Option.bind_some]
        exact typed?_eq .conjunction key hrest
    | none =>
      have hword := spanWord_append (c :: cs)
      simp only [find?_isBlank]
      rcases hspan : spanWord (c :: cs) with ⟨word, _ | ⟨b, rest⟩⟩
      · rfl
      · rw [hspan] at hword
        have hrest : Text.byteLength (b :: rest) ≤ cursor :=
          (Text.byteLength_le_of_suffix ⟨word, hword⟩).trans hle
        have hfrom := Text.from?_append word (b :: rest)
        rw [hword] at hfrom
        simp only [if_neg (List.cons_ne_nil b rest), hfrom, Option.bind_some]
        exact typed?_eq .conjunction key hrest

theorem ofBody?_eq {body : List Char} {cursor : Nat} (h : Text.byteLength body ≤ cursor) :
    ofBody? body (cursor - Text.byteLength body) cursor = some (ofBody body cursor) := by
  rw [ofBody?, ofBody, findEquals?_eq]
  cases hempty : body.isEmpty with
  | true => rfl
  | false =>
    simp only [Bool.false_eq_true, if_false]
    cases hsplit : Scan.start.splitAtEquals? body with
    | none => exact beforeEquals?_eq h
    | some parts =>
      obtain ⟨key, tail⟩ := parts
      obtain ⟨rfl, -⟩ := Scan.eq_of_splitAtEquals? hsplit
      have hkey := Text.upTo?_append key ('=' :: tail)
      have htail : Text.from? (key ++ '=' :: tail) (Text.byteLength key + 1) = some tail :=
        Text.from?_append_append key ['='] tail
      have hle : Text.byteLength tail ≤ cursor :=
        (Text.byteLength_le_of_suffix ⟨key ++ ['='], by simp⟩).trans h
      simp only [Option.map_some, Nat.zero_add, hkey, htail, Option.bind_eq_bind, Option.bind_some]
      exact afterEquals?_eq _ hle

/-! ## The text -/

theorem ofText?_eq (text : List Char) :
    ofText? text (Text.byteLength text) = some (ofText text) := by
  obtain ⟨positions, hpositions, front, htext, hstart⟩ := exists_segment text
  obtain ⟨blanks, hsegment, -⟩ := Text.exists_blanks_append_trimStart (lastSegment text)
  have hbody : text = front ++ (blanks ++ Text.trimStart (lastSegment text)) := by
    rw [← hsegment]
    exact htext
  have hbodyStart : Text.byteLength front + Text.byteLength blanks
      = Text.byteLength text - Text.byteLength (Text.trimStart (lastSegment text)) := by
    have h := congrArg Text.byteLength hbody
    rw [Text.byteLength_append, Text.byteLength_append] at h
    omega
  have hfromSegment : Text.from? text (Text.byteLength front) = some (lastSegment text) := by
    have h := Text.from?_append front (lastSegment text)
    rwa [← htext] at h
  have hfromBody : Text.from? text (Text.byteLength front + Text.byteLength blanks)
      = some (Text.trimStart (lastSegment text)) := by
    have h := Text.from?_append_append front blanks (Text.trimStart (lastSegment text))
    rwa [← hbody] at h
  have hblanks : (Text.byteLength (lastSegment text)).psub
      (Text.byteLength (Text.trimStart (lastSegment text))) = some (Text.byteLength blanks) := by
    rw [Nat.psub_eq_some, ← Text.byteLength_append, ← hsegment]
  rw [ofText?, hpositions]
  simp only [Option.bind_eq_bind, Option.bind_some, hstart, hfromSegment, hblanks, hfromBody]
  rw [hbodyStart]
  exact ofBody?_eq (byteLength_lastClause_le text)

/-- Found in place, the slot is the same, and finding it never fails. -/
theorem ofCursor?_eq (expression : String) (cursor : Nat) :
    ofCursor? expression cursor = some (ofCursor expression cursor) := by
  rw [ofCursor?]
  simp only [Text.floorBoundary_eq, Text.upTo?_clampOffset, Option.bind_eq_bind, Option.bind_some]
  exact ofText?_eq (Text.takeBytes cursor expression.toList)

/-- The slot at a cursor has a range that can be sliced out of the expression: it ends where the
cursor is, begins between two characters, and its text is the query, unless the slot is a value in
quotes. That one has no closing mark yet, and its query is what the literal says so far. -/
structure Exact (expression : String) (cursor : Nat) (s : Slot) : Prop where
  ordered : s.start ≤ s.stop
  stop_eq : s.stop = Text.clampOffset expression.toList cursor
  boundary : Text.IsBoundary expression.toList s.start
  sliced : ∃ range, Text.slice? expression.toList s.start s.stop = some range ∧
    Says s.kind range s.query

/-- The range of the slot at a cursor is exact, and to find the slot no slice is taken that leaves
the text or cuts a character in two. -/
theorem ofCursor_exact (expression : String) (cursor : Nat) :
    ofCursor? expression cursor = some (ofCursor expression cursor) ∧
      Exact expression cursor (ofCursor expression cursor) := by
  refine ⟨ofCursor?_eq expression cursor, ?_⟩
  obtain ⟨text, hcut⟩ : ∃ text, Text.takeBytes cursor expression.toList = text := ⟨_, rfl⟩
  obtain ⟨kind, query, key, range, hrange, hquery, hslot⟩ :=
    ranged_ofBody (Text.trimStart (lastSegment text))
  obtain ⟨front, hfront, -⟩ := Clause.exists_front text
  obtain ⟨before, hbefore⟩ : range <:+ text := hrange.trans ⟨front, hfront.symm⟩
  have hofCursor : ofCursor expression cursor
      = ⟨kind, query, key, Text.byteLength before, Text.byteLength (before ++ range)⟩ := by
    rw [ofCursor, hcut, ofText_eq, hslot, ← hbefore, onRange_append]
  have hexpression : before ++ range ++ Text.dropBytes cursor expression.toList
      = expression.toList := by
    rw [hbefore, ← hcut, Text.takeBytes_append_dropBytes]
  rw [hofCursor]
  constructor
  case ordered =>
    show Text.byteLength before ≤ Text.byteLength (before ++ range)
    rw [Text.byteLength_append]
    exact Nat.le_add_right _ _
  case stop_eq => rw [Text.clampOffset, hcut, hbefore]
  case boundary =>
    rw [← hexpression, List.append_assoc]
    exact Text.isBoundary_byteLength before _
  case sliced =>
    rw [← hexpression]
    exact ⟨range, Text.slice?_append before range _, hquery⟩

end QueryPanel.Slot
