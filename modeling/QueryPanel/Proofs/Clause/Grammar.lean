import QueryPanel.Clause.Reading
import QueryPanel.Proofs.Clause.Joining

/-!
# The grammar of clauses

The texts that are a clause, said without reading them: a key, an equals sign with blanks around it,
and what spells a literal. A quoted literal is its body between two marks, and `Quote.Encloses` says
what a body may be. A bare one is a run of characters without blanks that begins with no mark.

> `ofText?_eq_some_iff`: the reader accepts exactly these texts, and gives back their parts.

A body in double quotes with a backslash before a line feed can be enclosed, but it spells nothing.
-/

namespace QueryPanel

/-! ## Bodies of quoted literals -/

namespace Quote

/-- A text that double quotes may enclose: each double quote in it has a backslash of its own in
front, and so has each backslash that is none of these. -/
inductive Escaped : List Char → Prop
  | nil : Escaped []
  | plain {c : Char} {cs : List Char} (hquote : c ≠ '"') (hslash : c ≠ '\\') (h : Escaped cs) :
    Escaped (c :: cs)
  | pair (c : Char) {cs : List Char} (h : Escaped cs) : Escaped ('\\' :: c :: cs)

/-- A text that may stand between two marks. -/
def Encloses : Quote → List Char → Prop
  | .single, body => '\'' ∉ body
  | .double, body => Escaped body

theorem splitSingle?_eq_some_iff {cs body rest : List Char} :
    splitSingle? cs = some (body, rest) ↔ '\'' ∉ body ∧ cs = body ++ '\'' :: rest := by
  induction cs generalizing body with
  | nil => simp [splitSingle?]
  | cons c cs ih =>
    rw [splitSingle?]
    split
    · next hc =>
      subst hc
      constructor
      · rintro ⟨rfl, rfl⟩
        exact ⟨List.not_mem_nil, rfl⟩
      · rintro ⟨hbody, heq⟩
        -- A body that is not empty would begin with the mark.
        cases body with
        | nil => rw [(List.cons.inj heq).2]
        | cons d body => exact absurd ((List.cons.inj heq).1 ▸ List.mem_cons_self) hbody
    · next hc =>
      rw [Option.map_eq_some_iff]
      constructor
      · rintro ⟨⟨body', rest'⟩, hsplit, heq⟩
        obtain ⟨rfl, rfl⟩ := Prod.mk.inj heq
        obtain ⟨hbody, rfl⟩ := ih.mp hsplit
        refine ⟨?_, rfl⟩
        rw [List.mem_cons, not_or]
        exact ⟨fun h => hc h.symm, hbody⟩
      · rintro ⟨hbody, heq⟩
        cases body with
        | nil => exact absurd (List.cons.inj heq).1 hc
        | cons d body =>
          obtain ⟨rfl, htail⟩ := List.cons.inj heq
          rw [List.mem_cons, not_or] at hbody
          exact ⟨(body, rest), ih.mpr ⟨hbody.2, htail⟩, rfl⟩

theorem splitDouble?_of_escaped {body : List Char} (h : Escaped body) (rest : List Char) :
    splitDouble? (body ++ '"' :: rest) = some (body, rest) := by
  induction h with
  | nil => simp [splitDouble?]
  | plain hquote hslash _ ih => simp [splitDouble?, hslash, ih]
  | pair c _ ih => simp [splitDouble?, ih]

theorem escaped_of_splitDouble? {cs body rest : List Char}
    (h : splitDouble? cs = some (body, rest)) : Escaped body ∧ cs = body ++ '"' :: rest := by
  fun_induction splitDouble? cs generalizing body with
  | case1 => cases h
  | case2 cs =>
    obtain ⟨rfl, rfl⟩ := Prod.mk.inj (Option.some.inj h)
    exact ⟨.nil, rfl⟩
  | case3 c cs ih =>
    obtain ⟨⟨body', rest'⟩, hsplit, heq⟩ := Option.map_eq_some_iff.mp h
    obtain ⟨rfl, rfl⟩ := Prod.mk.inj heq
    obtain ⟨hbody, rfl⟩ := ih hsplit
    exact ⟨.pair c hbody, rfl⟩
  | case4 c cs hquote hslash ih =>
    obtain ⟨⟨body', rest'⟩, hsplit, heq⟩ := Option.map_eq_some_iff.mp h
    obtain ⟨rfl, rfl⟩ := Prod.mk.inj heq
    obtain ⟨hbody, rfl⟩ := ih hsplit
    refine ⟨.plain ?_ ?_ hbody, rfl⟩
    · rintro rfl
      exact hquote rfl
    · rintro rfl
      -- A backslash has a character behind it here, as the closing mark is still to come.
      cases body' with
      | nil => exact hslash _ _ rfl rfl
      | cons d body' => exact hslash _ _ rfl rfl

/-- A literal is split at the mark that closes it, and only there. -/
theorem split?_eq_some_iff {quote : Quote} {cs body rest : List Char} :
    quote.split? cs = some (body, rest)
      ↔ quote.Encloses body ∧ cs = body ++ quote.char :: rest := by
  cases quote with
  | single => exact splitSingle?_eq_some_iff
  | double =>
    constructor
    · exact escaped_of_splitDouble?
    · rintro ⟨hbody, rfl⟩
      exact splitDouble?_of_escaped hbody rest

theorem ofChar?_char (quote : Quote) : ofChar? quote.char = some quote := by
  cases quote <;> rfl

theorem eq_char_of_ofChar? {c : Char} {quote : Quote} (h : ofChar? c = some quote) :
    c = quote.char := by
  unfold ofChar? at h
  split at h
  · next hc =>
    rw [hc, ← Option.some.inj h]
    rfl
  · split at h
    · next hc =>
      rw [hc, ← Option.some.inj h]
      rfl
    · cases h

theorem not_blank_char (quote : Quote) : Text.isBlank quote.char = false := by
  cases quote <;> rfl

theorem solid_literal (quote : Quote) (body : List Char) :
    Text.Solid (quote.char :: (body ++ [quote.char])) :=
  ⟨⟨quote.char, body ++ [quote.char], rfl, quote.not_blank_char⟩,
    ⟨quote.char :: body, quote.char, rfl, quote.not_blank_char⟩⟩

/-- What escaping writes can be enclosed. -/
theorem escaped_escape (cs : List Char) : Escaped (escape cs) :=
  (escaped_of_splitDouble? (splitDouble?_escape cs [])).1

end Quote

namespace Clause

/-! ## Keys -/

theorem not_blank_of_isKeyChar {c : Char} (h : isKeyChar c = true) : Text.isBlank c = false := by
  simp only [isKeyChar, Bool.or_eq_true, beq_iff_eq] at h
  rcases h with ((h | rfl) | rfl) | rfl
  · exact Text.not_blank_of_alphanum h
  · rfl
  · rfl
  · rfl

/-- Neither a quote nor an equals sign is made to stand in a key. -/
theorem ne_of_isKeyChar {c d : Char} (h : isKeyChar c = true) (hd : isKeyChar d = false) :
    c ≠ d := by
  rintro rfl
  exact Bool.false_ne_true (hd.symm.trans h)

/-- What stands before the literal of a clause: a key and an equals sign, with blanks around the
sign. -/
structure Head where
  key : List Char
  before : List Char
  behind : List Char
  key_ne_nil : key ≠ []
  isKeyChar_key : ∀ c ∈ key, isKeyChar c = true
  isBlank_before : ∀ c ∈ before, Text.isBlank c = true
  isBlank_behind : ∀ c ∈ behind, Text.isBlank c = true

/-- The text of a head. -/
def Head.text (h : Head) : List Char :=
  h.key ++ (h.before ++ '=' :: h.behind)

/-! ## Literals -/

/-- The text says the literal. -/
inductive Spells : List Char → Literal → Prop
  | quoted {quote : Quote} {body : List Char} (h : quote.Encloses body)
    (hfeed : ¬ (quote = .double ∧ escapesLineFeed body = true)) :
    Spells (quote.char :: (body ++ [quote.char])) (.quoted quote body)
  | bare {c : Char} {cs : List Char} (hquote : Quote.ofChar? c = none)
    (h : ∀ d ∈ c :: cs, Text.isBlank d = false) : Spells (c :: cs) (.bare (c :: cs))

/-- A whole literal in quotes is read, unless it escapes a line feed. -/
theorem literalOfText?_quoted {quote : Quote} {body : List Char} (h : quote.Encloses body) :
    literalOfText? (quote.char :: (body ++ [quote.char]))
      = if quote = .double ∧ escapesLineFeed body = true then none
        else some (.quoted quote body) := by
  have hsplit : quote.split? (body ++ [quote.char]) = some (body, []) :=
    Quote.split?_eq_some_iff.mpr ⟨h, rfl⟩
  rw [literalOfText?, Quote.ofChar?_char]
  dsimp only
  rw [hsplit]

theorem literalOfText?_eq_some_iff {cs : List Char} {literal : Literal} :
    literalOfText? cs = some literal ↔ Spells cs literal := by
  constructor
  · intro h
    unfold literalOfText? at h
    split at h
    · cases h
    · next c cs =>
      split at h
      · next quote hquote =>
        split at h
        · next body hsplit =>
          split at h
          · cases h
          · next hfeed =>
            obtain ⟨hbody, rfl⟩ := Quote.split?_eq_some_iff.mp hsplit
            rw [Quote.eq_char_of_ofChar? hquote, ← Option.some.inj h]
            exact .quoted hbody hfeed
        · cases h
      · next hquote =>
        split at h
        · cases h
        · next hblank =>
          rw [← Option.some.inj h]
          refine .bare hquote ?_
          intro d hd
          rw [Bool.eq_false_iff]
          intro hd'
          exact hblank (List.any_eq_true.mpr ⟨d, hd, hd'⟩)
  · intro h
    cases h with
    | quoted h hfeed => rw [literalOfText?_quoted h, if_neg hfeed]
    | @bare c cs hquote h =>
      have hblank : ¬ (c :: cs).any Text.isBlank = true := by
        rw [Bool.not_eq_true, List.any_eq_false]
        intro d hd
        rw [h d hd]
        exact Bool.false_ne_true
      rw [literalOfText?, hquote]
      exact if_neg hblank

/-- A literal begins and ends with other characters than blanks. -/
theorem Spells.solid {cs : List Char} {literal : Literal} (h : Spells cs literal) :
    Text.Solid cs := by
  cases h with
  | @quoted quote body _ _ => exact quote.solid_literal body
  | bare hquote h => exact Text.solid_of_no_blank (List.cons_ne_nil _ _) h

/-! ## Clauses -/

/-- The character behind a key does not go on with it. -/
theorem not_isKeyChar_behind_key (head : Head) (rest : List Char) :
    ∃ c cs, head.before ++ '=' :: rest = c :: cs ∧ ¬ isKeyChar c = true := by
  rcases hbefore : head.before with _ | ⟨b, bs⟩
  · exact ⟨'=', rest, rfl, by decide⟩
  · refine ⟨b, bs ++ '=' :: rest, rfl, ?_⟩
    intro hkey
    have hblank := head.isBlank_before b (by simp [hbefore])
    rw [not_blank_of_isKeyChar hkey] at hblank
    cases hblank

/-- Behind a head, the literal decides what is read. -/
theorem ofText?_head (head : Head) {text : List Char} (h : Text.trimStart text = text) :
    ofText? (head.text ++ text) = (literalOfText? text).map (⟨head.key, ·⟩) := by
  have hshape : head.text ++ text = head.key ++ (head.before ++ '=' :: (head.behind ++ text)) := by
    simp [Head.text]
  obtain ⟨c, cs, hcs, hc⟩ := not_isKeyChar_behind_key head (head.behind ++ text)
  have hbefore : Text.trimStart (c :: cs) = '=' :: (head.behind ++ text) := by
    rw [← hcs, Text.trimStart_blanks_append head.isBlank_before,
      Text.trimStart_cons_of_not_blank rfl]
  have hbehind : Text.trimStart (head.behind ++ text) = text := by
    rw [Text.trimStart_blanks_append head.isBlank_behind, h]
  have hkey : ¬ head.key.isEmpty = true := by
    rw [List.isEmpty_iff]
    exact head.key_ne_nil
  rw [hshape, hcs, ofText?, List.takeWhile_append_of_pos head.isKeyChar_key,
    List.dropWhile_append_of_pos head.isKeyChar_key, List.takeWhile_cons_of_neg hc,
    List.dropWhile_cons_of_neg hc, hbefore, List.append_nil]
  simp only [if_neg hkey, hbehind]

/-- The reader accepts what has the form of a clause, and nothing else. -/
theorem ofText?_eq_some_iff {cs : List Char} {c : Clause} :
    ofText? cs = some c ↔
      ∃ (head : Head) (text : List Char), head.key = c.key ∧ Spells text c.literal ∧
        cs = head.text ++ text := by
  constructor
  · intro h
    unfold ofText? at h
    dsimp only at h
    split at h
    · next rest hrest =>
      split at h
      · cases h
      · next hkey =>
        obtain ⟨literal, hliteral, rfl⟩ := Option.map_eq_some_iff.mp h
        obtain ⟨before, hbefore, hbeforeBlank⟩ := Text.exists_blanks_append_trimStart
          (cs.dropWhile isKeyChar)
        obtain ⟨behind, hbehind, hbehindBlank⟩ := Text.exists_blanks_append_trimStart rest
        refine ⟨⟨cs.takeWhile isKeyChar, before, behind, by simpa using hkey, ?_, hbeforeBlank,
          hbehindBlank⟩, Text.trimStart rest, rfl, literalOfText?_eq_some_iff.mp hliteral, ?_⟩
        · intro d hd
          exact List.all_eq_true.mp (List.all_takeWhile) d hd
        · rw [Head.text, List.append_assoc, List.append_assoc, List.cons_append, ← hbehind,
            ← hrest, ← hbefore, List.takeWhile_append_dropWhile]
    · cases h
  · rintro ⟨head, text, hkey, hspells, rfl⟩
    rw [ofText?_head head hspells.solid.trimStart_eq, literalOfText?_eq_some_iff.mpr hspells,
      Option.map_some, hkey]

/-- The key of a clause is all that there is of characters for keys in front. -/
theorem key_of_ofText? {cs : List Char} {c : Clause} (h : ofText? cs = some c) :
    c.key = cs.takeWhile isKeyChar := by
  unfold ofText? at h
  dsimp only at h
  split at h
  · split at h
    · exact nomatch h
    · obtain ⟨literal, -, rfl⟩ := Option.map_eq_some_iff.mp h
      rfl
  · exact nomatch h

end Clause

end QueryPanel
