import QueryPanel.Proofs.Json.Numbers

/-!
# A written text is cut into its tokens

A character of a string is written as itself, with a backslash and a letter, or as a code unit, and
each of the three is read as one piece that stands for that character. So a literal is read as the
string it was written for, whatever characters are in it:

> `token?_quoted`: a literal is one token, up to whatever follows it.

A text that is cut into tokens need not end there (`Cut`). Most tokens show their own end; a number
does not, so it is cut off only in front of what does not continue it. Texts with this in order are
cut one after the other (`Cut.append`), and blanks may stand in between (`Cut.blank`).
-/

namespace QueryPanel.Json

/-! ## Strings -/

/-- The literal `cs` is read as one piece, which stands for a character. -/
structure PieceFor (cs : List Char) (p : Piece) (c : Char) : Prop where
  pieces?_eq : ∀ rest, pieces? (cs ++ rest) = (pieces? rest).map fun r => (p :: r.1, r.2)
  characters?_eq : ∀ ps, characters? (p :: ps) = (characters? ps).map (c :: ·)

/-- A code unit below the surrogates stands for the character of that number. -/
theorem characters?_unit {n : Nat} (h : n < 0xD800) (ps : List Piece) :
    characters? (.unit n :: ps) = (characters? ps).map (Char.ofNat n :: ·) := by
  have hhigh : ¬(0xD800 ≤ n ∧ n < 0xDC00) := by omega
  have hlow : ¬(0xDC00 ≤ n ∧ n < 0xE000) := by omega
  have hboth : ¬(0xD800 ≤ n ∧ n < 0xE000) := by omega
  conv => lhs; unfold characters?
  -- Another unit may follow, but only a surrogate is read together with it.
  split
  · next heq => cases heq
  · next heq => cases heq
  · next heq =>
    cases heq
    rw [if_neg hhigh, if_neg hlow]
  · next heq =>
    cases heq
    rw [if_neg hboth]

/-- A letter behind a backslash is read as what it stands for. -/
theorem pieceFor_escaped {l c : Char} (hl : escaped? l = some c) (hu : l ≠ 'u') :
    PieceFor ['\\', l] (.char c) c := by
  refine ⟨fun rest => ?_, fun ps => rfl⟩
  show pieces? ('\\' :: l :: rest) = _
  rw [pieces?]
  · rw [hl]
    cases pieces? rest <;> rfl
  · rintro - - - - - rfl
    exact absurd rfl hu

theorem number?_hexByte {n : Nat} (h : n < 0x20) :
    Hex.number? ('0' :: '0' :: hexByte n) = some n := by
  revert n
  decide

/-- Every character is written as one piece. -/
theorem exists_pieceFor_escape (c : Char) : ∃ p, PieceFor (escape c) p c := by
  unfold escape
  -- Seven characters have a letter of their own behind the backslash.
  split
  · exact ⟨_, pieceFor_escaped rfl (by decide)⟩
  · exact ⟨_, pieceFor_escaped rfl (by decide)⟩
  · exact ⟨_, pieceFor_escaped rfl (by decide)⟩
  · exact ⟨_, pieceFor_escaped rfl (by decide)⟩
  · exact ⟨_, pieceFor_escaped rfl (by decide)⟩
  · exact ⟨_, pieceFor_escaped rfl (by decide)⟩
  · exact ⟨_, pieceFor_escaped rfl (by decide)⟩
  · next hquote hbackslash _ _ _ _ _ =>
    split
    · next hcontrol =>
      refine ⟨.unit c.toNat, ⟨fun rest => ?_, fun ps => ?_⟩⟩
      · show pieces? ('\\' :: 'u' :: '0' :: '0' :: _ :: _ :: rest) = _
        have hnumber := number?_hexByte hcontrol
        rw [hexByte] at hnumber
        rw [pieces?, hnumber]
        cases pieces? rest <;> rfl
      · rw [characters?_unit (by omega), Char.ofNat_toNat]
    · next hcontrol =>
      refine ⟨.char c, ⟨fun rest => ?_, fun ps => rfl⟩⟩
      show pieces? (c :: rest) = _
      rw [pieces?, if_neg hcontrol]
      · cases pieces? rest <;> rfl
      · exact hquote
      · exact fun _ _ _ _ _ h _ => hbackslash h
      · exact fun _ _ h _ => hbackslash h

/-- The pieces of a literal stand for the characters it was written for. -/
theorem exists_pieces (cs rest : List Char) :
    ∃ ps, pieces? (cs.flatMap escape ++ '"' :: rest) = some (ps, rest) ∧
      characters? ps = some cs := by
  induction cs with
  | nil => exact ⟨[], rfl, rfl⟩
  | cons c cs ih =>
    obtain ⟨ps, hpieces, hcharacters⟩ := ih
    obtain ⟨p, hp⟩ := exists_pieceFor_escape c
    refine ⟨p :: ps, ?_, ?_⟩
    · rw [List.flatMap_cons, List.append_assoc, hp.pieces?_eq, hpieces]
      rfl
    · rw [hp.characters?_eq, hcharacters]
      rfl

/-- A literal is one token, which has the value it was written for. -/
theorem token?_quoted (s : String) (rest : List Char) :
    token? (quoted s ++ rest) = some (.string (some s), rest) := by
  obtain ⟨ps, hpieces, hcharacters⟩ := exists_pieces s.toList rest
  have hquoted : quoted s ++ rest = '"' :: (s.toList.flatMap escape ++ '"' :: rest) := by
    simp [quoted]
  rw [hquoted, token?, hpieces]
  show some (Token.string ((characters? ps).map String.ofList), rest) = _
  rw [hcharacters, Option.map_some, String.ofList_toList]

/-! ## Texts and their tokens -/

/-- A text is cut into tokens in front of everything that `P` holds of, one step of the reader for
each token. -/
structure Cut (P : List Char → Prop) (cs : List Char) (ts : List Token) : Prop where
  length_le : ts.length ≤ cs.length
  go_eq : ∀ {rest : List Char}, P rest → ∀ limit,
    tokens?.go (limit + ts.length) (cs ++ rest) = (tokens?.go limit rest).map (ts ++ ·)

/-- What follows a text that no continuation can change. -/
def Anything (_ : List Char) : Prop := True

theorem go_blank {c : Char} (h : isSpace c = true) (limit : Nat) (cs : List Char) :
    tokens?.go limit (c :: cs) = tokens?.go limit cs := by
  rw [tokens?.go.eq_def, tokens?.go.eq_def limit cs]
  dsimp only
  rw [List.dropWhile_cons_of_pos h]

theorem go_token {c : Char} {cs rest : List Char} {t : Token} (hspace : isSpace c = false)
    (h : token? (c :: cs) = some (t, rest)) (limit : Nat) :
    tokens?.go (limit + 1) (c :: cs) = (tokens?.go limit rest).map (t :: ·) := by
  have hdrop : (c :: cs).dropWhile isSpace = c :: cs :=
    List.dropWhile_cons_of_neg (by rw [hspace]; decide)
  rw [tokens?.go.eq_def]
  dsimp only
  rw [hdrop]
  show (token? (c :: cs)).bind (fun r => (tokens?.go limit r.2).bind fun ts => some (r.1 :: ts)) = _
  rw [h]
  cases hrest : tokens?.go limit rest <;> simp [hrest]

namespace Cut

variable {P Q : List Char → Prop} {a b : List Char} {ts us : List Token}

theorem of_anything (h : Cut Anything a ts) : Cut P a ts :=
  ⟨h.length_le, fun _ limit => h.go_eq trivial limit⟩

/-- A text that is cut into tokens has these tokens. -/
theorem tokens?_eq (h : Cut P a ts) (hnil : P []) : tokens? a = some ts := by
  obtain ⟨limit, hlimit⟩ : ∃ limit, a.length = limit + ts.length :=
    ⟨a.length - ts.length, by have := h.length_le; omega⟩
  have hend : tokens?.go limit [] = some [] := by
    rw [tokens?.go.eq_def]
    rfl
  have hgo := h.go_eq hnil limit
  rw [List.append_nil, ← hlimit, hend] at hgo
  rw [tokens?, hgo, Option.map_some, List.append_nil]

/-- Texts one after the other. -/
theorem append (ha : Cut P a ts) (hb : Cut Q b us) (hbefore : ∀ rest, Q rest → P (b ++ rest)) :
    Cut Q (a ++ b) (ts ++ us) := by
  refine ⟨?_, fun {rest} hrest limit => ?_⟩
  · rw [List.length_append, List.length_append]
    exact Nat.add_le_add ha.length_le hb.length_le
  · rw [List.append_assoc, List.length_append, Nat.add_comm ts.length, ← Nat.add_assoc,
      ha.go_eq (hbefore rest hrest), hb.go_eq hrest, Option.map_map]
    simp only [Function.comp_def, List.append_assoc]

/-- A text that shows its own end, in front of any other. -/
theorem anything_append (ha : Cut Anything a ts) (hb : Cut Q b us) : Cut Q (a ++ b) (ts ++ us) :=
  ha.append hb fun _ _ => trivial

/-- Blanks are no tokens. -/
theorem blank (h : ∀ c ∈ a, isSpace c = true) : Cut Anything a [] := by
  refine ⟨Nat.zero_le _, fun {rest} _ limit => ?_⟩
  simp only [List.nil_append, Option.map_id_fun', id_eq]
  induction a with
  | nil => rfl
  | cons c cs ih =>
    rw [List.forall_mem_cons] at h
    rw [List.cons_append, List.length_nil, Nat.add_zero, go_blank h.1]
    exact ih h.2

/-- A text that begins with no blank and is read as one token. -/
theorem token {c : Char} {cs : List Char} {t : Token} (hspace : isSpace c = false)
    (h : ∀ rest, P rest → token? (c :: cs ++ rest) = some (t, rest)) : Cut P (c :: cs) [t] :=
  ⟨Nat.succ_le_succ (Nat.zero_le _), fun hrest limit => go_token hspace (h _ hrest) limit⟩

theorem quoted (s : String) : Cut Anything (quoted s) [.string (some s)] :=
  token rfl fun rest _ => token?_quoted s rest

end Cut

/-! ## Scalars -/

/-- The brackets, separators and quotes. -/
def marks : List Char := ['[', ']', '\x7b', '\x7d', ',', ':', '"']

/-- What begins with none of them is a number or a word. -/
theorem token?_scalar {c : Char} (hc : c ∉ marks) (cs : List Char) :
    token? (c :: cs)
      = ((number? (c :: cs)).or (word? (c :: cs))).map fun r => (.scalar r.1, r.2) := by
  unfold token?
  split
  · next heq => cases heq
  all_goals first
    | next heq => cases heq; exact absurd (by decide) hc
    | rfl

/-- A numeral begins with a sign or a digit. -/
theorem Numeral.exists_cons (n : Numeral) :
    ∃ c cs, n.text = c :: cs ∧ (c = '-' ∨ c.isDigit = true) := by
  unfold Numeral.text
  cases n.negative with
  | true => exact ⟨'-', _, rfl, .inl rfl⟩
  | false =>
    obtain ⟨c, cs, hcs⟩ := List.exists_cons_of_ne_nil n.whole_ne_nil
    exact ⟨c, _, by rw [hcs]; rfl, .inr (n.isDigit_whole c (hcs ▸ List.mem_cons_self))⟩

/-- A sign and a digit are neither blanks nor brackets, separators or quotes. -/
theorem not_special {c : Char} (h : c = '-' ∨ c.isDigit = true) :
    isSpace c = false ∧ c ∉ marks := by
  rcases h with rfl | hdigit
  · decide
  · refine ⟨Bool.eq_false_iff.mpr fun hblank => ?_, fun hmark => ?_⟩
    · simp only [isSpace, Bool.or_eq_true, decide_eq_true_eq] at hblank
      rcases hblank with ((rfl | rfl) | rfl) | rfl <;> cases hdigit
    · fin_cases hmark <;> cases hdigit

theorem Cut.numeral (n : Numeral) : Cut EndsNumber n.text [.scalar n.value] := by
  obtain ⟨c, cs, htext, hc⟩ := n.exists_cons
  obtain ⟨hspace, hmark⟩ := not_special hc
  rw [htext]
  refine Cut.token hspace fun rest hrest => ?_
  have hnumber := n.number?_text hrest
  rw [htext, List.cons_append] at hnumber
  rw [List.cons_append, token?_scalar hmark, hnumber]
  rfl

namespace Cut

theorem null : Cut Anything (scalarText .null) [.scalar .null] :=
  token rfl fun _ _ => rfl

theorem bool (b : Bool) : Cut Anything (scalarText (.bool b)) [.scalar (.bool b)] := by
  cases b with
  | false => exact token rfl fun _ _ => rfl
  | true => exact token rfl fun _ _ => rfl

theorem integer {n : Int} (hlow : -(Word.size63 : Int) ≤ n) (hhigh : n < Word.size64) :
    Cut EndsNumber (scalarText (.integer n)) [.scalar (.integer n)] := by
  have h := numeral (.ofInt n)
  rwa [Numeral.value_ofInt hlow hhigh, Numeral.text_ofInt] at h

theorem real {d : Double} (finite : d.isFinite = true) :
    Cut EndsNumber (scalarText (.real d)) [.scalar (.real d)] := by
  obtain ⟨n, htext, hvalue⟩ := exists_numeral_scientific finite
  have h := numeral n
  rw [htext, hvalue] at h
  rwa [scalarText, if_pos finite]

end Cut

end QueryPanel.Json
