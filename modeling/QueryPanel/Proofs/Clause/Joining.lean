import QueryPanel.Clause.Split
import QueryPanel.Proofs.Text.Trimming

/-!
# Joining filter texts by conjunctions

Two filter texts with ` AND ` between them have the clauses of the one and then the clauses of the
other, as long as the seam is a conjunction and makes no other one: the first text must leave no
literal open and not end with the word itself, and the second must not begin with it.

`pieces_append` says what cutting does to a concatenation in general, with `glue` for the piece that
the seam runs through. From it come `map_trim_segments_join`, which is about all segments, and
`trimStart_lastSegment_join`, about the one in which a cursor at the end stands.
-/

namespace QueryPanel.Clause

/-! ## The conjunction as a word -/

/-- The text begins with the word of a conjunction and a blank. -/
def beginsWithConjunction : List Char → Bool
  | a :: n :: d :: b :: _ => Text.eqIgnoreCase [a, n, d] ['a', 'n', 'd'] && Text.isBlank b
  | _ => false

/-- The text ends with a blank and the word of a conjunction. -/
def endsWithConjunction (cs : List Char) : Bool :=
  match cs.reverse with
  | d :: n :: a :: b :: _ => Text.eqIgnoreCase [a, n, d] ['a', 'n', 'd'] && Text.isBlank b
  | _ => false

/-- Three characters are the word, and the next one is a blank. -/
theorem beginsWithConjunction_eq (cs : List Char) :
    beginsWithConjunction cs
      = (Text.eqIgnoreCase (cs.take 3) ['a', 'n', 'd'] && (cs.drop 3).head?.any Text.isBlank) := by
  match cs with
  | [] | [_] | [_, _] => simp [beginsWithConjunction, Text.eqIgnoreCase]
  | [_, _, _] => simp [beginsWithConjunction]
  | _ :: _ :: _ :: _ :: _ => rfl

theorem startsConjunction_eq (s : Scan) (cs : List Char) :
    startsConjunction s cs = (s.isAfterBlank && beginsWithConjunction cs) := by
  unfold startsConjunction beginsWithConjunction
  split
  · rw [Bool.and_assoc]
  · simp

theorem startsConjunction_of_not_afterBlank {s : Scan} (h : s.isAfterBlank = false)
    (cs : List Char) : startsConjunction s cs = false := by
  rw [startsConjunction_eq, h, Bool.false_and]

theorem beginsWithConjunction_append {cs : List Char} (h : 4 ≤ cs.length) (ys : List Char) :
    beginsWithConjunction (cs ++ ys) = beginsWithConjunction cs := by
  match cs, h with
  | _ :: _ :: _ :: _ :: _, _ => rfl

theorem beginsWithConjunction_of_no_blank {cs : List Char}
    (h : ∀ c ∈ cs, Text.isBlank c = false) : beginsWithConjunction cs = false := by
  unfold beginsWithConjunction
  split
  · rw [h _ (by simp), Bool.and_false]
  · rfl

theorem beginsWithConjunction_cons {c : Char} (h : c.toLower ≠ 'a') (cs : List Char) :
    beginsWithConjunction (c :: cs) = false := by
  match cs with
  | [] | [_] | [_, _] => rfl
  | _ :: _ :: _ :: _ => simp [beginsWithConjunction, Text.eqIgnoreCase, h]

/-- A character that is none of the letters of the word does not stand in it. -/
theorem beginsWithConjunction_within {c : Char} (hc : c.toLower ∉ ['a', 'n', 'd'])
    (xs : List Char) (hxs : xs.length < 3) (ys : List Char) :
    beginsWithConjunction (xs ++ c :: ys) = false := by
  simp only [List.mem_cons, List.not_mem_nil, or_false, not_or] at hc
  obtain ⟨notA, notN, notD⟩ := hc
  match xs, hxs with
  | [], _ => exact beginsWithConjunction_cons notA ys
  | [_], _ => unfold beginsWithConjunction; split <;> simp_all [Text.eqIgnoreCase]
  | [_, _], _ => unfold beginsWithConjunction; split <;> simp_all [Text.eqIgnoreCase]

/-- A blank is none of the letters of the word. -/
theorem toLower_not_mem_of_blank {b : Char} (h : Text.isBlank b = true) :
    b.toLower ∉ ['a', 'n', 'd'] := by
  rw [Text.toLower_of_blank h]
  simp only [List.mem_cons, List.not_mem_nil, or_false, not_or]
  exact ⟨Text.ne_of_blank h rfl, Text.ne_of_blank h rfl, Text.ne_of_blank h rfl⟩

theorem toLower_ne_of_blank {b : Char} (h : Text.isBlank b = true) : b.toLower ≠ 'a' := by
  intro hlower
  exact toLower_not_mem_of_blank h (by simp [hlower])

/-- With blanks in front a text begins with a conjunction only if it does without them. -/
theorem beginsWithConjunction_blanks {bs cs : List Char} (h : ∀ b ∈ bs, Text.isBlank b = true)
    (begins : beginsWithConjunction cs = false) : beginsWithConjunction (bs ++ cs) = false := by
  cases bs with
  | nil => exact begins
  | cons b bs =>
    exact beginsWithConjunction_cons (toLower_ne_of_blank (h b List.mem_cons_self)) (bs ++ cs)

theorem beginsWithConjunction_blank_within {b : Char} (h : Text.isBlank b = true)
    (xs : List Char) (hxs : xs.length < 3) (ys : List Char) :
    beginsWithConjunction (xs ++ b :: ys) = false :=
  beginsWithConjunction_within (toLower_not_mem_of_blank h) xs hxs ys

section Word

variable {word : List Char}

theorem length_of_word (h : Text.eqIgnoreCase word ['a', 'n', 'd'] = true) : word.length = 3 := by
  have hmap : word.map Char.toLower = ['a', 'n', 'd'].map Char.toLower := eq_of_beq h
  simpa using congrArg List.length hmap

theorem toLower_of_mem_word (h : Text.eqIgnoreCase word ['a', 'n', 'd'] = true) {c : Char}
    (hc : c ∈ word) : c.toLower ∈ ['a', 'n', 'd'] := by
  have hmap : word.map Char.toLower = ['a', 'n', 'd'].map Char.toLower := eq_of_beq h
  have hmem : c.toLower ∈ word.map Char.toLower := List.mem_map_of_mem hc
  rw [hmap] at hmem
  exact hmem

theorem not_blank_of_mem_word (h : Text.eqIgnoreCase word ['a', 'n', 'd'] = true) {c : Char}
    (hc : c ∈ word) : Text.isBlank c = false := by
  rw [Bool.eq_false_iff]
  intro hblank
  exact toLower_not_mem_of_blank hblank (toLower_of_mem_word h hc)

theorem not_quote_of_mem_word (h : Text.eqIgnoreCase word ['a', 'n', 'd'] = true) {c : Char}
    (hc : c ∈ word) : c ≠ '"' ∧ c ≠ '\'' := by
  have hlower := toLower_of_mem_word h hc
  constructor
  · rintro rfl
    exact absurd hlower (by decide)
  · rintro rfl
    exact absurd hlower (by decide)

theorem beginsWithConjunction_word_append (h : Text.eqIgnoreCase word ['a', 'n', 'd'] = true)
    {b : Char} (hb : Text.isBlank b = true) (rest : List Char) :
    beginsWithConjunction (word ++ b :: rest) = true := by
  match word, length_of_word h with
  | [a, n, d], _ => exact Bool.and_eq_true_iff.mpr ⟨h, hb⟩

theorem exists_word_of_begins {cs : List Char} (h : beginsWithConjunction cs = true) :
    ∃ word b rest, cs = word ++ b :: rest ∧ Text.eqIgnoreCase word ['a', 'n', 'd'] = true ∧
      Text.isBlank b = true := by
  match cs with
  | [] | [_] | [_, _] | [_, _, _] => exact absurd h Bool.false_ne_true
  | a :: n :: d :: b :: rest =>
    obtain ⟨hword, hb⟩ := Bool.and_eq_true_iff.mp h
    exact ⟨[a, n, d], b, rest, rfl, hword, hb⟩

theorem exists_word_of_ends {cs : List Char} (h : endsWithConjunction cs = true) :
    ∃ front b word, cs = front ++ b :: word ∧ Text.isBlank b = true ∧
      Text.eqIgnoreCase word ['a', 'n', 'd'] = true := by
  obtain ⟨back, rfl⟩ : ∃ back : List Char, cs = back.reverse := ⟨cs.reverse, by simp⟩
  unfold endsWithConjunction at h
  rw [List.reverse_reverse] at h
  match back with
  | [] | [_] | [_, _] | [_, _, _] => exact absurd h Bool.false_ne_true
  | d :: n :: a :: b :: rest =>
    obtain ⟨hword, hb⟩ := Bool.and_eq_true_iff.mp h
    exact ⟨rest.reverse, b, [a, n, d], by simp, hb, hword⟩

theorem beginsWithConjunction_append_of_begins {cs : List Char}
    (h : beginsWithConjunction cs = true) (ys : List Char) :
    beginsWithConjunction (cs ++ ys) = true := by
  obtain ⟨word, b, rest, rfl, hword, hb⟩ := exists_word_of_begins h
  rw [List.append_assoc, List.cons_append]
  exact beginsWithConjunction_word_append hword hb (rest ++ ys)

/-- Cutting a text makes no conjunction at its start. -/
theorem beginsWithConjunction_of_append {cs ys : List Char}
    (h : beginsWithConjunction (cs ++ ys) = false) : beginsWithConjunction cs = false := by
  rw [Bool.eq_false_iff]
  intro hbegins
  rw [beginsWithConjunction_append_of_begins hbegins] at h
  cases h

/-- Which blank it is that ends the word, and what follows, makes no difference. -/
theorem beginsWithConjunction_blank {b b' : Char} (hb : Text.isBlank b = true)
    (hb' : Text.isBlank b' = true) (xs ys ys' : List Char) :
    beginsWithConjunction (xs ++ b :: ys) = beginsWithConjunction (xs ++ b' :: ys') := by
  by_cases hshort : xs.length < 3
  · rw [beginsWithConjunction_blank_within hb xs hshort,
      beginsWithConjunction_blank_within hb' xs hshort]
  · match xs, hshort with
    | [], h | [_], h | [_, _], h => exact absurd (by simp) h
    | [a, n, d], _ => simp [beginsWithConjunction, hb, hb']
    | _ :: _ :: _ :: _ :: _, _ => rfl

end Word

/-- The word and the blank behind it, letter by letter. -/
theorem letters_of_beginsWithConjunction {cs : List Char} (h : beginsWithConjunction cs = true) :
    ∃ a n d b rest, cs = a :: n :: d :: b :: rest ∧
      (∀ c ∈ [a, n, d], Text.isBlank c = false) ∧ Text.isBlank b = true := by
  obtain ⟨word, b, rest, rfl, hword, hb⟩ := exists_word_of_begins h
  match word, length_of_word hword with
  | [a, n, d], _ => exact ⟨a, n, d, b, rest, rfl, fun c hc => not_blank_of_mem_word hword hc, hb⟩

/-! ## Where a scan stands -/

/-- A scan is behind a blank only if it has just taken it. -/
theorem isAfterBlank_step {s : Scan} {c : Char} (h : (s.step c).isAfterBlank = true) :
    Text.isBlank c = true := by
  unfold Scan.step at h
  split at h
  · split at h
    · exact Bool.noConfusion h
    · split at h
      · exact Bool.noConfusion h
      · exact h
  · split at h
    · exact h
    · exact Bool.noConfusion h
  · split at h
    · exact h
    · split at h <;> exact Bool.noConfusion h
  · exact Bool.noConfusion h

theorem isAfterBlank_step_of_not_blank (s : Scan) {c : Char} (h : Text.isBlank c = false) :
    (s.step c).isAfterBlank = false := by
  rw [Bool.eq_false_iff]
  intro after
  exact Bool.false_ne_true (h.symm.trans (isAfterBlank_step after))

/-- Outside every literal, a character that is no quote leads to another place outside. -/
theorem step_of_not_quote {s : Scan} (hs : s.isBare = true) {c : Char} (hdouble : c ≠ '"')
    (hsingle : c ≠ '\'') : s.step c = .bare (some c) := by
  cases s with
  | bare previous => simp [Scan.step, hdouble, hsingle]
  | single => exact Bool.noConfusion hs
  | double => exact Bool.noConfusion hs
  | escaped => exact Bool.noConfusion hs

theorem step_of_blank {s : Scan} (hs : s.isBare = true) {c : Char} (hc : Text.isBlank c = true) :
    s.step c = .bare (some c) :=
  step_of_not_quote hs (Text.ne_of_blank hc rfl) (Text.ne_of_blank hc rfl)

/-- Behind a blank a scan goes on as from the start of a text. -/
theorem step_after_blank {b : Char} (hb : Text.isBlank b = true) (c : Char) :
    Scan.step (.bare (some b)) c = Scan.step .start c := by
  simp [Scan.step, Scan.start, Scan.opens, hb]

/-! ## Cutting a concatenation -/

/-- The pieces of a text, given as `first` and the others, followed by the pieces of another text:
the last piece of the one and the first of the other become one. -/
def glue (first : List Char) :
    List (List Char) → List Char × List (List Char) → List Char × List (List Char)
  | [], q => (first ++ q.1, q.2)
  | piece :: others, q => (first, (glue piece others q).1 :: (glue piece others q).2)

theorem pieces_of_starts {s : Scan} {c : Char} {cs : List Char}
    (h : startsConjunction s (c :: cs) = true) :
    pieces s (c :: cs) = ([], (c :: (pieces (s.step c) cs).1) :: (pieces (s.step c) cs).2) := by
  rw [pieces, h]
  rfl

theorem pieces_of_not_starts {s : Scan} {c : Char} {cs : List Char}
    (h : startsConjunction s (c :: cs) = false) :
    pieces s (c :: cs) = (c :: (pieces (s.step c) cs).1, (pieces (s.step c) cs).2) := by
  rw [pieces, h]
  rfl

theorem glue_cons (c : Char) (first : List Char) (others : List (List Char))
    (q : List Char × List (List Char)) :
    glue (c :: first) others q = (c :: (glue first others q).1, (glue first others q).2) := by
  cases others <;> rfl

theorem glue_concat (first last : List Char) (others : List (List Char))
    (q : List Char × List (List Char)) :
    glue first (others ++ [last]) q = (first, others ++ (last ++ q.1) :: q.2) := by
  induction others generalizing first with
  | nil => rfl
  | cons piece others ih => rw [List.cons_append, glue, ih, List.cons_append]

/-- Where no conjunction runs across the seam, the pieces of a concatenation are those of its two
parts. -/
theorem pieces_append (s : Scan) (xs ys : List Char)
    (seam : ∀ u v, xs = u ++ v → v ≠ [] →
      startsConjunction (s.run u) (v ++ ys) = startsConjunction (s.run u) v) :
    pieces s (xs ++ ys) = glue (pieces s xs).1 (pieces s xs).2 (pieces (s.run xs) ys) := by
  induction xs generalizing s with
  | nil => rfl
  | cons c cs ih =>
    have here : startsConjunction s (c :: (cs ++ ys)) = startsConjunction s (c :: cs) :=
      seam [] (c :: cs) rfl (List.cons_ne_nil c cs)
    have ih := ih (s.step c) fun u v huv hv => seam (c :: u) v (by rw [huv]; rfl) hv
    rw [List.cons_append, show s.run (c :: cs) = (s.step c).run cs from rfl]
    cases hc : startsConjunction s (c :: cs) with
    | true => rw [pieces_of_starts (here.trans hc), pieces_of_starts hc, ih, glue, glue_cons]
    | false => rw [pieces_of_not_starts (here.trans hc), pieces_of_not_starts hc, ih, glue_cons]

/-- No conjunction begins in a text where another one follows it. -/
def Uncut (s : Scan) (cs behind : List Char) : Prop :=
  ∀ u v, cs = u ++ v → v ≠ [] → startsConjunction (s.run u) (v ++ behind) = false

theorem uncut_nil (s : Scan) (behind : List Char) : Uncut s [] behind := by
  intro u v huv hv
  exact absurd (List.append_eq_nil_iff.mp huv.symm).2 hv

/-- One character in front of an uncut run. -/
theorem Uncut.cons {s : Scan} {c : Char} {cs behind : List Char}
    (hc : startsConjunction s (c :: (cs ++ behind)) = false) (h : Uncut (s.step c) cs behind) :
    Uncut s (c :: cs) behind := by
  intro u v huv hv
  cases u with
  | nil =>
    rw [List.nil_append] at huv
    rw [← huv]
    exact hc
  | cons d u =>
    rw [List.cons_append] at huv
    obtain ⟨rfl, htail⟩ := List.cons.inj huv
    exact h u v htail hv

/-- A text in which no conjunction begins goes to the first piece. -/
theorem pieces_append_of_uncut {s : Scan} {xs ys : List Char} (h : Uncut s xs ys) :
    pieces s (xs ++ ys) = (xs ++ (pieces (s.run xs) ys).1, (pieces (s.run xs) ys).2) := by
  induction xs generalizing s with
  | nil => rfl
  | cons c cs ih =>
    have here : startsConjunction s (c :: (cs ++ ys)) = false :=
      h [] (c :: cs) rfl (List.cons_ne_nil c cs)
    rw [List.cons_append, pieces_of_not_starts here,
      ih fun u v huv hv => h (c :: u) v (by rw [huv]; rfl) hv]
    rfl

/-- No conjunction begins inside a run of characters other than blanks. -/
theorem pieces_append_of_no_blank {s : Scan} (hs : s.isAfterBlank = false) {xs : List Char}
    (h : ∀ c ∈ xs, Text.isBlank c = false) (ys : List Char) :
    pieces s (xs ++ ys) = (xs ++ (pieces (s.run xs) ys).1, (pieces (s.run xs) ys).2) := by
  apply pieces_append_of_uncut
  intro u v huv _
  apply startsConjunction_of_not_afterBlank
  rcases List.eq_nil_or_concat u with rfl | ⟨front, c, rfl⟩
  · exact hs
  · rw [List.concat_eq_append] at huv ⊢
    rw [Scan.run_append]
    exact isAfterBlank_step_of_not_blank _ (h c (by simp [huv]))

/-- Nor does one where its first letter is missing. -/
theorem pieces_append_of_no_first_letter (s : Scan) {xs : List Char}
    (h : ∀ c ∈ xs, c.toLower ≠ 'a') (ys : List Char) :
    pieces s (xs ++ ys) = (xs ++ (pieces (s.run xs) ys).1, (pieces (s.run xs) ys).2) := by
  apply pieces_append_of_uncut
  intro u v huv hv
  obtain ⟨c, cs, rfl⟩ := List.exists_cons_of_ne_nil hv
  rw [startsConjunction_eq, List.cons_append, beginsWithConjunction_cons (h c (by simp [huv])),
    Bool.and_false]

theorem pieces_of_no_blank {s : Scan} {cs : List Char} (h : ∀ c ∈ cs, Text.isBlank c = false) :
    pieces s cs = (cs, []) := by
  cases cs with
  | nil => rfl
  | cons c cs =>
    have first : startsConjunction s (c :: cs) = false := by
      rw [startsConjunction_eq, beginsWithConjunction_of_no_blank h, Bool.and_false]
    have after := isAfterBlank_step_of_not_blank s (h c List.mem_cons_self)
    have others := pieces_append_of_no_blank after
      (fun d hd => h d (List.mem_cons_of_mem c hd)) []
    rw [List.append_nil] at others
    rw [pieces_of_not_starts first, others]
    simp [pieces]

/-- A blank makes no conjunction of what stands before it, unless the word does. -/
theorem seam_of_blank {xs : List Char} (h : endsWithConjunction xs = false) {b : Char}
    (hb : Text.isBlank b = true) (ys u v : List Char) (huv : xs = u ++ v) (hv : v ≠ []) :
    startsConjunction (Scan.start.run u) (v ++ b :: ys)
      = startsConjunction (Scan.start.run u) v := by
  rw [startsConjunction_eq, startsConjunction_eq]
  match v, hv with
  | _ :: _ :: _ :: _ :: _, _ => rfl
  | [a], _ =>
    rw [beginsWithConjunction_blank_within hb _ (by simp)]
    rfl
  | [a, n], _ =>
    rw [beginsWithConjunction_blank_within hb _ (by simp)]
    rfl
  | [a, n, d], _ =>
    rw [show beginsWithConjunction [a, n, d] = false from rfl, Bool.and_false,
      Bool.and_eq_false_iff]
    -- If the word fits, it must not be behind a blank, which would be the end of `u`.
    cases word : beginsWithConjunction ([a, n, d] ++ b :: ys) with
    | false => exact .inr rfl
    | true =>
      left
      rw [Bool.eq_false_iff]
      intro blank
      have word : Text.eqIgnoreCase [a, n, d] ['a', 'n', 'd'] = true := by
        simpa [beginsWithConjunction, hb] using word
      rcases List.eq_nil_or_concat u with rfl | ⟨front, p, rfl⟩
      · exact Bool.noConfusion blank
      · rw [List.concat_eq_append] at huv blank
        rw [Scan.run_append] at blank
        have hp : Text.isBlank p = true := isAfterBlank_step blank
        simp [huv, endsWithConjunction, hp, word] at h

/-- No conjunction runs across a character that is none of its letters. -/
theorem seam_of_not_letter {c : Char} (hc : c.toLower ∉ ['a', 'n', 'd']) (s : Scan)
    (xs ys u v : List Char) (huv : xs ++ [c] = u ++ v) (hv : v ≠ []) :
    startsConjunction (s.run u) (v ++ ys) = startsConjunction (s.run u) v := by
  obtain ⟨front, hfront⟩ : ∃ front, v = front ++ [c] := by
    rcases List.eq_nil_or_concat v with rfl | ⟨front, d, rfl⟩
    · exact absurd rfl hv
    · rw [List.concat_eq_append, ← List.append_assoc] at huv
      exact ⟨front, by rw [(List.append_inj' huv rfl).2, List.concat_eq_append]⟩
  rw [startsConjunction_eq, startsConjunction_eq, hfront]
  by_cases hlong : 3 ≤ front.length
  · rw [beginsWithConjunction_append (by simpa using hlong)]
  · have hshort : front.length < 3 := Nat.lt_of_not_le hlong
    rw [List.append_assoc, List.singleton_append, beginsWithConjunction_within hc front hshort,
      beginsWithConjunction_within hc front hshort]

/-- A second text counts as one that stands alone, unless it begins with the word. -/
theorem pieces_after_blank {b : Char} (hb : Text.isBlank b = true) {cs : List Char}
    (h : beginsWithConjunction cs = false) : pieces (.bare (some b)) cs = pieces .start cs := by
  cases cs with
  | nil => rfl
  | cons c cs =>
    have none (s : Scan) : startsConjunction s (c :: cs) = false := by
      rw [startsConjunction_eq, h, Bool.and_false]
    rw [pieces_of_not_starts (none _), pieces_of_not_starts (none _), step_after_blank hb]

/-- Behind a blank the word written at a seam begins a piece of its own. -/
theorem pieces_word_at_seam {cs : List Char} (h : beginsWithConjunction cs = false) :
    pieces (.bare (some ' ')) ("AND ".toList ++ cs)
      = ([], ("AND ".toList ++ (pieces .start cs).1) :: (pieces .start cs).2) := by
  change pieces (.bare (some ' ')) ('A' :: 'N' :: 'D' :: ' ' :: cs) = _
  have a : Scan.step (.bare (some ' ')) 'A' = .bare (some 'A') := rfl
  have n : Scan.step (.bare (some 'A')) 'N' = .bare (some 'N') := rfl
  have d : Scan.step (.bare (some 'N')) 'D' = .bare (some 'D') := rfl
  have behind : Scan.step (.bare (some 'D')) ' ' = .bare (some ' ') := rfl
  rw [pieces_of_starts rfl, a,
    pieces_of_not_starts (startsConjunction_of_not_afterBlank rfl _), n,
    pieces_of_not_starts (startsConjunction_of_not_afterBlank rfl _), d,
    pieces_of_not_starts (startsConjunction_of_not_afterBlank rfl _), behind,
    pieces_after_blank Text.isBlank_space h]
  rfl

/-- The conjunction written at a seam leaves its first blank to the piece before it. -/
theorem pieces_conjunction {s : Scan} (hs : s.isBare = true) {cs : List Char}
    (h : beginsWithConjunction cs = false) :
    pieces s (" AND ".toList ++ cs)
      = ([' '], ("AND ".toList ++ (pieces .start cs).1) :: (pieces .start cs).2) := by
  change pieces s (' ' :: ("AND ".toList ++ cs)) = _
  have blank : s.step ' ' = .bare (some ' ') := step_of_blank hs Text.isBlank_space
  have notYet : startsConjunction s (' ' :: ("AND ".toList ++ cs)) = false := by
    rw [startsConjunction_eq, Bool.and_eq_false_iff]
    exact .inr (beginsWithConjunction_blank_within Text.isBlank_space [] (by simp) _)
  rw [pieces_of_not_starts notYet, blank, pieces_word_at_seam h]

/-! ## Segments of a joined text -/

/-- Every piece but the first has the letters of its word in it. -/
theorem three_le_length_of_mem_pieces {s : Scan} {cs : List Char} :
    ∀ piece ∈ (pieces s cs).2, 3 ≤ piece.length := by
  induction cs generalizing s with
  | nil => simp [pieces]
  | cons c cs ih =>
    cases hc : startsConjunction s (c :: cs) with
    | false =>
      rw [pieces_of_not_starts hc]
      exact ih
    | true =>
      rw [pieces_of_starts hc]
      intro piece hp
      rcases List.mem_cons.mp hp with rfl | hp
      · -- Behind a letter no conjunction begins, so two more letters follow the first.
        obtain ⟨a, n, d, b, rest, heq, hletters, -⟩ := letters_of_beginsWithConjunction
          ((Bool.and_eq_true_iff.mp (startsConjunction_eq s _ ▸ hc)).2)
        obtain ⟨rfl, rfl⟩ := List.cons.inj heq
        have ha : Text.isBlank c = false := hletters c (by simp)
        have hn : Text.isBlank n = false := hletters n (by simp)
        have second := startsConjunction_of_not_afterBlank (isAfterBlank_step_of_not_blank s ha)
        have third := startsConjunction_of_not_afterBlank
          (isAfterBlank_step_of_not_blank (s.step c) hn)
        rw [pieces_of_not_starts (second _), pieces_of_not_starts (third _)]
        simp only [List.length_cons]
        omega
      · exact ih piece hp

theorem split_of_not_blank {cs : List Char} (h : cs.all Text.isBlank = false) :
    split cs = (segments cs).map Text.trim := by
  rw [split, h]
  rfl

variable {e₁ e₂ : List Char}

/-- The pieces of a joined text. -/
theorem pieces_join (bare : (Scan.start.run e₁).isBare = true)
    (ends : endsWithConjunction e₁ = false) (begins : beginsWithConjunction e₂ = false) :
    pieces .start (e₁ ++ " AND ".toList ++ e₂)
      = glue (pieces .start e₁).1 (pieces .start e₁).2
          ([' '], ("AND ".toList ++ (pieces .start e₂).1) :: (pieces .start e₂).2) := by
  have seam := seam_of_blank ends (b := ' ') Text.isBlank_space ("AND ".toList ++ e₂)
  rw [List.append_assoc, ← pieces_conjunction bare begins]
  exact pieces_append .start e₁ _ seam

/-- The segments of a joined text are those of its two parts, with the blanks around the
conjunction at the ends of two of them. -/
theorem map_trim_segments_join (bare : (Scan.start.run e₁).isBare = true)
    (ends : endsWithConjunction e₁ = false) (begins : beginsWithConjunction e₂ = false) :
    (segments (e₁ ++ " AND ".toList ++ e₂)).map Text.trim
      = (segments e₁).map Text.trim ++ (segments e₂).map Text.trim := by
  have blank (cs : List Char) : Text.trim (cs ++ [' ']) = Text.trim cs :=
    Text.trim_append_blank Text.isBlank_space cs
  have seam : Text.trim (("AND ".toList ++ (pieces .start e₂).1).drop 3)
      = Text.trim (pieces .start e₂).1 := Text.trim_cons_blank Text.isBlank_space _
  rw [segments, pieces_join bare ends begins, segments, segments]
  rcases List.eq_nil_or_concat (pieces .start e₁).2 with hp | ⟨init, last, hp⟩
  · rw [hp, glue]
    simp only [List.map_cons, List.map_nil, seam, blank, List.cons_append, List.nil_append]
  · rw [List.concat_eq_append] at hp
    have mem : last ∈ (pieces .start e₁).2 := by simp [hp]
    have long : 3 ≤ last.length := three_le_length_of_mem_pieces last mem
    rw [hp, glue_concat]
    simp only [List.map_cons, List.map_append, List.map_nil, seam,
      List.drop_append_of_le_length long, blank, List.cons_append, List.append_assoc,
      List.nil_append]

/-- The clauses of a joined text are those of its two parts. -/
theorem split_join (full₁ : e₁.all Text.isBlank = false) (full₂ : e₂.all Text.isBlank = false)
    (bare : (Scan.start.run e₁).isBare = true) (ends : endsWithConjunction e₁ = false)
    (begins : beginsWithConjunction e₂ = false) :
    split (e₁ ++ " AND ".toList ++ e₂) = split e₁ ++ split e₂ := by
  have full : (e₁ ++ " AND ".toList ++ e₂).all Text.isBlank = false := by
    rw [List.append_assoc, List.all_append, full₁, Bool.false_and]
  rw [split_of_not_blank full, split_of_not_blank full₁, split_of_not_blank full₂]
  exact map_trim_segments_join bare ends begins

/-- A cursor at the end of a joined text stands where it does in the second part. The first part may
even end with the word itself, which then is a conjunction like the one behind it. -/
theorem trimStart_lastSegment_join (bare : (Scan.start.run e₁).isBare = true)
    (begins : beginsWithConjunction e₂ = false) :
    Text.trimStart (lastSegment (e₁ ++ " AND ".toList ++ e₂))
      = Text.trimStart (lastSegment e₂) := by
  have text : e₁ ++ " AND ".toList ++ e₂ = e₁ ++ [' '] ++ ("AND ".toList ++ e₂) := by simp
  have behind : Scan.start.run (e₁ ++ [' ']) = .bare (some ' ') := by
    rw [Scan.run_append]
    exact step_of_blank bare Text.isBlank_space
  have seam := seam_of_not_letter (toLower_not_mem_of_blank Text.isBlank_space) .start e₁
    ("AND ".toList ++ e₂)
  have others : (pieces .start (e₁ ++ " AND ".toList ++ e₂)).2.getLast?
      = some (((pieces .start e₂).2.getLast?).getD ("AND ".toList ++ (pieces .start e₂).1)) := by
    rw [text, pieces_append .start _ _ seam, behind, pieces_word_at_seam begins]
    rcases List.eq_nil_or_concat (pieces .start (e₁ ++ [' '])).2 with hp | ⟨init, last, hp⟩
    · rw [hp, glue, List.getLast?_cons]
    · rw [hp, List.concat_eq_append, glue_concat, List.getLast?_append, List.getLast?_cons,
        List.getLast?_cons]
      cases (pieces .start e₂).2.getLast? <;> rfl
  rw [lastSegment, others, lastSegment]
  cases (pieces .start e₂).2.getLast? with
  | none => exact Text.trimStart_cons_blank Text.isBlank_space _
  | some piece => rfl

end QueryPanel.Clause
