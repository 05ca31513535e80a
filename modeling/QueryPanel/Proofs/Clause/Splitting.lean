import QueryPanel.Proofs.Clause.Written

/-!
# Splitting a text and joining its clauses

Joining the clauses of a text by conjunctions writes the text anew, with other blanks and with
` AND ` for conjunctions in any case. Splitting that gives the same clauses: nothing is lost by the
trimming, although the scan that finds the conjunctions runs over another text.

`Cuts` says how a scan goes through a text from conjunction to conjunction. A run before one of them
is `Uncut`: no conjunction begins in it. That is a fact about the scan as it comes from the text
before, and what the rest is built on is that it stays true of the trimmed run alone, from the start
(`Uncut.trim`), because a scan behind a blank is as good as a new one. A literal can be open only in
the last run, as a conjunction stands outside every literal, so wherever two clauses are joined the
lemmas on seams apply. Empty clauses, as between two conjunctions in a row, are runs of blanks.

Main result:

> `split_is_lossless` — the clauses of any text, joined by conjunctions, are split into the same
> clauses; each that is not empty is trimmed and is its own only clause; and a text that is not
> blank is its clauses in their order, with nothing but blanks and the words of conjunctions around
> them.
-/

namespace QueryPanel

namespace Clause

open FilterFields (joinClauses)

/-! ## Runs without a conjunction -/

section Run

variable {s : Scan} {cs behind : List Char}

theorem Uncut.pieces_eq (h : Uncut s cs []) : pieces s cs = (cs, []) := by
  have hpieces := pieces_append_of_uncut h
  rw [List.append_nil] at hpieces
  rw [hpieces, pieces, List.append_nil]

/-- Without the blanks around it, the run is still uncut, alone and from the start. -/
theorem Uncut.trim (h : Uncut s cs behind) (hs : s.isFresh = true) :
    Uncut .start (Text.trim cs) [] := by
  obtain ⟨before, after, hcs, hbefore, -⟩ := Text.exists_trim cs
  intro u v huv hv
  rw [List.append_nil]
  by_cases hu : u = []
  · rw [hu]
    exact startsConjunction_of_not_afterBlank rfl v
  · have hrun : (s.run before).run u = Scan.start.run u :=
      Scan.run_of_isFresh (Scan.isFresh_run_of_blanks hs hbefore) hu
    have hnone := h (before ++ u) (v ++ after) (by rw [hcs, huv]; simp) (by simp [hv])
    rw [Scan.run_append, hrun, startsConjunction_eq, List.append_assoc] at hnone
    rw [startsConjunction_eq, Bool.and_eq_false_iff]
    rcases Bool.and_eq_false_iff.mp hnone with hafter | hbegins
    · exact .inl hafter
    · exact .inr (beginsWithConjunction_of_append hbegins)

/-- A run that leaves no literal open leaves none open when it is trimmed. -/
theorem isBare_run_trim (hs : s.isFresh = true) (h : (s.run cs).isBare = true) :
    (Scan.start.run (Text.trim cs)).isBare = true := by
  obtain ⟨before, after, hcs, hbefore, hafter⟩ := Text.exists_trim cs
  by_cases hne : Text.trim cs = []
  · rw [hne]
    rfl
  · rw [hcs, Scan.run_append, Scan.run_append, Scan.isBare_run_of_blanks _ hafter] at h
    rwa [Scan.run_of_isFresh (Scan.isFresh_run_of_blanks hs hbefore) hne] at h

/-- A run that ends behind a blank goes on with one behind its clause. -/
theorem exists_blank_behind_trim (h : (s.run cs).isAfterBlank = true) (hne : Text.trim cs ≠ []) :
    ∃ before b after, cs = before ++ (Text.trim cs ++ b :: after) ∧
      (∀ c ∈ before, Text.isBlank c = true) ∧ ∀ c ∈ b :: after, Text.isBlank c = true := by
  obtain ⟨before, after, hcs, hbefore, hafter⟩ := Text.exists_trim cs
  cases after with
  | cons b after => exact ⟨before, b, after, hcs, hbefore, hafter⟩
  | nil =>
    exfalso
    obtain ⟨front, c, hend, hc⟩ := (Text.solid_of_trim_eq hne (Text.trim_trim cs)).ends
    rw [List.append_nil, hend, ← List.append_assoc] at hcs
    rw [hcs] at h
    have hblank := Scan.isBlank_of_isAfterBlank_run h
    rw [hc] at hblank
    cases hblank

/-- The clause of a run in front of a conjunction does not end with another one. -/
theorem Uncut.ends_trim (h : Uncut s cs behind) (hafter : (s.run cs).isAfterBlank = true) :
    endsWithConjunction (Text.trim cs) = false := by
  rw [Bool.eq_false_iff]
  intro hends
  obtain ⟨front, p, word, htrim, hp, hword⟩ := exists_word_of_ends hends
  obtain ⟨before, b, after, hcs, -, hblank⟩ :=
    exists_blank_behind_trim hafter (by rw [htrim]; simp)
  have hb := hblank b List.mem_cons_self
  have hsplit : cs = (before ++ front ++ [p]) ++ (word ++ b :: after) := by
    rw [hcs, htrim]
    simp
  have hnone := h _ _ hsplit (by simp)
  -- The scan is outside every literal behind the run, and the word and blanks keep it so.
  have hbare : (s.run (before ++ front ++ [p])).isBare = true := by
    have hbehind := Scan.isBare_of_isAfterBlank hafter
    rwa [hsplit, Scan.run_append, Scan.run_append, Scan.isBare_run_of_blanks _ hblank,
      Scan.isBare_run_of_not_quote _ fun c hc => not_quote_of_mem_word hword hc] at hbehind
  have hstands : (s.run (before ++ front ++ [p])).isAfterBlank = true := by
    rw [Scan.run_append] at hbare ⊢
    have hsingle : ∀ c ∈ [p], Text.isBlank c = true := fun c hc => List.mem_singleton.mp hc ▸ hp
    rw [Scan.isBare_run_of_blanks _ hsingle] at hbare
    change (Scan.step _ p).isAfterBlank = true
    rw [step_of_blank hbare hp]
    exact hp
  rw [startsConjunction_eq, hstands, List.append_assoc, List.cons_append,
    beginsWithConjunction_word_append hword hb] at hnone
  cases hnone

/-- Behind a conjunction, the clause of a run does not begin with another one. -/
theorem Uncut.begins_of_afterBlank (h : Uncut s cs behind) (hs : s.isAfterBlank = true)
    {before clause : List Char} (hcs : cs = before ++ clause) (hne : clause ≠ [])
    (hblank : ∀ c ∈ before, Text.isBlank c = true) :
    beginsWithConjunction (clause ++ behind) = false := by
  have hnone := h before clause hcs hne
  rwa [startsConjunction_eq, Scan.isAfterBlank_run_of_blanks hs hblank, Bool.true_and] at hnone

theorem Uncut.begins_trim (h : Uncut s cs behind) (hs : s.isAfterBlank = true) :
    beginsWithConjunction (Text.trim cs) = false := by
  by_cases hne : Text.trim cs = []
  · rw [hne]
    rfl
  · obtain ⟨before, after, hcs, hbefore, -⟩ := Text.exists_trim cs
    have hbegins := h.begins_of_afterBlank hs hcs (by simp [hne]) hbefore
    rw [List.append_assoc] at hbegins
    exact beginsWithConjunction_of_append hbegins

theorem Uncut.begins_trim_append (h : Uncut s cs behind) (hs : s.isAfterBlank = true)
    (hafter : (s.run cs).isAfterBlank = true) (rest : List Char) :
    beginsWithConjunction (Text.trim cs ++ ' ' :: rest) = false := by
  by_cases hne : Text.trim cs = []
  · rw [hne]
    exact beginsWithConjunction_blank_within Text.isBlank_space [] (by simp) rest
  · -- The blank that ended the word in the run, if it stood there, is another than the one here.
    obtain ⟨before, b, after, hcs, hbefore, hblank⟩ := exists_blank_behind_trim hafter hne
    have hbegins := h.begins_of_afterBlank hs hcs (by simp) hbefore
    rw [List.append_assoc, List.cons_append] at hbegins
    rwa [beginsWithConjunction_blank Text.isBlank_space (hblank b List.mem_cons_self)]

end Run

/-! ## How a text is cut -/

/-- How a scan cuts a text: a run in which no conjunction begins is the last one, or the word of a
conjunction follows it, with a blank behind the word from where the scan goes on. Each run gives one
clause, which is the run trimmed. -/
inductive Cuts : Scan → List Char → List (List Char) → Prop
  | last {s : Scan} {cs : List Char} (huncut : Uncut s cs []) : Cuts s cs [Text.trim cs]
  | cons {s : Scan} {cs word rest : List Char} {b : Char} {clauses : List (List Char)}
      (huncut : Uncut s cs (word ++ b :: rest)) (hafter : (s.run cs).isAfterBlank = true)
      (hword : Text.eqIgnoreCase word ['a', 'n', 'd'] = true) (hb : Text.isBlank b = true)
      (hothers : Cuts (.bare (some b)) rest clauses) :
      Cuts s (cs ++ (word ++ b :: rest)) (Text.trim cs :: clauses)

/-- Behind a blank, the word of a conjunction begins a piece of its own. -/
theorem pieces_word {s : Scan} (hs : s.isAfterBlank = true) {word rest : List Char} {b : Char}
    (hword : Text.eqIgnoreCase word ['a', 'n', 'd'] = true) (hb : Text.isBlank b = true) :
    pieces s (word ++ b :: rest)
      = ([], (word ++ b :: (pieces (.bare (some b)) rest).1) ::
          (pieces (.bare (some b)) rest).2) := by
  have hstarts : startsConjunction s (word ++ b :: rest) = true := by
    rw [startsConjunction_eq, hs, beginsWithConjunction_word_append hword hb]
    rfl
  have hbare : (s.run word).isBare = true := by
    rw [Scan.isBare_run_of_not_quote _ fun c hc => not_quote_of_mem_word hword hc]
    exact Scan.isBare_of_isAfterBlank hs
  have hblank : beginsWithConjunction (b :: rest) = false :=
    beginsWithConjunction_blank_within hb [] (by simp) rest
  have hletter : ∀ c ∈ word, Text.isBlank c = false := fun c hc => not_blank_of_mem_word hword hc
  obtain ⟨a, letters, rfl⟩ : ∃ a letters, word = a :: letters := by
    apply List.exists_cons_of_ne_nil
    rintro rfl
    cases hword
  have hstep := isAfterBlank_step_of_not_blank s (hletter a List.mem_cons_self)
  change ((s.step a).run letters).isBare = true at hbare
  rw [List.cons_append] at hstarts ⊢
  rw [pieces_of_starts hstarts,
    pieces_append_of_no_blank hstep fun c hc => hletter c (List.mem_cons_of_mem a hc),
    pieces_of_not_starts (by rw [startsConjunction_eq, hblank, Bool.and_false]),
    step_of_blank hbare hb]
  rfl

/-- A text is uncut, or it goes on with the word of a conjunction behind its first run. -/
theorem uncut_or_cut (s : Scan) (cs : List Char) :
    Uncut s cs [] ∨ ∃ run word b rest, cs = run ++ (word ++ b :: rest) ∧
      Uncut s run (word ++ b :: rest) ∧ (s.run run).isAfterBlank = true ∧
      Text.eqIgnoreCase word ['a', 'n', 'd'] = true ∧ Text.isBlank b = true := by
  induction cs generalizing s with
  | nil => exact .inl (uncut_nil s [])
  | cons c cs ih =>
    by_cases hc : startsConjunction s (c :: cs) = true
    · right
      rw [startsConjunction_eq, Bool.and_eq_true_iff] at hc
      obtain ⟨word, b, rest, heq, hword, hb⟩ := exists_word_of_begins hc.2
      exact ⟨[], word, b, rest, heq, uncut_nil s _, hc.1, hword, hb⟩
    · replace hc := Bool.eq_false_iff.mpr hc
      rcases ih (s.step c) with huncut | ⟨run, word, b, rest, rfl, huncut, hafter, hword, hb⟩
      · exact .inl (.cons (by rwa [List.append_nil]) huncut)
      · exact .inr ⟨c :: run, word, b, rest, rfl, .cons hc huncut, hafter, hword, hb⟩

/-- The trimmed segments of a text are its clauses. -/
theorem cuts_pieces (s : Scan) (cs : List Char) :
    Cuts s cs (((pieces s cs).1 :: (pieces s cs).2.map (·.drop 3)).map Text.trim) := by
  rcases uncut_or_cut s cs with huncut | ⟨run, word, b, rest, rfl, huncut, hafter, hword, hb⟩
  · rw [huncut.pieces_eq]
    exact .last huncut
  · have hothers := cuts_pieces (.bare (some b)) rest
    have hdrop (ys : List Char) : (word ++ ys).drop 3 = ys :=
      List.drop_left' (length_of_word hword)
    rw [pieces_append_of_uncut huncut, pieces_word hafter hword hb]
    simp only [List.append_nil, List.map_cons, hdrop, Text.trim_cons_blank hb]
    exact .cons huncut hafter hword hb hothers
termination_by cs.length
decreasing_by
  subst_vars
  simp only [List.length_append, List.length_cons]
  omega

/-! ## Clauses in order -/

/-- A text is some clauses in their order, with blanks around each of them and a conjunction, in
some case, between two. -/
inductive LaidOut : List (List Char) → List Char → Prop
  | last {before clause behind : List Char} (hbefore : ∀ b ∈ before, Text.isBlank b = true)
      (hbehind : ∀ b ∈ behind, Text.isBlank b = true) :
      LaidOut [clause] (before ++ clause ++ behind)
  | cons {before clause behind word text : List Char} {clauses : List (List Char)}
      (hbefore : ∀ b ∈ before, Text.isBlank b = true)
      (hbehind : ∀ b ∈ behind, Text.isBlank b = true)
      (hword : Text.eqIgnoreCase word ['a', 'n', 'd'] = true) (h : LaidOut clauses text) :
      LaidOut (clause :: clauses) (before ++ clause ++ behind ++ word ++ text)

/-- A blank in front of the first clause is one more. -/
theorem LaidOut.cons_blank {clauses : List (List Char)} {text : List Char} {b : Char}
    (hb : Text.isBlank b = true) (h : LaidOut clauses text) : LaidOut clauses (b :: text) := by
  cases h with
  | @last before clause behind hbefore hbehind =>
    have hlaid : LaidOut [clause] ((b :: before) ++ clause ++ behind) :=
      .last (List.forall_mem_cons.mpr ⟨hb, hbefore⟩) hbehind
    exact hlaid
  | @cons before clause behind word text clauses hbefore hbehind hword h =>
    have hlaid : LaidOut (clause :: clauses) ((b :: before) ++ clause ++ behind ++ word ++ text) :=
      .cons (List.forall_mem_cons.mpr ⟨hb, hbefore⟩) hbehind hword h
    exact hlaid

namespace Cuts

variable {s : Scan} {text : List Char} {clauses : List (List Char)}

theorem ne_nil (h : Cuts s text clauses) : clauses ≠ [] := by
  cases h <;> exact List.cons_ne_nil _ _

/-- The text is its clauses, laid out. -/
theorem laidOut (h : Cuts s text clauses) : LaidOut clauses text := by
  induction h with
  | @last s cs _ =>
    obtain ⟨before, behind, hcs, hbefore, hbehind⟩ := Text.exists_trim cs
    have hlaid : LaidOut [Text.trim cs] (before ++ Text.trim cs ++ behind) :=
      .last hbefore hbehind
    rwa [List.append_assoc, ← hcs] at hlaid
  | @cons s cs word rest b clauses _ _ hword hb _ ih =>
    obtain ⟨before, behind, hcs, hbefore, hbehind⟩ := Text.exists_trim cs
    have hlaid : LaidOut (Text.trim cs :: clauses)
        (before ++ Text.trim cs ++ behind ++ word ++ b :: rest) :=
      .cons hbefore hbehind hword (ih.cons_blank hb)
    rwa [List.append_assoc before, ← hcs, List.append_assoc] at hlaid

/-- Each clause is trimmed, and no conjunction is left in it. -/
theorem clause_uncut (h : Cuts s text clauses) (hs : s.isFresh = true) :
    ∀ c ∈ clauses, Text.trim c = c ∧ Uncut .start c [] := by
  induction h with
  | last huncut =>
    intro c hc
    rw [List.mem_singleton.mp hc]
    exact ⟨Text.trim_trim _, huncut.trim hs⟩
  | cons huncut _ _ hb _ ih =>
    intro c hc
    rcases List.mem_cons.mp hc with rfl | hc
    · exact ⟨Text.trim_trim _, huncut.trim hs⟩
    · exact ih (Scan.isFresh_of_isAfterBlank hb) c hc

end Cuts

/-- A text in which no conjunction begins is one segment. -/
theorem Uncut.segments_eq {cs : List Char} (h : Uncut .start cs []) : segments cs = [cs] := by
  rw [segments, h.pieces_eq]
  rfl

/-- The clauses that a scan cuts out are those that it cuts out of them joined again. Behind a
blank, where the word of another conjunction may stand, they also do not begin with the word. -/
theorem Cuts.segments_joinClauses {s : Scan} {text : List Char} {clauses : List (List Char)}
    (h : Cuts s text clauses) (hs : s.isFresh = true) :
    (segments (joinClauses clauses)).map Text.trim = clauses ∧
      (s.isAfterBlank = true → beginsWithConjunction (joinClauses clauses) = false) := by
  induction h with
  | @last s cs huncut =>
    refine ⟨?_, fun hafter => huncut.begins_trim hafter⟩
    show (segments (Text.trim cs)).map Text.trim = [Text.trim cs]
    rw [(huncut.trim hs).segments_eq, List.map_singleton, Text.trim_trim]
  | @cons s cs word rest b clauses huncut hafter _ hb hothers ih =>
    obtain ⟨ihsegments, ihbegins⟩ := ih (Scan.isFresh_of_isAfterBlank hb)
    rw [joinClauses_cons _ hothers.ne_nil]
    constructor
    · rw [map_trim_segments_join
        (isBare_run_trim hs (Scan.isBare_of_isAfterBlank hafter)) (huncut.ends_trim hafter)
        (ihbegins hb), ihsegments, (huncut.trim hs).segments_eq, List.map_singleton,
        Text.trim_trim]
      rfl
    · intro hstands
      rw [List.append_assoc]
      exact huncut.begins_trim_append hstands hafter _

theorem Cuts.joinClauses_not_blank {s : Scan} {text : List Char} {clauses : List (List Char)}
    (h : Cuts s text clauses) (hblank : text.all Text.isBlank = false) :
    (joinClauses clauses).all Text.isBlank = false := by
  cases h with
  | last _ =>
    show (Text.trim text).all Text.isBlank = false
    rw [Bool.eq_false_iff]
    intro hall
    obtain ⟨before, behind, htext, hbefore, hbehind⟩ := Text.exists_trim text
    rw [htext, List.all_append, List.all_append, hall, List.all_eq_true.mpr hbefore,
      List.all_eq_true.mpr hbehind] at hblank
    cases hblank
  | cons _ _ _ _ hothers =>
    rw [joinClauses_cons _ hothers.ne_nil, List.all_append, List.all_append,
      show " AND ".toList.all Text.isBlank = false from rfl]
    simp

/-! ## Splitting -/

theorem cuts_split {text : List Char} (h : text.all Text.isBlank = false) :
    Cuts .start text (split text) := by
  rw [split_of_not_blank h]
  exact cuts_pieces .start text

theorem split_joinClauses_split (text : List Char) :
    split (joinClauses (split text)) = split text := by
  by_cases hblank : text.all Text.isBlank = true
  · have hnil : split text = [] := if_pos hblank
    rw [hnil]
    rfl
  · replace hblank := Bool.eq_false_iff.mpr hblank
    have hcuts := cuts_split hblank
    rw [split_of_not_blank (hcuts.joinClauses_not_blank hblank)]
    exact (hcuts.segments_joinClauses rfl).1

theorem split_of_mem_split {text clause : List Char} (h : clause ∈ split text)
    (hne : clause ≠ []) : Text.trim clause = clause ∧ split clause = [clause] := by
  by_cases hblank : text.all Text.isBlank = true
  · rw [split, if_pos hblank] at h
    cases h
  · replace hblank := Bool.eq_false_iff.mpr hblank
    obtain ⟨htrim, huncut⟩ := (cuts_split hblank).clause_uncut rfl clause h
    refine ⟨htrim, ?_⟩
    have hfull := (Text.solid_of_trim_eq hne htrim).not_all_blank []
    rw [List.append_nil] at hfull
    rw [split_of_not_blank hfull, huncut.segments_eq, List.map_singleton, htrim]

/-- Joining the clauses of a text and splitting again gives the same clauses. Each of them that is
not empty is trimmed and has no conjunction of its own, and a text that is not blank is its clauses
in their order. -/
theorem split_is_lossless (text : List Char) :
    split (joinClauses (split text)) = split text ∧
      (∀ clause ∈ split text, clause ≠ [] →
        Text.trim clause = clause ∧ split clause = [clause]) ∧
      (text.all Text.isBlank = false → LaidOut (split text) text) :=
  ⟨split_joinClauses_split text, fun _ h hne => split_of_mem_split h hne,
    fun hblank => (cuts_split hblank).laidOut⟩

/-- A text that begins and goes on with conjunctions, one of them behind a blank of three bytes,
with one in a literal and one in a literal that is never closed. -/
def halfTyped : List Char :=
  " and x = 'a AND b'\u3000aNd  AND y = \"c AND d".toList

theorem halfTyped_split_is_lossless :
    split halfTyped = [[], "x = 'a AND b'".toList, [], "y = \"c AND d".toList] ∧
      split (joinClauses (split halfTyped)) = split halfTyped ∧
      split "y = \"c AND d".toList = ["y = \"c AND d".toList] ∧
      LaidOut (split halfTyped) halfTyped := by
  have hsplit : split halfTyped = [[], "x = 'a AND b'".toList, [], "y = \"c AND d".toList] := by
    decide +kernel
  obtain ⟨hagain, hclause, hlaid⟩ := split_is_lossless halfTyped
  have hlast := hclause "y = \"c AND d".toList (by simp [hsplit]) (by decide)
  exact ⟨hsplit, hagain, hlast.2, hlaid (by decide +kernel)⟩

end Clause

end QueryPanel
