import QueryPanel.Proofs.Clause.Scanning

/-!
# The clause that a text ends with

A text is what stands in front of its last clause, and that clause. A scan that has come so far
stands where a quote opens a literal (`exists_front`), so it goes on as from the start of a text:
whoever reads the last clause alone, and whoever scans the whole text, sees the same literals.

If that clause has an equals sign, the text is `Compared`. Everything behind the sign can then be
exchanged for a text without a conjunction of its own, and the clauses before stay what they were:

> `Compared.exchange`: the last clause goes on with the new text, and the earlier ones are the same.
-/

namespace QueryPanel.Clause

/-! ## What stands in front of the last clause -/

/-- Where the last piece of a text begins, a conjunction does. -/
theorem exists_front_of_last_piece {s : Scan} {cs piece : List Char}
    (h : (pieces s cs).2.getLast? = some piece) :
    ∃ front, cs = front ++ piece ∧ startsConjunction (s.run front) piece = true := by
  induction cs generalizing s with
  | nil => cases h
  | cons c cs ih =>
    cases hc : startsConjunction s (c :: cs) with
    | false =>
      rw [pieces_of_not_starts hc] at h
      obtain ⟨front, rfl, hstarts⟩ := ih h
      exact ⟨c :: front, rfl, hstarts⟩
    | true =>
      rw [pieces_of_starts hc, List.getLast?_cons] at h
      cases hlast : (pieces (s.step c) cs).2.getLast? with
      | none =>
        -- No other conjunction follows, so the piece is all of the text.
        have hothers := List.getLast?_eq_none_iff.mp hlast
        have hflat := flatten_pieces (s.step c) cs
        rw [hothers, List.flatten_nil, List.append_nil] at hflat
        rw [hlast, Option.getD_none, hflat] at h
        refine ⟨[], (Option.some.inj h), ?_⟩
        rw [← Option.some.inj h]
        exact hc
      | some last =>
        rw [hlast, Option.getD_some] at h
        obtain ⟨front, rfl, hstarts⟩ := ih (hlast.trans h)
        exact ⟨c :: front, rfl, hstarts⟩

/-- Behind the word of a conjunction and its blank a clause may begin. -/
theorem isFresh_run_conjunction {s : Scan} (hs : s.isBare = true) {a n d b : Char}
    (h : beginsWithConjunction [a, n, d, b] = true) : (s.run [a, n, d, b]).isFresh = true := by
  obtain ⟨hword, hb⟩ := Bool.and_eq_true_iff.mp h
  have hbare : (s.run [a, n, d]).isBare = true := by
    rw [Scan.isBare_run_of_not_quote _ fun c hc => not_quote_of_mem_word hword hc]
    exact hs
  exact Scan.isFresh_step_of_blank hbare hb

/-- A scan that has come to the last clause of a text stands at a fresh place. -/
theorem exists_front (cs : List Char) :
    ∃ front, cs = front ++ Text.trimStart (lastSegment cs) ∧
      (Scan.start.run front).isFresh = true := by
  cases hlast : (pieces .start cs).2.getLast? with
  | none =>
    have hothers := List.getLast?_eq_none_iff.mp hlast
    have hflat := flatten_pieces .start cs
    rw [hothers, List.flatten_nil, List.append_nil] at hflat
    rw [lastSegment, hlast]
    dsimp only
    rw [hflat]
    obtain ⟨bs, hbs, hblank⟩ := Text.exists_blanks_append_trimStart cs
    exact ⟨bs, hbs, Scan.isFresh_run_of_blanks rfl hblank⟩
  | some piece =>
    obtain ⟨front, hcs, hstarts⟩ := exists_front_of_last_piece hlast
    rw [startsConjunction_eq, Bool.and_eq_true_iff] at hstarts
    obtain ⟨hafter, hbegins⟩ := hstarts
    obtain ⟨a, n, d, b, rest, rfl, -, hb⟩ := letters_of_beginsWithConjunction hbegins
    have hsegment : Text.trimStart (lastSegment cs) = Text.trimStart rest := by
      rw [lastSegment, hlast]
      exact Text.trimStart_cons_blank hb rest
    obtain ⟨bs, hbs, hblank⟩ := Text.exists_blanks_append_trimStart rest
    refine ⟨front ++ ([a, n, d, b] ++ bs), ?_, ?_⟩
    · rw [hsegment, hcs]
      simp only [List.append_assoc, ← hbs]
      rfl
    · rw [Scan.run_append, Scan.run_append]
      exact Scan.isFresh_run_of_blanks
        (isFresh_run_conjunction (Scan.isBare_of_isAfterBlank hafter) hbegins) hblank

/-! ## Going on behind a text -/

theorem pieces_eq_of_no_others {s : Scan} {cs : List Char} (h : (pieces s cs).2 = []) :
    pieces s cs = (cs, []) := by
  have hflat := flatten_pieces s cs
  rw [h, List.flatten_nil, List.append_nil] at hflat
  exact Prod.ext hflat h

/-- In a beginning of a text there are no conjunctions but those of the text. -/
theorem no_others_of_append {s : Scan} {xs ys : List Char}
    (h : (pieces s (xs ++ ys)).2 = []) : (pieces s xs).2 = [] := by
  induction xs generalizing s with
  | nil => rfl
  | cons c cs ih =>
    rw [List.cons_append] at h
    cases hstarts : startsConjunction s (c :: (cs ++ ys)) with
    | true =>
      rw [pieces_of_starts hstarts] at h
      cases h
    | false =>
      rw [pieces_of_not_starts hstarts] at h
      have hnone : startsConjunction s (c :: cs) = false := by
        rw [startsConjunction_eq, Bool.and_eq_false_iff] at hstarts ⊢
        exact hstarts.imp_right fun hbegins => beginsWithConjunction_of_append hbegins
      rw [pieces_of_not_starts hnone]
      exact ih h

/-- A text without conjunctions is its last segment. -/
theorem lastSegment_of_no_others {cs : List Char} (h : (pieces .start cs).2 = []) :
    lastSegment cs = cs := by
  rw [lastSegment, pieces_eq_of_no_others h]
  rfl

/-- Blanks in front of a text that begins with no conjunction do not count. -/
theorem trimStart_lastSegment_blanks {lead cs : List Char} (h : ∀ c ∈ lead, Text.isBlank c = true)
    (begins : beginsWithConjunction cs = false) :
    Text.trimStart (lastSegment (lead ++ cs)) = Text.trimStart (lastSegment cs) := by
  have hpieces : pieces .start (lead ++ cs)
      = (lead ++ (pieces .start cs).1, (pieces .start cs).2) := by
    rw [pieces_append_of_no_first_letter .start fun c hc => toLower_ne_of_blank (h c hc)]
    rcases List.eq_nil_or_concat lead with rfl | ⟨init, b, rfl⟩
    · rfl
    · rw [List.concat_eq_append] at h ⊢
      have hb : Text.isBlank b = true := h b (by simp)
      have hrun : Scan.start.run (init ++ [b]) = .bare (some b) := by
        have hbare : (Scan.start.run init).isBare = true :=
          Scan.isBare_run_of_blanks .start fun c hc => h c (List.mem_append_left _ hc)
        rw [Scan.run_append]
        exact step_of_blank hbare hb
      rw [hrun, pieces_after_blank hb begins]
  unfold lastSegment
  rw [hpieces]
  cases (pieces .start cs).2.getLast? with
  | none => exact Text.trimStart_blanks_append h _
  | some piece => rfl

theorem exists_earlier (cs : List Char) :
    ∃ earlier, segments cs = earlier ++ [lastSegment cs] := by
  unfold segments lastSegment
  rcases List.eq_nil_or_concat (pieces .start cs).2 with hp | ⟨init, last, hp⟩
  · rw [hp]
    exact ⟨[], rfl⟩
  · rw [hp, List.concat_eq_append, List.getLast?_concat]
    exact ⟨(pieces .start cs).1 :: init.map (·.drop 3), by simp⟩

/-- The last clause of a text, with the blanks that follow it. -/
theorem exists_blanks_of_getLast?_split {text clause : List Char}
    (h : (split text).getLast? = some clause) :
    clause = Text.trimEnd clause ∧
      ∃ bs, Text.trimStart (lastSegment text) = clause ++ bs ∧ ∀ b ∈ bs, Text.isBlank b = true := by
  obtain ⟨earlier, hsegments⟩ := exists_earlier text
  unfold split at h
  split at h
  · cases h
  · rw [hsegments, List.map_append, List.map_singleton, List.getLast?_concat] at h
    obtain ⟨bs, hbs, hblank⟩ :=
      Text.exists_trimEnd_append_blanks (Text.trimStart (lastSegment text))
    rw [← Option.some.inj h]
    refine ⟨?_, bs, hbs, hblank⟩
    have hagain := Text.trimEnd_append_blanks
      (Text.trimEnd (Text.trimStart (lastSegment text))) hblank
    rw [← hbs] at hagain
    exact hagain

section Extended

variable {xs ys : List Char}

/-- The segments of a text that goes on without a conjunction. -/
theorem segments_append
    (hseam : ∀ u v, xs = u ++ v → v ≠ [] →
      startsConjunction (Scan.start.run u) (v ++ ys) = startsConjunction (Scan.start.run u) v)
    (h : (pieces (Scan.start.run xs) ys).2 = []) :
    lastSegment (xs ++ ys) = lastSegment xs ++ ys ∧
      ∃ earlier, segments xs = earlier ++ [lastSegment xs] ∧
        segments (xs ++ ys) = earlier ++ [lastSegment xs ++ ys] := by
  have hpieces := pieces_append .start xs ys hseam
  rw [pieces_eq_of_no_others h] at hpieces
  unfold lastSegment segments
  rcases List.eq_nil_or_concat (pieces .start xs).2 with hp | ⟨init, last, hp⟩
  · rw [hpieces, hp]
    exact ⟨rfl, [], rfl, rfl⟩
  · rw [List.concat_eq_append] at hp
    have hmem : last ∈ (pieces .start xs).2 := by simp [hp]
    have hlong : 3 ≤ last.length := three_le_length_of_mem_pieces last hmem
    have hdrop : (last ++ ys).drop 3 = last.drop 3 ++ ys := List.drop_append_of_le_length hlong
    rw [hpieces, hp, glue_concat, List.getLast?_concat, List.getLast?_concat]
    refine ⟨hdrop, (pieces .start xs).1 :: init.map (·.drop 3), ?_, ?_⟩
    · rw [List.map_append, List.map_singleton, List.cons_append]
    · rw [List.map_append, List.map_singleton, List.cons_append, hdrop]

/-- The last segment of a text that goes on with a conjunction is what the last one leaves. -/
theorem lastSegment_append
    (hseam : ∀ u v, xs = u ++ v → v ≠ [] →
      startsConjunction (Scan.start.run u) (v ++ ys) = startsConjunction (Scan.start.run u) v)
    {last : List Char} (h : (pieces (Scan.start.run xs) ys).2.getLast? = some last) :
    lastSegment (xs ++ ys) = last.drop 3 := by
  have hlast : (pieces .start (xs ++ ys)).2.getLast? = some last := by
    rw [pieces_append .start xs ys hseam]
    rcases List.eq_nil_or_concat (pieces .start xs).2 with hp | ⟨front, piece, hp⟩
    · rw [hp, glue, h]
    · rw [hp, List.concat_eq_append, glue_concat, List.getLast?_append, List.getLast?_cons, h]
      rfl
  rw [lastSegment, hlast]

end Extended

/-! ## A clause with an equals sign -/

/-- Behind `front` the text ends with a clause whose first equals sign outside every literal stands
between `key` and `tail`. -/
structure Compared (front key tail : List Char) : Prop where
  clause : Text.trimStart (lastSegment (front ++ (key ++ '=' :: tail))) = key ++ '=' :: tail
  sign : Scan.start.splitAtEquals? (key ++ '=' :: tail) = some (key, tail)
  fresh : (Scan.start.run front).isFresh = true

theorem exists_compared {text key tail : List Char}
    (h : Scan.start.splitAtEquals? (Text.trimStart (lastSegment text)) = some (key, tail)) :
    ∃ front, text = front ++ (key ++ '=' :: tail) ∧ Compared front key tail := by
  obtain ⟨front, htext, hfresh⟩ := exists_front text
  have hclause := (Scan.eq_of_splitAtEquals? h).1
  rw [hclause] at htext h
  refine ⟨front, htext, ?_, h, hfresh⟩
  rw [← htext, hclause]

namespace Compared

variable {front key tail : List Char}

/-- Behind the equals sign a scan is where the sign leaves it. -/
theorem run_sign (h : Compared front key tail) :
    Scan.start.run (front ++ key ++ ['=']) = .bare (some '=') := by
  rw [List.append_assoc, Scan.run_append, Scan.run_of_isFresh h.fresh (by simp)]
  exact (Scan.eq_of_splitAtEquals? h.sign).2.1

/-- No conjunction runs across the equals sign. -/
theorem seam_sign (ys u v : List Char) (huv : front ++ key ++ ['='] = u ++ v) (hv : v ≠ []) :
    startsConjunction (Scan.start.run u) (v ++ ys) = startsConjunction (Scan.start.run u) v :=
  seam_of_not_letter (by decide) .start (front ++ key) ys u v huv hv

theorem text_eq (front key tail : List Char) :
    front ++ (key ++ '=' :: tail) = front ++ key ++ ['='] ++ tail := by
  simp

/-- The clause goes on to the end of the text. -/
theorem no_conjunction (h : Compared front key tail) :
    (pieces (.bare (some '=')) tail).2 = [] := by
  cases hlast : (pieces (.bare (some '=')) tail).2.getLast? with
  | none => exact List.getLast?_eq_none_iff.mp hlast
  | some last =>
    -- A clause behind another conjunction would be too short to hold the sign.
    exfalso
    obtain ⟨lead, hlead, -⟩ := exists_front_of_last_piece hlast
    rw [← h.run_sign] at hlast
    have hclause := h.clause
    rw [text_eq, lastSegment_append (seam_sign tail) hlast] at hclause
    have hlength : (Text.trimStart (last.drop 3)).length ≤ tail.length := by
      rw [hlead, List.length_append]
      exact Nat.le_add_left_of_le
        (Nat.le_trans (List.dropWhile_suffix _).length_le (List.drop_suffix 3 last).length_le)
    rw [hclause, List.length_append, List.length_cons] at hlength
    omega

/-- The part of the last segment up to the equals sign. -/
theorem trimStart_lead (h : Compared front key tail) :
    Text.trimStart (lastSegment (front ++ key ++ ['='])) = key ++ ['='] ∧
      (lastSegment (front ++ key ++ ['='])).all Text.isBlank = false := by
  have hno := h.no_conjunction
  rw [← h.run_sign] at hno
  have hsegment := (segments_append (seam_sign tail) hno).1
  have hclause := h.clause
  rw [text_eq, hsegment] at hclause
  have hblank : (lastSegment (front ++ key ++ ['='])).all Text.isBlank = false := by
    rw [Bool.eq_false_iff]
    intro hall
    rw [Text.trimStart_blanks_append (List.all_eq_true.mp hall)] at hclause
    have hlength : (Text.trimStart tail).length ≤ tail.length :=
      (List.dropWhile_suffix _).length_le
    rw [hclause, List.length_append, List.length_cons] at hlength
    omega
  refine ⟨?_, hblank⟩
  rw [Text.trimStart_append hblank, show key ++ '=' :: tail = key ++ ['='] ++ tail by simp]
    at hclause
  exact List.append_cancel_right hclause

/-- The clauses of the text, by the last of them. -/
theorem split_eq (h : Compared front key tail) {earlier : List (List Char)}
    (hsegments : segments (front ++ (key ++ '=' :: tail))
      = earlier ++ [lastSegment (front ++ (key ++ '=' :: tail))]) :
    split (front ++ (key ++ '=' :: tail))
      = earlier.map Text.trim ++ [Text.trimEnd (key ++ '=' :: tail)] := by
  have hblank : (front ++ (key ++ '=' :: tail)).all Text.isBlank = false := by
    simp [show Text.isBlank '=' = false from rfl]
  rw [split, hblank, hsegments, List.map_append, List.map_singleton, Text.trim, h.clause]
  rfl

/-- Behind the equals sign a text can be exchanged for another: the same sign is found, and the
clauses before the last one stay. -/
theorem exchange (h : Compared front key tail) {tail' : List Char}
    (hno : (pieces (.bare (some '=')) tail').2 = []) :
    Compared front key tail' ∧
      ∃ earlier,
        split (front ++ (key ++ '=' :: tail)) = earlier ++ [Text.trimEnd (key ++ '=' :: tail)] ∧
        split (front ++ (key ++ '=' :: tail'))
          = earlier ++ [Text.trimEnd (key ++ '=' :: tail')] := by
  have hold := h.no_conjunction
  rw [← h.run_sign] at hno hold
  obtain ⟨hlast, earlier, hlead, hsegments⟩ := segments_append (seam_sign tail) hold
  obtain ⟨hlast', earlier', hlead', hsegments'⟩ := segments_append (seam_sign tail') hno
  have hearlier : earlier = earlier' := List.append_cancel_right (hlead.symm.trans hlead')
  obtain ⟨htrim, hblank⟩ := h.trimStart_lead
  have hcompared : Compared front key tail' := by
    refine ⟨?_, (Scan.eq_of_splitAtEquals? h.sign).2.2 tail', h.fresh⟩
    rw [text_eq, hlast', Text.trimStart_append hblank, htrim]
    simp
  refine ⟨hcompared, earlier.map Text.trim, h.split_eq ?_, hcompared.split_eq ?_⟩
  · rw [text_eq, hsegments, hlast]
  · rw [text_eq, hsegments', hlast', hearlier]

/-- The clause is trimmed at its start, and so is what stands before the sign. -/
theorem trimStart_key (h : Compared front key tail) : Text.trimStart key = key := by
  have hagain : Text.trimStart (key ++ '=' :: tail) = key ++ '=' :: tail := by
    rw [← h.clause, Text.trimStart_trimStart]
  exact Text.trimStart_of_append hagain

/-- If the trimmed text before the sign is a key, it and the sign are a head, with any blanks
behind. -/
theorem exists_head (h : Compared front key tail) (hne : Text.trim key ≠ [])
    (hkey : ∀ c ∈ Text.trim key, isKeyChar c = true) {behind : List Char}
    (hbehind : ∀ c ∈ behind, Text.isBlank c = true) :
    ∃ head : Head, head.key = Text.trim key ∧ head.text = key ++ '=' :: behind := by
  have htrim : Text.trim key = Text.trimEnd key := by rw [Text.trim, h.trimStart_key]
  obtain ⟨before, hbefore, hblank⟩ := Text.exists_trimEnd_append_blanks key
  rw [← htrim] at hbefore
  refine ⟨⟨Text.trim key, before, behind, hne, hkey, hblank, hbehind⟩, rfl, ?_⟩
  calc Text.trim key ++ (before ++ '=' :: behind)
      = Text.trim key ++ before ++ '=' :: behind := (List.append_assoc ..).symm
    _ = key ++ '=' :: behind := by rw [← hbefore]

end Compared

end QueryPanel.Clause
