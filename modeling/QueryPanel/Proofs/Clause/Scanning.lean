import QueryPanel.Proofs.Clause.Grammar

/-!
# Scanning a clause

A scan that stands where a quote opens a literal is `isFresh`: at the start of a text, behind a
blank, behind an equals sign. From there on it takes the parts of a clause one after the other. The
key and the blanks around the equals sign leave it outside every literal, and the sign is the first
one it finds. A quoted literal is taken from mark to mark, whatever its body says, and no
conjunction begins in it (`pieces_spelled`).

A bare literal is the odd one out. The grammar lets it have quotes anywhere but in front, and the
scan takes one behind an equals sign for an opening mark (`isBare_run_spelled`).
-/

namespace QueryPanel

/-! ## Where a quote opens a literal -/

namespace Scan

/-- Outside every literal, where a quote opens one. -/
def isFresh : Scan → Bool
  | .bare previous => opens previous
  | _ => false

variable {s : Scan}

theorem isBare_of_isFresh (h : s.isFresh = true) : s.isBare = true := by
  cases s with
  | bare previous => rfl
  | single => exact h
  | double => exact h
  | escaped => exact h

/-- A blank is one of the characters behind which a quote opens a literal. -/
theorem isFresh_of_isAfterBlank (h : s.isAfterBlank = true) : s.isFresh = true := by
  cases s with
  | bare previous =>
    cases previous with
    | none => rfl
    | some c =>
      have hblank : Text.isBlank c = true := h
      simp [isFresh, opens, hblank]
  | single => cases h
  | double => cases h
  | escaped => cases h

theorem isBare_of_isAfterBlank (h : s.isAfterBlank = true) : s.isBare = true :=
  isBare_of_isFresh (isFresh_of_isAfterBlank h)

/-- From a fresh place a scan goes on as from the start. -/
theorem run_of_isFresh (h : s.isFresh = true) {cs : List Char} (hne : cs ≠ []) :
    s.run cs = start.run cs := by
  obtain ⟨c, cs, rfl⟩ := List.exists_cons_of_ne_nil hne
  have hstep : s.step c = start.step c := by
    cases s with
    | bare previous =>
      have hopens : opens previous = true := h
      have hstart : opens none = true := rfl
      simp [step, start, hopens, hstart]
    | single => cases h
    | double => cases h
    | escaped => cases h
  rw [run, run, List.foldl_cons, List.foldl_cons, hstep]

theorem isFresh_step_of_blank (hs : s.isBare = true) {b : Char} (hb : Text.isBlank b = true) :
    (s.step b).isFresh = true := by
  rw [Clause.step_of_blank hs hb]
  simp [isFresh, opens, hb]

/-- Inside a literal between two such marks. -/
def inside : Quote → Scan
  | .single => .single
  | .double => .double

theorem step_quote_of_isFresh (h : s.isFresh = true) (quote : Quote) :
    s.step quote.char = inside quote := by
  cases s with
  | bare previous =>
    have hopens : opens previous = true := h
    cases quote with
    | single => simp [step, hopens, Quote.char, inside]
    | double => simp [step, hopens, Quote.char, inside]
  | single => cases h
  | double => cases h
  | escaped => cases h

theorem step_inside (quote : Quote) : (inside quote).step quote.char = .bare (some quote.char) := by
  cases quote <;> rfl

theorem isFresh_run_of_blanks (hs : s.isFresh = true) {bs : List Char}
    (h : ∀ b ∈ bs, Text.isBlank b = true) : (s.run bs).isFresh = true := by
  induction bs generalizing s with
  | nil => exact hs
  | cons b bs ih =>
    have hstep := isFresh_step_of_blank (isBare_of_isFresh hs) (h b List.mem_cons_self)
    exact ih hstep fun c hc => h c (List.mem_cons_of_mem b hc)

/-- A character that is no quote neither opens nor closes a literal. -/
theorem isBare_step_of_not_quote (s : Scan) {c : Char} (hdouble : c ≠ '"') (hsingle : c ≠ '\'') :
    (s.step c).isBare = s.isBare := by
  cases s with
  | bare previous =>
    rw [Clause.step_of_not_quote rfl hdouble hsingle]
    rfl
  | single => rw [step, if_neg hsingle]
  | double =>
    rw [step, if_neg hdouble]
    split <;> rfl
  | escaped => rfl

theorem isBare_run_of_not_quote (s : Scan) {cs : List Char}
    (h : ∀ c ∈ cs, c ≠ '"' ∧ c ≠ '\'') : (s.run cs).isBare = s.isBare := by
  induction cs generalizing s with
  | nil => rfl
  | cons c cs ih =>
    obtain ⟨hdouble, hsingle⟩ := h c List.mem_cons_self
    rw [← isBare_step_of_not_quote s hdouble hsingle]
    exact ih (s.step c) fun d hd => h d (List.mem_cons_of_mem c hd)

theorem isBare_run_of_blanks (s : Scan) {bs : List Char} (h : ∀ b ∈ bs, Text.isBlank b = true) :
    (s.run bs).isBare = s.isBare := by
  apply isBare_run_of_not_quote
  intro b hb
  exact ⟨Text.ne_of_blank (h b hb) rfl, Text.ne_of_blank (h b hb) rfl⟩

theorem isAfterBlank_run_of_blanks {s : Scan} (hs : s.isAfterBlank = true) {bs : List Char}
    (h : ∀ b ∈ bs, Text.isBlank b = true) : (s.run bs).isAfterBlank = true := by
  induction bs generalizing s with
  | nil => exact hs
  | cons b bs ih =>
    have hb := h b List.mem_cons_self
    have hstep : s.step b = .bare (some b) := Clause.step_of_blank (isBare_of_isAfterBlank hs) hb
    refine ih (s := s.step b) ?_ fun c hc => h c (List.mem_cons_of_mem b hc)
    rw [hstep]
    exact hb

theorem isBlank_of_isAfterBlank_run {s : Scan} {cs : List Char} {c : Char}
    (h : (s.run (cs ++ [c])).isAfterBlank = true) : Text.isBlank c = true := by
  rw [run_append] at h
  exact Clause.isAfterBlank_step h

/-! ## The equals sign of a clause -/

/-- A character that is neither a quote nor an equals sign. -/
def IsPlain (c : Char) : Prop :=
  c ≠ '"' ∧ c ≠ '\'' ∧ c ≠ '='

theorem isBare_run_of_plain (hs : s.isBare = true) {cs : List Char} (h : ∀ c ∈ cs, IsPlain c) :
    (s.run cs).isBare = true := by
  rw [isBare_run_of_not_quote s fun c hc => ⟨(h c hc).1, (h c hc).2.1⟩]
  exact hs

/-- The sign is looked for behind plain characters. -/
theorem splitAtEquals?_append (hs : s.isBare = true) {cs : List Char} (h : ∀ c ∈ cs, IsPlain c)
    (rest : List Char) :
    s.splitAtEquals? (cs ++ rest)
      = ((s.run cs).splitAtEquals? rest).map fun (before, behind) => (cs ++ before, behind) := by
  induction cs generalizing s with
  | nil =>
    show s.splitAtEquals? rest
      = (s.splitAtEquals? rest).map fun (before, behind) => (before, behind)
    cases s.splitAtEquals? rest <;> rfl
  | cons c cs ih =>
    obtain ⟨hdouble, hsingle, hsign⟩ := h c List.mem_cons_self
    have hbare : (s.step c).isBare = true := by
      rw [Clause.step_of_not_quote hs hdouble hsingle]
      rfl
    rw [List.cons_append, splitAtEquals?, if_neg fun hc => hsign hc.2,
      ih hbare fun d hd => h d (List.mem_cons_of_mem c hd), Option.map_map]
    rfl

/-- Behind plain characters the first equals sign is the one that is found, whatever follows it. -/
theorem splitAtEquals?_plain {cs : List Char} (h : ∀ c ∈ cs, IsPlain c) (rest : List Char) :
    start.splitAtEquals? (cs ++ '=' :: rest) = some (cs, rest) := by
  have hbare := isBare_run_of_plain (s := .start) rfl h
  have houtside : (start.run cs).isOutside '=' = true := by
    rw [isOutside, Clause.step_of_not_quote hbare (by decide) (by decide), hbare]
    rfl
  rw [splitAtEquals?_append rfl h, splitAtEquals?, if_pos ⟨houtside, rfl⟩]
  simp

/-- A text with an equals sign is what stands before the first one outside every literal, the sign,
and what follows; and what follows has no part in finding the sign. -/
theorem eq_of_splitAtEquals? {cs key tail : List Char}
    (h : s.splitAtEquals? cs = some (key, tail)) :
    cs = key ++ '=' :: tail ∧ s.run (key ++ ['=']) = .bare (some '=') ∧
      ∀ tail', s.splitAtEquals? (key ++ '=' :: tail') = some (key, tail') := by
  induction cs generalizing s key with
  | nil => cases h
  | cons c cs ih =>
    rw [splitAtEquals?] at h
    split at h
    · next hsign =>
      obtain ⟨houtside, rfl⟩ := hsign
      obtain ⟨rfl, rfl⟩ := Prod.mk.inj (Option.some.inj h)
      refine ⟨rfl, ?_, ?_⟩
      · exact Clause.step_of_not_quote (Bool.and_eq_true_iff.mp houtside).1 (by decide) (by decide)
      · intro tail'
        rw [List.nil_append, splitAtEquals?, if_pos ⟨houtside, rfl⟩]
    · next hsign =>
      obtain ⟨⟨key', tail'⟩, hsplit, heq⟩ := Option.map_eq_some_iff.mp h
      obtain ⟨rfl, rfl⟩ := Prod.mk.inj heq
      obtain ⟨rfl, hrun, hfind⟩ := ih hsplit
      refine ⟨rfl, hrun, ?_⟩
      intro tail''
      rw [List.cons_append, splitAtEquals?, if_neg hsign, hfind]
      rfl

end Scan

namespace Clause

/-! ## The head of a clause -/

theorem isPlain_of_isKeyChar {c : Char} (h : isKeyChar c = true) : Scan.IsPlain c :=
  ⟨ne_of_isKeyChar h rfl, ne_of_isKeyChar h rfl, ne_of_isKeyChar h rfl⟩

theorem isPlain_of_isBlank {c : Char} (h : Text.isBlank c = true) : Scan.IsPlain c :=
  ⟨Text.ne_of_blank h rfl, Text.ne_of_blank h rfl, Text.ne_of_blank h rfl⟩

namespace Head

variable (head : Head)

theorem isPlain_key_before : ∀ c ∈ head.key ++ head.before, Scan.IsPlain c := by
  intro c hc
  rcases List.mem_append.mp hc with hc | hc
  · exact isPlain_of_isKeyChar (head.isKeyChar_key c hc)
  · exact isPlain_of_isBlank (head.isBlank_before c hc)

theorem text_append (rest : List Char) :
    head.text ++ rest = head.key ++ head.before ++ '=' :: (head.behind ++ rest) := by
  simp [text]

/-- The sign of a head is the first one, whatever follows. -/
theorem splitAtEquals?_text (rest : List Char) :
    Scan.start.splitAtEquals? (head.text ++ rest)
      = some (head.key ++ head.before, head.behind ++ rest) := by
  rw [text_append, Scan.splitAtEquals?_plain head.isPlain_key_before]

/-- Where the literal begins, a quote opens it. -/
theorem isFresh_run_text : (Scan.start.run head.text).isFresh = true := by
  have hbare := Scan.isBare_run_of_plain (s := .start) rfl head.isPlain_key_before
  have hsign : (Scan.start.run (head.key ++ head.before)).step '=' = .bare (some '=') :=
    step_of_not_quote hbare (by decide) (by decide)
  have htext := head.text_append []
  rw [List.append_nil, List.append_nil] at htext
  rw [htext, Scan.run_append, Scan.run, List.foldl_cons, hsign]
  exact Scan.isFresh_run_of_blanks rfl head.isBlank_behind

/-- No conjunction begins in a head. -/
theorem pieces_text_append (rest : List Char) :
    pieces .start (head.text ++ rest)
      = (head.text ++ (pieces (Scan.start.run head.text) rest).1,
        (pieces (Scan.start.run head.text) rest).2) := by
  have hkey : ∀ c ∈ head.key, Text.isBlank c = false := fun c hc =>
    not_blank_of_isKeyChar (head.isKeyChar_key c hc)
  have hsign : ∀ c ∈ head.before ++ '=' :: head.behind, c.toLower ≠ 'a' := by
    intro c hc
    rcases List.mem_append.mp hc with hc | hc
    · exact toLower_ne_of_blank (head.isBlank_before c hc)
    · rcases List.mem_cons.mp hc with rfl | hc
      · decide
      · exact toLower_ne_of_blank (head.isBlank_behind c hc)
  rw [text, List.append_assoc, pieces_append_of_no_blank rfl hkey,
    pieces_append_of_no_first_letter _ hsign, ← Scan.run_append]
  simp

theorem solid_key : Text.Solid head.key :=
  Text.solid_of_no_blank head.key_ne_nil fun c hc =>
    not_blank_of_isKeyChar (head.isKeyChar_key c hc)

theorem trim_key_before : Text.trim (head.key ++ head.before) = head.key := by
  have hkey := head.solid_key
  rw [Text.trim, hkey.trimStart_append, Text.trimEnd_append_blanks _ head.isBlank_before]
  simpa using hkey.trimEnd_append []

end Head

/-! ## Literals -/

/-- A body leaves the scan inside its literal. -/
theorem run_encloses {quote : Quote} {body : List Char} (h : quote.Encloses body) :
    (Scan.inside quote).run body = Scan.inside quote := by
  cases quote with
  | single =>
    have hbody : '\'' ∉ body := h
    clear h
    induction body with
    | nil => rfl
    | cons c cs ih =>
      rw [List.mem_cons, not_or] at hbody
      have hstep : Scan.single.step c = .single := by
        rw [Scan.step, if_neg fun hc => hbody.1 hc.symm]
      show (Scan.single.step c).run cs = .single
      rw [hstep]
      exact ih hbody.2
  | double =>
    have hbody : Quote.Escaped body := h
    clear h
    induction hbody with
    | nil => rfl
    | @plain c cs hquote hslash _ ih =>
      have hstep : Scan.double.step c = .double := by
        rw [Scan.step, if_neg hquote, if_neg hslash]
      show (Scan.double.step c).run cs = .double
      rw [hstep]
      exact ih
    | pair c _ ih => exact ih

/-- No conjunction begins in a body. -/
theorem pieces_encloses {quote : Quote} {body : List Char} (h : quote.Encloses body)
    (rest : List Char) :
    pieces (Scan.inside quote) (body ++ quote.char :: rest)
      = (body ++ quote.char :: (pieces (.bare (some quote.char)) rest).1,
        (pieces (.bare (some quote.char)) rest).2) := by
  have next (s : Scan) (hs : s.isAfterBlank = false) (c : Char) (cs : List Char) :
      pieces s (c :: cs) = (c :: (pieces (s.step c) cs).1, (pieces (s.step c) cs).2) :=
    pieces_of_not_starts (startsConjunction_of_not_afterBlank hs _)
  cases quote with
  | single =>
    have hbody : '\'' ∉ body := h
    clear h
    induction body with
    | nil => exact next .single rfl '\'' rest
    | cons c cs ih =>
      rw [List.mem_cons, not_or] at hbody
      have hstep : Scan.single.step c = .single := by
        rw [Scan.step, if_neg fun hc => hbody.1 hc.symm]
      show pieces .single (c :: (cs ++ '\'' :: rest)) = _
      rw [next .single rfl, hstep]
      exact congrArg (fun p => (c :: p.1, p.2)) (ih hbody.2)
  | double =>
    have hbody : Quote.Escaped body := h
    clear h
    induction hbody with
    | nil => exact next .double rfl '"' rest
    | @plain c cs hquote hslash _ ih =>
      have hstep : Scan.double.step c = .double := by
        rw [Scan.step, if_neg hquote, if_neg hslash]
      show pieces .double (c :: (cs ++ '"' :: rest)) = _
      rw [next .double rfl, hstep]
      exact congrArg (fun p => (c :: p.1, p.2)) ih
    | @pair c cs _ ih =>
      show pieces .double ('\\' :: c :: (cs ++ '"' :: rest)) = _
      rw [next .double rfl, show Scan.double.step '\\' = .escaped from rfl, next .escaped rfl,
        show Scan.escaped.step c = .double from rfl]
      exact congrArg (fun p => ('\\' :: c :: p.1, p.2)) ih

section Literal

variable {s : Scan} {text : List Char} {literal : Literal}

/-- A quoted literal goes to the piece that stands before it. -/
theorem pieces_quoted (hs : s.isFresh = true) {quote : Quote} {body : List Char}
    (h : quote.Encloses body) (rest : List Char) :
    pieces s (quote.char :: (body ++ quote.char :: rest))
      = (quote.char :: (body ++ quote.char :: (pieces (.bare (some quote.char)) rest).1),
        (pieces (.bare (some quote.char)) rest).2) := by
  have hmark : quote.char.toLower ≠ 'a' := by cases quote <;> decide
  have hfirst : startsConjunction s (quote.char :: (body ++ quote.char :: rest)) = false := by
    rw [startsConjunction_eq, beginsWithConjunction_cons hmark, Bool.and_false]
  rw [pieces_of_not_starts hfirst, Scan.step_quote_of_isFresh hs, pieces_encloses h]

/-- No conjunction begins in a literal. -/
theorem pieces_spelled (hs : s.isFresh = true) (h : Spells text literal) :
    pieces s text = (text, []) := by
  cases h with
  | quoted hencloses _ => exact pieces_quoted hs hencloses []
  | bare _ hword => exact pieces_of_no_blank hword

/-- So a clause alone is all there is to split. -/
theorem pieces_clause (head : Head) (h : Spells text literal) :
    pieces .start (head.text ++ text) = (head.text ++ text, []) := by
  rw [head.pieces_text_append, pieces_spelled head.isFresh_run_text h]

theorem split_clause (head : Head) (h : Spells text literal) :
    split (head.text ++ text) = [head.text ++ text] := by
  have hsolid : Text.Solid (head.text ++ text) := head.solid_key.append _ h.solid
  have hblank := hsolid.not_all_blank []
  rw [List.append_nil] at hblank
  rw [split, hblank, segments, pieces_clause head h]
  simp [hsolid.trim_eq]

/-- Outside every literal, a word in which no quote stands behind an equals sign opens none. -/
theorem isBare_run_of_no_opening {p : Char} {cs : List Char} (hp : Text.isBlank p = false)
    (hword : ∀ c ∈ cs, Text.isBlank c = false)
    (h : ∀ quote : Quote, ¬ ['=', quote.char] <:+: p :: cs) :
    (Scan.run (.bare (some p)) cs).isBare = true := by
  induction cs generalizing p with
  | nil => rfl
  | cons c cs ih =>
    have hopens (quote : Quote) : ¬ (Scan.opens (some p) = true ∧ c = quote.char) := by
      rintro ⟨hp', rfl⟩
      have hsign : p = '=' := by simpa [Scan.opens, hp] using hp'
      exact h quote ⟨[], cs, by simp [hsign]⟩
    have hstep : Scan.step (.bare (some p)) c = .bare (some c) :=
      (if_neg (hopens .double)).trans (if_neg (hopens .single))
    show ((Scan.step (.bare (some p)) c).run cs).isBare = true
    rw [hstep]
    apply ih (hword c List.mem_cons_self) fun d hd => hword d (List.mem_cons_of_mem c hd)
    intro quote hpart
    exact h quote (hpart.trans (List.suffix_cons p (c :: cs)).isInfix)

/-- Behind a literal the scan is outside every literal, unless the literal is a bare one in which a
quote stands behind an equals sign. -/
theorem isBare_run_spelled (hs : s.isFresh = true) (h : Spells text literal)
    (hopen : ∀ value, literal = .bare value →
      ∀ quote : Quote, ¬ ['=', quote.char] <:+: value) :
    (s.run text).isBare = true := by
  cases h with
  | @quoted quote body hencloses _ =>
    show ((s.step quote.char).run (body ++ [quote.char])).isBare = true
    rw [Scan.step_quote_of_isFresh hs, Scan.run_append, run_encloses hencloses]
    show ((Scan.inside quote).step quote.char).isBare = true
    rw [Scan.step_inside]
    rfl
  | @bare c cs hquote hword =>
    have hstep : s.step c = .bare (some c) := by
      apply step_of_not_quote (Scan.isBare_of_isFresh hs)
      · rintro rfl
        cases hquote
      · rintro rfl
        cases hquote
    show ((s.step c).run cs).isBare = true
    rw [hstep]
    exact isBare_run_of_no_opening (hword c List.mem_cons_self)
      (fun d hd => hword d (List.mem_cons_of_mem c hd)) (hopen _ rfl)

end Literal

end Clause

end QueryPanel
