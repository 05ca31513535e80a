import QueryPanel.Draft.Json
import QueryPanel.Proofs.Filter.Document

/-!
# Drafts are read back from documents

The members of a draft follow four rules for what is not there. Source and aggregation have to be
there; a text, a switch or a direction that is left out has its default, and so do all the add-ons;
an identifier that is left out is not there; the other members have no value then, and are left out
exactly when they have none. Whatever has a default is always written, so a default is never filled
in for something else. What is written is read: an identifier from its hyphenated form
(`Uuid.ofText?_toText`), a limit while it is a word of thirty-two bits.

> `written_readsBack`: a draft, and a filter bag with finite durations, is read back from the tree
> that it is written as and from either text of that tree. Members of a draft that are replaced by
> what they are leave it as it is, one member or many.
-/

namespace QueryPanel

/-! ## Identifiers -/

namespace Uuid

theorem unhyphenated?_cons {cs rest : List Char} {n : Nat} (h : cs.drop n = '-' :: rest) (m : Nat)
    (ns : List Nat) : unhyphenated? cs (n :: m :: ns)
      = (unhyphenated? rest (m :: ns)).map (cs.take n ++ ·) := by
  rw [unhyphenated?, h]
  · rfl
  · exact nofun

/-- A text cut into groups that are all there is put together again without its hyphens. -/
theorem unhyphenated?_hyphenated {cs : List Char} {ns : List Nat} (h : ns.sum ≤ cs.length) :
    unhyphenated? (hyphenated cs ns) ns = some cs := by
  induction ns generalizing cs with
  | nil => rfl
  | cons n ns ih =>
    cases ns with
    | nil => rfl
    | cons m ns =>
      rw [List.sum_cons] at h
      have hlength : (cs.take n).length = n := by
        rw [List.length_take]
        omega
      have hrest : unhyphenated? (hyphenated (cs.drop n) (m :: ns)) (m :: ns) = some (cs.drop n) :=
        ih (by rw [List.length_drop]; omega)
      show unhyphenated? (cs.take n ++ '-' :: hyphenated (cs.drop n) (m :: ns)) (n :: m :: ns) = _
      rw [unhyphenated?_cons (List.drop_left' hlength), hrest, List.take_left' hlength,
        Option.map_some, List.take_append_drop]

/-- The digits of an identifier, each as a character. -/
def written (u : Uuid) : List Char :=
  u.digits.map Hex.char

theorem ofDigits?_written (u : Uuid) : ofDigits? u.written = some u := by
  have hdigits : u.written.mapM Hex.digit? = some u.digits := by
    have hread : (Hex.digit? ∘ Hex.char) = fun d => pure (id d) := funext Hex.digit?_char
    rw [written, List.mapM_map, hread, List.mapM_pure, List.map_id]
    rfl
  rw [ofDigits?, hdigits, Option.bind_some, dif_pos u.length_eq]

/-- A hyphen is no digit. -/
theorem ofDigits?_hyphen (cs ds : List Char) : ofDigits? (cs ++ '-' :: ds) = none := by
  have hdigits : (cs ++ '-' :: ds).mapM Hex.digit? = none := by
    rw [List.mapM_append, List.mapM_cons, show Hex.digit? '-' = none from rfl]
    cases cs.mapM Hex.digit? <;> rfl
  rw [ofDigits?, hdigits]
  rfl

/-- What begins with a digit has neither a brace nor a head around it. -/
theorem unwrapped_of_digit (d : Fin 16) (cs : List Char) :
    unwrapped (Hex.char d :: cs) = Hex.char d :: cs := by
  have hdigit : Hex.char d ≠ '\x7b' ∧ (Hex.char d).toLower ≠ 'u' := by
    revert d
    decide
  have hhead : Text.eqIgnoreCase ((Hex.char d :: cs).splitAt resourceHead.length).1 resourceHead
      = false := by
    rw [Text.eqIgnoreCase, beq_eq_false_iff_ne, List.splitAt_eq]
    intro heq
    have heq : (Hex.char d).toLower :: _ = 'u' :: _ := heq
    exact hdigit.2 (List.cons.inj heq).1
  unfold unwrapped
  split
  · next heq => exact absurd (List.cons.inj heq).1 hdigit.1
  · dsimp only
    rw [hhead]
    rfl

/-- An identifier is read from its written form. -/
theorem ofText?_toText (u : Uuid) : ofText? u.toText = some u := by
  have hlength : u.written.length = 32 := (List.length_map _).trans u.length_eq
  have hhyphen : hyphenated u.written groups
      = u.written.take 8 ++ '-' :: hyphenated (u.written.drop 8) [4, 4, 4, 12] := rfl
  have hwrapped : unwrapped (hyphenated u.written groups) = hyphenated u.written groups := by
    have hpos : 0 < u.digits.length := by
      rw [u.length_eq]
      decide
    obtain ⟨d, ds, hds⟩ := List.exists_cons_of_length_pos hpos
    rw [hhyphen, written, hds]
    exact unwrapped_of_digit d _
  rw [ofText?, toText, String.toList_ofList]
  show (ofDigits? (hyphenated u.written groups)).or
    (ofHyphenated? (unwrapped (hyphenated u.written groups))) = some u
  rw [hwrapped, hhyphen, ofDigits?_hyphen, Option.none_or,
    ← hhyphen, ofHyphenated?, unhyphenated?_hyphenated (by rw [hlength]; decide), Option.bind_some,
    ofDigits?_written]

end Uuid

/-! ## Drafts -/

namespace AddOns

theorem ofJson?_toJson (a : AddOns) : ofJson? a.toJson = some a := by
  rfl

theorem faithful_toJson (a : AddOns) : Json.Faithful a.toJson :=
  .object (by
    simp only [List.forall_mem_cons]
    exact ⟨.bool _, .bool _, .bool _, .bool _, .bool _, nofun⟩)

end AddOns

namespace Draft

/-- The limit of a draft, if there is one, is a word of thirty-two bits. -/
def LimitFits (d : Draft) : Prop :=
  ∀ n ∈ d.limit, n < Word.size32

variable {d : Draft}

theorem nodup_members (d : Draft) : (d.members.map Prod.fst).Nodup := by
  have hnames : d.members.map Prod.fst = memberNames := rfl
  rw [hnames]
  decide

/-- A draft is read back wherever its members are found. -/
theorem ofJson?_of_holds (hlimit : d.LimitFits) {ms : List (String × Json)}
    (h : Json.Holds ms d.members) : Draft.ofJson? (.object ms) = some d := by
  have hid : Json.withDefault none (fun v => (idOfJson? v).map some)
      (d.id.map fun u => .string u.toText) = some d.id := by
    cases d.id with
    | none => rfl
    | some u => exact congrArg (Option.map some) u.ofText?_toText
  have hsource : Json.required (Json.asChoice? Source.names) (some (.string d.source.name))
      = some d.source := by
    cases d.source <;> rfl
  have hdirection : Json.withDefault .descending (Json.asChoice? OrderDirection.names)
      (some (.string d.orderDirection.name)) = some d.orderDirection := by
    cases d.orderDirection <;> rfl
  have haddOns : Json.withDefault {} AddOns.ofJson? (some d.addOns.toJson) = some d.addOns :=
    d.addOns.ofJson?_toJson
  have hrows : Json.optional Json.asWord32? (d.limit.map .nat) = some d.limit :=
    Json.optional_nat hlimit
  have hmembers := h.lookup_eq
  simp only [members, List.forall_mem_cons] at hmembers
  rw [ofJson?, h.members?_eq, Option.bind_eq_bind, Option.bind_some]
  -- What is found under each name is what was written there, and is read by the rule of the member.
  simp only [hmembers, hid, hsource, hdirection, haddOns, hrows, Json.optional_string,
    Option.bind_eq_bind, Option.bind_some]
  rfl

/-- A draft is read back from the record it is written as. -/
theorem ofJson?_toJson (hlimit : d.LimitFits) : ofJson? d.toJson = some d :=
  ofJson?_of_holds hlimit (Json.holds_present d.nodup_members)

/-- Members replaced by what they are leave the draft as it is. -/
theorem setMembers?_eq (hlimit : d.LimitFits) {ms cs : List (String × Json)}
    (hms : d.toJson = .object ms) (hcs : cs ⊆ ms) (hnodup : (cs.map Prod.fst).Nodup) :
    d.setMembers? (.object cs) = some d := by
  have hms : Json.present d.members = ms := Json.object.inj hms
  have hholds := Json.holds_present d.nodup_members
  rw [hms] at hholds
  show ofJson? ((Json.object (Json.present d.members)).overwrittenBy (.object cs)) = some d
  rw [hms]
  exact ofJson?_of_holds hlimit (hholds.overwritten hnodup hcs)

theorem faithful_toJson (hlimit : d.LimitFits) : Json.Faithful d.toJson := by
  have hstring := Json.faithful_map_string
  have hpresent (s : String) : ∀ v ∈ some (Json.string s), Json.Faithful v :=
    Json.faithful_some (.string s)
  have hrows : ∀ v ∈ d.limit.map Json.nat, Json.Faithful v := by
    refine Json.faithful_map fun n hn => .integer ?_ ?_
    · exact Int.le_trans (by decide) (Int.natCast_nonneg n)
    · exact Int.ofNat_lt.mpr (Nat.lt_trans (hlimit n hn) (by decide))
  refine Json.faithful_record ?_
  simp only [members, List.forall_mem_cons]
  exact ⟨Json.faithful_map fun _ _ => .string _, hpresent _, hpresent _, hstring _, hpresent _,
    hpresent _, hpresent _, hstring _, hstring _, hstring _,
    Json.faithful_some d.addOns.faithful_toJson, hstring _, hstring _, hpresent _, hrows, hstring _,
    Json.faithful_some (.bool _), nofun⟩

end Draft

/-- What a draft or a filter bag is written as is read as that draft or filter bag. -/
theorem written_readsBack :
    (∀ d : Draft, d.LimitFits →
      Json.ReadsBack Draft.ofJson? d.toJson d ∧
        ∀ ms cs, d.toJson = .object ms → cs ⊆ ms → (cs.map Prod.fst).Nodup →
          d.setMembers? (.object cs) = some d) ∧
      ∀ bag : FilterBag, bag.fields.Finite → Json.ReadsBack FilterBag.ofJson? bag.toJson bag := by
  refine ⟨fun d hlimit => ⟨?_, fun ms cs => Draft.setMembers?_eq hlimit⟩, fun bag hfinite => ?_⟩
  · exact (Draft.faithful_toJson hlimit).readsBack (Draft.ofJson?_toJson hlimit)
  · exact (FilterBag.faithful_toJson hfinite).readsBack (FilterBag.ofJson?_toJson hfinite)

/-- A draft with an identifier, texts that are escaped, empty texts and the greatest limit. -/
def Draft.crowded : Draft where
  id := some ⟨List.replicate 32 (Hex.last 10), List.length_replicate⟩
  name := "say \"hi\""
  source := .metrics
  whereText := "service.name = \"a\\b\""
  aggregation := ""
  step := ""
  metricName := some "größe"
  addOns := { having := true, limit := true }
  orderBy := some "\n"
  orderDirection := .ascending
  limit := some 0xFFFFFFFF
  enabled := false

/-- A bag with a tenth of a millisecond, minus zero and an attribute without a name. -/
def FilterBag.crowded : FilterBag where
  fields :=
    { hasError := some false
      minDuration := some (Double.ofCode false 0x3FB999999999999A)
      maxDuration := some (Double.ofCode true 0)
      attr := some ⟨"", "null"⟩ }
  search := some ""

/-- A draft with its limit and its add-ons written over with what they are, and a bag. -/
theorem crowded_readsBack :
    Draft.crowded.LimitFits ∧ Json.ReadsBack Draft.ofJson? Draft.crowded.toJson Draft.crowded ∧
      Draft.crowded.setMembers? (.object [("limit", .integer 0xFFFFFFFF),
        ("addOns", Draft.crowded.addOns.toJson)]) = some Draft.crowded ∧
      FilterBag.crowded.fields.Finite ∧
      Json.ReadsBack FilterBag.ofJson? FilterBag.crowded.toJson FilterBag.crowded := by
  have hlimit : Draft.crowded.LimitFits := by
    rintro n ⟨⟩
    decide
  have hfinite : FilterBag.crowded.fields.Finite := by
    constructor <;> rintro d ⟨⟩ <;> decide
  have hchanges : [("limit", Json.integer 0xFFFFFFFF), ("addOns", Draft.crowded.addOns.toJson)]
      ⊆ Json.present Draft.crowded.members := by
    intro c hc
    rw [Json.mem_present]
    rcases List.mem_cons.mp hc with rfl | hc
    · simp [Draft.members, Draft.crowded, Json.nat]
    · rw [List.mem_singleton.mp hc]
      simp [Draft.members]
  obtain ⟨hread, hset⟩ := written_readsBack.1 Draft.crowded hlimit
  exact ⟨hlimit, hread, hset _ _ rfl hchanges (by decide), hfinite,
    written_readsBack.2 FilterBag.crowded hfinite⟩

end QueryPanel
