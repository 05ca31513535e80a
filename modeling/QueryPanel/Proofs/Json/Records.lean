import Mathlib.Data.List.Nodup
import QueryPanel.Json.Record
import QueryPanel.Proofs.Json.Documents

/-!
# A written record is read back

A record is read by looking its members up, so what is read depends on no more than what is found
under each name (`Holds`). A record that is written without its absent members holds them all, the
absent ones too: nothing is found under their names. And it still holds them after some members have
been written over with the values they have (`Holds.overwritten`), although they then stand in
another order.

What is found is read by the rule for that member. `optional_map` says what it takes for the two to
fit where a member may be left out: no value may be written as `null`, which is read as no value.
-/

namespace QueryPanel.Json

/-! ## Looking members up -/

theorem lookup_of_mem {α : Type} {ms : List (String × α)} (hnodup : (ms.map Prod.fst).Nodup)
    {m : String × α} (h : m ∈ ms) : ms.lookup m.1 = some m.2 := by
  induction ms with
  | nil => cases h
  | cons k ms ih =>
    rw [List.map_cons, List.nodup_cons] at hnodup
    rcases List.mem_cons.mp h with rfl | h
    · exact List.lookup_cons_self
    · have hne : (m.1 == k.1) = false := by
        rw [beq_eq_false_iff_ne]
        rintro heq
        exact hnodup.1 (heq ▸ List.mem_map_of_mem h)
      rw [List.lookup_cons, hne]
      exact ih hnodup.2 h

/-- Taking away members of other names does not matter to a name. -/
theorem lookup_filter {α : Type} {p : String × α → Bool} {name : String} {ms : List (String × α)}
    (h : ∀ m ∈ ms, m.1 = name → p m = true) : (ms.filter p).lookup name = ms.lookup name := by
  induction ms with
  | nil => rfl
  | cons m ms ih =>
    rw [List.forall_mem_cons] at h
    have hrest := ih h.2
    cases hkeep : p m with
    | true => rw [List.filter_cons_of_pos hkeep, List.lookup_cons, List.lookup_cons, hrest]
    | false =>
      have hne : (name == m.1) = false := by
        rw [beq_eq_false_iff_ne]
        rintro rfl
        rw [h.1 rfl] at hkeep
        cases hkeep
      rw [List.filter_cons_of_neg (by rw [hkeep]; decide), List.lookup_cons, hne, hrest]

/-- An object in which no name stands twice and each of the members is found, or is not found if it
has no value. -/
structure Holds (ms : List (String × Json)) (members : List (String × Option Json)) : Prop where
  nodup : (ms.map Prod.fst).Nodup
  lookup_eq : ∀ m ∈ members, ms.lookup m.1 = m.2

/-- What a record is written as. -/
def present (members : List (String × Option Json)) : List (String × Json) :=
  members.filterMap fun m => m.2.map (m.1, ·)

theorem mem_present {members : List (String × Option Json)} {m : String × Json} :
    m ∈ present members ↔ (m.1, some m.2) ∈ members := by
  rw [present, List.mem_filterMap]
  constructor
  · rintro ⟨⟨name, value⟩, hmem, hvalue⟩
    obtain ⟨v, rfl, rfl⟩ := Option.map_eq_some_iff.mp hvalue
    exact hmem
  · exact fun h => ⟨_, h, rfl⟩

theorem map_fst_present_sublist (members : List (String × Option Json)) :
    ((present members).map Prod.fst).Sublist (members.map Prod.fst) := by
  induction members with
  | nil => exact .slnil
  | cons m ms ih =>
    obtain ⟨name, value⟩ := m
    cases value with
    | none => exact ih.cons name
    | some v => exact ih.cons_cons name

/-- A record holds its members as it is written. -/
theorem holds_present {members : List (String × Option Json)}
    (hnodup : (members.map Prod.fst).Nodup) : Holds (present members) members := by
  have hpresent := (map_fst_present_sublist members).nodup hnodup
  refine ⟨hpresent, ?_⟩
  rintro ⟨name, value⟩ hmem
  cases value with
  | some v =>
    have hfound : (name, v) ∈ present members := mem_present.mpr hmem
    exact lookup_of_mem hpresent hfound
  | none =>
    rw [List.lookup_eq_none_iff]
    rintro ⟨name', v⟩ hfound
    rw [bne_iff_ne]
    rintro rfl
    -- The name stands only once, so it cannot have a value as well.
    have hsame := List.inj_on_of_nodup_map hnodup hmem (mem_present.mp hfound) rfl
    cases (Prod.mk.inj hsame).2

namespace Holds

variable {ms cs : List (String × Json)} {members : List (String × Option Json)}

/-- A record that knows some names looks the members up. -/
theorem members?_eq (h : Holds ms members) (names : List String) :
    (Json.object ms).members? names = some fun n => ms.lookup n := by
  have hunique : (names.all fun n => ms.countP (·.1 == n) ≤ 1) = true := by
    rw [List.all_eq_true]
    intro name _
    rw [decide_eq_true_eq]
    have hcount := List.nodup_iff_count_le_one.mp h.nodup name
    rwa [List.count, List.countP_map] at hcount
  rw [members?, if_pos hunique]

/-- Members written over with the values they have are held as before. -/
theorem overwritten (h : Holds ms members) (hnodup : (cs.map Prod.fst).Nodup) (hcs : cs ⊆ ms) :
    Holds (cs ++ ms.filter fun m => !cs.any fun c => c.1 == m.1) members := by
  have hkept : ∀ name, (!cs.any fun c => c.1 == name) = true ↔ ∀ c ∈ cs, c.1 ≠ name := by
    simp
  refine ⟨?_, fun m hm => ?_⟩
  · rw [List.map_append, List.nodup_append]
    refine ⟨hnodup, (List.filter_sublist.map _).nodup h.nodup, ?_⟩
    intro name hchanged name' hrest heq
    obtain ⟨c, hc, rfl⟩ := List.mem_map.mp hchanged
    obtain ⟨m, hm, rfl⟩ := List.mem_map.mp hrest
    exact (hkept m.1).mp (List.mem_filter.mp hm).2 c hc heq
  · rw [← h.lookup_eq m hm, List.lookup_append]
    by_cases hchanged : ∃ c ∈ cs, c.1 = m.1
    · obtain ⟨c, hc, hname⟩ := hchanged
      rw [← hname, lookup_of_mem hnodup hc, lookup_of_mem h.nodup (hcs hc), Option.some_or]
    · have hothers : ∀ c ∈ cs, c.1 ≠ m.1 := fun c hc hname => hchanged ⟨c, hc, hname⟩
      have hnone : cs.lookup m.1 = none :=
        List.lookup_eq_none_iff.mpr fun c hc => bne_iff_ne.mpr (hothers c hc).symm
      rw [hnone, Option.none_or]
      refine lookup_filter fun k _ hname => ?_
      rw [hkept, hname]
      exact hothers

end Holds

/-! ## Reading what is found -/

/-- A member that may be absent, if no value is written as `null`. -/
theorem optional_map {α : Type} {read : Json → Option α} {write : α → Json} {value : Option α}
    (hread : ∀ x ∈ value, read (write x) = some x) (hnull : ∀ x, write x ≠ .null) :
    optional read (value.map write) = some value := by
  cases value with
  | none => rfl
  | some x =>
    rw [Option.map_some, optional]
    · rw [hread x rfl]
      rfl
    · exact hnull x

theorem optional_string (value : Option String) :
    optional asString? (value.map .string) = some value :=
  optional_map (fun _ _ => rfl) nofun

theorem optional_bool (value : Option Bool) : optional asBool? (value.map .bool) = some value :=
  optional_map (fun _ _ => rfl) nofun

theorem optional_nat {bound : Nat} {value : Option Nat} (h : ∀ n ∈ value, n < bound) :
    optional (asNatBelow? bound) (value.map .nat) = some value := by
  refine optional_map (fun n hn => ?_) nofun
  have hrange : 0 ≤ (n : Int) ∧ (n : Int) < bound :=
    ⟨Int.natCast_nonneg n, Int.ofNat_lt.mpr (h n hn)⟩
  rw [nat, asNatBelow?, if_pos hrange, Int.toNat_natCast]

/-! ## Records as documents -/

theorem faithful_map {α : Type} {write : α → Json} {value : Option α}
    (h : ∀ x ∈ value, Faithful (write x)) : ∀ v ∈ value.map write, Faithful v := by
  intro v hv
  obtain ⟨x, hx, rfl⟩ := Option.map_eq_some_iff.mp hv
  exact h x hx

theorem faithful_map_string (value : Option String) : ∀ v ∈ value.map string, Faithful v :=
  faithful_map fun s _ => .string s

theorem faithful_some {v : Json} (h : Faithful v) : ∀ w ∈ some v, Faithful w := by
  rintro w ⟨⟩
  exact h

theorem faithful_record {members : List (String × Option Json)}
    (h : ∀ m ∈ members, ∀ v ∈ m.2, Faithful v) : Faithful (.record members) :=
  .object fun _ hm => h _ (mem_present.mp hm) _ rfl

/-- A value is read as `x`, from the tree and from either text of it. -/
structure ReadsBack {α : Type} (read : Json → Option α) (v : Json) (x : α) : Prop where
  tree : read v = some x
  compact : (ofText? v.compact).bind read = some x
  pretty : (ofText? v.pretty).bind read = some x

/-- What can be had back from its text is read from the text as from the tree. -/
theorem Faithful.readsBack {α : Type} {read : Json → Option α} {v : Json} {x : α} (h : Faithful v)
    (hread : read v = some x) : ReadsBack read v x where
  tree := hread
  compact := by rw [ofText?_compact h, Option.bind_some, hread]
  pretty := by rw [ofText?_pretty h, Option.bind_some, hread]

end QueryPanel.Json
