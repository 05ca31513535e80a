import Mathlib
import QueryPanel.Query.Question

/-!
# Lists of checks

A builder asks one thing after the other and stops at the first one that is wrong. Seen from outside
it is a list of checks, each with the error that is reported if it fails: all of them pass exactly
if there is a value, and otherwise the error is that of the first one that fails. `Decides` says so
of a list and a result, and it goes along with the builder: the checks of a step come before those
of the steps behind it (`Decides.bind`), which need to be right only for the values that the step
can leave.
-/

namespace QueryPanel

/-! ## Steps that can fail -/

section

variable {ε δ α β : Type}

theorem bind_eq_ok {x : Except ε α} {f : α → Except ε β} {b : β}
    (h : (x >>= f) = .ok b) : ∃ a, x = .ok a ∧ f a = .ok b := by
  cases x with
  | error e => exact nomatch h
  | ok a => exact ⟨a, rfl, h⟩

theorem bind_eq_error {x : Except ε α} {f : α → Except ε β} {e : ε}
    (h : (x >>= f) = .error e) : x = .error e ∨ ∃ a, x = .ok a ∧ f a = .error e := by
  cases x with
  | error e' => exact .inl (congrArg Except.error (Except.error.inj h))
  | ok a => exact .inr ⟨a, rfl, h⟩

theorem map_eq_ok {x : Except ε α} {f : α → β} {b : β} (h : x.map f = .ok b) :
    ∃ a, x = .ok a ∧ f a = b := by
  cases x with
  | error e => exact nomatch h
  | ok a => exact ⟨a, rfl, Except.ok.inj h⟩

theorem mapError_eq_ok {x : Except ε α} {f : ε → δ} {a : α} (h : x.mapError f = .ok a) :
    x = .ok a := by
  cases x with
  | error e => exact nomatch h
  | ok a' => exact congrArg Except.ok (Except.ok.inj h)

theorem mapError_eq_error {x : Except ε α} {f : ε → δ} {d : δ} (h : x.mapError f = .error d) :
    ∃ e, x = .error e ∧ f e = d := by
  cases x with
  | error e => exact ⟨e, rfl, Except.error.inj h⟩
  | ok a => exact nomatch h

end

/-! ## Checks -/

/-- A check of a question, and the error that is reported if it fails. -/
structure Check where
  passes : Bool
  error : BuildError

namespace Check

/-- The error of the first check that fails. -/
def firstError? (checks : List Check) : Option BuildError :=
  (checks.find? fun c => !c.passes).map (·.error)

variable {cs ds : List Check} {e : BuildError}

theorem firstError?_append (cs ds : List Check) :
    firstError? (cs ++ ds) = (firstError? cs).or (firstError? ds) := by
  unfold firstError?
  rw [List.find?_append]
  cases cs.find? fun c => !c.passes <;> rfl

theorem firstError?_eq_none_iff : firstError? cs = none ↔ ∀ c ∈ cs, c.passes = true := by
  unfold firstError?
  rw [Option.map_eq_none_iff, List.find?_eq_none]
  simp only [Bool.not_eq_true', Bool.not_eq_false]

/-- The first error is that of a check that fails. -/
theorem exists_of_firstError? (h : firstError? cs = some e) :
    ∃ c ∈ cs, c.passes = false ∧ c.error = e := by
  obtain ⟨c, hfound, he⟩ := Option.map_eq_some_iff.mp h
  have hfails := List.find?_some hfound
  exact ⟨c, List.mem_of_find?_eq_some hfound, by simpa using hfails, he⟩

end Check

/-! ## Results that are decided by checks -/

/-- A result is the one that some checks leave: a value, of which `good` holds, if all of them pass,
and otherwise the error of the first one that fails. -/
structure Decides {α : Type} (checks : List Check) (good : α → Prop)
    (result : Except BuildError α) : Prop where
  ok_iff : (∃ a, result = .ok a) ↔ ∀ c ∈ checks, c.passes = true
  error_iff : ∀ e, result = .error e ↔ Check.firstError? checks = some e
  good : ∀ a, result = .ok a → good a

namespace Decides

open Check

variable {α β : Type} {cs ds : List Check} {good : α → Prop} {good' : β → Prop}
  {x : Except BuildError α}

theorem of_ok {a : α} (hcs : firstError? cs = none) (ha : good a) : Decides cs good (.ok a) where
  ok_iff := iff_of_true ⟨a, rfl⟩ (firstError?_eq_none_iff.mp hcs)
  error_iff e := by
    rw [hcs]
    exact iff_of_false (fun h => nomatch h) (fun h => nomatch h)
  good b hb := Except.ok.inj hb ▸ ha

theorem of_error {e : BuildError} (hcs : firstError? cs = some e) :
    Decides cs good (.error e : Except BuildError α) where
  ok_iff := by
    refine iff_of_false (fun ⟨_, h⟩ => nomatch h) ?_
    rw [← firstError?_eq_none_iff, hcs]
    exact fun h => nomatch h
  error_iff e' := by
    rw [hcs, Except.error.injEq, Option.some.injEq]
  good _ h := nomatch h

theorem firstError?_of_ok (h : Decides cs good x) {a : α} (hx : x = .ok a) :
    firstError? cs = none :=
  firstError?_eq_none_iff.mpr (h.ok_iff.mp ⟨a, hx⟩)

/-- An error is that of a check that fails. -/
theorem exists_of_error (h : Decides cs good x) {e : BuildError} (hx : x = .error e) :
    ∃ c ∈ cs, c.passes = false ∧ c.error = e :=
  exists_of_firstError? ((h.error_iff e).mp hx)

/-- One step after the other. -/
theorem bind (h : Decides cs good x) {f : α → Except BuildError β}
    (hf : ∀ a, x = .ok a → good a → Decides ds good' (f a)) :
    Decides (cs ++ ds) good' (x >>= f) := by
  cases x with
  | error e =>
    apply of_error
    rw [firstError?_append, (h.error_iff e).mp rfl]
    rfl
  | ok a =>
    have hcs := h.firstError?_of_ok rfl
    have hnext := hf a rfl (h.good a rfl)
    show Decides (cs ++ ds) good' (f a)
    cases hfa : f a with
    | error e =>
      apply of_error
      rw [firstError?_append, hcs, (hnext.error_iff e).mp hfa]
      rfl
    | ok b =>
      apply of_ok _ (hnext.good b hfa)
      rw [firstError?_append, hcs, hnext.firstError?_of_ok hfa]
      rfl

theorem map (h : Decides cs good x) {f : α → β} (hf : ∀ a, x = .ok a → good a → good' (f a)) :
    Decides cs good' (x.map f) := by
  cases x with
  | error e => exact of_error ((h.error_iff e).mp rfl)
  | ok a => exact of_ok (h.firstError?_of_ok rfl) (hf a rfl (h.good a rfl))

/-- A check that fails in front of everything else. -/
theorem fail {p : Bool} {e : BuildError} (hp : p = false) :
    Decides (⟨p, e⟩ :: cs) good (.error e : Except BuildError α) := by
  apply of_error
  rw [hp]
  rfl

/-- A check that passes in front of the others. -/
theorem pass {p : Bool} {e : BuildError} (hp : p = true) (h : Decides cs good x) :
    Decides (⟨p, e⟩ :: cs) good x := by
  have hfirst : firstError? (⟨p, e⟩ :: cs) = firstError? cs := by
    rw [hp]
    rfl
  cases x with
  | error e' => exact of_error (hfirst.trans ((h.error_iff e').mp rfl))
  | ok a => exact of_ok (hfirst.trans (h.firstError?_of_ok rfl)) (h.good a rfl)

/-- A step that has to be reached. -/
theorem guarded {p : Prop} [Decidable p] {e : BuildError} (h : Decides cs good x) :
    Decides (⟨decide (¬p), e⟩ :: cs) good (if p then .error e else x) := by
  by_cases hp : p
  · rw [if_pos hp]
    exact fail (decide_eq_false (not_not_intro hp))
  · rw [if_neg hp]
    exact pass (decide_eq_true hp) h

/-- A step that looks a name up. -/
theorem lookup {all : List (String × β)} {name : String} {e : BuildError}
    (hsome : ∀ b, all.lookup name = some b → (name, b) ∈ all → ∃ a, x = .ok a ∧ good a)
    (hnone : all.lookup name = none → x = .error e) :
    Decides [⟨decide (name ∈ all.map Prod.fst), e⟩] good x := by
  cases hlookup : all.lookup name with
  | some b =>
    obtain ⟨before, after, rfl, -⟩ := List.lookup_eq_some_iff.mp hlookup
    have hmem : (name, b) ∈ before ++ (name, b) :: after :=
      List.mem_append_right before List.mem_cons_self
    obtain ⟨a, rfl, ha⟩ := hsome b hlookup hmem
    exact pass (decide_eq_true (List.mem_map_of_mem hmem)) (of_ok rfl ha)
  | none =>
    rw [hnone hlookup]
    refine fail (decide_eq_false ?_)
    intro hmem
    obtain ⟨p, hp, rfl⟩ := List.mem_map.mp hmem
    exact bne_iff_ne.mp (List.lookup_eq_none_iff.mp hlookup p hp) rfl

end Decides

end QueryPanel
