import QueryPanel.Number.Word
import QueryPanel.Proofs.Time.Stamp

/-!
# Milliseconds fit a word

Times are computed with as whole numbers here. Counted in words of sixty-four bits, of which one is
the sign, a step of such a computation could leave the words; `Word.signed?` is what says so, and a
computation in which every step goes through it is `none` as soon as one does.

Whatever is read as an instant is the instant of some civil time (`IsCivil`). It lies within a
counted year, give or take the offset that it is written with, so it is less than 10¹⁶ milliseconds
away from 1970 (`near_of_millisOfText?`). A word holds nine hundred times as many, and that is room
for all that is done with times.
-/

namespace QueryPanel

namespace Word

/-- A number as a signed word of sixty-four bits, if it is one. -/
def signed? (n : Int) : Option Int :=
  if -(size63 : Int) ≤ n ∧ n < size63 then some n else none

theorem signed?_eq {n : Int} (hlow : -9223372036854775808 ≤ n) (hhigh : n < 9223372036854775808) :
    signed? n = some n :=
  if_pos ⟨hlow, hhigh⟩

/-- A step that stays in the words. -/
theorem signed?_bind {α : Type} {n : Int} (hlow : -9223372036854775808 ≤ n)
    (hhigh : n < 9223372036854775808) (f : Int → Option α) : (signed? n >>= f) = f n := by
  rw [signed?_eq hlow hhigh]
  rfl

end Word

/-! ## Days -/

/-- The number of a date in a counted year. -/
theorem Date.toDay_near {d : Date} (hvalid : d.isValid = true)
    (hyear : Instant.hasYear d.year = true) : -100000000 < d.toDay ∧ d.toDay < 100000000 := by
  unfold isValid at hvalid
  rw [Bool.and_eq_true, Bool.and_eq_true, Option.any_eq_true] at hvalid
  obtain ⟨-, length, hlength, hday⟩ := hvalid
  have hlast : d.day ≤ 31 :=
    (of_decide_eq_true hday).trans (le_of_mem_monthLengths (List.mem_of_getElem? hlength))
  have hbefore : daysBeforeMonth d.year d.month ≤ 366 := by
    have htake := (List.take_sublist (d.month - 1) (monthLengths d.year)).sum_le_sum
      fun _ _ => Nat.zero_le _
    refine (show daysBeforeMonth d.year d.month ≤ (monthLengths d.year).sum from htake).trans ?_
    rw [show (monthLengths d.year).sum = _ from sum_monthLengths d.year]
    split <;> omega
  simp only [Instant.hasYear, Bool.and_eq_true, decide_eq_true_eq] at hyear
  have hlow : daysBeforeYear (-262143) ≤ daysBeforeYear d.year := daysBeforeYear_mono hyear.1
  have hhigh : daysBeforeYear d.year ≤ daysBeforeYear 262142 := daysBeforeYear_mono hyear.2
  have hfirst : daysBeforeYear (-262143) = -95745764 := by decide
  have hfinal : daysBeforeYear 262142 = 95745400 := by decide
  have hepoch : epoch = 719528 := rfl
  unfold toDay
  omega

namespace Instant

/-- Less than 10¹⁶ milliseconds away from 1970. -/
def Near (m : Int) : Prop :=
  -10000000000000000 < m ∧ m < 10000000000000000

variable {t : Instant}

/-- What holds of every end of a chain holds of the chain. -/
theorem forall_bind {α β : Type} {P : β → Prop} {o : Option α} {f : α → Option β}
    (h : ∀ a, o = some a → ∀ b, f a = some b → P b) : ∀ b, (o >>= f) = some b → P b := by
  intro b hb
  obtain ⟨a, ha, hfa⟩ := Option.bind_eq_some_iff.mp hb
  exact h a ha b hfa

/-! ## What readers give -/

/-- An offset is less than a day. -/
theorem offset?_lt {cs : List Char} : ∀ n, offset? cs = some n → -1440 < n.1 ∧ n.1 < 1440 := by
  cases cs with
  | nil => exact nofun
  | cons c cs =>
    rw [offset?]
    split
    · rintro _ ⟨⟩
      show (-1440 : Int) < 0 ∧ (0 : Int) < 1440
      decide
    · split
      · refine forall_bind fun ⟨hours, cs⟩ _ => ?_
        refine forall_bind fun cs _ => ?_
        refine forall_bind fun ⟨minutes, cs⟩ _ => ?_
        intro n hn
        simp only at hn
        split at hn
        · obtain rfl := Option.some.inj hn
          simp only
          split <;> omega
        · exact nomatch hn
      · exact nofun

/-- The instant of some civil time, at an offset from UTC of less than a day. -/
def IsCivil (t : Instant) : Prop :=
  ∃ (c : CivilTime) (nanos : Nat) (offset : Int), (-1440 < offset ∧ offset < 1440) ∧
    c.instant? nanos offset = some t

theorem isCivil_of_zoned? {cs : List Char} : ∀ t, zoned? cs = some t → IsCivil t := by
  unfold zoned?
  refine forall_bind fun ⟨year, cs⟩ _ => ?_
  refine forall_bind fun cs _ => ?_
  refine forall_bind fun ⟨month, cs⟩ _ => ?_
  refine forall_bind fun cs _ => ?_
  refine forall_bind fun ⟨day, cs⟩ _ => ?_
  refine forall_bind fun cs _ => ?_
  refine forall_bind fun ⟨hour, cs⟩ _ => ?_
  refine forall_bind fun cs _ => ?_
  refine forall_bind fun ⟨minute, cs⟩ _ => ?_
  refine forall_bind fun cs _ => ?_
  refine forall_bind fun ⟨second, cs⟩ _ => ?_
  refine forall_bind fun ⟨nanos, cs⟩ _ => ?_
  refine forall_bind fun ⟨offset, cs⟩ hoffset => ?_
  intro t ht
  simp only at ht
  split at ht
  · exact ⟨⟨⟨year, month, day⟩, hour, minute, second⟩, nanos, offset, offset?_lt _ hoffset, ht⟩
  · exact nomatch ht

theorem isCivil_of_plain? {layout : Layout} {cs : List Char} :
    ∀ t, plain? layout cs = some t → IsCivil t := by
  unfold plain?
  rcases layout with ⟨_ | c, _ | _⟩
  all_goals
    refine forall_bind fun ⟨year, cs⟩ _ => ?_
    refine forall_bind fun cs _ => ?_
    refine forall_bind fun ⟨month, cs⟩ _ => ?_
    refine forall_bind fun cs _ => ?_
    refine forall_bind fun ⟨day, cs⟩ _ => ?_
    refine forall_bind fun cs _ => ?_
    refine forall_bind fun ⟨hour, cs⟩ _ => ?_
    refine forall_bind fun cs _ => ?_
    refine forall_bind fun ⟨minute, cs⟩ _ => ?_
    refine forall_bind fun cs _ => ?_
    refine forall_bind fun ⟨second, cs⟩ _ => ?_
    refine forall_bind fun ⟨nanos, cs⟩ _ => ?_
    intro t ht
    simp only at ht
    split at ht
    · exact ⟨⟨⟨year, month, day⟩, hour, minute, second⟩, nanos, 0, by decide, ht⟩
    · exact nomatch ht

/-- Whatever is read as an instant has a civil time. -/
theorem isCivil_of_ofText? {s : String} (h : ofText? s = some t) : IsCivil t := by
  rcases Option.or_eq_some_iff.mp h with hzoned | ⟨-, hplain⟩
  · exact isCivil_of_zoned? t hzoned
  · obtain ⟨layout, -, hlayout⟩ := List.exists_of_findSome?_eq_some hplain
    exact isCivil_of_plain? t hlayout

/-- The instant of a civil time is near, whatever the fields are. -/
theorem IsCivil.near (h : IsCivil t) : Near t.millis := by
  obtain ⟨⟨date, hour, minute, second⟩, nanos, offset, hoffset, ht⟩ := h
  unfold CivilTime.instant? ofFields? at ht
  split at ht
  · next hfields =>
    obtain ⟨hvalid, hyear, hhour, hminute, -⟩ := hfields
    obtain ⟨hlow, hhigh⟩ := Date.toDay_near hvalid hyear
    obtain rfl := Option.some.inj ht
    unfold Near millis
    have hrest := milli_le ⟨date.toDay * 86400 + hour * 3600 + minute * 60 + (min second 59 : Nat)
      - offset * 60, second = 60, withinSecond nanos⟩
    generalize fraction _ / nanosPerMilli = rest at *
    simp only at *
    omega
  · exact nomatch ht

/-- A text that is read is near. -/
theorem near_of_millisOfText? {s : String} {m : Int} (h : millisOfText? s = some m) : Near m := by
  obtain ⟨t, ht, rfl⟩ := Option.map_eq_some_iff.mp h
  exact (isCivil_of_ofText? ht).near

end Instant

end QueryPanel
