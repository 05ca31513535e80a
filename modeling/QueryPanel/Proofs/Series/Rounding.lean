import QueryPanel.Proofs.Series.Fitting
import QueryPanel.Proofs.Time.Range

/-!
# The least round width

A width is chosen by rounding up: the window to seconds, the seconds to the points that there should
be, and the quotient to a round width. Rounding up by division is the least number whose product
reaches far enough (`ceilDiv_le_iff`), so it grows with what is divided and falls with the divisor.
The rungs of the ladder stand in order, and above the highest one there are its multiples; of all of
these the one that is chosen is the least that is great enough (`isLeast_roundUp`). A least element
of fewer numbers is greater, which is why the width grows with the window and falls with the points.

> `ofBounds_is_least_round`: the width for a window is the least round one, or the greatest width
> there is, and it is worked out within the words of sixty-four bits.

`ofBounds?` is the same computation with every step in such words. It gives nothing as soon as a
step leaves them, and it never does (`ofBounds?_eq`).
-/

namespace QueryPanel.Width

variable {seconds targetPoints : Nat} {millis : Int}

/-! ## Rounding up -/

theorem ceilDiv_le_iff {n d k : Nat} (hd : 1 ≤ d) : ceilDiv n d ≤ k ↔ n ≤ k * d := by
  unfold ceilDiv
  rw [Nat.div_le_iff_le_mul_add_pred hd, Nat.mul_comm]
  omega

theorem ceilDiv_le (n : Nat) {d : Nat} (hd : 1 ≤ d) : ceilDiv n d ≤ n :=
  (ceilDiv_le_iff hd).mpr (Nat.le_mul_of_pos_right n hd)

theorem ceilDiv_mono (d : Nat) {m n : Nat} (h : m ≤ n) : ceilDiv m d ≤ ceilDiv n d :=
  Nat.div_le_div_right (by omega)

theorem ceilDiv_anti (n : Nat) {c d : Nat} (hc : 1 ≤ c) (h : c ≤ d) :
    ceilDiv n d ≤ ceilDiv n c := by
  rw [ceilDiv_le_iff (hc.trans h)]
  calc n
    _ ≤ ceilDiv n c * c := le_ceilDiv_mul n hc
    _ ≤ ceilDiv n c * d := Nat.mul_le_mul_left _ h

/-- It is what rounding up the quotient of two numbers gives. -/
theorem ceilDiv_eq_ceil (n : Nat) {d : Nat} (hd : 1 ≤ d) :
    (ceilDiv n d : Int) = ⌈(n : ℚ) / (d : ℚ)⌉ := by
  have hpos : (0 : ℚ) < d := Nat.cast_pos.mpr hd
  apply eq_of_forall_ge_iff
  intro k
  rw [Int.ceil_le, div_le_iff₀ hpos]
  rcases Int.lt_or_le k 0 with hneg | hnonneg
  · refine iff_of_false (by omega) ?_
    have hk : (k : ℚ) * d < 0 := mul_neg_of_neg_of_pos (Int.cast_lt_zero.mpr hneg) hpos
    exact not_le_of_gt (hk.trans_le (Nat.cast_nonneg n))
  · obtain ⟨k, rfl⟩ := Int.eq_ofNat_of_zero_le hnonneg
    rw [Int.ofNat_le, ceilDiv_le_iff hd]
    exact_mod_cast Iff.rfl

/-- The seconds that a bucket should have at least, for a window of so many milliseconds. -/
def wanted (millis : Int) (targetPoints : Nat) : Int :=
  ⌈((⌈(millis : ℚ) / 1000⌉ : ℤ) : ℚ) / ((max targetPoints 1 : ℕ) : ℚ)⌉

theorem wanted_eq (h : 0 < millis) (targetPoints : Nat) :
    wanted millis targetPoints
      = (ceilDiv (ceilDiv millis.toNat 1000) (max targetPoints 1) : Nat) := by
  have hmillis : (millis : ℚ) = (millis.toNat : ℚ) := by
    exact_mod_cast (Int.toNat_of_nonneg h.le).symm
  have hseconds : ⌈(millis : ℚ) / 1000⌉ = (ceilDiv millis.toNat 1000 : Int) := by
    rw [hmillis, ceilDiv_eq_ceil _ (by decide)]
    rfl
  unfold wanted
  rw [hseconds, Int.cast_natCast, ceilDiv_eq_ceil _ (Nat.le_max_right _ _)]

/-! ## Round widths -/

/-- A round width: a rung of the ladder, or a multiple of the highest one. -/
def IsRound (width : Nat) : Prop :=
  width ∈ ladder ∨ top ∣ width

/-- The round width that is reached from a number of seconds, however great it is. -/
def roundUp (seconds : Nat) : Nat :=
  match ladder.find? (seconds ≤ ·) with
  | some rung => rung
  | none => ceilDiv seconds top * top

theorem atLeast_eq_min (seconds : Nat) : atLeast seconds = min (roundUp seconds) greatest := by
  unfold atLeast roundUp
  cases hfind : ladder.find? (seconds ≤ ·) with
  | none => rfl
  | some rung =>
    have hrungs : ∀ rung ∈ ladder, rung ≤ greatest := by decide
    exact (Nat.min_eq_left (hrungs rung (List.mem_of_find?_eq_some hfind))).symm

/-- The first rung that is great enough is the least. -/
theorem le_of_find?_ladder {rung other : Nat} (hfind : ladder.find? (seconds ≤ ·) = some rung)
    (hother : other ∈ ladder) (hle : seconds ≤ other) : rung ≤ other := by
  obtain ⟨-, before, behind, hladder, hbefore⟩ := List.find?_eq_some_iff_append.mp hfind
  have hascending : ladder.Pairwise (· ≤ ·) := by decide
  rw [hladder] at hother hascending
  rcases List.mem_append.mp hother with hmem | hmem
  · have hsmall := hbefore other hmem
    rw [decide_eq_true hle] at hsmall
    exact nomatch hsmall
  · rcases List.mem_cons.mp hmem with rfl | hmem
    · exact Nat.le_refl other
    · exact (List.pairwise_cons.mp (List.pairwise_append.mp hascending).2.1).1 other hmem

theorem isLeast_roundUp (h : 1 ≤ seconds) :
    IsLeast {width | IsRound width ∧ seconds ≤ width} (roundUp seconds) := by
  have htop : 1 ≤ top := by decide
  unfold roundUp
  cases hfind : ladder.find? (seconds ≤ ·) with
  | some rung =>
    have hmem := List.mem_of_find?_eq_some hfind
    have hhighest : ∀ rung ∈ ladder, rung ≤ top := by decide
    have hle : seconds ≤ rung := by simpa using List.find?_some hfind
    refine ⟨⟨.inl hmem, hle⟩, ?_⟩
    rintro width ⟨hrung | hmultiple, hle⟩
    · exact le_of_find?_ladder hfind hrung hle
    · exact (hhighest rung hmem).trans (Nat.le_of_dvd (by omega) hmultiple)
  | none =>
    refine ⟨⟨.inr (Nat.dvd_mul_left top _), le_ceilDiv_mul seconds htop⟩, ?_⟩
    rintro width ⟨hrung | ⟨k, rfl⟩, hle⟩
    · exact absurd (decide_eq_true hle) (List.find?_eq_none.mp hfind width hrung)
    · rw [Nat.mul_comm top k] at hle ⊢
      exact Nat.mul_le_mul_right top ((ceilDiv_le_iff htop).mpr hle)

/-- The least round width of at least so many seconds, unless it is no word of thirty-two bits. Then
it is the greatest of these. -/
def IsLeastRound (seconds : Int) (width : Nat) : Prop :=
  ∃ least, IsLeast {width : Nat | IsRound width ∧ seconds ≤ width} least ∧
    width = if least < Word.size32 then least else Word.size32 - 1

theorem atLeast_isLeastRound (h : 1 ≤ seconds) : IsLeastRound seconds (atLeast seconds) := by
  refine ⟨roundUp seconds, ?_, ?_⟩
  · simp only [Int.ofNat_le]
    exact isLeast_roundUp h
  · rw [atLeast_eq_min]
    show min (roundUp seconds) (Word.size32 - 1) = _
    split
    · exact Nat.min_eq_left (by omega)
    · exact Nat.min_eq_right (by omega)

theorem atLeast_mono {m n : Nat} (hm : 1 ≤ m) (h : m ≤ n) : atLeast m ≤ atLeast n := by
  have hround : roundUp m ≤ roundUp n := by
    refine (isLeast_roundUp (hm.trans h)).mono (isLeast_roundUp hm) ?_
    rintro width ⟨hwidth, hle⟩
    exact ⟨hwidth, h.trans hle⟩
  rw [atLeast_eq_min, atLeast_eq_min]
  exact min_le_min_right greatest hround

/-! ## Windows -/

theorem ofRange_of_nonpos (h : millis ≤ 0) (targetPoints : Nat) : ofRange millis targetPoints = 1 :=
  if_pos h

theorem ofRange_of_pos (h : 0 < millis) (targetPoints : Nat) : ofRange millis targetPoints
    = atLeast (ceilDiv (ceilDiv millis.toNat 1000) (max targetPoints 1)) :=
  if_neg (by omega)

theorem one_le_quotient (h : 0 < millis) (targetPoints : Nat) :
    1 ≤ ceilDiv (ceilDiv millis.toNat 1000) (max targetPoints 1) :=
  one_le_ceilDiv (one_le_ceilDiv (by omega) (by decide)) (Nat.le_max_right _ _)

theorem ofRange_isLeastRound (h : 0 < millis) (targetPoints : Nat) :
    IsLeastRound (wanted millis targetPoints) (ofRange millis targetPoints) := by
  rw [wanted_eq h, ofRange_of_pos h]
  exact atLeast_isLeastRound (one_le_quotient h targetPoints)

/-- The longer a window is, the wider its buckets are. -/
theorem ofRange_mono {m n : Int} (h : max m 0 ≤ max n 0) (targetPoints : Nat) :
    ofRange m targetPoints ≤ ofRange n targetPoints := by
  rcases Int.lt_or_le 0 m with hpos | hnonpos
  · rw [ofRange_of_pos hpos, ofRange_of_pos (show 0 < n by omega)]
    refine atLeast_mono (one_le_quotient hpos targetPoints) ?_
    exact ceilDiv_mono _ (ceilDiv_mono 1000 (by omega))
  · rw [ofRange_of_nonpos hnonpos]
    exact one_le_ofRange n targetPoints

/-- The more points there should be, the narrower the buckets are. -/
theorem ofRange_anti (millis : Int) {fewer : Nat} (h : fewer ≤ targetPoints) :
    ofRange millis targetPoints ≤ ofRange millis fewer := by
  rcases Int.lt_or_le 0 millis with hpos | hnonpos
  · rw [ofRange_of_pos hpos, ofRange_of_pos hpos]
    refine atLeast_mono (one_le_quotient hpos targetPoints) ?_
    exact ceilDiv_anti _ (Nat.le_max_right _ _) (by omega)
  · rw [ofRange_of_nonpos hnonpos, ofRange_of_nonpos hnonpos]

/-! ## In words -/

/-- A quotient rounded up: the divisor is added first, and what is one too many taken off again. -/
def ceilDiv? (n d : Int) : Option Int := do
  let sum ← Word.signed? (n + d)
  let sum ← Word.signed? (sum - 1)
  Word.signed? (sum.tdiv d)

/-- The least round width that is at least `seconds`. The product of the last step does not leave
the words but stops at their ends. -/
def atLeast? (seconds : Int) : Option Nat :=
  match ladder.find? fun (rung : Nat) => seconds ≤ (rung : Int) with
  | some rung => some rung
  | none => do
    let steps ← ceilDiv? seconds top
    let product := max (-(Word.size63 : Int)) (min (steps * top) (Word.size63 - 1))
    return if 0 ≤ product ∧ product < Word.size32 then product.toNat else greatest

/-- The width for a window between two numbers of milliseconds. -/
def between? (a b : Int) (targetPoints : Nat) : Option Nat := do
  let a ← Word.signed? a
  let b ← Word.signed? b
  let range ← Word.signed? (b - a)
  if range ≤ 0 then
    return 1
  else
    let points ← Word.signed? (max targetPoints 1 : Nat)
    let sum ← Word.signed? (range + 999)
    let seconds ← Word.signed? (sum.tdiv 1000)
    let quotient ← ceilDiv? seconds points
    atLeast? quotient

/-- The width for a window between two texts, either of which may be missing. -/
def ofBounds? (start stop : Option String) (targetPoints : Nat) : Option Nat :=
  match start.bind Instant.millisOfText?, stop.bind Instant.millisOfText? with
  | some a, some b => between? a b targetPoints
  | _, _ => some fallback

theorem ceilDiv?_eq {n d : Nat} (hn : n < 1000000000000000000) (hd : 1 ≤ d)
    (hd' : d < 1000000000000000000) : ceilDiv? n d = some ((ceilDiv n d : Nat) : Int) := by
  have hle := ceilDiv_le n hd
  have hquotient : ((n : Int) + d - 1).tdiv d = (ceilDiv n d : Nat) := by
    rw [show (n : Int) + d - 1 = (n + d - 1 : Nat) by omega, ← Int.ofNat_tdiv]
    rfl
  unfold ceilDiv?
  rw [Word.signed?_bind (by omega) (by omega), Word.signed?_bind (by omega) (by omega), hquotient]
  exact Word.signed?_eq (by omega) (by omega)

theorem atLeast?_eq (h : seconds < 1000000000000000000) :
    atLeast? seconds = some (atLeast seconds) := by
  have hfind : (ladder.find? fun (rung : Nat) => (seconds : Int) ≤ (rung : Int))
      = ladder.find? (seconds ≤ ·) := by
    simp only [Int.ofNat_le]
  unfold atLeast? atLeast
  rw [hfind]
  cases ladder.find? (seconds ≤ ·) with
  | some rung => rfl
  | none =>
    have htop : top = 2592000 := rfl
    have hsize : Word.size63 = 9223372036854775808 := rfl
    have hsize' : Word.size32 = 4294967296 := rfl
    have hgreatest : greatest = 4294967295 := rfl
    have hceil : ceilDiv seconds top * top < seconds + top :=
      Nat.lt_of_le_of_lt (Nat.div_mul_le_self _ _) (by omega)
    rw [ceilDiv?_eq h (by decide) (by decide)]
    show some (if _ ∧ _ then _ else _) = some (min _ greatest)
    rw [← Int.natCast_mul]
    generalize ceilDiv seconds top * top = product at *
    rw [show max (-(Word.size63 : Int)) (min (product : Int) (Word.size63 - 1)) = product by omega]
    split <;> exact congrArg some (by omega)

theorem between?_eq {a b : Int} (ha : Instant.Near a) (hb : Instant.Near b)
    (htarget : targetPoints < Word.size32) :
    between? a b targetPoints = some (ofRange (b - a) targetPoints) := by
  have hsize : Word.size32 = 4294967296 := rfl
  obtain ⟨hlow, hhigh⟩ := ha
  obtain ⟨hlow', hhigh'⟩ := hb
  unfold between?
  rw [Word.signed?_bind (by omega) (by omega), Word.signed?_bind (by omega) (by omega),
    Word.signed?_bind (by omega) (by omega)]
  rcases Int.lt_or_le 0 (b - a) with hpos | hnonpos
  · obtain ⟨n, hn⟩ := Int.eq_ofNat_of_zero_le hpos.le
    have hseconds : ((n : Int) + 999).tdiv 1000 = (ceilDiv n 1000 : Nat) := by
      rw [show (n : Int) + 999 = (n + 1000 - 1 : Nat) by omega]
      exact (Int.ofNat_tdiv _ 1000).symm
    have hle := ceilDiv_le n (show 1 ≤ 1000 by decide)
    have hone : 1 ≤ max targetPoints 1 := Nat.le_max_right _ _
    have hle' := ceilDiv_le (ceilDiv n 1000) hone
    rw [if_neg (by omega), ofRange_of_pos hpos, hn, Word.signed?_bind (by omega) (by omega),
      Word.signed?_bind (by omega) (by omega), hseconds, Word.signed?_bind (by omega) (by omega),
      ceilDiv?_eq (by omega) hone (by omega)]
    exact atLeast?_eq (by omega)
  · rw [if_pos hnonpos, ofRange_of_nonpos hnonpos]
    rfl

/-- Worked out in words, the width is the same. -/
theorem ofBounds?_eq (start stop : Option String) (htarget : targetPoints < Word.size32) :
    ofBounds? start stop targetPoints = some (ofBounds start stop targetPoints) := by
  unfold ofBounds? ofBounds
  cases ha : start.bind Instant.millisOfText? with
  | none => rfl
  | some a =>
    cases hb : stop.bind Instant.millisOfText? with
    | none => rfl
    | some b =>
      obtain ⟨_, -, ha⟩ := Option.bind_eq_some_iff.mp ha
      obtain ⟨_, -, hb⟩ := Option.bind_eq_some_iff.mp hb
      exact between?_eq (Instant.near_of_millisOfText? ha) (Instant.near_of_millisOfText? hb)
        htarget

theorem ofBounds_of_read {start stop : String} {a b : Int}
    (ha : Instant.millisOfText? start = some a) (hb : Instant.millisOfText? stop = some b)
    (targetPoints : Nat) :
    ofBounds (some start) (some stop) targetPoints = ofRange (b - a) targetPoints := by
  rw [ofBounds, Option.bind_some, Option.bind_some, ha, hb]

/-- The width for a window that is read is the least round width that gives no more points than
there should be. An empty window gets the narrowest; longer windows get no narrower ones, and fewer
points no wider ones. -/
theorem ofBounds_is_least_round {start stop : String} {a b : Int} {targetPoints : Nat}
    (ha : Instant.millisOfText? start = some a) (hb : Instant.millisOfText? stop = some b)
    (htarget : targetPoints < Word.size32) :
    let width := ofBounds (some start) (some stop) targetPoints
    ofBounds? (some start) (some stop) targetPoints = some width ∧
      (a < b → IsLeastRound (wanted (b - a) targetPoints) width) ∧
      (b ≤ a → width = 1) ∧
      (∀ start' stop' a' b', Instant.millisOfText? start' = some a' →
        Instant.millisOfText? stop' = some b' → max (b - a) 0 ≤ max (b' - a') 0 →
          width ≤ ofBounds (some start') (some stop') targetPoints) ∧
      ∀ fewer ≤ targetPoints, width ≤ ofBounds (some start) (some stop) fewer := by
  intro width
  refine ⟨ofBounds?_eq _ _ htarget, ?_⟩
  have hwidth : width = ofRange (b - a) targetPoints := ofBounds_of_read ha hb targetPoints
  rw [hwidth]
  refine ⟨?_, ?_, ?_, ?_⟩
  · intro hlt
    exact ofRange_isLeastRound (by omega) targetPoints
  · intro hle
    exact ofRange_of_nonpos (by omega) targetPoints
  · intro start' stop' a' b' ha' hb' hle
    rw [ofBounds_of_read ha' hb']
    exact ofRange_mono hle targetPoints
  · intro fewer hfewer
    rw [ofBounds_of_read ha hb]
    exact ofRange_anti (b - a) hfewer

/-- A quarter of a century in ten points, which takes a multiple of thirty days. -/
theorem ofBounds_is_least_round_century :
    let width := ofBounds (some "2000-01-01T00:00:00Z") (some "2025-01-01 00:00:00") 10
    width = 31 * top ∧ IsLeastRound (wanted (1735689600000 - 946684800000) 10) width ∧
      width ≤ ofBounds (some "1999-01-01T00:00:00Z") (some "2025-01-01 00:00:00") 10 ∧
      width ≤ ofBounds (some "2000-01-01T00:00:00Z") (some "2025-01-01 00:00:00") 0 := by
  have ha : Instant.millisOfText? "2000-01-01T00:00:00Z" = some 946684800000 := by decide +kernel
  have ha' : Instant.millisOfText? "1999-01-01T00:00:00Z" = some 915148800000 := by decide +kernel
  have hb : Instant.millisOfText? "2025-01-01 00:00:00" = some 1735689600000 := by decide +kernel
  obtain ⟨-, hleast, -, hlonger, hfewer⟩ :=
    ofBounds_is_least_round ha hb (show 10 < Word.size32 by decide)
  intro width
  refine ⟨by decide +kernel, hleast (by decide), ?_, hfewer 0 (by decide)⟩
  exact hlonger _ _ _ _ ha' hb (by decide)

end QueryPanel.Width
