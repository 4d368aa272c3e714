import Mathlib

/-!
# Correct rounding

Binary floating-point numbers with a significand of `p` bits in an ordered field, and what it is for
one of them to be the rounding of an element: a greatest lower, least upper or nearest one.  A
positive element lies in a cell between two neighbours of the set, and its rounding is found from
where in the cell it lies.
-/

namespace Rounding

variable {K : Type*} [Field K] [LinearOrder K] [IsStrictOrderedRing K]

set_option linter.unusedSectionVars false

/-- How to round. -/
inductive Mode where
  | nearestEven
  | towardZero
  | down
  | up
  | nearestAway

/-- The numbers with a significand below `2 ^ p` and an exponent from `emin` on; with `⊥` there is
no least exponent. -/
def floats (p : ℕ) (emin : WithBot ℤ) : Set K :=
  {v | ∃ m e : ℤ, |m| < 2 ^ p ∧ emin ≤ e ∧ v = m * 2 ^ e}

/-- The number can be written with an even significand. -/
def IsEven (p : ℕ) (emin : WithBot ℤ) (v : K) : Prop :=
  ∃ m e : ℤ, |m| < 2 ^ p ∧ emin ≤ e ∧ Even m ∧ v = m * 2 ^ e

/-- No number of the set is nearer. -/
def IsNearest (F : Set K) (x r : K) : Prop := r ∈ F ∧ ∀ v ∈ F, |x - r| ≤ |x - v|

/-- The rounding of a number. -/
def Rounds (p : ℕ) (emin : WithBot ℤ) (mode : Mode) (x r : K) : Prop :=
  match mode with
  | .nearestEven => IsNearest (floats p emin) x r ∧
      ((∃ v ∈ floats p emin, v ≠ r ∧ |x - v| = |x - r|) → IsEven p emin r)
  | .towardZero =>
    if 0 ≤ x then IsGreatest {v ∈ floats p emin | v ≤ x} r
      else IsLeast {v ∈ floats p emin | x ≤ v} r
  | .down => IsGreatest {v ∈ floats p emin | v ≤ x} r
  | .up => IsLeast {v ∈ floats p emin | x ≤ v} r
  | .nearestAway =>
    IsNearest (floats p emin) x r ∧ ∀ v ∈ floats p emin, |x - v| = |x - r| → |v| ≤ |r|

variable {p : ℕ} {emin : WithBot ℤ} {x r v : K} {n : ℕ} {e : ℤ}

/-! ## Signs -/

lemma neg_mem_floats (h : v ∈ floats p emin) : -v ∈ floats p emin := by
  obtain ⟨m, e, hm, he, rfl⟩ := h
  exact ⟨-m, e, by rwa [abs_neg], he, by push_cast; ring⟩

lemma IsEven.neg (h : IsEven p emin v) : IsEven p emin (-v) := by
  obtain ⟨m, e, hm, he, heven, rfl⟩ := h
  exact ⟨-m, e, by rwa [abs_neg], he, heven.neg, by push_cast; ring⟩

/-- What a mode is on the other side of zero. -/
def Mode.flip : Mode → Mode
  | .down => .up
  | .up => .down
  | mode => mode

lemma IsNearest.neg (h : IsNearest (floats p emin) x r) : IsNearest (floats p emin) (-x) (-r) := by
  refine ⟨neg_mem_floats h.1, fun v hv => ?_⟩
  have hle := h.2 (-v) (neg_mem_floats hv)
  rwa [← abs_neg, ← abs_neg (-x - v), show -(-x - -r) =
    x - r by ring, show -(-x - v) = x - -v by ring]

lemma isGreatest_neg (h : IsLeast {v ∈ floats p emin | x ≤ v} r) :
    IsGreatest {v ∈ floats p emin | v ≤ -x} (-r) := by
  refine ⟨⟨neg_mem_floats h.1.1, neg_le_neg h.1.2⟩, fun v hv => ?_⟩
  exact le_neg_of_le_neg (h.2 ⟨neg_mem_floats hv.1, le_neg_of_le_neg hv.2⟩)

lemma isLeast_neg (h : IsGreatest {v ∈ floats p emin | v ≤ x} r) :
    IsLeast {v ∈ floats p emin | -x ≤ v} (-r) := by
  refine ⟨⟨neg_mem_floats h.1.1, neg_le_neg h.1.2⟩, fun v hv => ?_⟩
  exact neg_le_of_neg_le (h.2 ⟨neg_mem_floats hv.1, neg_le_of_neg_le hv.2⟩)

lemma Rounds.neg {mode : Mode} (hx : 0 < x) (h : Rounds p emin mode.flip x r) :
    Rounds p emin mode (-x) (-r) := by
  have hflip (v : K) : |-x - v| = |x - -v| := by
    rw [← abs_neg]
    congr 1
    ring
  cases mode with
  | nearestEven =>
    refine ⟨h.1.neg, fun ⟨v, hv, hne, heq⟩ => (h.2 ⟨-v, neg_mem_floats hv, ?_, ?_⟩).neg⟩
    · exact fun hvr => hne (by rw [← hvr, neg_neg])
    · rw [← hflip v, heq, hflip, neg_neg]
  | towardZero =>
    have hbelow : IsGreatest {v ∈ floats p emin | v ≤ x} r := by
      simpa only [Rounds, Mode.flip, if_pos hx.le] using h
    rw [Rounds, if_neg (by linarith)]
    exact isLeast_neg hbelow
  | down => exact isGreatest_neg h
  | up => exact isLeast_neg h
  | nearestAway =>
    refine ⟨h.1.neg, fun v hv heq => ?_⟩
    have hle := h.2 (-v) (neg_mem_floats hv) (by rw [← hflip v, heq, hflip, neg_neg])
    rwa [abs_neg] at hle ⊢

/-! ## Cells -/

/-- A number lies between two neighbouring floats `n * 2 ^ e` and `(n + 1) * 2 ^ e`. -/
structure Cell (p : ℕ) (emin : WithBot ℤ) (x : K) (n : ℕ) (e : ℤ) : Prop where
  lt : n < 2 ^ p
  le_exp : emin ≤ e
  canonical : 2 ^ (p - 1) ≤ n ∨ emin = e
  low : n * 2 ^ e ≤ x
  high : x < (n + 1) * 2 ^ e

namespace Cell

lemma pow_pos (e : ℤ) : (0 : K) < 2 ^ e := zpow_pos (by norm_num) e

lemma low_mem (h : Cell p emin x n e) : (n : K) * 2 ^ e ∈ floats p emin := by
  refine ⟨n, e, ?_, h.le_exp, by push_cast; rfl⟩
  rw [Nat.abs_cast]
  exact_mod_cast h.lt

/-- The upper neighbour, if it has one bit too many, has an exponent more. -/
lemma high_mem (hp : 1 ≤ p) (h : Cell p emin x n e) : ((n : K) + 1) * 2 ^ e ∈ floats p emin := by
  rcases Nat.lt_or_ge (n + 1) (2 ^ p) with hlt | hge
  · refine ⟨n + 1, e, ?_, h.le_exp, by push_cast; rfl⟩
    rw [show ((n : ℤ) + 1) = ((n + 1 : ℕ) : ℤ) by push_cast; rfl, Nat.abs_cast]
    exact_mod_cast hlt
  · obtain ⟨q, rfl⟩ := Nat.exists_eq_add_of_le' hp
    have hn : n + 1 = 2 ^ (q + 1) := le_antisymm h.lt hge
    refine ⟨2 ^ q, e + 1, ?_, h.le_exp.trans (by exact_mod_cast (Int.le_add_one le_rfl)), ?_⟩
    · rw [abs_of_pos (by positivity)]
      exact_mod_cast Nat.pow_lt_pow_right (by norm_num) (Nat.lt_succ_self q)
    · have hcast : (n : K) + 1 = 2 ^ (q + 1) := by exact_mod_cast hn
      rw [hcast, zpow_add_one₀ (by norm_num), pow_succ]
      push_cast
      ring

/-- There is nothing between the two. -/
lemma succ_le (h : Cell p emin x n e) (hv : v ∈ floats p emin) (hlt : n * 2 ^ e < v) :
    ((n : K) + 1) * 2 ^ e ≤ v := by
  obtain ⟨m, e', hm, he', rfl⟩ := hv
  have hpos := pow_pos (K := K) e
  rcases le_or_gt e e' with hle | hgt
  · -- a multiple of `2 ^ e`
    obtain ⟨k, rfl⟩ := Int.le.dest hle
    rw [zpow_add₀ (by norm_num), zpow_natCast] at hlt ⊢
    have hint : (m : K) * (2 ^ e * 2 ^ k) = ((m * 2 ^ k : ℤ) : K) * 2 ^ e := by push_cast; ring
    rw [hint] at hlt ⊢
    have hlt' : (n : ℤ) < m * 2 ^ k := by
      have := lt_of_mul_lt_mul_right hlt hpos.le
      exact_mod_cast this
    refine mul_le_mul_of_nonneg_right ?_ hpos.le
    exact_mod_cast hlt'
  · -- a smaller exponent: too small to reach the cell
    have hn : 2 ^ (p - 1) ≤ n := by
      refine h.canonical.resolve_right fun heq => ?_
      rw [heq] at he'
      exact absurd (by exact_mod_cast he' : e ≤ e') (not_le.mpr hgt)
    exfalso
    have hm' : (m : K) ≤ 2 ^ p := by
      have : m < 2 ^ p := (le_abs_self m).trans_lt hm
      exact_mod_cast this.le
    have hexp : (2 : K) ^ e' ≤ 2 ^ (e - 1) := zpow_le_zpow_right₀ (by norm_num) (by omega)
    have hsmall : (m : K) * 2 ^ e' ≤ 2 ^ (p - 1) * 2 ^ e := by
      rcases le_or_gt m 0 with hm0 | hm0
      · have h1 : (m : K) * 2 ^ e' ≤ 0 :=
          mul_nonpos_of_nonpos_of_nonneg (by exact_mod_cast hm0) (pow_pos e').le
        exact h1.trans (by positivity)
      · have hp : p ≠ 0 := by
          rintro rfl
          rw [pow_zero] at hm
          have := abs_pos.mpr hm0.ne'
          omega
        calc (m : K) * 2 ^ e' ≤ 2 ^ p * 2 ^ (e - 1) :=
              mul_le_mul hm' hexp (pow_pos e').le (by positivity)
          _ = 2 ^ (p - 1) * 2 ^ e := by
              obtain ⟨q, rfl⟩ := Nat.exists_eq_succ_of_ne_zero hp
              rw [zpow_sub_one₀ (by norm_num), Nat.succ_sub_one, pow_succ]
              ring
    have hn' : (2 : K) ^ (p - 1) * 2 ^ e ≤ n * 2 ^ e := by
      refine mul_le_mul_of_nonneg_right ?_ hpos.le
      exact_mod_cast hn
    linarith

/-- A float is on one side of the cell or the other. -/
lemma le_or_ge (h : Cell p emin x n e) (hv : v ∈ floats p emin) :
    v ≤ n * 2 ^ e ∨ ((n : K) + 1) * 2 ^ e ≤ v :=
  (le_or_gt v (n * 2 ^ e)).imp_right fun hlt => h.succ_le hv hlt

lemma isGreatest (h : Cell p emin x n e) : IsGreatest {v ∈ floats p emin | v ≤ x} (n * 2 ^ e) := by
  refine ⟨⟨h.low_mem, h.low⟩, fun v hv => (h.le_or_ge hv.1).resolve_right fun hge => ?_⟩
  exact absurd hv.2 (not_le.mpr (h.high.trans_le hge))

lemma isLeast (hp : 1 ≤ p) (h : Cell p emin x n e) (hne : x ≠ n * 2 ^ e) :
    IsLeast {v ∈ floats p emin | x ≤ v} ((n + 1) * 2 ^ e) := by
  refine ⟨⟨h.high_mem hp, h.high.le⟩, fun v hv => (h.le_or_ge hv.1).resolve_left fun hle => ?_⟩
  exact hne (le_antisymm (hv.2.trans hle) h.low)

/-! ### Rounding within a cell -/

lemma isNearest_low (h : Cell p emin x n e) (hle : x - n * 2 ^ e ≤ (n + 1) * 2 ^ e - x) :
    IsNearest (floats p emin) x (n * 2 ^ e) := by
  refine ⟨h.low_mem, fun v hv => ?_⟩
  have hlow := h.low
  rw [abs_of_nonneg (by linarith)]
  rcases h.le_or_ge hv with hv | hv
  · exact le_abs.mpr (.inl (by linarith))
  · exact le_abs.mpr (.inr (by linarith))

lemma isNearest_high (hp : 1 ≤ p) (h : Cell p emin x n e)
    (hle : (n + 1) * 2 ^ e - x ≤ x - n * 2 ^ e) :
    IsNearest (floats p emin) x ((n + 1) * 2 ^ e) := by
  refine ⟨h.high_mem hp, fun v hv => ?_⟩
  have hhigh := h.high
  rw [abs_of_nonpos (by linarith)]
  rcases h.le_or_ge hv with hv | hv
  · exact le_abs.mpr (.inl (by linarith))
  · exact le_abs.mpr (.inr (by linarith))

/-- What is as near as the lower neighbour, when that is nearest. -/
lemma eq_of_tie_low (h : Cell p emin x n e) (hle : x - n * 2 ^ e ≤ (n + 1) * 2 ^ e - x)
    (hv : v ∈ floats p emin) (htie : |x - v| = |x - n * 2 ^ e|) :
    v = n * 2 ^ e ∨ v = (n + 1) * 2 ^ e ∧ x - n * 2 ^ e = (n + 1) * 2 ^ e - x := by
  have hlow := h.low
  have hhigh := h.high
  rw [abs_of_nonneg (by linarith : 0 ≤ x - n * 2 ^ e)] at htie
  rcases h.le_or_ge hv with hv | hv
  · rw [abs_of_nonneg (by linarith)] at htie
    exact .inl (by linarith)
  · rw [abs_of_nonpos (by linarith)] at htie
    exact .inr ⟨by linarith, by linarith⟩

lemma eq_of_tie_high (h : Cell p emin x n e) (hle : (n + 1) * 2 ^ e - x ≤ x - n * 2 ^ e)
    (hv : v ∈ floats p emin) (htie : |x - v| = |x - (n + 1) * 2 ^ e|) :
    v = (n + 1) * 2 ^ e ∨ v = n * 2 ^ e ∧ x - n * 2 ^ e = (n + 1) * 2 ^ e - x := by
  have hlow := h.low
  have hhigh := h.high
  rw [abs_of_nonpos (by linarith : x - (n + 1) * 2 ^ e ≤ 0)] at htie
  rcases h.le_or_ge hv with hv | hv
  · rw [abs_of_nonneg (by linarith)] at htie
    exact .inr ⟨by linarith, by linarith⟩
  · rw [abs_of_nonpos (by linarith)] at htie
    exact .inl (by linarith)

lemma isEven_low (h : Cell p emin x n e) (hn : n % 2 = 0) : IsEven p emin ((n : K) * 2 ^ e) := by
  refine ⟨n, e, ?_, h.le_exp, ?_, by push_cast; rfl⟩
  · rw [Nat.abs_cast]
    exact_mod_cast h.lt
  · exact (Int.even_coe_nat n).mpr (Nat.even_iff.mpr hn)

lemma isEven_high (hp : 2 ≤ p) (h : Cell p emin x n e) (hn : n % 2 = 1) :
    IsEven p emin (((n : K) + 1) * 2 ^ e) := by
  rcases Nat.lt_or_ge (n + 1) (2 ^ p) with hlt | hge
  · refine ⟨(n + 1 : ℕ), e, ?_, h.le_exp, ?_, by push_cast; rfl⟩
    · rw [Nat.abs_cast]
      exact_mod_cast hlt
    · exact (Int.even_coe_nat _).mpr (Nat.even_iff.mpr (by omega))
  · obtain ⟨q, rfl⟩ := Nat.exists_eq_add_of_le' hp
    have hn : n + 1 = 2 ^ (q + 2) := le_antisymm h.lt hge
    refine ⟨2 ^ (q + 1), e + 1, ?_,
      h.le_exp.trans (by exact_mod_cast (Int.le_add_one le_rfl)), ?_, ?_⟩
    · rw [abs_of_pos (by positivity)]
      exact_mod_cast Nat.pow_lt_pow_right (by norm_num) (Nat.lt_succ_self (q + 1))
    · exact ⟨2 ^ q, by rw [pow_succ]; ring⟩
    · have hcast : (n : K) + 1 = 2 ^ (q + 2) := by exact_mod_cast hn
      rw [hcast, zpow_add_one₀ (by norm_num), pow_succ 2 (q + 1)]
      push_cast
      ring

end Cell

/-- A float is the rounding of itself. -/
lemma rounds_self (mode : Mode) (hx : x ∈ floats p emin) : Rounds p emin mode x x := by
  have hnear : IsNearest (floats p emin) x x :=
    ⟨hx, fun v _ => by rw [sub_self, abs_zero]; exact abs_nonneg _⟩
  have hself {v : K} (hv : |x - v| = |x - x|) : v = x := by
    rw [sub_self, abs_zero, abs_eq_zero, sub_eq_zero] at hv
    exact hv.symm
  have hgreatest : IsGreatest {v ∈ floats p emin | v ≤ x} x := ⟨⟨hx, le_rfl⟩, fun v hv => hv.2⟩
  have hleast : IsLeast {v ∈ floats p emin | x ≤ v} x := ⟨⟨hx, le_rfl⟩, fun v hv => hv.2⟩
  cases mode with
  | nearestEven => exact ⟨hnear, fun ⟨v, _, hne, heq⟩ => absurd (hself heq) hne⟩
  | towardZero =>
    rw [Rounds]
    split_ifs
    · exact hgreatest
    · exact hleast
  | down => exact hgreatest
  | up => exact hleast
  | nearestAway => exact ⟨hnear, fun v _ heq => (hself heq ▸ le_rfl)⟩

/-- The rounding of a float is that float. -/
lemma Rounds.eq_self {mode : Mode} (hx : x ∈ floats p emin) (h : Rounds p emin mode x r) :
    r = x := by
  have hnear (h : IsNearest (floats p emin) x r) : r = x := by
    have hle := h.2 x hx
    rw [sub_self, abs_zero, abs_nonpos_iff, sub_eq_zero] at hle
    exact hle.symm
  have hself := rounds_self mode hx
  cases mode with
  | nearestEven => exact hnear h.1
  | towardZero =>
    rw [Rounds] at h hself
    split_ifs at h hself
    · exact h.unique hself
    · exact h.unique hself
  | down => exact IsGreatest.unique h hself
  | up => exact IsLeast.unique h hself
  | nearestAway => exact hnear h.1

lemma floats_subset {p' : ℕ} {emin' : WithBot ℤ} (hp : p ≤ p') (he : emin' ≤ emin) :
    (floats p emin : Set K) ⊆ floats p' emin' := by
  rintro v ⟨m, e, hm, hle, rfl⟩
  exact ⟨m, e, hm.trans_le (pow_le_pow_right₀ one_le_two hp), he.trans hle, rfl⟩

lemma intCast_mem_floats {n : ℤ} (hp : 1 ≤ p) (he : emin ≤ (0 : ℤ)) (hn : |n| ≤ 2 ^ p) :
    (n : K) ∈ floats p emin := by
  rcases hn.lt_or_eq with hlt | heq
  · exact ⟨n, 0, hlt, he, by simp⟩
  · have hone : |(1 : ℤ)| < 2 ^ p := by
      simpa using one_lt_pow₀ (one_lt_two : (1 : ℤ) < 2) (by omega)
    have hpos : (2 ^ p : K) ∈ floats p emin := ⟨1, p, hone, he.trans (by simp), by simp⟩
    rcases eq_or_eq_neg_of_abs_eq heq with rfl | rfl
    · simpa using hpos
    · simpa using neg_mem_floats hpos

/-- Whether a positive number goes to its upper neighbour, from the low bit of the lower one,
whether the number is in the upper half of the cell, and whether it is beyond the start of its
half. -/
def Mode.increments : Mode → Bool → Bool → Bool → Bool
  | .nearestEven, odd, half, rest => half && (rest || odd)
  | .towardZero, _, _, _ => false
  | .down, _, _, _ => false
  | .up, _, half, rest => half || rest
  | .nearestAway, _, half, _ => half

section

variable {half rest : Bool}

lemma Cell.rounds_low (h : Cell p emin x n e) (hx : 0 ≤ x) {mode : Mode}
    (hmode : mode = .towardZero ∨ mode = .down ∨ mode ≠ .up ∧ x < (n + 1 / 2) * 2 ^ e ∨
      mode = .nearestEven ∧ n % 2 = 0 ∧ x ≤ (n + 1 / 2) * 2 ^ e) :
    Rounds p emin mode x (n * 2 ^ e) := by
  have hgreatest := h.isGreatest
  cases mode with
  | nearestEven =>
    have hle : x ≤ (n + 1 / 2) * 2 ^ e := by
      rcases hmode with hm | hm | ⟨-, hm⟩ | ⟨-, -, hm⟩
      · cases hm
      · cases hm
      · exact hm.le
      · exact hm
    have hle' : x - n * 2 ^ e ≤ (n + 1) * 2 ^ e - x := by linarith
    refine ⟨h.isNearest_low hle', fun ⟨v, hv, hne, heq⟩ => ?_⟩
    have htie := ((h.eq_of_tie_low hle' hv heq).resolve_left hne).2
    rcases hmode with hm | hm | ⟨-, hm⟩ | ⟨-, hm, -⟩
    · cases hm
    · cases hm
    · linarith
    · exact h.isEven_low hm
  | towardZero =>
    rw [Rounds, if_pos hx]
    exact hgreatest
  | down => exact hgreatest
  | up => simp at hmode
  | nearestAway =>
    have hlt : x < (n + 1 / 2) * 2 ^ e := by simpa using hmode
    have hle' : x - n * 2 ^ e ≤ (n + 1) * 2 ^ e - x := by linarith
    refine ⟨h.isNearest_low hle', fun v hv heq => ?_⟩
    rcases h.eq_of_tie_low hle' hv heq with rfl | ⟨-, htie⟩
    · exact le_rfl
    · linarith

lemma Cell.rounds_high (hp : 2 ≤ p) (h : Cell p emin x n e) (hne : x ≠ n * 2 ^ e) {mode : Mode}
    (hmode : mode = .up ∨ (mode = .nearestEven ∨ mode = .nearestAway) ∧ (n + 1 / 2) * 2 ^ e < x ∨
      (mode = .nearestEven ∧ n % 2 = 1 ∨ mode = .nearestAway) ∧ (n + 1 / 2) * 2 ^ e ≤ x) :
    Rounds p emin mode x ((n + 1) * 2 ^ e) := by
  have hp1 : 1 ≤ p := by omega
  have hhalf (hm : mode ≠ .up) : (n + 1 / 2) * 2 ^ e ≤ x := by
    rcases hmode with hup | ⟨-, hm'⟩ | ⟨-, hm'⟩
    · exact absurd hup hm
    · exact hm'.le
    · exact hm'
  cases mode with
  | nearestEven =>
    have hle := hhalf (by simp)
    have hle' : (n + 1) * 2 ^ e - x ≤ x - n * 2 ^ e := by linarith
    refine ⟨h.isNearest_high hp1 hle', fun ⟨v, hv, hvne, heq⟩ => ?_⟩
    have htie := ((h.eq_of_tie_high hle' hv heq).resolve_left hvne).2
    rcases hmode with hm | ⟨-, hm⟩ | ⟨hm, -⟩
    · cases hm
    · linarith
    · exact h.isEven_high hp (by simpa using hm)
  | towardZero => simp at hmode
  | down => simp at hmode
  | up => exact h.isLeast hp1 hne
  | nearestAway =>
    have hle := hhalf (by simp)
    have hle' : (n + 1) * 2 ^ e - x ≤ x - n * 2 ^ e := by linarith
    refine ⟨h.isNearest_high hp1 hle', fun v hv heq => ?_⟩
    rcases h.eq_of_tie_high hle' hv heq with rfl | ⟨rfl, -⟩
    · exact le_rfl
    · have hpos := Cell.pow_pos (K := K) e
      rw [abs_of_nonneg (by positivity), abs_of_nonneg (by positivity)]
      linarith

/-- The rounding of a positive number, from where it lies in its cell. -/
theorem Cell.rounds (hp : 2 ≤ p) (h : Cell p emin x n e) (hx : 0 ≤ x) (mode : Mode)
    (hhalf : half ↔ (n + 1 / 2) * 2 ^ e ≤ x)
    (hrest : rest ↔ x ≠ n * 2 ^ e ∧ x ≠ (n + 1 / 2) * 2 ^ e) :
    Rounds p emin mode x ((n + (mode.increments (n % 2 != 0) half rest).toNat : ℕ) * 2 ^ e) := by
  have hpos := Cell.pow_pos (K := K) e
  have hlow : n * 2 ^ e ≤ x := h.low
  rcases hmode : mode.increments (n % 2 != 0) half rest
  · rw [Bool.toNat_false, Nat.add_zero]
    by_cases heq : x = n * 2 ^ e
    · rw [← heq]
      exact rounds_self mode (heq ▸ h.low_mem)
    refine h.rounds_low hx ?_
    rcases half
    · have hlt : x < (n + 1 / 2) * 2 ^ e := by simpa using hhalf
      have hr : rest = true := hrest.mpr ⟨heq, hlt.ne⟩
      cases mode <;> simp_all [Mode.increments]
    · have hle : (n + 1 / 2) * 2 ^ e ≤ x := by simpa using hhalf
      cases mode with
      | nearestEven =>
        simp only [Mode.increments, Bool.true_and, Bool.or_eq_false_iff] at hmode
        have hx' : x = (n + 1 / 2) * 2 ^ e := by
          by_contra hne
          rw [hrest.mpr ⟨heq, hne⟩] at hmode
          cases hmode.1
        exact .inr (.inr (.inr ⟨rfl, by simpa using hmode.2, hx'.le⟩))
      | towardZero => exact .inl rfl
      | down => exact .inr (.inl rfl)
      | up => simp [Mode.increments] at hmode
      | nearestAway => simp [Mode.increments] at hmode
  · rw [Bool.toNat_true]
    push_cast
    have hsome : half = true ∨ rest = true := by
      cases mode <;> simp_all [Mode.increments]
    have hne : x ≠ n * 2 ^ e := by
      rcases hsome with hh | hr
      · have := hhalf.mp hh
        intro heq
        linarith
      · exact (hrest.mp hr).1
    refine h.rounds_high hp hne ?_
    cases mode with
    | nearestEven =>
      simp only [Mode.increments, Bool.and_eq_true, Bool.or_eq_true] at hmode
      obtain ⟨hh, hr | hodd⟩ := hmode
      · have hle := hhalf.mp hh
        exact .inr (.inl ⟨.inl rfl, lt_of_le_of_ne hle (hrest.mp hr).2.symm⟩)
      · exact .inr (.inr ⟨.inl ⟨rfl, by simpa using hodd⟩, hhalf.mp hh⟩)
    | towardZero => simp [Mode.increments] at hmode
    | down => simp [Mode.increments] at hmode
    | up => exact .inl rfl
    | nearestAway => exact .inr (.inr ⟨.inr rfl, hhalf.mp hmode⟩)

/-! ## Integers -/

variable {x : ℚ}

/-- The rounding of a rational to an integer. -/
def RoundsToInt (mode : Mode) (x : ℚ) (n : ℤ) : Prop :=
  match mode with
  | .nearestEven => |x - n| ≤ 1 / 2 ∧ (|x - n| = 1 / 2 → Even n)
  | .towardZero => n = if 0 ≤ x then ⌊x⌋ else ⌈x⌉
  | .down => n = ⌊x⌋
  | .up => n = ⌈x⌉
  | .nearestAway => |x - n| ≤ 1 / 2 ∧ (|x - n| = 1 / 2 → |x| ≤ |(n : ℚ)|)

lemma RoundsToInt.eq_self {mode : Mode} {n k : ℤ} (h : RoundsToInt mode n k) : k = n := by
  have hnear (h : |(n : ℚ) - k| ≤ 1 / 2) : k = n := by
    rw [← Int.cast_sub, ← Int.cast_abs] at h
    have hlt : (|n - k| : ℤ) < 1 := by exact_mod_cast h.trans_lt one_half_lt_one
    rw [Int.abs_lt_one_iff] at hlt
    omega
  cases mode with
  | nearestEven => exact hnear h.1
  | towardZero => simpa [RoundsToInt] using h
  | down => simpa [RoundsToInt] using h
  | up => simpa [RoundsToInt] using h
  | nearestAway => exact hnear h.1

lemma RoundsToInt.neg {mode : Mode} {n : ℤ} (hx : 0 < x) (h : RoundsToInt mode.flip x n) :
    RoundsToInt mode (-x) (-n) := by
  have habs : |-x - ((-n : ℤ) : ℚ)| = |x - n| := by
    rw [← abs_neg]
    congr 1
    push_cast
    ring
  cases mode with
  | nearestEven => exact ⟨habs ▸ h.1, fun htie => (h.2 (habs ▸ htie)).neg⟩
  | towardZero =>
    have hn : n = ⌊x⌋ := by simpa only [RoundsToInt, Mode.flip, if_pos hx.le] using h
    rw [RoundsToInt, if_neg (by linarith), Int.ceil_neg, hn]
  | down => exact (congrArg Neg.neg h).trans Int.floor_neg.symm
  | up => exact (congrArg Neg.neg h).trans Int.ceil_neg.symm
  | nearestAway =>
    refine ⟨habs ▸ h.1, fun htie => ?_⟩
    rw [Int.cast_neg, abs_neg, abs_neg]
    exact h.2 (habs ▸ htie)

/-- The integer a positive number is rounded to, from where it lies between two integers. -/
theorem roundsToInt_of_cell (hlow : n ≤ x) (hhigh : x < n + 1) (hhalf : half ↔ n + 1 / 2 ≤ x)
    (hrest : rest ↔ x ≠ n ∧ x ≠ n + 1 / 2) (mode : Mode) :
    RoundsToInt mode x (n + (mode.increments (n % 2 != 0) half rest).toNat : ℕ) := by
  have hx : 0 ≤ x := (Nat.cast_nonneg n).trans hlow
  have hfloor : ⌊x⌋ = n := Int.floor_eq_iff.mpr ⟨hlow, hhigh⟩
  have hceil (hne : n < x) : ⌈x⌉ = n + 1 := by
    refine Int.ceil_eq_iff.mpr ⟨?_, ?_⟩
    · push_cast
      linarith
    · push_cast
      exact hhigh.le
  have hsucc : |x - (n + 1)| = n + 1 - x := by
    rw [abs_of_neg (by linarith)]
    ring
  have hself : |x - n| = x - n := abs_of_nonneg (by linarith)
  rcases half <;> rcases rest
  · -- the integer itself
    have hxn : x = n := by
      by_contra hne
      exact absurd (hrest.mpr ⟨hne, fun h => by simp [h] at hhalf⟩) (by simp)
    cases mode <;> simp [RoundsToInt, Mode.increments, hxn]
  · have hlt : x < n + 1 / 2 := by simpa using hhalf
    have hne : (n : ℚ) < x := lt_of_le_of_ne hlow (Ne.symm (hrest.mp rfl).1)
    cases mode <;> simp [RoundsToInt, Mode.increments, hx, hfloor, hceil hne, hself]
    · exact ⟨by linarith, fun h => by linarith⟩
    · exact ⟨by linarith, fun h => by linarith⟩
  · -- halfway
    have hxn : x = n + 1 / 2 := by
      have hle : n + 1 / 2 ≤ x := by simpa using hhalf
      by_contra hne
      exact absurd (hrest.mpr ⟨by linarith, hne⟩) (by simp)
    have hne : (n : ℚ) < x := by linarith
    cases mode with
    | nearestEven =>
      rcases Nat.mod_two_eq_zero_or_one n with hn | hn
      · refine ⟨?_, fun _ => ?_⟩ <;> simp [Mode.increments, hn, hself, Nat.even_iff]
        linarith
      · refine ⟨?_, fun _ => ?_⟩ <;> simp [Mode.increments, hn, hsucc, Nat.odd_iff, parity_simps]
        linarith
    | towardZero | down | up => simp [RoundsToInt, Mode.increments, hx, hfloor, hceil hne]
    | nearestAway =>
      have hpos : |(n : ℚ) + 1| = n + 1 := abs_of_pos (by linarith)
      refine ⟨?_, fun _ => ?_⟩ <;>
        simp [Mode.increments, hsucc, hpos, abs_of_nonneg hx] <;> linarith
  · have hlt : n + 1 / 2 < x := lt_of_le_of_ne (by simpa using hhalf) (Ne.symm (hrest.mp rfl).2)
    have hne : (n : ℚ) < x := by linarith
    cases mode <;> simp [RoundsToInt, Mode.increments, hx, hfloor, hceil hne, hsucc]
    · exact ⟨by linarith, fun h => by linarith⟩
    · exact ⟨by linarith, fun h => by linarith⟩

end

end Rounding
