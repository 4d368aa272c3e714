import RiscvEmu.Softfloat.Ieee

/-!
# Rounding is correct

`round_pack` brings a significand to a fixed width, splits it at the last place kept, rounds and
puts the pattern together.  A split is a cell of the format with the position of the exact value in
it, so what is delivered is the rounding of that value, with the flags it is due.
-/

namespace RiscvEmu

namespace Softfloat

open Csr Rounding

variable {K : Type*} [Field K] [LinearOrder K] [IsStrictOrderedRing K]

set_option linter.unusedSectionVars false

/-! ## Splitting -/

/-- A number is split at a place: the places kept, the half of the rest, and what is below that. -/
structure Splits (y w : K) (s : ℕ × Bool × Bool) : Prop where
  low : s.1 * w ≤ y
  high : y < (s.1 + 1) * w
  half : s.2.1 ↔ (s.1 + 1 / 2) * w ≤ y
  rest : s.2.2 ↔ y ≠ s.1 * w ∧ y ≠ (s.1 + 1 / 2) * w

/-- A significand at full width stands for a number: exactly, or up to a power of two that divides
the significand. -/
structure Aligned (y : K) (sigN : ℕ) (sticky : Bool) (k : ℕ) : Prop where
  top : 2 ^ T ≤ sigN
  lt : sigN < 2 ^ (T + 1)
  dvd : 2 ^ k ∣ sigN
  low : sigN ≤ y
  high : y < sigN + 2 ^ k
  exact : sticky = false ↔ y = sigN

variable {y w x : K} {s : ℕ × Bool × Bool} {sigN k shift : ℕ} {sticky : Bool}

lemma Splits.scale (h : Splits y w s) {c : K} (hc : 0 < c) : Splits (y * c) (w * c) s := by
  have hmul (a : K) : a * (w * c) = a * w * c := by ring
  have hne (a : K) : y * c ≠ a * (w * c) ↔ y ≠ a * w := by
    rw [hmul, Ne, mul_left_inj' hc.ne']
  refine ⟨?_, ?_, ?_, ?_⟩
  · rw [hmul]
    exact mul_le_mul_of_nonneg_right h.low hc.le
  · rw [hmul]
    exact mul_lt_mul_of_pos_right h.high hc
  · rw [hmul, mul_le_mul_iff_left₀ hc]
    exact h.half
  · rw [hne, hne]
    exact h.rest

/-- Multiples of a power of two that differ, differ by it. -/
lemma add_two_pow_le {a b k : ℕ} (ha : 2 ^ k ∣ a) (hb : 2 ^ k ∣ b) (h : a < b) : a + 2 ^ k ≤ b := by
  obtain ⟨a, rfl⟩ := ha
  obtain ⟨b, rfl⟩ := hb
  have hlt : a < b := Nat.lt_of_mul_lt_mul_left h
  calc 2 ^ k * a + 2 ^ k = 2 ^ k * (a + 1) := by ring
    _ ≤ 2 ^ k * b := Nat.mul_le_mul_left _ hlt

lemma Aligned.lt_top (h : Aligned y sigN sticky k) (hk : k ≤ T) : y < 2 ^ (T + 1) := by
  have hle := add_two_pow_le h.dvd (Nat.pow_dvd_pow 2 (by omega : k ≤ T + 1)) h.lt
  calc y < sigN + 2 ^ k := h.high
    _ ≤ 2 ^ (T + 1) := by exact_mod_cast hle

lemma Aligned.pos (h : Aligned y sigN sticky k) : 0 < y := by
  have htop : (2 ^ T : K) ≤ sigN := by exact_mod_cast h.top
  have hpos : (0 : K) < 2 ^ T := by positivity
  exact hpos.trans_le (htop.trans h.low)

lemma splits_small (hpos : 0 < y) (hlt : 2 * y < w) : Splits y w (0, false, true) := by
  refine ⟨?_, ?_, ?_, ?_⟩
  · simpa using hpos.le
  · simp only [Nat.cast_zero, zero_add, one_mul]
    linarith
  · simp only [Bool.false_eq_true, false_iff, not_le, Nat.cast_zero, zero_add]
    linarith
  · simp only [true_iff, Nat.cast_zero, zero_add, zero_mul]
    exact ⟨hpos.ne', by linarith⟩

/-- A number of `q` cells, `b` halves of one, and less than another half. -/
lemma splits_of_halves {q b r : ℕ} {h slack : K} (hb : b < 2) (hrem : r + slack ≤ h)
    (hlow : 2 * h * q + (h * b + r) ≤ y) (hhigh : y < 2 * h * q + (h * b + r) + slack)
    (hexact : sticky = false ↔ y = 2 * h * q + (h * b + r)) :
    Splits y (2 * h) (q, b % 2 != 0, r != 0 || sticky) := by
  have hr : (0 : K) ≤ r := Nat.cast_nonneg r
  have hrest : (r != 0 || sticky) = true ↔ y ≠ 2 * h * q + h * b := by
    rw [Bool.or_eq_true, bne_iff_ne]
    constructor
    · rintro (hr | hst) heq
      · have : (0 : K) < r := by exact_mod_cast Nat.pos_of_ne_zero hr
        linarith
      · have hne := mt hexact.mpr (by simp [hst])
        exact hne (le_antisymm (by linarith) hlow)
    · intro hne
      by_contra hcon
      rw [not_or, not_not, Bool.not_eq_true] at hcon
      refine hne ((hexact.mp hcon.2).trans ?_)
      rw [hcon.1, Nat.cast_zero, add_zero]
  rcases (by omega : b = 0 ∨ b = 1) with rfl | rfl
  · simp only [Nat.cast_zero, mul_zero, zero_add, add_zero] at hlow hhigh hrest
    refine ⟨by linarith, by linarith, ?_, hrest.trans ⟨fun hne =>
      ⟨?_, ?_⟩, fun hne heq => hne.1 ?_⟩⟩
    · simp only [Nat.zero_mod, bne_self_eq_false, Bool.false_eq_true, false_iff, not_le]
      linarith
    · exact fun heq => hne (by linarith)
    · intro heq
      linarith
    · linarith
  · simp only [Nat.cast_one, mul_one] at hlow hhigh hrest
    refine ⟨by linarith, by linarith, ?_, hrest.trans ⟨fun hne =>
      ⟨?_, ?_⟩, fun hne heq => hne.2 ?_⟩⟩
    · have hone : (1 % 2 != 0) = true := rfl
      rw [hone, eq_self, true_iff]
      linarith
    · intro heq
      linarith
    · exact fun heq => hne (by linarith)
    · linarith

/-- Cells of `2 ^ (k + 1)`, halves of them, and the rest. -/
lemma eq_halves (n k : ℕ) :
    n % 2 ^ (k + 1) / 2 ^ k < 2 ∧ (n : K) = 2 * 2 ^ k * ((n / 2 ^ (k + 1) : ℕ) : K) +
    (2 ^ k * ((n % 2 ^ (k + 1) / 2 ^ k : ℕ) : K) + ((n % 2 ^ (k + 1) % 2 ^ k : ℕ) : K)) := by
  have hhalf : 2 ^ (k + 1) = 2 * 2 ^ k := by ring
  refine ⟨?_, ?_⟩
  · rw [Nat.div_lt_iff_lt_mul (Nat.two_pow_pos k), ← hhalf]
    exact Nat.mod_lt _ (Nat.two_pow_pos _)
  · have hnat : n =
      2 * 2 ^ k * (n / 2 ^ (k + 1)) +
        (2 ^ k * (n % 2 ^ (k + 1) / 2 ^ k) + n % 2 ^ (k + 1) % 2 ^ k) := by
      rw [Nat.div_add_mod, ← hhalf, Nat.div_add_mod]
    exact_mod_cast hnat

lemma splitAt_splits (h : Aligned y sigN sticky k) (hk : k < shift) (hkT : k ≤ T) :
    Splits y (2 ^ shift) (splitAt sigN sticky shift) := by
  rw [splitAt]
  split_ifs with hs
  · refine splits_small h.pos ?_
    calc 2 * y < 2 * 2 ^ (T + 1) := mul_lt_mul_of_pos_left (h.lt_top hkT) two_pos
      _ = 2 ^ (T + 2) := (pow_succ' 2 (T + 1)).symm
      _ ≤ 2 ^ shift := pow_le_pow_right₀ (by norm_num) hs
  obtain ⟨j, rfl⟩ := Nat.exists_eq_add_of_lt hk
  obtain ⟨hb, hsum⟩ := eq_halves (K := K) sigN (k + j)
  -- the remainder is a multiple of `2 ^ k`, so what is below the significand does not fill the half
  have hrem : sigN % 2 ^ (k + j + 1) % 2 ^ (k + j) + 2 ^ k ≤ 2 ^ (k + j) := by
    have hdvd : 2 ^ k ∣ 2 ^ (k + j) := Nat.pow_dvd_pow 2 (Nat.le_add_right k j)
    have hdvd' : 2 ^ k ∣ 2 ^ (k + j + 1) := Nat.pow_dvd_pow 2 (by omega)
    refine add_two_pow_le ?_ hdvd (Nat.mod_lt _ (Nat.two_pow_pos _))
    rw [Nat.dvd_mod_iff hdvd, Nat.dvd_mod_iff hdvd']
    exact h.dvd
  rw [show (2 : K) ^ (k + j + 1) = 2 * 2 ^ (k + j) by ring, Nat.add_sub_cancel]
  have hlow := h.low
  have hhigh := h.high
  have hexact := h.exact
  rw [hsum] at hlow hhigh hexact
  exact splits_of_halves hb (by exact_mod_cast hrem) hlow hhigh hexact

/-! ## Full width -/

/-- The significand brought to full width, and whether anything is below it. -/
def topSig (sig : ℕ) : ℕ :=
  if Nat.log2 sig > T then sig / 2 ^ (Nat.log2 sig - T) else sig * 2 ^ (T - Nat.log2 sig)

/-- Whether something is lost at full width. -/
def topSticky (sig : ℕ) (sticky : Bool) : Bool :=
  sticky || (Nat.log2 sig > T && sig % 2 ^ (Nat.log2 sig - T) != 0)

/-- A significand and an exponent stand for a number: exactly, or from below within one unit. -/
structure Denotes (x : K) (sig : ℕ) (exp : ℤ) (sticky : Bool) : Prop where
  low : sig * 2 ^ exp ≤ x
  high : x < (sig + 1) * 2 ^ exp
  exact : sticky = false ↔ x = sig * 2 ^ exp

variable {sig : ℕ} {exp : ℤ}

lemma two_pow_log2_le (hsig : sig ≠ 0) : 2 ^ Nat.log2 sig ≤ sig := Nat.log2_self_le hsig

/-- In units of the significand's last place. -/
lemma Denotes.units (h : Denotes x sig exp sticky) : sig ≤ x / 2 ^ exp ∧ x / 2 ^ exp < sig + 1 ∧
    (sticky = false ↔ x / 2 ^ exp = sig) := by
  have hu : (0 : K) < 2 ^ exp := Cell.pow_pos exp
  exact ⟨(le_div_iff₀ hu).mpr h.low,
    (div_lt_iff₀ hu).mpr h.high, by rw [h.exact, div_eq_iff hu.ne']⟩

lemma aligned_of_long (h : Denotes x sig exp sticky) (hsig : sig ≠ 0) (hlong : T < Nat.log2 sig) :
    Aligned (x / 2 ^ (exp + Nat.log2 sig - T)) (topSig sig) (topSticky sig sticky) 0 := by
  obtain ⟨j, hj⟩ := Nat.exists_eq_add_of_le hlong.le
  have hlow := two_pow_log2_le hsig
  have hhigh := Nat.lt_log2_self (n := sig)
  obtain ⟨hyl, hyh, hye⟩ := h.units
  have hsub : Nat.log2 sig - T = j := by omega
  have hpow : (0 : K) < 2 ^ j := by positivity
  have hy : x / 2 ^ (exp + Nat.log2 sig - T) = x / 2 ^ exp / 2 ^ j := by
    have hexp : exp + Nat.log2 sig - T = exp + j := by omega
    rw [hexp, zpow_add₀ (by norm_num), zpow_natCast, div_div]
  have hdiv := Nat.div_add_mod sig (2 ^ j)
  have hmod := Nat.mod_lt sig (Nat.two_pow_pos j)
  have hdivQ : (2 : K) ^ j * (sig / 2 ^ j : ℕ) + (sig % 2 ^ j : ℕ) = sig := by exact_mod_cast hdiv
  have hmodQ : ((sig % 2 ^ j : ℕ) : K) + 1 ≤ 2 ^ j := by exact_mod_cast hmod
  have hr : (0 : K) ≤ (sig % 2 ^ j : ℕ) := Nat.cast_nonneg _
  have hsticky : topSticky sig sticky = (sticky || sig % 2 ^ j != 0) := by
    simp [topSticky, hlong, hsub]
  rw [topSig, if_pos hlong, hsticky, hsub, hy]
  rw [hj, Nat.pow_add] at hlow
  rw [hj, Nat.add_right_comm, Nat.pow_add] at hhigh
  refine ⟨(Nat.le_div_iff_mul_le (Nat.two_pow_pos j)).mpr hlow,
    (Nat.div_lt_iff_lt_mul (Nat.two_pow_pos j)).mpr hhigh, one_dvd _, ?_, ?_, ?_⟩
  · rw [le_div_iff₀ hpow]
    linarith
  · rw [div_lt_iff₀ hpow, pow_zero]
    linarith
  · rw [Bool.or_eq_false_iff, hye, div_eq_iff hpow.ne', bne_eq_false_iff_eq]
    constructor
    · rintro ⟨hz, hr0⟩
      rw [hr0, Nat.cast_zero] at hdivQ
      linarith
    · intro hz
      have hr0 : ((sig % 2 ^ j : ℕ) : K) = 0 := by linarith
      exact ⟨by linarith, by exact_mod_cast hr0⟩

lemma aligned_of_short (h : Denotes x sig exp sticky) (hsig : sig ≠ 0) (hshort : Nat.log2 sig ≤ T) :
    Aligned (x / 2 ^ (exp + Nat.log2 sig - T)) (topSig sig) (topSticky sig sticky)
      (if sticky then T - Nat.log2 sig else 0) := by
  obtain ⟨j, hj⟩ := Nat.exists_eq_add_of_le hshort
  have hlow := two_pow_log2_le hsig
  have hhigh := Nat.lt_log2_self (n := sig)
  have hnot : ¬Nat.log2 sig > T := by omega
  have hsub : T - Nat.log2 sig = j := by omega
  have hsticky : topSticky sig sticky = sticky := by simp [topSticky, hnot]
  obtain ⟨hyl, hyh, hye⟩ := h.units
  have hy : x / 2 ^ (exp + Nat.log2 sig - T) = x / 2 ^ exp * 2 ^ j := by
    have hexp : exp + Nat.log2 sig - T = exp - j := by omega
    rw [hexp, zpow_sub₀ (by norm_num), zpow_natCast, div_div_eq_mul_div, mul_div_right_comm]
  have hpow : (0 : K) < 2 ^ j := by positivity
  have hT : (2 : ℕ) ^ Nat.log2 sig * 2 ^ j = 2 ^ T := by rw [← Nat.pow_add, ← hj]
  rw [topSig, if_neg hnot, hsticky, hsub, hy]
  refine ⟨?_, ?_, ?_, ?_, ?_, ?_⟩
  · rw [← hT]
    exact Nat.mul_le_mul_right _ hlow
  · rw [Nat.pow_succ, ← hT]
    calc sig * 2 ^ j < 2 ^ (Nat.log2 sig + 1) * 2 ^ j :=
      Nat.mul_lt_mul_of_pos_right hhigh (Nat.two_pow_pos j)
      _ = 2 ^ Nat.log2 sig * 2 ^ j * 2 := by ring
  · split_ifs
    · exact Dvd.intro_left _ rfl
    · exact one_dvd _
  · push_cast
    exact mul_le_mul_of_nonneg_right hyl hpow.le
  · push_cast
    split_ifs with hst
    · calc x / 2 ^ exp * 2 ^ j < (sig + 1) * 2 ^ j := mul_lt_mul_of_pos_right hyh hpow
        _ = sig * 2 ^ j + 2 ^ j := by ring
    · rw [hye.mp (by simpa using hst)]
      simp
  · rw [hye]
    push_cast
    exact (mul_left_inj' hpow.ne').symm

/-- At full width, with room enough below for the place where it will be split. -/
lemma aligned_of_denotes {p : ℕ} (h : Denotes x sig exp sticky) (hsig : sig ≠ 0) (hp : p ≤ T)
    (hst : sticky → p ≤ Nat.log2 sig) :
    ∃ k, k + p ≤ T ∧
      Aligned (x / 2 ^ (exp + Nat.log2 sig - T)) (topSig sig) (topSticky sig sticky) k := by
  rcases Nat.lt_or_ge T (Nat.log2 sig) with hlong | hshort
  · exact ⟨0, by omega, aligned_of_long h hsig hlong⟩
  · refine ⟨_, ?_, aligned_of_short h hsig hshort⟩
    split_ifs with hsticky
    · have := hst hsticky
      omega
    · omega

/-! ## Rounding a split -/

/-- A magnitude with a sign. -/
def signed (sign : Bool) (v : K) : K := if sign then -v else v

lemma abs_signed (sign : Bool) {v : K} (hv : 0 ≤ v) : |signed sign v| = v := by
  rw [signed]
  split_ifs
  · rw [abs_neg, abs_of_nonneg hv]
  · exact abs_of_nonneg hv

lemma cast_signed (sign : Bool) (v : ℚ) : ((signed sign v : ℚ) : K) = signed sign (v : K) := by
  cases sign <;> simp [signed]

lemma signed_neg_iff (sign : Bool) (hx : 0 < x) : decide (signed sign x < 0) = sign := by
  rw [signed]
  cases sign
  · simpa using hx.le
  · simpa using hx

lemma signed_inj (sign : Bool) {v v' : K} : signed sign v = signed sign v' ↔ v = v' := by
  cases sign <;> simp [signed]

/-- The source's test for rounding up is that of the mode, seen from the other side of zero for a
negative number. -/
lemma roundsUp_eq (rm : Rm) (sign lsb half rest : Bool) :
    roundsUp rm sign lsb half rest =
      (if sign then rm.mode.flip else rm.mode).increments lsb half rest := by
  cases rm <;> cases sign <;> simp [roundsUp, Rm.mode, Mode.flip, Mode.increments]

variable {p : ℕ} {emin : WithBot ℤ} {e : ℤ}

lemma Splits.rounds (h : Splits x (2 ^ e) s) (hp : 2 ≤ p) (hx : 0 < x) (hlt : s.1 < 2 ^ p)
    (he : emin ≤ e) (hcanonical : 2 ^ (p - 1) ≤ s.1 ∨ emin = e) (rm : Rm) (sign : Bool) :
    Rounds p emin rm.mode (signed sign x)
      (signed sign (roundUp rm sign s.1 s.2.1 s.2.2 * 2 ^ e)) := by
  have hcell : Cell p emin x s.1 e := ⟨hlt, he, hcanonical, h.low, h.high⟩
  have hrounds (mode : Mode) := hcell.rounds hp hx.le mode h.half h.rest
  rw [roundUp, roundsUp_eq]
  cases sign with
  | false => exact hrounds rm.mode
  | true => exact (hrounds rm.mode.flip).neg hx

/-- Nothing is dropped exactly if the rounding is the number itself. -/
lemma Splits.roundUp_eq_iff (h : Splits x w s) (rm : Rm) (sign : Bool) :
    (roundUp rm sign s.1 s.2.1 s.2.2 : K) * w = x ↔ (s.2.1 || s.2.2) = false := by
  have hlow := h.low
  have hhigh := h.high
  have hhalf := h.half
  have hrest := h.rest
  obtain ⟨n, half, rest⟩ := s
  dsimp only at *
  rw [roundUp]
  have hle : (roundsUp rm sign (n % 2 != 0) half rest).toNat ≤ 1 := Bool.toNat_le _
  constructor
  · intro heq
    by_contra hne
    rw [Bool.not_eq_false, Bool.or_eq_true] at hne
    have hx : x ≠ n * w := by
      rcases hne with hh | hr
      · intro h
        have := hhalf.mp hh
        linarith
      · exact (hrest.mp hr).1
    rcases (by omega : (roundsUp rm sign (n % 2 != 0) half rest).toNat = 0 ∨
        (roundsUp rm sign (n % 2 != 0) half rest).toNat = 1) with h0 | h1
    · rw [h0, Nat.add_zero] at heq
      exact hx heq.symm
    · rw [h1] at heq
      push_cast at heq
      linarith
  · intro hnone
    rw [Bool.or_eq_false_iff] at hnone
    obtain ⟨rfl, rfl⟩ := hnone
    have hmid : ¬(n + 1 / 2) * w ≤ x := by simpa using hhalf
    have hx : x = n * w := by
      by_contra hne
      have := hrest.mpr ⟨hne, by intro h; linarith⟩
      cases this
    have hzero : roundsUp rm sign (n % 2 != 0) false false = false := by
      cases rm <;> simp [roundsUp]
    rw [hzero, hx]
    simp

/-! ## Packing -/

/-- The end of `roundPackPos` for a number with a normal exponent. -/
def packNormal (sign : Bool) (biased : ℤ) (f : Fmt) (rm : Rm) (s : ℕ × Bool × Bool) : U64 × U64 :=
  let kept := roundUp rm sign s.1 s.2.1 s.2.2
  let flags := if s.2.1 || s.2.2 then fflagNx else 0
  let carried := kept == 2 ^ f.p
  let k := if carried then kept / 2 else kept
  let be := if carried then biased + 1 else biased
  if be ≥ f.expMax.toNat then
    (if rm.overflowsToInf sign then f.inf sign else f.maxFinite sign, flags ||| fflagOf ||| fflagNx)
  else
    (f.zero sign ||| (BitVec.ofInt 64 be <<< f.fracBits) |||
      (BitVec.ofNat 64 k &&& f.fracMask), flags)

/-- The end of `roundPackPos` below the normal exponents, with the split at full precision. -/
def packTiny (sign : Bool) (eLead : ℤ) (f : Fmt) (rm : Rm) (s sP : ℕ × Bool × Bool) : U64 × U64 :=
  let kept := roundUp rm sign s.1 s.2.1 s.2.2
  let flags := if s.2.1 || s.2.2 then fflagNx else 0
  let roundedP := roundUp rm sign sP.1 sP.2.1 sP.2.2
  let reachesNormal := eLead = 1 - f.bias - 1 ∧ roundedP = 2 ^ f.p
  (f.zero sign ||| BitVec.ofNat 64 kept,
    if (s.2.1 || s.2.2) ∧ ¬reachesNormal then flags ||| fflagUf else flags)

lemma roundPackPos_eq (sign : Bool) (exp : ℤ) (sig : ℕ) (sticky : Bool) (f : Fmt) (rm : Rm) :
    roundPackPos sign exp sig sticky f rm =
      let split := splitAt (topSig sig) (topSticky sig sticky)
      if exp + Nat.log2 sig + f.bias ≥ 1 then
        packNormal sign (exp + Nat.log2 sig + f.bias) f rm (split (T + 1 - f.p))
      else
        packTiny sign (exp + Nat.log2 sig) f rm
          (split (T + 1 - f.p + (1 - (exp + Nat.log2 sig + f.bias)).toNat))
          (split (T + 1 - f.p)) := by
  unfold roundPackPos
  by_cases hnormal : exp + Nat.log2 sig + f.bias ≥ 1
  · simp only [if_pos hnormal]
    rfl
  · simp only [if_neg hnormal]
    rfl

lemma roundUp_bounds (rm : Rm) (sign : Bool) (n : ℕ) (half rest : Bool) :
    n ≤ roundUp rm sign n half rest ∧ roundUp rm sign n half rest ≤ n + 1 :=
  ⟨Nat.le_add_right _ _, Nat.add_le_add_left (Bool.toNat_le _) n⟩

section Pack

variable {f : Fmt} (hf : f.Ieee)
include hf

lemma two_pow_expBits_eq : (2 : ℤ) ^ f.expBits = 2 * (f.bias + 1) ∧ 1 ≤ f.bias := by
  obtain ⟨k, hk⟩ := Nat.exists_eq_add_of_le' hf.two_le_expBits
  have hpos : (0 : ℤ) < 2 ^ k := by positivity
  rw [Fmt.bias, hk, Nat.add_sub_assoc (by norm_num), pow_succ, pow_succ]
  constructor
  · ring
  · linarith

lemma expMax_eq : (f.expMax.toNat : ℤ) = 2 * f.bias + 1 := by
  have hfour := two_pow_expBits hf
  have hpow := (two_pow_expBits_eq hf).1
  rw [toNat_expMax hf, Nat.cast_sub (by omega)]
  push_cast
  omega

omit hf in
/-- A significand of full precision, with the exponent of its leading place. -/
lemma two_pow_frac_mul (be : ℤ) :
    (2 : ℚ) ^ f.fracBits * 2 ^ (be - 1 + f.qmin) = 2 ^ (be - f.bias) := by
  rw [← zpow_natCast, ← zpow_add₀ (by norm_num), Fmt.qmin, Fmt.emin]
  congr 1
  ring

omit hf in
lemma cast_mul_two_pow (k : ℕ) (e : ℤ) : ((k * 2 ^ e : ℚ) : K) = k * 2 ^ e := by push_cast; rfl

lemma overflow_iff {k : ℕ} {be : ℤ} (hlow : 2 ^ f.fracBits ≤ k) (hhigh : k < 2 ^ f.p) :
    (2 : ℚ) ^ (f.emax + 1) ≤ k * 2 ^ (be - 1 + f.qmin) ↔ (f.expMax.toNat : ℤ) ≤ be := by
  have hpos : (0 : ℚ) < 2 ^ (be - 1 + f.qmin) := Cell.pow_pos _
  have hlead := two_pow_frac_mul (f := f) be
  have hlowQ : (2 : ℚ) ^ f.fracBits ≤ k := by exact_mod_cast hlow
  have hhighQ : (k : ℚ) < 2 ^ f.fracBits * 2 := by
    rw [← pow_succ]
    exact_mod_cast hhigh
  rw [expMax_eq hf, Fmt.emax]
  constructor
  · intro h
    by_contra hlt
    have hle : (2 : ℚ) ^ (be - f.bias + 1) ≤ 2 ^ (f.bias + 1) :=
      zpow_le_zpow_right₀ (by norm_num) (by omega)
    rw [zpow_add_one₀ (by norm_num)] at hle
    nlinarith
  · intro h
    have hle : (2 : ℚ) ^ (f.bias + 1) ≤ 2 ^ (be - f.bias) :=
      zpow_le_zpow_right₀ (by norm_num) (by omega)
    nlinarith

lemma reads_packed (sign : Bool) {k : ℕ} {be : ℤ} (hlow : 2 ^ f.fracBits ≤ k) (hhigh : k < 2 ^ f.p)
    (hpos : 1 ≤ be) (hbe : ¬be ≥ f.expMax.toNat) :
    f.Reads (f.zero sign ||| (BitVec.ofInt 64 be <<< f.fracBits) |||
      (BitVec.ofNat 64 k &&& f.fracMask)) sign
      (k * 2 ^ (be - 1 + f.qmin)) := by
  obtain ⟨b, rfl⟩ : ∃ b : ℕ, be = b := ⟨be.toNat, by omega⟩
  have hfour := two_pow_expBits hf
  rw [toNat_expMax hf] at hbe
  have hb : b < 2 ^ f.expBits - 1 := by omega
  have hexp : 2 ^ f.expBits ≤ 2 ^ 63 :=
    Nat.pow_le_pow_right (by norm_num) (by have := hf.width_le; omega)
  have hfrac : 2 ^ f.p ≤ 2 ^ 53 :=
    Nat.pow_le_pow_right (by norm_num) (by have := hf.fracBits_le; rw [Fmt.p]; omega)
  have hbNat : (BitVec.ofInt 64 (b : ℤ)).toNat = b := by
    rw [BitVec.ofInt_natCast, BitVec.toNat_ofNat, Nat.mod_eq_of_lt (by omega)]
  have hkNat : (BitVec.ofNat 64 k &&& f.fracMask).toNat = k - 2 ^ f.fracBits := by
    have htwo : 2 ^ f.p = 2 ^ f.fracBits + 2 ^ f.fracBits := by rw [Fmt.p, Nat.pow_succ]; ring
    rw [toNat_and_fracMask hf, Fmt.fracField, BitVec.toNat_ofNat,
      Nat.mod_eq_of_lt (by omega : k < 2 ^ 64), Nat.mod_eq_sub_mod hlow,
        Nat.mod_eq_of_lt (by omega)]
  have hk : k - 2 ^ f.fracBits < 2 ^ f.fracBits := by
    have htwo : 2 ^ f.p = 2 ^ f.fracBits + 2 ^ f.fracBits := by rw [Fmt.p, Nat.pow_succ]; ring
    omega
  have hx := toNat_or_frac hf (x := BitVec.ofInt 64 (b : ℤ)) (y := BitVec.ofNat 64 k &&& f.fracMask)
    (by omega) (by omega)
  rw [hbNat, hkNat] at hx
  have h := reads_normal hf sign (by omega) hb hk hx
  rw [Nat.cast_sub hlow] at h
  push_cast at h
  rw [add_sub_cancel] at h
  rwa [BitVec.or_assoc]

omit hf in
lemma Reads.value_eq {bits : U64} {sign : Bool} {m : ℚ} (h : f.Reads bits sign m) :
    f.value bits = signed sign m := by
  rw [Fmt.value, signed, h.sign, h.magnitude]

omit hf in
lemma flags_overflow (inexact : Bool) :
    (if inexact then fflagNx else 0) ||| fflagOf ||| fflagNx = fflagOf ||| fflagNx := by
  cases inexact <;> decide

omit hf in
lemma Delivers.of_overflow {rm : Rm} {sign : Bool} {m m' : ℚ} {res : U64 × U64} (hx : 0 < x)
    (hr : Rounds f.p f.qmin rm.mode (signed sign x) (signed sign (m : K)))
    (hr' : Rounds f.p ⊥ rm.mode (signed sign x) (signed sign (m' : K))) (hm : 0 ≤ m)
    (hover : 2 ^ (f.emax + 1) ≤ m) (hflags : res.2 = fflagOf ||| fflagNx)
    (hres : if rm.overflowsToInf sign then f.ReadsInf res.1 sign
      else f.Reads res.1 sign f.maxMagnitude) :
    Delivers f rm (signed sign x) res := by
  refine ⟨signed sign m, signed sign m', by rwa [cast_signed], by rwa [cast_signed], ?_⟩
  rw [abs_signed sign hm, signed_neg_iff sign hx, if_pos hover]
  exact ⟨hflags, hres⟩

omit hf in
lemma Delivers.of_finite {rm : Rm} {sign : Bool} {m m' : ℚ} {res : U64 × U64} (hx : 0 < x)
    (hr : Rounds f.p f.qmin rm.mode (signed sign x) (signed sign (m : K)))
    (hr' : Rounds f.p ⊥ rm.mode (signed sign x) (signed sign (m' : K))) (hm : 0 ≤ m) (hm' : 0 ≤ m')
    (hover : ¬2 ^ (f.emax + 1) ≤ m) (hreads : f.Reads res.1 sign m)
    (hflags : res.2 = if m = x then 0 else if m' < 2 ^ f.emin then fflagNx ||| fflagUf
      else fflagNx) :
    Delivers f rm (signed sign x) res := by
  refine ⟨signed sign m, signed sign m', by rwa [cast_signed], by rwa [cast_signed], ?_⟩
  simp only [abs_signed sign hm, abs_signed sign hm', signed_neg_iff sign hx, if_neg hover,
    cast_signed, signed_inj]
  exact ⟨hreads, Reads.value_eq hreads, hflags⟩

omit hf in
/-- After a carry the significand is halved and the exponent goes up. -/
lemma exists_packNormal (sign : Bool) (rm : Rm) (biased : ℤ) (hlow : 2 ^ f.fracBits ≤ s.1)
    (hlt : s.1 < 2 ^ f.p) :
    ∃ (k : ℕ) (be : ℤ), 2 ^ f.fracBits ≤ k ∧ k < 2 ^ f.p ∧ biased ≤ be ∧
      (roundUp rm sign s.1 s.2.1 s.2.2 : K) * 2 ^ (biased - 1 + f.qmin) =
        k * 2 ^ (be - 1 + f.qmin) ∧
      packNormal sign biased f rm s =
        if be ≥ f.expMax.toNat then
          (if rm.overflowsToInf sign then f.inf sign else f.maxFinite sign, fflagOf ||| fflagNx)
        else
          (f.zero sign ||| (BitVec.ofInt 64 be <<< f.fracBits) |||
            (BitVec.ofNat 64 k &&& f.fracMask), if s.2.1 || s.2.2 then fflagNx else 0) := by
  obtain ⟨hge, hle⟩ := roundUp_bounds rm sign s.1 s.2.1 s.2.2
  have hpow : 2 ^ f.p = 2 * 2 ^ f.fracBits := by rw [Fmt.p, Nat.pow_succ]; ring
  have hpos := Nat.two_pow_pos f.fracBits
  rw [packNormal, flags_overflow]
  generalize roundUp rm sign s.1 s.2.1 s.2.2 = kept at hge hle ⊢
  by_cases hcarry : kept = 2 ^ f.p
  · refine ⟨2 ^ f.fracBits, biased + 1, le_rfl, by omega, by omega, ?_, ?_⟩
    · rw [hcarry, hpow, show biased + 1 - 1 + f.qmin = biased - 1 + f.qmin + 1 by ring,
        zpow_add_one₀ (by norm_num)]
      push_cast
      ring
    · have hhalf : kept / 2 = 2 ^ f.fracBits := by
        rw [hcarry, hpow, Nat.mul_div_cancel_left _ (by norm_num)]
      simp only [hcarry, beq_self_eq_true, if_true]
      rw [← hcarry, hhalf]
  · refine ⟨kept, biased, by omega, by omega, le_rfl, rfl, ?_⟩
    simp [hcarry]

theorem packNormal_delivers (hx : 0 < x) (sign : Bool) (rm : Rm) {biased : ℤ}
    (h : Splits x (2 ^ (biased - 1 + f.qmin)) s) (hb : 1 ≤ biased) (hlow : 2 ^ f.fracBits ≤ s.1)
    (hlt : s.1 < 2 ^ f.p) : Delivers f rm (signed sign x) (packNormal sign biased f rm s) := by
  have hp : 2 ≤ f.p := by have := hf.fracBits_pos; rw [Fmt.p]; omega
  have hcanonical : 2 ^ (f.p - 1) ≤ s.1 := hlow
  have he : (f.qmin : WithBot ℤ) ≤ (biased - 1 + f.qmin : ℤ) := by
    rw [WithBot.coe_le_coe]
    omega
  obtain ⟨k, be, hk, hk', hbe, hvalue, hpack⟩ := exists_packNormal (K := K) sign rm biased hlow hlt
  have hexact := h.roundUp_eq_iff rm sign
  have hrounds := h.rounds hp hx hlt he (.inl hcanonical) rm sign
  have hrounds' := h.rounds hp hx hlt bot_le (.inl hcanonical) rm sign
  rw [hvalue, ← cast_mul_two_pow] at hexact hrounds hrounds'
  have hnonneg : (0 : ℚ) ≤ k * 2 ^ (be - 1 + f.qmin) :=
    mul_nonneg (Nat.cast_nonneg k) (Cell.pow_pos _).le
  -- a normal number is not tiny
  have hnormal : ¬(k : ℚ) * 2 ^ (be - 1 + f.qmin) < 2 ^ f.emin := by
    have hlead := two_pow_frac_mul (f := f) be
    have hkQ : (2 : ℚ) ^ f.fracBits ≤ k := by exact_mod_cast hk
    have hmin : (2 : ℚ) ^ f.emin ≤ 2 ^ (be - f.bias) :=
      zpow_le_zpow_right₀ (by norm_num) (by rw [Fmt.emin]; omega)
    have hmul := mul_le_mul_of_nonneg_right hkQ (Cell.pow_pos (be - 1 + f.qmin)).le
    linarith
  rw [hpack]
  by_cases hover : be ≥ f.expMax.toNat
  · rw [if_pos hover]
    refine .of_overflow hx hrounds hrounds' hnonneg ((overflow_iff hf hk hk').mpr hover) rfl ?_
    dsimp only
    split_ifs
    · exact readsInf_inf hf sign
    · exact reads_maxFinite hf sign
  · rw [if_neg hover]
    refine .of_finite hx hrounds hrounds' hnonneg hnonneg (mt (overflow_iff hf hk hk').mp hover)
      (reads_packed hf sign hk hk' (by omega) hover) ?_
    rw [if_neg hnormal]
    simp only [hexact]
    cases s.2.1 || s.2.2 <;> rfl

/-- The pattern below the normal numbers, or of the smallest of those. -/
lemma reads_kept (sign : Bool) {kept : ℕ} (hle : kept ≤ 2 ^ f.fracBits) :
    f.Reads (f.zero sign ||| BitVec.ofNat 64 kept) sign (kept * 2 ^ f.qmin) := by
  have hfrac : 2 ^ f.fracBits < 2 ^ 64 := Nat.pow_lt_pow_right (by norm_num) hf.fracBits_lt
  have hfour := two_pow_expBits hf
  have hNat : (BitVec.ofNat 64 kept).toNat = kept := by
    rw [BitVec.toNat_ofNat, Nat.mod_eq_of_lt (by omega)]
  rcases hle.lt_or_eq with hlt | rfl
  · exact reads_subnormal hf sign hlt hNat
  · have h := reads_normal hf sign (by norm_num : 0 < 1) (by omega) (Nat.two_pow_pos _)
      (hNat.trans (by ring : _ = 1 * 2 ^ f.fracBits + 0))
    simpa using h

lemma kept_not_overflow {kept : ℕ} (hle : kept ≤ 2 ^ f.fracBits) :
    ¬(2 : ℚ) ^ (f.emax + 1) ≤ kept * 2 ^ f.qmin := by
  have hbias := (two_pow_expBits_eq hf).2
  have hlead := two_pow_frac_mul (f := f) 1
  have hkQ : (kept : ℚ) ≤ 2 ^ f.fracBits := by exact_mod_cast hle
  have hmul := mul_le_mul_of_nonneg_right hkQ (Cell.pow_pos f.qmin).le
  have hlt : (2 : ℚ) ^ (1 - f.bias) < 2 ^ (f.emax + 1) :=
    zpow_lt_zpow_right₀ (by norm_num) (by rw [Fmt.emax]; omega)
  rw [sub_self, zero_add] at hlead
  linarith

omit hf in
/-- Rounding to full precision stays tiny unless it carries into the first normal number. -/
lemma tiny_iff {keptP : ℕ} {eLead : ℤ} (hle : keptP ≤ 2 ^ f.p) (hsmall : eLead < f.emin) :
    (keptP : ℚ) * 2 ^ (eLead - f.fracBits) < 2 ^ f.emin ↔
      ¬(eLead = 1 - f.bias - 1 ∧ keptP = 2 ^ f.p) := by
  have hlead : (2 : ℚ) ^ f.p * 2 ^ (eLead - f.fracBits) = 2 ^ (eLead + 1) := by
    rw [← zpow_natCast, ← zpow_add₀ (by norm_num), Fmt.p]
    congr 1
    push_cast
    ring
  have hpos := Cell.pow_pos (K := ℚ) (eLead - f.fracBits)
  have hkQ : (keptP : ℚ) ≤ 2 ^ f.p := by exact_mod_cast hle
  rw [Fmt.emin] at hsmall ⊢
  constructor
  · rintro h ⟨rfl, rfl⟩
    push_cast at h
    rw [hlead, sub_add_cancel] at h
    exact h.false
  · intro hnot
    have hmul := mul_le_mul_of_nonneg_right hkQ hpos.le
    by_cases heq : eLead = 1 - f.bias - 1
    · have hlt : (keptP : ℚ) < 2 ^ f.p := by
        exact_mod_cast lt_of_le_of_ne hle fun h => hnot ⟨heq, h⟩
      have hmul' := mul_lt_mul_of_pos_right hlt hpos
      rw [hlead, heq, sub_add_cancel] at hmul'
      rwa [heq]
    · have hlt : (2 : ℚ) ^ (eLead + 1) < 2 ^ (1 - f.bias) :=
        zpow_lt_zpow_right₀ (by norm_num) (by omega)
      linarith

theorem packTiny_delivers (hx : 0 < x) (sign : Bool) (rm : Rm) {eLead : ℤ} {sP : ℕ × Bool × Bool}
    (h : Splits x (2 ^ f.qmin) s) (hlt : s.1 < 2 ^ f.fracBits)
    (hP : Splits x (2 ^ (eLead - f.fracBits)) sP)
    (hlowP : 2 ^ f.fracBits ≤ sP.1) (hltP : sP.1 < 2 ^ f.p) (hsmall : eLead < f.emin) :
    Delivers f rm (signed sign x) (packTiny sign eLead f rm s sP) := by
  have hp : 2 ≤ f.p := by have := hf.fracBits_pos; rw [Fmt.p]; omega
  have hpow : 2 ^ f.p = 2 * 2 ^ f.fracBits := by rw [Fmt.p, Nat.pow_succ]; ring
  have hcanonical : 2 ^ (f.p - 1) ≤ sP.1 := hlowP
  have hexact := h.roundUp_eq_iff rm sign
  have hrounds := h.rounds hp hx (by omega) (le_refl (f.qmin : WithBot ℤ)) (.inr rfl) rm sign
  have hrounds' := hP.rounds hp hx hltP bot_le (.inl hcanonical) rm sign
  obtain ⟨-, hle⟩ := roundUp_bounds rm sign s.1 s.2.1 s.2.2
  obtain ⟨-, hleP⟩ := roundUp_bounds rm sign sP.1 sP.2.1 sP.2.2
  rw [packTiny]
  generalize roundUp rm sign s.1 s.2.1 s.2.2 = kept at hexact hrounds hle ⊢
  generalize roundUp rm sign sP.1 sP.2.1 sP.2.2 = keptP at hrounds' hleP ⊢
  rw [← cast_mul_two_pow] at hexact hrounds
  rw [← cast_mul_two_pow] at hrounds'
  have hnonneg : (0 : ℚ) ≤ kept * 2 ^ f.qmin := mul_nonneg (Nat.cast_nonneg _) (Cell.pow_pos _).le
  have hnonnegP : (0 : ℚ) ≤ keptP * 2 ^ (eLead - f.fracBits) :=
    mul_nonneg (Nat.cast_nonneg _) (Cell.pow_pos _).le
  refine .of_finite hx hrounds hrounds' hnonneg hnonnegP (kept_not_overflow hf (by omega))
    (reads_kept hf sign (by omega)) ?_
  have htiny := tiny_iff (by omega : keptP ≤ 2 ^ f.p) hsmall
  simp only [hexact, htiny]
  cases s.2.1 || s.2.2
  · simp
  · simp only [true_and, if_true, Bool.true_eq_false, if_false]

omit hf in
/-- At full precision the leading place is kept. -/
lemma splitAt_full (h : Aligned y sigN sticky k) (hp : 0 < p) (hpT : p ≤ T) (st : Bool) :
    2 ^ (p - 1) ≤ (splitAt sigN st (T + 1 - p)).1 ∧ (splitAt sigN st (T + 1 - p)).1 < 2 ^ p := by
  rw [splitAt, if_neg (by omega)]
  have hpos := Nat.two_pow_pos (T + 1 - p)
  refine ⟨(Nat.le_div_iff_mul_le hpos).mpr ?_, (Nat.div_lt_iff_lt_mul hpos).mpr ?_⟩
  · rw [← Nat.pow_add, show p - 1 + (T + 1 - p) = T by omega]
    exact h.top
  · rw [← Nat.pow_add, show p + (T + 1 - p) = T + 1 by omega]
    exact h.lt

omit hf in
/-- Below that it is not. -/
lemma splitAt_below (h : Aligned y sigN sticky k) (hp : 0 < p) (hpT : p ≤ T) (extra : ℕ)
    (st : Bool) :
    (splitAt sigN st (T + 1 - p + (extra + 1))).1 < 2 ^ (p - 1) := by
  rw [splitAt]
  split_ifs
  · exact Nat.two_pow_pos _
  · rw [Nat.div_lt_iff_lt_mul (Nat.two_pow_pos _), ← Nat.pow_add]
    exact h.lt.trans_le (Nat.pow_le_pow_right (by norm_num) (by omega))

/-- Rounding an exact number, or one known to within a unit of its significand, is correct. -/
theorem roundPack_delivers (hsig : sig ≠ 0) (h : Denotes x sig exp sticky)
    (hst : sticky → f.p ≤ Nat.log2 sig) (sign : Bool) (rm : Rm) :
    Delivers f rm (signed sign x) (roundPack sign exp sig sticky f rm) := by
  have hpT : f.p ≤ T := by have := hf.fracBits_le; rw [Fmt.p, T]; omega
  obtain ⟨k, hk, haligned⟩ := aligned_of_denotes h hsig hpT hst
  have hu := Cell.pow_pos (K := K) (exp + Nat.log2 sig - T)
  have hx : 0 < x := by
    have := mul_pos haligned.pos hu
    rwa [div_mul_cancel₀ _ hu.ne'] at this
  -- a split at any place from the full precision down is a split of `x`
  have hsplit (extra : ℕ) : Splits x (2 ^ (exp + Nat.log2 sig - f.fracBits + extra))
      (splitAt (topSig sig) (topSticky sig sticky) (T + 1 - f.p + extra)) := by
    have hs := (splitAt_splits haligned (by omega : k < T + 1 - f.p + extra) (by omega)).scale hu
    have hplace : (2 : K) ^ (T + 1 - f.p + extra) * 2 ^ (exp + Nat.log2 sig - T) =
        2 ^ (exp + Nat.log2 sig - f.fracBits + extra) := by
      rw [← zpow_natCast, ← zpow_add₀ (by norm_num)]
      congr 1
      rw [Fmt.p] at hpT ⊢
      omega
    rwa [div_mul_cancel₀ _ hu.ne', hplace] at hs
  obtain ⟨hlow, hlt⟩ := splitAt_full haligned (Nat.succ_pos f.fracBits) hpT (topSticky sig sticky)
  rw [roundPack, if_neg hsig, roundPackPos_eq]
  dsimp only
  split_ifs with hnormal
  · refine packNormal_delivers hf hx sign rm ?_ hnormal hlow hlt
    have hs := hsplit 0
    rwa [Nat.cast_zero, add_zero, Nat.add_zero,
      show exp + Nat.log2 sig - (f.fracBits : ℤ) = exp + Nat.log2 sig + f.bias - 1 + f.qmin by
        rw [Fmt.qmin, Fmt.emin]; ring] at hs
  · obtain ⟨extra, hextra⟩ : ∃ extra : ℕ, (1 - (exp + Nat.log2 sig + f.bias)).toNat = extra + 1 :=
      ⟨(-(exp + Nat.log2 sig + f.bias)).toNat, by omega⟩
    have hs := hsplit (extra + 1)
    have hfull := hsplit 0
    rw [Nat.cast_zero, add_zero, Nat.add_zero] at hfull
    rw [show exp + Nat.log2 sig - (f.fracBits : ℤ) + (extra + 1 : ℕ) = f.qmin by
        rw [Fmt.qmin, Fmt.emin]; omega] at hs
    rw [hextra]
    exact packTiny_delivers hf hx sign rm hs
      (splitAt_below haligned (Nat.succ_pos f.fracBits) hpT extra _)
      hfull hlow hlt (by rw [Fmt.emin]; omega)

end Pack

/-- The one place where rounding happens is exact: what is delivered is the rounding of the number
the significand stands for, and any fraction of a unit above it when sticky bits are left. -/
theorem roundPack_exact {f : Fmt} (hf : f = F32 ∨ f = F64) (rm : Rm) (sign : Bool) {sig : ℕ}
    (hsig : sig ≠ 0) (exp : ℤ) {sticky : Bool} (hst : sticky → 2 ^ (f.p + 1) ≤ sig) {e : ℝ}
    (he : if sticky then 0 < e ∧ e < 1 else e = 0) :
    Delivers f rm (signed sign ((sig + e) * 2 ^ exp)) (roundPack sign exp sig sticky f rm) := by
  have hieee : f.Ieee := by
    rcases hf with rfl | rfl
    · exact ieee_F32
    · exact ieee_F64
  have hu := Cell.pow_pos (K := ℝ) exp
  have hlog (h : sticky = true) : f.p ≤ Nat.log2 sig :=
    (Nat.le_log2 hsig).mpr ((Nat.pow_le_pow_right two_pos (Nat.le_succ f.p)).trans (hst h))
  refine roundPack_delivers hieee hsig ?_ hlog sign rm
  cases sticky with
  | false =>
    rw [if_neg Bool.false_ne_true] at he
    rw [he, add_zero]
    exact ⟨le_rfl, by linarith, by simp⟩
  | true =>
    rw [if_pos rfl] at he
    have hne : (sig + e) * 2 ^ exp ≠ sig * 2 ^ exp := fun h => he.1.ne' (by simpa [hu.ne'] using h)
    exact ⟨by nlinarith, by nlinarith, by simpa using hne⟩

theorem roundPack_exact_sticky :
    Delivers F64 .rne (signed true (((2 ^ 60 : ℕ) + 1 / 2 : ℝ) * 2 ^ (-1100 : ℤ)))
    (roundPack true (-1100) (2 ^ 60) true F64 .rne) :=
  roundPack_exact (.inr rfl) .rne true (by norm_num) (-1100) (fun _ => by norm_num [Fmt.p, F64])
    (by norm_num)

end Softfloat

end RiscvEmu
