import RiscvEmu.Softfloat.Sums

/-!
# Conversions to integers

`to_int` splits a magnitude at the units place and rounds it like any other split; only then does it
look at the range of the destination.
-/

namespace RiscvEmu

namespace Softfloat

open Csr Rounding

/-- The integers between which a destination holds its results. -/
def intRange (bits : ℕ) (signed : Bool) : ℤ × ℤ :=
  if signed then (-2 ^ (bits - 1), 2 ^ (bits - 1) - 1) else (0, 2 ^ bits - 1)

/-- An integer as it is, or the bound it lies beyond. -/
def saturate (lo hi n : ℤ) (flags : U64) : U64 × U64 :=
  if n < lo then (BitVec.ofInt 64 lo, fflagNv)
  else if hi < n then (BitVec.ofInt 64 hi, fflagNv)
  else (BitVec.ofInt 64 n, flags)

/-- What a conversion to an integer from `lo` to `hi` delivers. -/
def IsToInt (f : Fmt) (rm : Rm) (a : U64) (lo hi : ℤ) (res : U64 × U64) : Prop :=
  if f.IsNan a then res = (BitVec.ofInt 64 hi, fflagNv)
  else if f.IsInf a then res = (BitVec.ofInt 64 (if f.signOf a then lo else hi), fflagNv)
  else ∃ n : ℤ, RoundsToInt rm.mode (f.value a) n ∧
    res = saturate lo hi n (if n = f.value a then 0 else fflagNx)

lemma integerPart_splits {sig : ℕ} (hsig : sig ≠ 0) (hlt : sig < 2 ^ 106) (exp : ℤ) :
    Splits (sig * 2 ^ exp : ℚ) 1 (integerPart sig exp) := by
  unfold integerPart
  dsimp only
  split_ifs with hexp hfar
  · obtain ⟨k, rfl⟩ := Int.eq_ofNat_of_zero_le hexp
    rw [Int.toNat_natCast, zpow_natCast]
    refine ⟨?_, ?_, ?_, ?_⟩ <;> simp
  · have hpos := mul_two_pow_pos hsig exp
    have hsmall : (sig : ℚ) * 2 ^ exp < 1 / 2 := by
      have hsigQ : (sig : ℚ) ≤ 2 ^ 106 := by exact_mod_cast hlt.le
      calc (sig : ℚ) * 2 ^ exp ≤ 2 ^ 106 * 2 ^ (-128 : ℤ) :=
            mul_le_mul hsigQ (zpow_le_zpow_right₀ (by norm_num) (by omega)) (Cell.pow_pos exp).le
              (by norm_num)
        _ < 1 / 2 := by norm_num
    exact splits_small hpos (by linarith)
  · obtain ⟨k, rfl⟩ : ∃ k : ℕ, exp = -(k + 1 : ℕ) := ⟨(-exp).toNat - 1, by omega⟩
    obtain ⟨hb, hsum⟩ := eq_halves (K := ℚ) sig k
    have hrem : sig % 2 ^ (k + 1) % 2 ^ k + 1 ≤ 2 ^ k := Nat.mod_lt _ (Nat.two_pow_pos k)
    have hslack : ((sig % 2 ^ (k + 1) % 2 ^ k : ℕ) : ℚ) + 1 ≤ 2 ^ k := by exact_mod_cast hrem
    have h := splits_of_halves hb hslack hsum.ge (by linarith)
      (iff_of_true (rfl : false = false) hsum)
    have hscale := h.scale (Cell.pow_pos (-(k + 1 : ℕ)))
    rw [neg_neg, Int.toNat_natCast, Nat.add_sub_cancel]
    rwa [← pow_succ', zpow_neg, zpow_natCast, mul_inv_cancel₀ (by positivity), Bool.or_false,
      ← zpow_natCast, ← zpow_neg]
      at hscale

lemma roundUp_roundsToInt {x : ℚ} {s : ℕ × Bool × Bool} (h : Splits x 1 s) (hx : 0 < x) (rm : Rm)
    (sign : Bool) :
    RoundsToInt rm.mode (signed sign x)
      (if sign then -(roundUp rm sign s.1 s.2.1 s.2.2 : ℤ)
        else roundUp rm sign s.1 s.2.1 s.2.2) := by
  have hrounds (mode : Mode) := roundsToInt_of_cell (by simpa using h.low) (by simpa using h.high)
    (by simpa using h.half) (by simpa using h.rest) mode
  rw [roundUp, roundsUp_eq]
  cases sign with
  | false => exact hrounds rm.mode
  | true => exact (hrounds rm.mode.flip).neg hx

/-- The bounds of a destination, as the source writes them. -/
lemma intRange_eq {bits : ℕ} (hbits : bits = 32 ∨ bits = 64) (sgn : Bool) :
    BitVec.ofInt 64 (intRange bits sgn).2 = maxPos bits sgn ∧
      BitVec.ofInt 64 (intRange bits sgn).1 = minNeg bits sgn ∧
      (intRange bits sgn).2 = (maxPos bits sgn).toNat ∧ (maxPos bits sgn).toNat < 2 ^ 64 ∧
      (minNeg bits sgn).toInt.natAbs < 2 ^ 64 ∧
      (intRange bits sgn).1 = if sgn then -((minNeg bits sgn).toInt.natAbs : ℤ) else 0 := by
  rcases hbits with rfl | rfl <;> cases sgn <;> decide

/-- The end of `to_int`: a rounded magnitude that is out of range becomes the bound on its side. -/
lemma saturates {bits : ℕ} (hbits : bits = 32 ∨ bits = 64) (sgn sign : Bool) (m : ℕ) (flags : U64) :
    (if !(if sign then if sgn then decide (m ≤ (minNeg bits sgn).toInt.natAbs) else decide (m = 0)
        else decide (m ≤ (maxPos bits sgn).toNat)) then
      (if sign then minNeg bits sgn else maxPos bits sgn, fflagNv)
    else (if sign then if sgn then -BitVec.ofNat 64 m else 0 else BitVec.ofNat 64 m, flags)) =
    saturate (intRange bits sgn).1 (intRange bits sgn).2 (if sign then -(m : ℤ) else m) flags := by
  have hneg : -BitVec.ofNat 64 m = BitVec.ofInt 64 (-m) := by
    rw [BitVec.ofInt_neg, BitVec.ofInt_natCast]
  obtain ⟨hmax, hmin, hhi, -, -, hlo⟩ := intRange_eq hbits sgn
  rw [saturate, hmax, hmin, hhi, hlo]
  cases sign <;> cases sgn <;>
    simp only [Bool.not_eq_true', decide_eq_false_iff_not, Bool.false_eq_true, if_true, if_false,
      hneg, BitVec.ofInt_natCast]
  · split_ifs <;> first | rfl | omega
  · split_ifs <;> first | rfl | omega
  · split_ifs <;> first | omega | simp_all
  · split_ifs <;> first | rfl | omega

variable {f : Fmt} (hf : f.Ieee)

include hf

lemma toInt_isToInt (a : U64) (rm : Rm) {bits : ℕ} (hbits : bits = 32 ∨ bits = 64) (sgn : Bool) :
    IsToInt f rm a (intRange bits sgn).1 (intRange bits sgn).2 (toInt a f rm bits sgn) := by
  have hs : (unpack a f).sign = f.signOf a := by rw [unpack_eq hf]
  have ho := operand_unpack hf a
  obtain ⟨hmax, hmin, -, hhi, hlo, -⟩ := intRange_eq hbits sgn
  unfold IsToInt toInt
  dsimp only
  rw [hs, value_eq_signed]
  generalize (unpack a f).cls = c at ho ⊢
  cases ho with
  | nan h => rw [if_pos h, hmax]
  | inf hnan h => rw [if_neg hnan, if_pos h, apply_ite (BitVec.ofInt 64), hmax, hmin]
  | zero hnan hinf _ hm =>
    rw [if_neg hnan, if_neg hinf, hm, signed_zero]
    refine ⟨0, ?_, ?_⟩
    · cases rm <;> simp [RoundsToInt, Rm.mode]
    · rcases hbits with rfl | rfl <;> cases sgn <;> simp [saturate, intRange]
  | finite sig exp hnan hinf hzero hsig hlt hexp hm =>
    have hsplits := integerPart_splits hsig (lt_two_pow_106 hf hlt) exp
    have hrounds := roundUp_roundsToInt hsplits (mul_two_pow_pos hsig exp) rm (f.signOf a)
    have hexact := hsplits.roundUp_eq_iff rm (f.signOf a)
    have hfar : exp > 70 →
      2 ^ 64 ≤ roundUp rm (f.signOf a) (integerPart sig exp).1 (integerPart sig exp).2.1
        (integerPart sig exp).2.2 := by
      intro hexp'
      refine le_trans ?_ (Nat.le_add_right _ _)
      rw [integerPart, if_pos (by omega)]
      calc 2 ^ 64 ≤ 2 ^ exp.toNat := Nat.pow_le_pow_right (by norm_num) (by omega)
        _ ≤ sig * 2 ^ exp.toNat := Nat.le_mul_of_pos_left _ (Nat.pos_of_ne_zero hsig)
    rw [if_neg hnan, if_neg hinf, hm]
    refine ⟨_, hrounds, ?_⟩
    dsimp only
    rw [← roundUp]
    generalize roundUp rm (f.signOf a) (integerPart sig exp).1 (integerPart sig exp).2.1
      (integerPart sig exp).2.2 = m
      at hexact hfar ⊢
    have hflags : (if (integerPart sig exp).2.1 || (integerPart sig exp).2.2 then fflagNx else 0) =
        if ((if f.signOf a then -(m : ℤ) else m : ℤ) : ℚ) = signed (f.signOf a)
          (sig * 2 ^ exp : ℚ) then 0 else fflagNx := by
      have hvalue : ((if f.signOf a then -(m : ℤ) else m : ℤ) : ℚ) =
        signed (f.signOf a) (m : ℚ) := by
        cases f.signOf a <;> simp [signed]
      rw [mul_one] at hexact
      simp only [hvalue, signed_inj, hexact]
      cases (integerPart sig exp).2.1 || (integerPart sig exp).2.2 <;> rfl
    rw [hflags, ← saturates hbits]
    by_cases hexp' : exp > 70
    · have hbig := hfar hexp'
      rw [if_pos hexp']
      symm
      apply if_pos
      cases f.signOf a <;> cases sgn <;> simp <;> omega
    · rw [if_neg hexp']

end Softfloat

end RiscvEmu
