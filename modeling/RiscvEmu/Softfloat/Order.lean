import Mathlib.Data.EReal.Operations
import RiscvEmu.Softfloat.Sums

/-!
# Comparison is by value

The fields of a pattern, read as one number, are in the order of the magnitudes they stand for.
-/

namespace RiscvEmu

namespace Softfloat

namespace Fmt

variable (f : Fmt) (bits : U64)

/-- The fields after the sign, as one number. -/
def rank : ℕ := f.expField bits * 2 ^ f.fracBits + f.fracField bits

/-- The magnitude, infinite or not. -/
noncomputable def extent : EReal := if f.IsInf bits then ⊤ else ((f.magnitude bits : ℝ) : EReal)

/-- The number a pattern stands for, infinite or not. -/
noncomputable def extended : EReal := if f.signOf bits then -f.extent bits else f.extent bits

variable {f bits} {a b : U64}

lemma magnitude_bounds :
    (1 ≤ f.expField bits → (2 : ℚ) ^ f.fracBits * 2 ^ (f.expField bits - 1 + f.qmin) ≤
      f.magnitude bits) ∧
    f.magnitude bits < 2 ^ f.fracBits * 2 ^ (f.expField bits + f.qmin) := by
  have hfrac : (f.fracField bits : ℚ) < 2 ^ f.fracBits := by exact_mod_cast f.fracField_lt bits
  have hnonneg : (0 : ℚ) ≤ f.fracField bits := Nat.cast_nonneg _
  have hpos := Rounding.Cell.pow_pos (K := ℚ) (f.expField bits - 1 + f.qmin)
  rw [magnitude]
  split_ifs with hsub
  · rw [hsub, Nat.cast_zero, zero_add]
    exact ⟨by omega, mul_lt_mul_of_pos_right hfrac (Rounding.Cell.pow_pos _)⟩
  · refine ⟨fun _ => mul_le_mul_of_nonneg_right (by linarith) hpos.le, ?_⟩
    rw [show (f.expField bits : ℤ) + f.qmin = f.expField bits - 1 + f.qmin + 1 by ring,
      zpow_add_one₀ two_ne_zero, ← mul_assoc, mul_right_comm]
    exact mul_lt_mul_of_pos_right (by linarith) hpos

lemma rank_lt_of_expField (h : f.expField a < f.expField b) : f.rank a < f.rank b := by
  calc f.rank a < f.expField a * 2 ^ f.fracBits + 2 ^ f.fracBits :=
    Nat.add_lt_add_left (f.fracField_lt a) _
    _ = (f.expField a + 1) * 2 ^ f.fracBits := by ring
    _ ≤ f.expField b * 2 ^ f.fracBits := Nat.mul_le_mul_right _ h
    _ ≤ f.rank b := Nat.le_add_right _ _

lemma magnitude_lt (h : f.rank a < f.rank b) : f.magnitude a < f.magnitude b := by
  rcases lt_trichotomy (f.expField a) (f.expField b) with hexp | hexp | hexp
  · have hle : (2 : ℚ) ^ (f.expField a + f.qmin) ≤ 2 ^ (f.expField b - 1 + f.qmin) :=
      zpow_le_zpow_right₀ one_le_two (by omega)
    calc f.magnitude a < 2 ^ f.fracBits * 2 ^ (f.expField a + f.qmin) := magnitude_bounds.2
      _ ≤ 2 ^ f.fracBits * 2 ^ (f.expField b - 1 + f.qmin) :=
        mul_le_mul_of_nonneg_left hle (by positivity)
      _ ≤ f.magnitude b := magnitude_bounds.1 (by omega)
  · rw [rank, rank, hexp, Nat.add_lt_add_iff_left] at h
    have hfrac : (f.fracField a : ℚ) < f.fracField b := by exact_mod_cast h
    rw [magnitude, magnitude, hexp]
    split_ifs
    · exact mul_lt_mul_of_pos_right hfrac (Rounding.Cell.pow_pos _)
    · exact mul_lt_mul_of_pos_right (by linarith) (Rounding.Cell.pow_pos _)
  · exact absurd (rank_lt_of_expField hexp) (by omega)

lemma extent_lt (hb : ¬f.IsNan b) (h : f.rank a < f.rank b) : f.extent a < f.extent b := by
  have hlt := f.expField_lt b
  have hinf : ¬f.IsInf a := by
    intro hinf
    rcases Nat.lt_or_ge (f.expField b) (f.expField a) with hexp | hexp
    · exact absurd (rank_lt_of_expField hexp) (by omega)
    · have hfull : f.expField b = f.expField a := by have := hinf.1; omega
      have hzero : f.fracField b = 0 := by
        by_contra hne
        exact hb ⟨hfull.trans hinf.1, hne⟩
      rw [rank, rank, hfull, hzero, hinf.2] at h
      exact h.false
  rw [extent, extent, if_neg hinf]
  split_ifs
  · exact EReal.coe_lt_top _
  · exact_mod_cast magnitude_lt h

lemma extent_eq (h : f.rank a = f.rank b) : f.extent a = f.extent b := by
  have hexp : f.expField a = f.expField b := by
    rcases lt_trichotomy (f.expField a) (f.expField b) with hexp | hexp | hexp
    · exact absurd (rank_lt_of_expField hexp) (by omega)
    · exact hexp
    · exact absurd (rank_lt_of_expField hexp) (by omega)
  have hfrac : f.fracField a = f.fracField b := by
    rw [rank, rank, hexp] at h
    omega
  have hinf : f.IsInf a ↔ f.IsInf b := by
    unfold IsInf
    rw [hexp, hfrac]
  simp only [extent, hinf, magnitude, hexp, hfrac]

lemma extent_lt_iff (ha : ¬f.IsNan a) (hb : ¬f.IsNan b) :
    f.extent a < f.extent b ↔ f.rank a < f.rank b := by
  refine ⟨fun h => ?_, extent_lt hb⟩
  by_contra hle
  rcases (Nat.not_lt.mp hle).lt_or_eq with hlt | heq
  · exact h.not_gt (extent_lt ha hlt)
  · exact h.ne (extent_eq heq).symm

lemma magnitude_nonneg : 0 ≤ f.magnitude bits := by
  rw [magnitude]
  split_ifs <;> positivity

lemma extent_nonneg : 0 ≤ f.extent bits := by
  rw [extent]
  split_ifs
  · exact le_top
  · exact_mod_cast magnitude_nonneg

lemma extent_pos_iff (hf : f.Ieee) (h : ¬f.IsNan bits) : 0 < f.extent bits ↔ 0 < f.rank bits := by
  have hexp : f.expField 0 = 0 := by simp [expField]
  have hfrac : f.fracField 0 = 0 := by simp [fracField]
  have hnan : ¬f.IsNan 0 := fun hnan => hnan.2 hfrac
  have hinf : ¬f.IsInf 0 := fun hinf => by
    have := two_pow_expBits hf
    have := hinf.1
    omega
  have hzero : f.extent 0 = 0 := by
    rw [extent, if_neg hinf, magnitude, if_pos hexp, hfrac]
    simp
  have hrank : f.rank 0 = 0 := by rw [rank, hexp, hfrac, Nat.zero_mul]
  have hiff := extent_lt_iff hnan h
  rwa [hzero, hrank] at hiff

end Fmt

variable {f : Fmt} {a b : U64}

lemma toNat_eq_rank {bits : U64} (hpattern : f.IsPattern bits) :
    bits.toNat = (f.signOf bits).toNat * 2 ^ (f.expBits + f.fracBits) + f.rank bits ∧
      f.rank bits < 2 ^ (f.expBits + f.fracBits) :=
  ⟨toNat_eq_fields hpattern, fields_lt (f.expField_lt bits) (f.fracField_lt bits)⟩

lemma orderKey_eq (hf : f.Ieee) {bits : U64} (hpattern : f.IsPattern bits) :
    orderKey bits f = if f.signOf bits then -(f.rank bits : ℤ) else f.rank bits := by
  have hk : f.expBits + f.fracBits < 64 := by have := hf.width_le; omega
  have hmag : (bits &&& ~~~f.signBit).toNat = f.rank bits := by
    obtain ⟨hbits, hlt⟩ := toNat_eq_rank hpattern
    rw [← Nat.mod_eq_of_lt hlt, ← Nat.mul_add_mod_self_right (f.signOf bits).toNat, ← hbits]
    refine Nat.eq_of_testBit_eq fun i => ?_
    have habove (hi : f.expBits + f.fracBits < i) : bits.getLsbD i = false := by
      rw [← BitVec.testBit_toNat]
      exact Nat.testBit_lt_two_pow (hpattern.trans_le (Nat.pow_le_pow_right two_pos hi))
    rw [Nat.testBit_mod_two_pow, BitVec.testBit_toNat, BitVec.testBit_toNat, Fmt.signBit]
    rcases lt_trichotomy i (f.expBits + f.fracBits) with hi | hi | hi
    · simp [hi, (by omega : i < 64)]
    · simp [hi, hk]
    · simp [habove hi]
  have hsign := sign_eq hf bits
  rw [orderKey, hmag, ← hsign]
  simp only [bne_iff_ne]

/-- The order of the keys is that of the values. -/
lemma orderKey_lt_iff (hf : f.Ieee) (ha : f.IsPattern a) (hb : f.IsPattern b) (hna : ¬f.IsNan a)
    (hnb : ¬f.IsNan b) :
    orderKey a f < orderKey b f ↔ f.extended a < f.extended b := by
  rw [orderKey_eq hf ha, orderKey_eq hf hb, Fmt.extended, Fmt.extended]
  have hab := Fmt.extent_lt_iff hna hnb
  have hba := Fmt.extent_lt_iff hnb hna
  have hpa := Fmt.extent_pos_iff hf hna
  have hpb := Fmt.extent_pos_iff hf hnb
  have ha0 : 0 ≤ f.extent a := f.extent_nonneg
  have hb0 : 0 ≤ f.extent b := f.extent_nonneg
  cases f.signOf a <;> cases f.signOf b <;> simp only [Bool.false_eq_true, if_false, if_true]
  · exact_mod_cast hab.symm
  · have hle : -f.extent b ≤ f.extent a := (EReal.neg_le.mp (by simpa using hb0)).trans ha0
    exact iff_of_false (by omega) hle.not_gt
  · have hle : -f.extent a ≤ 0 := EReal.neg_le.mp (by simpa using ha0)
    constructor
    · intro h
      rcases (by omega : 0 < f.rank a ∨ 0 < f.rank b) with hr | hr
      · exact (EReal.neg_lt_comm.mp (by simpa using hpa.mpr hr)).trans_le hb0
      · exact hle.trans_lt (hpb.mpr hr)
    · intro h
      by_contra hge
      have hxa : f.extent a = 0 := le_antisymm (not_lt.mp (mt hpa.mp (by omega))) ha0
      have hxb : ¬0 < f.extent b := mt hpb.mp (by omega)
      rw [hxa, neg_zero] at h
      exact hxb h
  · rw [EReal.neg_lt_neg_iff, hba]
    omega

lemma orderKey_eq_iff (hf : f.Ieee) (ha : f.IsPattern a) (hb : f.IsPattern b) (hna : ¬f.IsNan a)
    (hnb : ¬f.IsNan b) :
    orderKey a f = orderKey b f ↔ f.extended a = f.extended b := by
  rw [le_antisymm_iff, le_antisymm_iff, ← not_lt, ← not_lt, orderKey_lt_iff hf hb ha hnb hna,
    orderKey_lt_iff hf ha hb hna hnb, not_lt, not_lt]

/-- `compare` is the sign of the difference. -/
theorem compare_eq (hf : f.Ieee) (ha : f.IsPattern a) (hb : f.IsPattern b) (hna : ¬f.IsNan a)
    (hnb : ¬f.IsNan b) :
    (compare a b f = -1 ↔ f.extended a < f.extended b) ∧
    (compare a b f = 0 ↔ f.extended a = f.extended b) ∧
      (compare a b f = 1 ↔ f.extended b < f.extended a) := by
  rw [← orderKey_lt_iff hf ha hb hna hnb, ← orderKey_lt_iff hf hb ha hnb hna,
    ← orderKey_eq_iff hf ha hb hna hnb]
  unfold compare
  dsimp only
  split_ifs <;> simp <;> omega

end Softfloat

end RiscvEmu
