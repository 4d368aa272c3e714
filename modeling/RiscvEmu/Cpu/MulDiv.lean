import Mathlib
import RiscvEmu.Cpu.Integer
import RiscvEmu.Lib.Checked

/-!
# Multiplication and division are exact

The results of the M extension as integers: the two words of a product put together, and a quotient
with its remainder.  The host computes them with operations that stop the emulator where a product
does not fit or a quotient does not exist.  Products fit the 128 bits they are computed in, and a
division is made only where the quotient fits, so none of them stops.
-/

namespace RiscvEmu

/-- A quotient rounded towards zero, and the remainder. -/
structure DividesTo (a b q r : ℤ) : Prop where
  eq : a = q * b + r
  lt : |r| < |b|
  sign : r = 0 ∨ r.sign = a.sign

lemma dividesTo_tdiv (a : ℤ) {b : ℤ} (hb : b ≠ 0) : DividesTo a b (a.tdiv b) (a.tmod b) where
  eq := by rw [mul_comm, Int.mul_tdiv_add_tmod]
  lt := by
    rw [Int.abs_eq_natAbs, Int.abs_eq_natAbs, Int.natAbs_tmod]
    exact_mod_cast Nat.mod_lt _ (Int.natAbs_pos.mpr hb)
  sign := by
    have h := Int.sign_tmod a b
    split_ifs at h
    · exact .inl (Int.sign_eq_zero_iff_zero.mp h)
    · exact .inr h

section Division

variable {w : ℕ}

/-- What a signed division gives, with its two exceptions. -/
structure SignedDivision (a b q r : BitVec w) : Prop where
  exact : b ≠ 0 → ¬ (a = BitVec.intMin w ∧ b = ~~~0) → DividesTo a.toInt b.toInt q.toInt r.toInt
  zero : b = 0 → q = ~~~0 ∧ r = a
  overflow : a = BitVec.intMin w → b = ~~~0 → q = a ∧ r = 0

/-- Quotient and remainder without signs. -/
structure UnsignedDivision (a b q r : BitVec w) : Prop where
  exact : b ≠ 0 → DividesTo a.toNat b.toNat q.toNat r.toNat
  zero : b = 0 → q = ~~~0 ∧ r = a

lemma signedDivision (hw : 0 < w) (a b : BitVec w) : SignedDivision a b
    (if b = 0 then ~~~0 else if a = BitVec.intMin w ∧ b = ~~~0 then a else a.sdiv b)
    (if b = 0 then a else if a = BitVec.intMin w ∧ b = ~~~0 then 0 else a.srem b) where
  exact hb hover := by
    have hne : a ≠ BitVec.intMin w ∨ b ≠ -1#w := by
      rw [BitVec.neg_one_eq_allOnes, ← BitVec.not_zero]
      exact not_and_or.mp hover
    rw [if_neg hb, if_neg hover, if_neg hb, if_neg hover, BitVec.toInt_sdiv_of_ne_or_ne a b hne,
      BitVec.toInt_srem]
    exact dividesTo_tdiv _ fun h => hb (BitVec.eq_of_toInt_eq (h.trans BitVec.toInt_zero.symm))
  zero hb := by simp [hb]
  overflow ha hb := by simp [ha, hb, hw.ne']

lemma unsignedDivision (a b : BitVec w) :
    UnsignedDivision a b (if b = 0 then ~~~0 else a / b) (if b = 0 then a else a % b) where
  exact hb := by
    rw [if_neg hb, if_neg hb, BitVec.toNat_udiv, BitVec.toNat_umod]
    exact dividesTo_tdiv a.toNat (by simpa using mt BitVec.toNat_eq.mpr hb)
  zero hb := by simp [hb]

end Division

/-- The low word of a product with its three high words: signed, signed by unsigned, and
unsigned. -/
structure ExactProducts (a b low mulh mulhsu mulhu : U64) : Prop where
  mulh : mulh.toInt * 2 ^ 64 + low.toNat = a.toInt * b.toInt
  mulhsu : mulhsu.toInt * 2 ^ 64 + low.toNat = a.toInt * b.toNat
  mulhu : mulhu.toNat * 2 ^ 64 + low.toNat = a.toNat * b.toNat
  fits : |a.toInt * b.toInt| < 2 ^ 127 ∧ |a.toInt * b.toNat| < 2 ^ 127 ∧ a.toNat * b.toNat < 2 ^ 128

/-- The high word of a product that fits, put back over the low one. -/
lemma high_add_low {p : ℤ} {low : U64} (hp : |p| < 2 ^ 127) (hlow : p ≡ low.toNat [ZMOD 2 ^ 64]) :
    (BitVec.ofInt 64 (p / 2 ^ 64)).toInt * 2 ^ 64 + low.toNat = p := by
  rw [abs_lt] at hp
  have hmod : p % 2 ^ 64 = low.toNat := by
    rw [hlow, Int.emod_eq_of_lt (by omega)]
    exact_mod_cast low.isLt
  rw [BitVec.toInt_ofInt_eq_self (by decide) (by omega) (by omega), ← hmod, mul_comm,
    Int.mul_ediv_add_emod]

lemma toInt_modEq (a : U64) : a.toInt ≡ a.toNat [ZMOD 2 ^ 64] := by
  rw [BitVec.toInt_eq_toNat_bmod]
  exact Int.bmod_emod

lemma exactProducts (a b : U64) :
    ExactProducts a b (mulDiv 0 a b) (mulDiv 1 a b) (mulDiv 2 a b) (mulDiv 3 a b) := by
  have hlow : (a.toNat * b.toNat : ℤ) ≡ (a * b).toNat [ZMOD 2 ^ 64] := by
    rw [BitVec.toNat_mul]
    exact_mod_cast (Nat.mod_modEq _ _).symm
  have hsigned := (toInt_modEq a).mul (toInt_modEq b)
  have hmixed := (toInt_modEq a).mul (Int.ModEq.refl (b.toNat : ℤ))
  have ha : |a.toInt| ≤ 2 ^ 63 := abs_le.mpr ⟨a.le_toInt, a.toInt_lt.le⟩
  have hb : |b.toInt| ≤ 2 ^ 63 := abs_le.mpr ⟨b.le_toInt, b.toInt_lt.le⟩
  have hss : |a.toInt * b.toInt| < 2 ^ 127 := by
    rw [abs_mul]
    nlinarith [abs_nonneg a.toInt, abs_nonneg b.toInt]
  have hsu : |a.toInt * b.toNat| < 2 ^ 127 := by
    rw [abs_mul, Nat.abs_cast]
    nlinarith [abs_nonneg a.toInt, b.isLt]
  have huu : a.toNat * b.toNat < 2 ^ 128 :=
    (Nat.mul_lt_mul'' a.isLt b.isLt).trans_eq (by norm_num)
  refine ⟨high_add_low hss (hsigned.trans hlow), high_add_low hsu (hmixed.trans hlow), ?_,
    hss, hsu, huu⟩
  show (BitVec.ofNat 64 (a.toNat * b.toNat / 2 ^ 64)).toNat * 2 ^ 64 + (a * b).toNat = _
  rw [BitVec.toNat_ofNat, Nat.mod_eq_of_lt (by omega), BitVec.toNat_mul]
  omega

/-- What the word forms give, and that it is sign-extended. -/
structure WordForms (a b : U32) : Prop where
  mul : ∃ p, mulDiv32 0 a b = some p ∧ p.toNat = a.toNat * b.toNat % 2 ^ 32
  signed : ∃ q r, mulDiv32 4 a b = some q ∧ mulDiv32 6 a b = some r ∧ SignedDivision a b q r
  unsigned : ∃ q r, mulDiv32 5 a b = some q ∧ mulDiv32 7 a b = some r ∧ UnsignedDivision a b q r
  extended : ∀ r : U32, (sext32 r).toInt = r.toInt

/-! ## In the arithmetic of the host -/

open Checked in
/-- The result of `execute_mul_div` as the host computes it: the high words from products of 128
bits, the rest with its own operators. -/
def hostMulDiv (funct3 : ℕ) (a b : U64) : Except Panic U64 :=
  match funct3 with
  | 0x0 => .ok (a * b)
  | 0x1 => do
    let p ← smul (a.signExtend 128) (b.signExtend 128)
    return (p.sshiftRight 64).setWidth 64
  | 0x2 => do
    let p ← smul (a.signExtend 128) (b.setWidth 128)
    return (p.sshiftRight 64).setWidth 64
  | 0x3 => do
    let p ← mul (a.setWidth 128) (b.setWidth 128)
    return (p >>> 64).setWidth 64
  | 0x4 =>
    if b = 0 then .ok (~~~0)
    else if a = BitVec.intMin 64 ∧ b = ~~~0 then .ok a
    else sdiv a b
  | 0x5 => if b = 0 then .ok (~~~0) else div a b
  | 0x6 =>
    if b = 0 then .ok a
    else if a = BitVec.intMin 64 ∧ b = ~~~0 then .ok 0
    else srem a b
  | _ => if b = 0 then .ok a else rem a b

open Checked in
/-- The result of `execute_mul_div_32` as the host computes it; none for an illegal instruction. -/
def hostMulDiv32 (funct3 : ℕ) (a b : U32) : Except Panic (Option U32) :=
  match funct3 with
  | 0x0 => .ok (some (a * b))
  | 0x4 => some <$>
    if b = 0 then .ok (~~~0)
    else if a = BitVec.intMin 32 ∧ b = ~~~0 then .ok a
    else sdiv a b
  | 0x5 => some <$> if b = 0 then .ok (~~~0) else div a b
  | 0x6 => some <$>
    if b = 0 then .ok a
    else if a = BitVec.intMin 32 ∧ b = ~~~0 then .ok 0
    else srem a b
  | 0x7 => some <$> if b = 0 then .ok a else rem a b
  | _ => .ok none

section Guards

variable {w : ℕ} (a b zero overflow : BitVec w)

lemma host_sdiv : (if b = 0 then .ok zero
      else if a = BitVec.intMin w ∧ b = ~~~0 then .ok overflow else Checked.sdiv a b) =
    Except.ok (if b = 0 then zero
      else if a = BitVec.intMin w ∧ b = ~~~0 then overflow else a.sdiv b) := by
  unfold Checked.sdiv
  split_ifs <;> rfl

lemma host_srem : (if b = 0 then .ok zero
      else if a = BitVec.intMin w ∧ b = ~~~0 then .ok overflow else Checked.srem a b) =
    Except.ok (if b = 0 then zero
      else if a = BitVec.intMin w ∧ b = ~~~0 then overflow else a.srem b) := by
  unfold Checked.srem
  split_ifs <;> rfl

lemma host_div : (if b = 0 then .ok zero else Checked.div a b) =
    Except.ok (if b = 0 then zero else a / b) := by
  unfold Checked.div
  split_ifs <;> rfl

lemma host_rem : (if b = 0 then .ok zero else Checked.rem a b) =
    Except.ok (if b = 0 then zero else a % b) := by
  unfold Checked.rem
  split_ifs <;> rfl

end Guards

/-- The high word of a signed product that fits. -/
lemma host_smul {x y : BitVec 128} {p : ℤ} (hp : |p| < 2 ^ 127) (heq : x.toInt * y.toInt = p) :
    (do
      let p ← Checked.smul x y
      return (p.sshiftRight 64).setWidth 64) = .ok (BitVec.ofInt 64 (p / 2 ^ 64)) := by
  subst heq
  rw [abs_lt] at hp
  obtain ⟨hok, hint⟩ := Checked.smul_of_fits hp.1.le hp.2
  rw [Checked.bind_ok hok, ← BitVec.signExtend_eq_setWidth_of_le _ (by decide), BitVec.signExtend,
    BitVec.toInt_sshiftRight, Int.shiftRight_eq_div_pow, hint]
  rfl

lemma host_mul {a b : U64} (h : a.toNat * b.toNat < 2 ^ 128) :
    (do
      let p ← Checked.mul (a.setWidth 128) (b.setWidth 128)
      return (p >>> 64).setWidth 64) = .ok (BitVec.ofNat 64 (a.toNat * b.toNat / 2 ^ 64)) := by
  have ha : (a.setWidth 128).toNat = a.toNat := BitVec.toNat_setWidth_of_le (by decide)
  have hb : (b.setWidth 128).toNat = b.toNat := BitVec.toNat_setWidth_of_le (by decide)
  obtain ⟨hok, hnat⟩ := Checked.mul_of_lt (x := a.setWidth 128) (y := b.setWidth 128)
    (by rwa [ha, hb])
  rw [Checked.bind_ok hok, ← BitVec.ofNat_toNat, BitVec.toNat_ushiftRight, hnat, ha, hb,
    Nat.shiftRight_eq_div_pow]
  rfl

/-- None of the operations that could stop the emulator does, and what they give are the results of
the model. -/
lemma hostMulDiv_eq (funct3 : ℕ) (a b : U64) :
    hostMulDiv funct3 a b = .ok (mulDiv funct3 a b) := by
  obtain ⟨hss, hsu, huu⟩ := (exactProducts a b).fits
  have hsigned (x : U64) : (x.signExtend 128).toInt = x.toInt :=
    BitVec.toInt_signExtend_of_le (by decide)
  have hunsigned : (b.setWidth 128).toInt = b.toNat := by
    have hnat : (b.setWidth 128).toNat = b.toNat := BitVec.toNat_setWidth_of_le (by decide)
    rw [BitVec.toInt_eq_toNat_of_lt (by omega), hnat]
  match funct3 with
  | 0 => rfl
  | 1 => exact host_smul hss (by rw [hsigned, hsigned])
  | 2 => exact host_smul hsu (by rw [hsigned, hunsigned])
  | 3 => exact host_mul huu
  | 4 => exact host_sdiv a b _ _
  | 5 => exact host_div a b _
  | 6 => exact host_srem a b _ _
  | n + 7 => exact host_rem a b _

lemma hostMulDiv32_eq (funct3 : ℕ) (a b : U32) :
    hostMulDiv32 funct3 a b = .ok (mulDiv32 funct3 a b) := by
  match funct3 with
  | 0 | 1 | 2 | 3 => rfl
  | 4 => exact congrArg (some <$> ·) (host_sdiv a b _ _)
  | 5 => exact congrArg (some <$> ·) (host_div a b _)
  | 6 => exact congrArg (some <$> ·) (host_srem a b _ _)
  | 7 => exact congrArg (some <$> ·) (host_rem a b _)
  | n + 8 => rfl

end RiscvEmu
