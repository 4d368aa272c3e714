import RiscvEmu.Softfloat.Sums

/-!
# Products and quotients are correctly rounded

A product is exact before it is rounded.  A quotient is that of two significands with their leading
places brought to the same height, so that it keeps more places than any format does and the
remainder only says whether it is exact.
-/

namespace RiscvEmu

namespace Softfloat

open Csr Rounding

/-- The result of `a * b`. -/
def IsProduct (f : Fmt) (rm : Rm) (a b : U64) (res : U64 × U64) : Prop :=
  let sign := f.signOf a != f.signOf b
  if f.IsNan a ∨ f.IsNan b then
    res = (f.canonicalNan, if f.IsSignalling a ∨ f.IsSignalling b then fflagNv else 0)
  else if f.IsInf a ∧ f.IsZero b ∨ f.IsZero a ∧ f.IsInf b then res = (f.canonicalNan, fflagNv)
  else if f.IsInf a ∨ f.IsInf b then f.ReadsInf res.1 sign ∧ res.2 = 0
  else if f.IsZero a ∨ f.IsZero b then f.Reads res.1 sign 0 ∧ res.2 = 0
  else Delivers f rm (f.value a * f.value b) res

/-- The result of `a / b`. -/
def IsQuotient (f : Fmt) (rm : Rm) (a b : U64) (res : U64 × U64) : Prop :=
  let sign := f.signOf a != f.signOf b
  if f.IsNan a ∨ f.IsNan b then
    res = (f.canonicalNan, if f.IsSignalling a ∨ f.IsSignalling b then fflagNv else 0)
  else if f.IsInf a ∧ f.IsInf b ∨ f.IsZero a ∧ f.IsZero b then res = (f.canonicalNan, fflagNv)
  else if f.IsInf a then f.ReadsInf res.1 sign ∧ res.2 = 0
  else if f.IsInf b ∨ f.IsZero a then f.Reads res.1 sign 0 ∧ res.2 = 0
  else if f.IsZero b then f.ReadsInf res.1 sign ∧ res.2 = fflagDz
  else Delivers f rm (f.value a / f.value b) res

section Products

variable {f : Fmt} {bits : U64} {sig : ℕ} {exp : ℤ}

lemma signed_div (s₁ s₂ : Bool) (m₁ m₂ : ℚ) :
    signed s₁ m₁ / signed s₂ m₂ = signed (s₁ != s₂) (m₁ / m₂) := by
  cases s₁ <;> cases s₂ <;> simp [signed, neg_div, div_neg]

lemma Operand.value (h : Operand f bits (.finite sig exp)) :
    sig ≠ 0 ∧ sig < 2 ^ f.p ∧ f.value bits = signed (f.signOf bits) (sig * 2 ^ exp : ℚ) := by
  cases h with
  | finite _ _ _ _ _ hsig hlt _ hm => exact ⟨hsig, hlt, by rw [value_eq_signed, hm]⟩

lemma raised_bounds (hsig : sig ≠ 0) (hlt : sig < 2 ^ 64) :
    2 ^ 63 ≤ sig * 2 ^ (63 - Nat.log2 sig) ∧ sig * 2 ^ (63 - Nat.log2 sig) < 2 ^ 64 := by
  have hlog : Nat.log2 sig < 64 := (Nat.log2_lt hsig).mpr hlt
  have hlow := Nat.mul_le_mul_right (2 ^ (63 - Nat.log2 sig)) (Nat.log2_self_le hsig)
  have hhigh := Nat.mul_lt_mul_of_pos_right (Nat.lt_log2_self (n := sig))
    (Nat.two_pow_pos (63 - Nat.log2 sig))
  rw [← Nat.pow_add, show Nat.log2 sig + (63 - Nat.log2 sig) = 63 by omega] at hlow
  rw [← Nat.pow_add, show Nat.log2 sig + 1 + (63 - Nat.log2 sig) = 64 by omega] at hhigh
  exact ⟨hlow, hhigh⟩

/-- The quotient of two raised significands stands for that of the numbers. -/
lemma denotes_quotient {sa sb : ℕ} (hb : sb ≠ 0) (ea eb : ℤ) (la lb : ℕ) :
    Denotes (sa * 2 ^ ea / (sb * 2 ^ eb) : ℚ) (sa * 2 ^ la * 2 ^ 64 / (sb * 2 ^ lb))
      (ea - la - (eb - lb) - 64)
      (sa * 2 ^ la * 2 ^ 64 % (sb * 2 ^ lb) != 0) := by
  have hden : 0 < sb * 2 ^ lb := Nat.mul_pos (Nat.pos_of_ne_zero hb) (Nat.two_pow_pos lb)
  obtain ⟨hlow, hhigh, hexact⟩ := quotient_bounds (sa * 2 ^ la * 2 ^ 64) hden
  refine denotes_of_units ?_ hlow hhigh hexact
  have hb' : (sb : ℚ) ≠ 0 := Nat.cast_ne_zero.mpr hb
  have heb : (2 : ℚ) ^ eb ≠ 0 := (Cell.pow_pos eb).ne'
  push_cast
  rw [zpow_sub₀ two_ne_zero, zpow_sub₀ two_ne_zero, zpow_sub₀ two_ne_zero, zpow_sub₀ two_ne_zero,
    zpow_natCast, zpow_natCast]
  field_simp
  norm_num

variable (hf : f.Ieee) (a b : U64) (rm : Rm)
include hf

theorem mul_isProduct : IsProduct f rm a b (mul a b f rm) := by
  have hsa : (unpack a f).sign = f.signOf a := by rw [unpack_eq hf]
  have hsb : (unpack b f).sign = f.signOf b := by rw [unpack_eq hf]
  have hoa := operand_unpack hf a
  have hob := operand_unpack hf b
  have hia := hoa.isInf
  have hib := hob.isInf
  have hza := hoa.isZero hf
  have hzb := hob.isZero hf
  have hinf := readsInf_inf hf (f.signOf a != f.signOf b)
  have hzero := reads_zero hf (f.signOf a != f.signOf b)
  unfold IsProduct mul nanResult
  simp only [hsa, hsb, hoa.isNan_iff, hob.isNan_iff, hoa.isSnan_iff, hob.isSnan_iff]
  generalize (unpack a f).cls = ca at hoa hia hza ⊢
  generalize (unpack b f).cls = cb at hob hib hzb ⊢
  rcases ca with _ | _ | _ | ⟨sa, ea⟩ <;> rcases cb with _ | _ | _ | ⟨sb, eb⟩ <;>
    simp only [Class.isNan, invalid, hia, hib, hza, hzb, hinf, hzero, reduceCtorEq, Bool.not_true,
      Bool.not_false, Bool.and_true, Bool.and_false, Bool.false_eq_true, or_true, or_false,
        and_true, and_false, if_true, if_false, Bool.or_eq_true]
  obtain ⟨hsa0, -, hva⟩ := hoa.value
  obtain ⟨hsb0, -, hvb⟩ := hob.value
  rw [hva, hvb, signed_mul, mul_finite]
  exact roundPack_delivers hf (Nat.mul_ne_zero hsa0 hsb0) (denotes_exact _ _) (by simp) _ rm

theorem div_isQuotient : IsQuotient f rm a b (div a b f rm) := by
  have hsa : (unpack a f).sign = f.signOf a := by rw [unpack_eq hf]
  have hsb : (unpack b f).sign = f.signOf b := by rw [unpack_eq hf]
  have hoa := operand_unpack hf a
  have hob := operand_unpack hf b
  have hia := hoa.isInf
  have hib := hob.isInf
  have hza := hoa.isZero hf
  have hzb := hob.isZero hf
  have hinf := readsInf_inf hf (f.signOf a != f.signOf b)
  have hzero := reads_zero hf (f.signOf a != f.signOf b)
  unfold IsQuotient div nanResult
  simp only [hsa, hsb, hoa.isNan_iff, hob.isNan_iff, hoa.isSnan_iff, hob.isSnan_iff]
  generalize (unpack a f).cls = ca at hoa hia hza ⊢
  generalize (unpack b f).cls = cb at hob hib hzb ⊢
  rcases ca with _ | _ | _ | ⟨sa, ea⟩ <;> rcases cb with _ | _ | _ | ⟨sb, eb⟩ <;>
    simp [Class.isNan, invalid, hia, hib, hza, hzb, hinf, hzero]
  obtain ⟨hsa0, hlta, hva⟩ := hoa.value
  obtain ⟨hsb0, hltb, hvb⟩ := hob.value
  have hp : f.p ≤ 53 := by have := hf.fracBits_le; rw [Fmt.p]; omega
  have hpow : 2 ^ f.p ≤ 2 ^ 53 := Nat.pow_le_pow_right (by norm_num) hp
  obtain ⟨hlow, -⟩ := raised_bounds hsa0 (by omega)
  obtain ⟨-, hhigh⟩ := raised_bounds hsb0 (by omega)
  -- the quotient has 64 places or more
  have hquot : 2 ^ 53 ≤ sa * 2 ^ (63 - sa.log2) * 2 ^ 64 / (sb * 2 ^ (63 - sb.log2)) := by
    rw [Nat.le_div_iff_mul_le (Nat.mul_pos (Nat.pos_of_ne_zero hsb0) (Nat.two_pow_pos _))]
    omega
  have hne : sa * 2 ^ (63 - sa.log2) * 2 ^ 64 / (sb * 2 ^ (63 - sb.log2)) ≠ 0 := by omega
  rw [hva, hvb, signed_div]
  exact roundPack_delivers hf hne (denotes_quotient hsb0 ea eb _ _)
    (fun _ => hp.trans ((Nat.le_log2 hne).mpr hquot)) _ rm

end Products

/-- Multiplication and division return the correctly rounded result and its flags, in both formats
and every mode. -/
theorem products_correctly_rounded (rm : Rm) (a b : U64) :
    (IsProduct F32 rm a b (mul a b F32 rm) ∧ IsQuotient F32 rm a b (div a b F32 rm)) ∧
      IsProduct F64 rm a b (mul a b F64 rm) ∧ IsQuotient F64 rm a b (div a b F64 rm) :=
  ⟨⟨mul_isProduct ieee_F32 a b rm, div_isQuotient ieee_F32 a b rm⟩, mul_isProduct ieee_F64 a b rm,
    div_isQuotient ieee_F64 a b rm⟩

end Softfloat

end RiscvEmu
