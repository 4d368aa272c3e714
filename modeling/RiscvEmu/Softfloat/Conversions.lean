import RiscvEmu.Softfloat.Integers
import RiscvEmu.Softfloat.Order

/-!
# Conversions into and between formats

A conversion rounds the value of its operand once.  A value that the destination has is kept by
every rounding, and a pattern is given back by its sign and its magnitude, so what was widened comes
back.
-/

namespace RiscvEmu

namespace Softfloat

open Csr Rounding

/-- What a conversion of an integer delivers. -/
def IsFromInt (f : Fmt) (rm : Rm) (n : ℤ) (res : U64 × U64) : Prop :=
  if n = 0 then f.Reads res.1 false 0 ∧ res.2 = 0 else Delivers f rm (n : ℚ) res

/-- What a conversion between formats delivers. -/
def IsConverted (src dst : Fmt) (rm : Rm) (a : U64) (res : U64 × U64) : Prop :=
  if src.IsNan a then res = (dst.canonicalNan, if src.IsSignalling a then fflagNv else 0)
  else if src.IsInf a then dst.ReadsInf res.1 (src.signOf a) ∧ res.2 = 0
  else if src.value a = 0 then dst.Reads res.1 (src.signOf a) 0 ∧ res.2 = 0
  else Delivers dst rm (src.value a) res

/-- What a conversion delivers that is exact. -/
def IsWidened (src dst : Fmt) (a : U64) (res : U64 × U64) : Prop :=
  if src.IsNan a then res = (dst.canonicalNan, if src.IsSignalling a then fflagNv else 0)
  else if src.IsInf a then dst.ReadsInf res.1 (src.signOf a) ∧ res.2 = 0
  else dst.Reads res.1 (src.signOf a) (src.magnitude a) ∧ res.2 = 0

/-- An integer from its sign and its magnitude. -/
def signedInt (negative : Bool) (magnitude : U64) : ℤ :=
  if negative then -magnitude.toNat else magnitude.toNat

lemma signedInt_eq (negative : Bool) (magnitude : U64) :
    (signedInt negative magnitude : ℚ) = signed negative (magnitude.toNat : ℚ) := by
  cases negative <;> simp [signedInt, signed]

lemma signedInt_eq_zero (negative : Bool) (magnitude : U64) :
    signedInt negative magnitude = 0 ↔ magnitude = 0 := by
  have h : magnitude.toNat = 0 ↔ magnitude = 0 := (BitVec.toNat_eq.trans (by simp)).symm
  cases negative <;> simp [signedInt, h]

section

variable {f dst : Fmt} (hf : f.Ieee) (hdst : dst.Ieee) {rm : Rm} {a b : U64}

include hf in
lemma fromInt_isFromInt (negative : Bool) (magnitude : U64) (rm : Rm) :
    IsFromInt f rm (signedInt negative magnitude) (fromInt negative magnitude f rm) := by
  unfold IsFromInt fromInt
  simp only [signedInt_eq_zero]
  split_ifs with hzero
  · exact ⟨reads_zero hf false, rfl⟩
  · have hne : magnitude.toNat ≠ 0 := fun h => hzero (BitVec.eq_of_toNat_eq h)
    have h := roundPack_delivers hf hne (denotes_exact magnitude.toNat 0) (by simp) negative rm
    rwa [zpow_zero, mul_one, ← signedInt_eq] at h

include hf hdst in
lemma convert_isConverted (a : U64) (rm : Rm) : IsConverted f dst rm a (convert a f dst rm) := by
  have hs : (unpack a f).sign = f.signOf a := by rw [unpack_eq hf]
  have ho := operand_unpack hf a
  unfold IsConverted convert
  dsimp only
  rw [hs, value_eq_signed]
  generalize (unpack a f).cls = c at ho ⊢
  cases ho with
  | nan h => simp only [if_pos h, decide_eq_true_eq]
  | inf hnan h =>
    rw [if_neg hnan, if_pos h]
    exact ⟨readsInf_inf hdst _, rfl⟩
  | zero hnan hinf _ hm =>
    rw [if_neg hnan, if_neg hinf, hm, if_pos (signed_zero _)]
    exact ⟨reads_zero hdst _, rfl⟩
  | finite sig exp hnan hinf _ hsig _ _ hm =>
    rw [if_neg hnan, if_neg hinf, hm, if_neg (signed_ne_zero (mul_two_pow_pos hsig exp))]
    exact roundPack_delivers hdst hsig (denotes_exact sig exp) (by simp) _ rm

/-! ## Values the destination has -/

lemma Delivers.exact {x : ℚ} {res : U64 × U64} (h : Delivers f rm x res)
    (hx : x ∈ floats f.p f.qmin) (hlim : |x| < 2 ^ (f.emax + 1)) :
    f.Reads res.1 (x < 0) |x| ∧ f.value res.1 = x ∧ res.2 = 0 := by
  obtain ⟨r, r', hr, -, h⟩ := h
  obtain rfl : r = x := hr.eq_self hx
  rwa [if_neg hlim.not_ge, Rat.cast_id, if_pos rfl] at h

include hf in
lemma value_mem_floats (hnan : ¬f.IsNan a) (hinf : ¬f.IsInf a) : f.value a ∈ floats f.p f.qmin := by
  have ho := operand_unpack hf a
  rw [value_eq_signed]
  generalize (unpack a f).cls = c at ho
  cases ho with
  | nan h => exact absurd h hnan
  | inf _ h => exact absurd h hinf
  | zero _ _ _ hm =>
    rw [hm, signed_zero]
    exact ⟨0, f.qmin, by simp, le_rfl, by simp⟩
  | finite sig exp _ _ _ _ hlt hexp hm =>
    exact hm ▸ signed_mem_floats hlt (WithBot.coe_le_coe.mpr hexp) _

include hf in
lemma abs_value_lt (hnan : ¬f.IsNan a) (hinf : ¬f.IsInf a) : |f.value a| < 2 ^ (f.emax + 1) := by
  rw [value_eq_signed, abs_signed _ Fmt.magnitude_nonneg]
  exact not_le.mp (magnitude_not_overflow hf (isFinite_of hnan hinf))

include hf hdst in
lemma convert_exact (hnan : ¬f.IsNan a) (hinf : ¬f.IsInf a)
    (hmem : f.value a ∈ floats dst.p dst.qmin) (hlim : |f.value a| < 2 ^ (dst.emax + 1)) (rm : Rm) :
    dst.Reads (convert a f dst rm).1 (f.signOf a) (f.magnitude a) ∧ (convert a f dst rm).2 = 0 := by
  have h := convert_isConverted hf hdst a rm
  rw [IsConverted, if_neg hnan, if_neg hinf] at h
  have hnonneg : 0 ≤ f.magnitude a := Fmt.magnitude_nonneg
  rcases hnonneg.eq_or_lt with hzero | hpos
  · rw [value_eq_signed, ← hzero, if_pos (signed_zero _)] at h
    exact hzero ▸ h
  · rw [value_eq_signed] at h hmem hlim
    rw [if_neg (signed_ne_zero hpos)] at h
    obtain ⟨hreads, -, hflags⟩ := h.exact hmem hlim
    rw [signed_neg_iff _ hpos, abs_signed _ hnonneg] at hreads
    exact ⟨hreads, hflags⟩

/-- A number has one pattern. -/
lemma Fmt.Reads.unique {sign : Bool} {m : ℚ} (ha : f.Reads a sign m) (hb : f.Reads b sign m) :
    a = b := by
  have hrank : f.rank a = f.rank b := by
    rcases lt_trichotomy (f.rank a) (f.rank b) with h | h | h
    · exact absurd (ha.magnitude.trans hb.magnitude.symm) (Fmt.magnitude_lt h).ne
    · exact h
    · exact absurd (hb.magnitude.trans ha.magnitude.symm) (Fmt.magnitude_lt h).ne
  apply BitVec.eq_of_toNat_eq
  rw [(toNat_eq_rank ha.pattern).1, (toNat_eq_rank hb.pattern).1, ha.sign, hb.sign, hrank]

lemma Fmt.ReadsInf.unique {sign : Bool} (ha : f.ReadsInf a sign) (hb : f.ReadsInf b sign) :
    a = b := by
  apply BitVec.eq_of_toNat_eq
  rw [toNat_eq_fields ha.pattern, toNat_eq_fields hb.pattern, ha.sign, hb.sign, ha.inf.1, hb.inf.1,
    ha.inf.2, hb.inf.2]

end

/-! ## The two formats -/

lemma convert_isWidened (a : U64) (rm : Rm) : IsWidened F32 F64 a (convert a F32 F64 rm) := by
  have h := convert_isConverted ieee_F32 ieee_F64 a rm
  rw [IsConverted] at h
  rw [IsWidened]
  by_cases hnan : F32.IsNan a
  · rwa [if_pos hnan] at h ⊢
  by_cases hinf : F32.IsInf a
  · rwa [if_neg hnan, if_pos hinf] at h ⊢
  have hle : (2 : ℚ) ^ (F32.emax + 1) ≤ 2 ^ (F64.emax + 1) :=
    zpow_le_zpow_right₀ one_le_two (by decide)
  rw [if_neg hnan, if_neg hinf]
  exact convert_exact ieee_F32 ieee_F64 hnan hinf
    (floats_subset (by decide) (WithBot.coe_le_coe.mpr (by decide))
      (value_mem_floats ieee_F32 hnan hinf))
    ((abs_value_lt ieee_F32 hnan hinf).trans_le hle) rm

lemma convert_back {a : U64} (ha : F32.IsPattern a) (hnan : ¬F32.IsNan a) (rm rm' : Rm) :
    (convert a F32 F64 rm).2 = 0 ∧ convert (convert a F32 F64 rm).1 F64 F32 rm' = (a, 0) := by
  have h := convert_isWidened a rm
  rw [IsWidened, if_neg hnan] at h
  refine ⟨by split_ifs at h <;> exact h.2, ?_⟩
  generalize (convert a F32 F64 rm).1 = b at h ⊢
  split_ifs at h with hinf
  · have hback := convert_isConverted ieee_F64 ieee_F32 b rm'
    rw [IsConverted, if_neg (fun hn => isNan_ne hn h.1.inf), if_pos h.1.inf, h.1.sign] at hback
    exact Prod.ext (hback.1.unique ⟨ha, hinf, rfl⟩) hback.2
  · have hvalue : F64.value b = F32.value a := Reads.value_eq h.1
    have hback :=
      convert_exact ieee_F64 ieee_F32 (fun hn => h.1.finite.ne hn.1) (fun hi => h.1.finite.ne hi.1)
      (hvalue ▸ value_mem_floats ieee_F32 hnan hinf) (hvalue ▸ abs_value_lt ieee_F32 hnan hinf) rm'
    rw [h.1.sign, h.1.magnitude] at hback
    exact Prod.ext (hback.1.unique ⟨ha, isFinite_of hnan hinf, rfl, rfl⟩) hback.2

section

variable {negative : Bool} {magnitude : U64} (h : magnitude.toNat ≤ 2 ^ 53)

include h

lemma fromInt_exact (rm : Rm) : F64.IsFinite (fromInt negative magnitude F64 rm).1 ∧
    F64.value (fromInt negative magnitude F64 rm).1 = signedInt negative magnitude ∧
    (fromInt negative magnitude F64 rm).2 = 0 := by
  have hint := fromInt_isFromInt ieee_F64 negative magnitude rm
  unfold IsFromInt at hint
  split_ifs at hint with hzero
  · refine ⟨hint.1.finite, ?_, hint.2⟩
    rw [Reads.value_eq hint.1, hzero]
    rfl
  · have habs : |signedInt negative magnitude| = magnitude.toNat := by
      cases negative <;> simp [signedInt]
    have hlim : |(signedInt negative magnitude : ℚ)| < 2 ^ (F64.emax + 1) := by
      rw [← Int.cast_abs, habs, Int.cast_natCast]
      calc (magnitude.toNat : ℚ) ≤ 2 ^ (53 : ℤ) := by exact_mod_cast h
        _ < 2 ^ (F64.emax + 1) := zpow_lt_zpow_right₀ one_lt_two (by decide)
    obtain ⟨hreads, hexact⟩ := hint.exact
      (intCast_mem_floats (by decide) (WithBot.coe_le_coe.mpr (by decide))
        (by rw [habs]; exact_mod_cast h)) hlim
    exact ⟨hreads.finite, hexact⟩

lemma toInt_fromInt (rm rm' : Rm) {bits : ℕ} (hbits : bits = 32 ∨ bits = 64) {sgn : Bool}
    (hlo : (intRange bits sgn).1 ≤ signedInt negative magnitude)
    (hhi : signedInt negative magnitude ≤ (intRange bits sgn).2) :
    toInt (fromInt negative magnitude F64 rm).1 F64 rm' bits sgn =
      (BitVec.ofInt 64 (signedInt negative magnitude), 0) := by
  obtain ⟨hfin, hvalue, -⟩ := fromInt_exact h rm
  have hint := toInt_isToInt ieee_F64 (fromInt negative magnitude F64 rm).1 rm' hbits sgn
  rw [IsToInt, if_neg (fun hn => hfin.ne hn.1), if_neg (fun hi => hfin.ne hi.1), hvalue] at hint
  obtain ⟨n, hn, hres⟩ := hint
  cases hn.eq_self
  rw [hres, saturate, if_neg hlo.not_gt, if_neg hhi.not_gt, if_pos rfl]

end

/-- Conversions into and between formats round once, widening is exact, and what was widened comes
back. -/
theorem conversions_round_once (rm rm' : Rm) :
    (∀ f, f = F32 ∨ f = F64 → ∀ negative magnitude,
      IsFromInt f rm (signedInt negative magnitude) (fromInt negative magnitude f rm)) ∧
    (∀ a, IsWidened F32 F64 a (convert a F32 F64 rm)) ∧
    (∀ a, IsConverted F64 F32 rm a (convert a F64 F32 rm)) ∧
    (∀ a, F32.IsPattern a → ¬F32.IsNan a →
      (convert a F32 F64 rm).2 = 0 ∧ convert (convert a F32 F64 rm).1 F64 F32 rm' = (a, 0)) ∧
    (∀ negative magnitude, magnitude.toNat ≤ 2 ^ 53 → (fromInt negative magnitude F64 rm).2 = 0 ∧
      ∀ bits sgn, bits = 32 ∨ bits = 64 → (intRange bits sgn).1 ≤ signedInt negative magnitude →
        signedInt negative magnitude ≤ (intRange bits sgn).2 →
        toInt (fromInt negative magnitude F64 rm).1 F64 rm' bits sgn =
          (BitVec.ofInt 64 (signedInt negative magnitude), 0)) := by
  refine ⟨?_, fun a => convert_isWidened a rm, fun a => convert_isConverted ieee_F64 ieee_F32 a rm,
    fun a ha hnan => convert_back ha hnan rm rm', fun negative magnitude h =>
      ⟨(fromInt_exact h rm).2.2, ?_⟩⟩
  · rintro f (rfl | rfl) negative magnitude
    · exact fromInt_isFromInt ieee_F32 negative magnitude rm
    · exact fromInt_isFromInt ieee_F64 negative magnitude rm
  · intro bits sgn hbits hlo hhi
    exact toInt_fromInt h rm rm' hbits hlo hhi

end Softfloat

end RiscvEmu
