import Mathlib.Data.Nat.Bitwise
import RiscvEmu.Lib.Rounding
import RiscvEmu.Softfloat

/-!
# What IEEE 754 says

Bit patterns read field by field, the value they stand for, and what the result of an operation with
a given exact value has to be.  The reading of a pattern is then that of `unpack`, and a pattern put
together from fields reads as those fields.
-/

namespace RiscvEmu

namespace Softfloat

open Csr Rounding

/-- The rounding attribute of a mode. -/
def Rm.mode : Rm → Mode
  | .rne => .nearestEven
  | .rtz => .towardZero
  | .rdn => .down
  | .rup => .up
  | .rmm => .nearestAway

/-- What is used of the two formats. -/
structure Fmt.Ieee (f : Fmt) : Prop where
  two_le_expBits : 2 ≤ f.expBits
  fracBits_pos : 1 ≤ f.fracBits
  fracBits_le : f.fracBits ≤ 52
  width_le : f.expBits + f.fracBits ≤ 63

lemma ieee_F32 : F32.Ieee := ⟨by decide, by decide, by decide, by decide⟩
lemma ieee_F64 : F64.Ieee := ⟨by decide, by decide, by decide, by decide⟩

namespace Fmt

variable (f : Fmt) (bits : U64)

/-- It has no more bits than the format. -/
def IsPattern : Prop := bits.toNat < 2 ^ (f.expBits + f.fracBits + 1)
/-- Its sign. -/
def signOf : Bool := bits.toNat / 2 ^ (f.expBits + f.fracBits) % 2 = 1
/-- Its exponent. -/
def expField : ℕ := bits.toNat / 2 ^ f.fracBits % 2 ^ f.expBits
/-- Its fraction. -/
def fracField : ℕ := bits.toNat % 2 ^ f.fracBits

/-- The smallest exponent. -/
def emin : ℤ := 1 - f.bias
/-- The largest exponent. -/
def emax : ℤ := f.bias

/-- The exponent of the last place of the smallest numbers. -/
def qmin : ℤ := f.emin - f.fracBits

/-- It is a NaN. -/
def IsNan : Prop := f.expField bits = 2 ^ f.expBits - 1 ∧ f.fracField bits ≠ 0
/-- It is a signalling NaN. -/
def IsSignalling : Prop := f.IsNan bits ∧ f.fracField bits < 2 ^ (f.fracBits - 1)
/-- It is an infinity. -/
def IsInf : Prop := f.expField bits = 2 ^ f.expBits - 1 ∧ f.fracField bits = 0
/-- It is a number. -/
def IsFinite : Prop := f.expField bits < 2 ^ f.expBits - 1
/-- It is a zero. -/
def IsZero : Prop := f.expField bits = 0 ∧ f.fracField bits = 0

instance : Decidable (f.IsNan bits) := inferInstanceAs (Decidable (_ ∧ _))
instance : Decidable (f.IsSignalling bits) := inferInstanceAs (Decidable (_ ∧ _))
instance : Decidable (f.IsInf bits) := inferInstanceAs (Decidable (_ ∧ _))
instance : Decidable (f.IsZero bits) := inferInstanceAs (Decidable (_ ∧ _))

/-- The value of a finite pattern, its sign apart. -/
def magnitude : ℚ :=
  if f.expField bits = 0 then f.fracField bits * 2 ^ f.qmin
  else (2 ^ f.fracBits + f.fracField bits) * 2 ^ (f.expField bits - 1 + f.qmin)

/-- The number it stands for. -/
def value : ℚ := if f.signOf bits then -f.magnitude bits else f.magnitude bits

/-- The pattern stands for a finite number. -/
structure Reads (sign : Bool) (m : ℚ) : Prop where
  pattern : f.IsPattern bits
  finite : f.IsFinite bits
  sign : f.signOf bits = sign
  magnitude : f.magnitude bits = m

/-- The pattern stands for an infinity. -/
structure ReadsInf (sign : Bool) : Prop where
  pattern : f.IsPattern bits
  inf : f.IsInf bits
  sign : f.signOf bits = sign

/-- The largest finite magnitude. -/
def maxMagnitude : ℚ := (2 ^ f.p - 1) * 2 ^ (f.emax - f.fracBits)

end Fmt

/-- Whether a result too large becomes infinite. -/
def Rm.overflowsToInf (rm : Rm) (sign : Bool) : Bool :=
  match rm with
  | .rne | .rmm => true
  | .rtz => false
  | .rdn => sign
  | .rup => !sign

/-- What an operation delivers whose exact value is `x`, not zero: with `r` the rounding of `x` in
the format without an upper limit and `r'` that without any limit, an overflow if `r` is too large,
else `r`, inexact if that is not `x`, and then with underflow if `r'` is too small. -/
def Delivers {K : Type*} [Field K] [LinearOrder K] [IsStrictOrderedRing K] (f : Fmt)
    (rm : Rm) (x : K) (res : U64 × U64) : Prop :=
  ∃ r r' : ℚ, Rounds f.p f.qmin rm.mode x r ∧ Rounds f.p ⊥ rm.mode x r' ∧
    if 2 ^ (f.emax + 1) ≤ |r| then
      res.2 = fflagOf ||| fflagNx ∧
        if rm.overflowsToInf (x < 0) then f.ReadsInf res.1 (x < 0)
        else f.Reads res.1 (x < 0) f.maxMagnitude
    else
      f.Reads res.1 (x < 0) |r| ∧ f.value res.1 = r ∧
        res.2 = if r = x then 0 else if |r'| < 2 ^ f.emin then fflagNx ||| fflagUf else fflagNx

/-- What a sum of two terms with these signs delivers. -/
def DeliversSum (f : Fmt) (rm : Rm) (s₁ s₂ : Bool) (x : ℚ) (res : U64 × U64) : Prop :=
  if x = 0 then f.Reads res.1 (if s₁ = s₂ then s₁ else rm = .rdn) 0 ∧ res.2 = 0
  else Delivers f rm x res

/-- The result of `a + b`, or of `a - b`. -/
def IsSum (f : Fmt) (rm : Rm) (a b : U64) (negateB : Bool) (res : U64 × U64) : Prop :=
  let sb := f.signOf b != negateB
  if f.IsNan a ∨ f.IsNan b then
    res = (f.canonicalNan, if f.IsSignalling a ∨ f.IsSignalling b then fflagNv else 0)
  else if f.IsInf a ∧ f.IsInf b ∧ f.signOf a ≠ sb then res = (f.canonicalNan, fflagNv)
  else if f.IsInf a then f.ReadsInf res.1 (f.signOf a) ∧ res.2 = 0
  else if f.IsInf b then f.ReadsInf res.1 sb ∧ res.2 = 0
  else
    DeliversSum f rm (f.signOf a) sb (f.value a + if negateB then -f.value b else f.value b) res

/-- The result of `a * b + c`. -/
def IsFusedSum (f : Fmt) (rm : Rm) (a b c : U64) (res : U64 × U64) : Prop :=
  let sp := f.signOf a != f.signOf b
  if f.IsInf a ∧ f.IsZero b ∨ f.IsZero a ∧ f.IsInf b then res = (f.canonicalNan, fflagNv)
  else if f.IsNan a ∨ f.IsNan b ∨ f.IsNan c then
    res = (f.canonicalNan, if f.IsSignalling a ∨ f.IsSignalling b ∨
      f.IsSignalling c then fflagNv else 0)
  else if f.IsInf a ∨ f.IsInf b then
    if f.IsInf c ∧ f.signOf c ≠ sp then res = (f.canonicalNan, fflagNv)
    else f.ReadsInf res.1 sp ∧ res.2 = 0
  else if f.IsInf c then f.ReadsInf res.1 (f.signOf c) ∧ res.2 = 0
  else DeliversSum f rm sp (f.signOf c) (f.value a * f.value b + f.value c) res

/-! ## Masks -/

section Masks

lemma Fmt.fracField_lt (f : Fmt) (bits : U64) : f.fracField bits < 2 ^ f.fracBits :=
  Nat.mod_lt _ (Nat.two_pow_pos _)

lemma Fmt.expField_lt (f : Fmt) (bits : U64) : f.expField bits < 2 ^ f.expBits :=
  Nat.mod_lt _ (Nat.two_pow_pos _)

variable {f : Fmt} (hf : f.Ieee) (bits : U64)

variable {k e frac : ℕ} {x : U64}

lemma toNat_one_shiftLeft (hk : k < 64) : ((1 : U64) <<< k).toNat = 2 ^ k := by
  rw [BitVec.toNat_shiftLeft, Nat.shiftLeft_eq]
  show 1 * 2 ^ k % 2 ^ 64 = 2 ^ k
  rw [Nat.one_mul, Nat.mod_eq_of_lt (Nat.pow_lt_pow_right (by norm_num) hk)]

lemma toNat_mask (hk : k < 64) : (((1 : U64) <<< k) - 1).toNat = 2 ^ k - 1 := by
  have hpos : 0 < 2 ^ k := Nat.two_pow_pos k
  rw [BitVec.toNat_sub_of_le, toNat_one_shiftLeft hk]
  · rfl
  · rw [BitVec.le_def, toNat_one_shiftLeft hk]
    exact hpos

/-- A single bit of a pattern. -/
lemma and_bit_eq_zero_iff (hk : k < 64) :
    bits &&& ((1 : U64) <<< k) = 0 ↔ bits.toNat / 2 ^ k % 2 = 0 := by
  rw [← BitVec.toNat_inj, BitVec.toNat_and, toNat_one_shiftLeft hk]
  show bits.toNat &&& 2 ^ k = 0 ↔ _
  rw [Nat.and_two_pow, Nat.testBit_eq_decide_div_mod_eq]
  have hbit : bits.toNat / 2 ^ k % 2 < 2 := Nat.mod_lt _ (by norm_num)
  rcases Nat.lt_succ_iff.mp hbit |>.lt_or_eq with h | h
  · have h0 : bits.toNat / 2 ^ k % 2 = 0 := by omega
    simp [h0]
  · simp [h]

include hf

lemma Fmt.Ieee.expBits_lt : f.expBits < 64 := by
  have := hf.width_le
  omega

lemma Fmt.Ieee.fracBits_lt : f.fracBits < 64 := by
  have := hf.width_le
  omega

lemma toNat_expMax : f.expMax.toNat = 2 ^ f.expBits - 1 := toNat_mask hf.expBits_lt

lemma toNat_and_fracMask : (bits &&& f.fracMask).toNat = f.fracField bits := by
  rw [BitVec.toNat_and, Fmt.fracMask, toNat_mask hf.fracBits_lt, Nat.and_two_pow_sub_one_eq_mod,
    Fmt.fracField]

lemma toNat_exp : ((bits >>> f.fracBits) &&& f.expMax).toNat = f.expField bits := by
  rw [BitVec.toNat_and, toNat_expMax hf, BitVec.toNat_ushiftRight, Nat.and_two_pow_sub_one_eq_mod,
    Nat.shiftRight_eq_div_pow, Fmt.expField]

lemma sign_eq : (bits &&& f.signBit != 0) = f.signOf bits := by
  have hiff :=
    and_bit_eq_zero_iff bits (k := f.expBits + f.fracBits) (by have := hf.width_le; omega)
  rw [Bool.eq_iff_iff, bne_iff_ne, Fmt.signBit, Ne, hiff, Fmt.signOf, decide_eq_true_iff]
  omega

/-! ## Reading a pattern -/

lemma two_pow_expBits : 4 ≤ 2 ^ f.expBits :=
  Nat.pow_le_pow_right (by norm_num : 0 < 2) hf.two_le_expBits

/-- What `unpack` makes of a finite pattern that is not a zero. -/
def readFinite (f : Fmt) (bits : U64) : Class :=
  if f.expField bits = 0 then .finite (f.fracField bits) f.qmin
  else .finite (2 ^ f.fracBits + f.fracField bits) (f.expField bits - 1 + f.qmin)

lemma signalling_eq : ((bits &&& f.fracMask) &&& ((1 : U64) <<< (f.fracBits - 1)) == 0) =
    decide (f.fracField bits < 2 ^ (f.fracBits - 1)) := by
  have hlt := f.fracField_lt bits
  have hpow : 2 ^ f.fracBits = 2 * 2 ^ (f.fracBits - 1) := by
    rw [← Nat.pow_succ', Nat.succ_eq_add_one, Nat.sub_add_cancel hf.fracBits_pos]
  have hpos : 0 < 2 ^ (f.fracBits - 1) := Nat.two_pow_pos _
  have hk : f.fracBits - 1 < 64 := by
    have := hf.fracBits_lt
    omega
  rw [Bool.eq_iff_iff, beq_iff_eq, and_bit_eq_zero_iff _ hk, toNat_and_fracMask hf,
    decide_eq_true_iff, ← Nat.div_eq_zero_iff_lt hpos]
  have hdiv : f.fracField bits / 2 ^ (f.fracBits - 1) < 2 := by
    rw [Nat.div_lt_iff_lt_mul hpos]
    omega
  generalize f.fracField bits / 2 ^ (f.fracBits - 1) = q at hdiv ⊢
  omega

theorem unpack_eq : unpack bits f = ⟨f.signOf bits,
    if f.IsNan bits then .nan (f.IsSignalling bits)
    else if f.IsInf bits then .inf
    else if f.IsZero bits then .zero
    else readFinite f bits⟩ := by
  have hexp := toNat_exp hf bits
  have hfrac := toNat_and_fracMask hf bits
  have hmax := toNat_expMax hf
  have hfour := two_pow_expBits hf
  have hefull : (bits >>> f.fracBits) &&& f.expMax = f.expMax ↔ f.expField bits =
    2 ^ f.expBits - 1 := by
    rw [← BitVec.toNat_inj, hexp, hmax]
  have hezero : (bits >>> f.fracBits) &&& f.expMax = 0 ↔ f.expField bits = 0 := by
    rw [← BitVec.toNat_inj, hexp]
    rfl
  have hfzero : bits &&& f.fracMask = 0 ↔ f.fracField bits = 0 := by
    rw [← BitVec.toNat_inj, hfrac]
    rfl
  have hor : ((bits &&& f.fracMask) ||| ((1 : U64) <<< f.fracBits)).toNat =
      2 ^ f.fracBits + f.fracField bits := by
    rw [BitVec.toNat_or, hfrac, toNat_one_shiftLeft hf.fracBits_lt, Nat.or_comm]
    have := Nat.shiftLeft_add_eq_or_of_lt (f.fracField_lt bits) 1
    rw [Nat.one_shiftLeft] at this
    exact this.symm
  rw [unpack, sign_eq hf]
  congr 1
  by_cases hfull : f.expField bits = 2 ^ f.expBits - 1
  · rw [if_pos (hefull.mpr hfull)]
    by_cases hzero : f.fracField bits = 0
    · have hnan : ¬f.IsNan bits := fun h => h.2 hzero
      rw [if_pos (hfzero.mpr hzero), if_neg hnan, if_pos ⟨hfull, hzero⟩]
    · have hnan : f.IsNan bits := ⟨hfull, hzero⟩
      rw [if_neg (mt hfzero.mp hzero), if_pos hnan, signalling_eq hf]
      simp [Fmt.IsSignalling, hnan]
  · have hnan : ¬f.IsNan bits := fun h => hfull h.1
    have hinf : ¬f.IsInf bits := fun h => hfull h.1
    rw [if_neg (mt hefull.mp hfull), if_neg hnan, if_neg hinf]
    by_cases hsub : f.expField bits = 0
    · rw [if_pos (hezero.mpr hsub)]
      by_cases hzero : f.fracField bits = 0
      · rw [if_pos (hfzero.mpr hzero), if_pos ⟨hsub, hzero⟩]
      · have hne : ¬f.IsZero bits := fun h => hzero h.2
        rw [if_neg (mt hfzero.mp hzero), if_neg hne, readFinite, if_pos hsub, hfrac]
        rfl
    · have hne : ¬f.IsZero bits := fun h => hsub h.1
      rw [if_neg (mt hezero.mp hsub), if_neg hne, readFinite, if_neg hsub, hor, hexp]
      congr 1
      rw [Fmt.qmin, Fmt.emin]
      ring

/-! ## Putting a pattern together -/

omit hf in
lemma fields_lt (he : e < 2 ^ f.expBits) (hfrac : frac < 2 ^ f.fracBits) :
    e * 2 ^ f.fracBits + frac < 2 ^ (f.expBits + f.fracBits) := by
  calc e * 2 ^ f.fracBits + frac < e * 2 ^ f.fracBits + 2 ^ f.fracBits := by omega
    _ = (e + 1) * 2 ^ f.fracBits := by ring
    _ ≤ 2 ^ f.expBits * 2 ^ f.fracBits := Nat.mul_le_mul_right _ he
    _ = 2 ^ (f.expBits + f.fracBits) := (Nat.pow_add _ _ _).symm

omit hf in
/-- A number of three fields has those fields. -/
lemma fields_of_toNat {sign : Bool} (he : e < 2 ^ f.expBits) (hfrac : frac < 2 ^ f.fracBits)
    (h : bits.toNat = sign.toNat * 2 ^ (f.expBits + f.fracBits) + (e * 2 ^ f.fracBits + frac)) :
    f.IsPattern bits ∧ f.signOf bits = sign ∧ f.expField bits = e ∧ f.fracField bits = frac := by
  have hF := Nat.two_pow_pos f.fracBits
  have hlow := fields_lt he hfrac
  have hsign : sign.toNat ≤ 1 := Bool.toNat_le sign
  refine ⟨?_, ?_, ?_, ?_⟩
  · rw [Fmt.IsPattern, h, Nat.pow_succ]
    nlinarith
  · rw [Fmt.signOf, h, Nat.mul_comm, Nat.mul_add_div (Nat.two_pow_pos _), Nat.div_eq_of_lt hlow,
      Nat.add_zero]
    cases sign <;> rfl
  · rw [Fmt.expField, h, Nat.pow_add, ← Nat.mul_assoc, ← Nat.add_assoc, ← Nat.add_mul,
      Nat.mul_comm _ (2 ^ f.fracBits), Nat.mul_add_div hF, Nat.div_eq_of_lt hfrac, Nat.add_zero,
      Nat.mul_add_mod_self_right, Nat.mod_eq_of_lt he]
  · rw [Fmt.fracField, h, Nat.pow_add, ← Nat.mul_assoc, ← Nat.add_assoc, ← Nat.add_mul,
      Nat.mul_add_mod_self_right, Nat.mod_eq_of_lt hfrac]

lemma toNat_zero_or (sign : Bool) (hx : x.toNat < 2 ^ (f.expBits + f.fracBits)) :
    (f.zero sign ||| x).toNat = sign.toNat * 2 ^ (f.expBits + f.fracBits) + x.toNat := by
  rw [Fmt.zero]
  cases sign
  · simp
  · have hk : f.expBits + f.fracBits < 64 := by
      have := hf.width_le
      omega
    have hor := Nat.shiftLeft_add_eq_or_of_lt hx 1
    rw [Nat.one_shiftLeft] at hor
    rw [if_pos rfl, BitVec.toNat_or, Fmt.signBit, toNat_one_shiftLeft hk, ← hor, Bool.toNat_true,
      Nat.one_mul]

/-- A pattern of a sign, an exponent field and a fraction field. -/
lemma fields_pack (sign : Bool) (he : e < 2 ^ f.expBits) (hfrac : frac < 2 ^ f.fracBits)
    (hx : x.toNat = e * 2 ^ f.fracBits + frac) :
    f.IsPattern (f.zero sign ||| x) ∧ f.signOf (f.zero sign ||| x) = sign ∧
      f.expField (f.zero sign ||| x) = e ∧ f.fracField (f.zero sign ||| x) = frac := by
  refine fields_of_toNat _ he hfrac ?_
  rw [toNat_zero_or hf sign (hx ▸ fields_lt he hfrac), hx]

lemma reads_subnormal (sign : Bool) (hfrac : frac < 2 ^ f.fracBits)
    (hx : x.toNat = frac) : f.Reads (f.zero sign ||| x) sign (frac * 2 ^ f.qmin) := by
  have hfour := two_pow_expBits hf
  obtain ⟨hpattern, hsign, he, hfr⟩ :=
    fields_pack hf sign (e := 0) (by omega) hfrac (by rw [hx]; omega)
  refine ⟨hpattern, ?_, hsign, ?_⟩
  · rw [Fmt.IsFinite, he]
    omega
  · rw [Fmt.magnitude, if_pos he, hfr]

lemma reads_normal (sign : Bool) (hpos : 0 < e) (he : e < 2 ^ f.expBits - 1)
    (hfrac : frac < 2 ^ f.fracBits) (hx : x.toNat = e * 2 ^ f.fracBits + frac) :
    f.Reads (f.zero sign ||| x) sign ((2 ^ f.fracBits + frac) * 2 ^ ((e : ℤ) - 1 + f.qmin)) := by
  obtain ⟨hpattern, hsign, he', hfr⟩ := fields_pack hf sign (by omega) hfrac hx
  refine ⟨hpattern, ?_, hsign, ?_⟩
  · rwa [Fmt.IsFinite, he']
  · rw [Fmt.magnitude, if_neg (by omega), hfr, he']

lemma toNat_shiftLeft_fracBits (hx : x.toNat < 2 ^ f.expBits) :
    (x <<< f.fracBits).toNat = x.toNat * 2 ^ f.fracBits := by
  rw [BitVec.toNat_shiftLeft, Nat.shiftLeft_eq, Nat.mod_eq_of_lt]
  calc x.toNat * 2 ^ f.fracBits < 2 ^ f.expBits * 2 ^ f.fracBits :=
        Nat.mul_lt_mul_of_pos_right hx (Nat.two_pow_pos _)
    _ = 2 ^ (f.expBits + f.fracBits) := (Nat.pow_add _ _ _).symm
    _ ≤ 2 ^ 64 := Nat.pow_le_pow_right (by norm_num) (by have := hf.width_le; omega)

lemma toNat_or_frac {y : U64} (hx : x.toNat < 2 ^ f.expBits) (hy : y.toNat < 2 ^ f.fracBits) :
    ((x <<< f.fracBits) ||| y).toNat = x.toNat * 2 ^ f.fracBits + y.toNat := by
  have hor := Nat.shiftLeft_add_eq_or_of_lt hy x.toNat
  rw [BitVec.toNat_or, toNat_shiftLeft_fracBits hf hx, ← Nat.shiftLeft_eq, ← hor]

lemma readsInf_inf (sign : Bool) : f.ReadsInf (f.inf sign) sign := by
  have hmax := toNat_expMax hf
  have hfour := two_pow_expBits hf
  have hx : (f.expMax <<< f.fracBits).toNat = (2 ^ f.expBits - 1) * 2 ^ f.fracBits + 0 := by
    rw [toNat_shiftLeft_fracBits hf (by omega), hmax, Nat.add_zero]
  obtain ⟨hpattern, hsign, he, hfr⟩ := fields_pack hf sign (by omega) (Nat.two_pow_pos _) hx
  exact ⟨hpattern, ⟨he, hfr⟩, hsign⟩

lemma reads_zero (sign : Bool) : f.Reads (f.zero sign) sign 0 := by
  have h := reads_subnormal hf sign (x := 0) (Nat.two_pow_pos _) rfl
  rw [Nat.cast_zero, zero_mul] at h
  simpa using h

lemma reads_maxFinite (sign : Bool) : f.Reads (f.maxFinite sign) sign f.maxMagnitude := by
  have hmax := toNat_expMax hf
  have hfour := two_pow_expBits hf
  have hmask : f.fracMask.toNat = 2 ^ f.fracBits - 1 := toNat_mask hf.fracBits_lt
  have hone : (f.expMax - 1).toNat = 2 ^ f.expBits - 2 := by
    rw [BitVec.toNat_sub_of_le, hmax]
    · show 2 ^ f.expBits - 1 - 1 = _
      omega
    · rw [BitVec.le_def, hmax]
      show 1 ≤ _
      omega
  have hpos := Nat.two_pow_pos f.fracBits
  have hx : (((f.expMax - 1) <<< f.fracBits) ||| f.fracMask).toNat =
      (2 ^ f.expBits - 2) * 2 ^ f.fracBits + (2 ^ f.fracBits - 1) := by
    rw [toNat_or_frac hf (by omega) (by omega), hone, hmask]
  have h := reads_normal hf sign (by omega) (by omega) (by omega) hx
  have hvalue : ((2 ^ f.fracBits : ℚ) + ((2 ^ f.fracBits - 1 : ℕ) : ℚ)) *
      2 ^ (((2 ^ f.expBits - 2 : ℕ) : ℤ) - 1 + f.qmin) = f.maxMagnitude := by
    rw [Fmt.maxMagnitude, Fmt.p]
    congr 1
    · rw [Nat.cast_sub hpos, pow_succ]
      push_cast
      ring
    · congr 1
      obtain ⟨k, hk⟩ := Nat.exists_eq_add_of_le' (Nat.one_le_of_lt hf.two_le_expBits)
      rw [Nat.cast_sub (by omega), Fmt.qmin, Fmt.emin, Fmt.emax, Fmt.bias, hk, Nat.add_sub_cancel]
      push_cast
      ring
  rw [hvalue] at h
  exact h

end Masks

example : F32.canonicalNan = 0x7fc00000 ∧ F64.canonicalNan = 0x7ff8000000000000 := by decide

end Softfloat

end RiscvEmu
