import RiscvEmu.Cpu.FpState
import RiscvEmu.Softfloat.Integers
import RiscvEmu.Softfloat.Order

/-!
# What floating-point instructions return

A comparison orders its operands by the numbers they stand for, and so do FMIN and FMAX, to which a
negative zero is less than a positive one.  A conversion to an integer rounds before it looks at the
range of its destination.
-/

namespace RiscvEmu

open Exec Softfloat

/-! ## Comparisons -/

/-- The first operand is less; a negative zero is less than a positive one. -/
def Softfloat.Fmt.Below (f : Fmt) (a b : U64) : Prop :=
  f.extended a < f.extended b ∨ f.extended a = f.extended b ∧ f.signOf a ∧ ¬f.signOf b

open Classical in
/-- What FEQ, FLT and FLE, numbered by `funct3`, return and raise. -/
noncomputable def ieeeCompare (funct3 : ℕ) (a b : U64) (f : Fmt) : U64 × U64 :=
  let related := if funct3 = 2 then f.extended a = f.extended b
    else if funct3 = 1 then f.extended a < f.extended b
    else f.extended a ≤ f.extended b
  let invalid := if funct3 = 2 then f.IsSignalling a ∨ f.IsSignalling b else f.IsNan a ∨ f.IsNan b
  (if ¬f.IsNan a ∧ ¬f.IsNan b ∧ related then 1 else 0, if invalid then Csr.fflagNv else 0)

open Classical in
/-- What FMIN and FMAX return and raise. -/
noncomputable def ieeeMinMax (wantMax : Bool) (a b : U64) (f : Fmt) : U64 × U64 :=
  (if f.IsNan a ∧ f.IsNan b then f.canonicalNan
    else if f.IsNan a then b
    else if f.IsNan b then a
    else if (if wantMax then f.Below a b else f.Below b a) then b else a,
    if f.IsSignalling a ∨ f.IsSignalling b then Csr.fflagNv else 0)

section Comparisons

variable {f : Fmt} (hf : f.Ieee) {a b : U64}

include hf

lemma isNan_eq (a : U64) : isNan a f = decide (f.IsNan a) := (operand_unpack hf a).isNan

lemma isSnan_eq (a : U64) : isSnan a f = decide (f.IsSignalling a) := (operand_unpack hf a).isSnan

lemma eq_negZero_iff {bits : U64} (hpattern : f.IsPattern bits) :
    bits = f.zero true ↔ f.signOf bits ∧ f.rank bits = 0 := by
  have hzero : (f.zero true).toNat = 2 ^ (f.expBits + f.fracBits) :=
    toNat_one_shiftLeft (by have := hf.width_le; omega)
  obtain ⟨hbits, hlt⟩ := toNat_eq_rank hpattern
  rw [← BitVec.toNat_inj, hzero, hbits]
  cases f.signOf bits <;> simp
  omega

variable (ha : f.IsPattern a) (hb : f.IsPattern b)

include ha hb

lemma compare_neg_iff (hna : ¬f.IsNan a) (hnb : ¬f.IsNan b) :
    (Softfloat.compare a b f < 0 ↔ f.extended a < f.extended b) ∧
      (Softfloat.compare a b f ≤ 0 ↔ f.extended a ≤ f.extended b) := by
  obtain ⟨hlt, heq, hgt⟩ := compare_eq hf ha hb hna hnb
  have hcases : Softfloat.compare a b f = -1 ∨ Softfloat.compare a b f = 0 ∨
    Softfloat.compare a b f = 1 :=
    (lt_trichotomy (f.extended a) (f.extended b)).imp hlt.mpr (.imp heq.mpr hgt.mpr)
  rw [le_iff_lt_or_eq, le_iff_lt_or_eq, ← hlt, ← heq]
  rcases hcases with h | h | h <;> rw [h] <;> decide

lemma fcompare_eq {funct3 : ℕ} (hfunct3 : funct3 ≤ 2) :
    fcompare funct3 a b f = some (ieeeCompare funct3 a b f) := by
  unfold fcompare ieeeCompare boolToU64
  simp only [isNan_eq hf, isSnan_eq hf]
  by_cases hnan : f.IsNan a ∨ f.IsNan b
  · have hordered : (!decide (f.IsNan a) && !decide (f.IsNan b)) = false := by
      simpa [or_iff_not_imp_left] using hnan
    have hunrelated (p : Prop) : ¬(¬f.IsNan a ∧ ¬f.IsNan b ∧ p) := by tauto
    interval_cases funct3 <;> simp [hordered, hunrelated, hnan]
  · rw [not_or] at hnan
    obtain ⟨hlt, hle⟩ := compare_neg_iff hf ha hb hnan.1 hnan.2
    have heq := (compare_eq hf ha hb hnan.1 hnan.2).2.1
    interval_cases funct3 <;> simp [hnan, hlt, hle, heq]

/-- Of equal numbers, only zeros of different signs are in order. -/
lemma below_of_eq (hna : ¬f.IsNan a) (hnb : ¬f.IsNan b) (h : f.extended a = f.extended b) :
    f.Below a b ↔ a = f.zero true ∧ b ≠ f.zero true := by
  have hkey := (orderKey_eq_iff hf ha hb hna hnb).mpr h
  rw [orderKey_eq hf ha, orderKey_eq hf hb] at hkey
  rw [Fmt.Below, h, eq_negZero_iff hf ha, Ne, eq_negZero_iff hf hb]
  simp only [lt_irrefl, false_or, true_and]
  generalize f.signOf a = sa at hkey ⊢
  generalize f.signOf b = sb at hkey ⊢
  cases sa <;> cases sb <;> simp at hkey ⊢ <;> omega

lemma fminmax_eq (wantMax : Bool) : fminmax wantMax a b f = ieeeMinMax wantMax a b f := by
  unfold fminmax ieeeMinMax
  simp only [isNan_eq hf, isSnan_eq hf]
  by_cases hna : f.IsNan a
  · by_cases hnb : f.IsNan b <;> simp [hna, hnb]
  by_cases hnb : f.IsNan b
  · simp [hna, hnb]
  obtain ⟨hlt, heq, hgt⟩ := compare_eq hf ha hb hna hnb
  simp only [hna, hnb, decide_false, Bool.and_false, Bool.false_eq_true, and_false, if_false]
  by_cases he : f.extended a = f.extended b
  · rw [if_pos (heq.mpr he)]
    simp only [below_of_eq hf ha hb hna hnb he, below_of_eq hf hb ha hnb hna he.symm]
    by_cases hnega : a = f.zero true <;> by_cases hnegb : b = f.zero true <;> cases wantMax <;>
      simp [hnega, hnegb]
  · have hbelow (x y : U64) (h : f.extended x ≠ f.extended y) : f.Below x y ↔
      f.extended x < f.extended y := by
      simp [Fmt.Below, h]
    rw [if_neg (mt heq.mp he)]
    simp only [hbelow a b he, hbelow b a (Ne.symm he)]
    rcases lt_or_gt_of_ne he with h | h
    · cases wantMax <;> simp [hlt.mpr h, h, h.not_gt]
    · cases wantMax <;> simp [hgt.mpr h, h, h.not_gt]

end Comparisons

/-! ## Instructions -/

/-- The precision of an OP-FP instruction. -/
def DecodedInst.isDouble (inst : DecodedInst) : Bool := inst.funct7 % 4 == 1

/-- An f register as an instruction sees it. -/
def Hart.fpSource (s : Hart) (inst : DecodedInst) (i : ℕ) : U64 :=
  fpOperand inst.isDouble (s.cpu.fregs i)

/-- An OP-FP instruction for this operation meets a unit that is on. -/
structure RunsFp (s : Hart) (inst : DecodedInst) (op : ℕ) : Prop where
  opcode : inst.opcode = Opcode.opFp
  enabled : s.cpu.csrs.fpuEnabled
  precision : inst.funct7 % 4 ≤ 1
  operation : inst.funct7 / 4 = op

section Instructions

variable {s : Hart} {inst : DecodedInst} {op : ℕ}

lemma RunsFp.execute (h : RunsFp s inst op) : execute inst s =
    opFp inst op inst.isDouble (s.cpu.fregs inst.rs1) (s.cpu.fregs inst.rs2) s := by
  rw [execute_opFp h.opcode, executeOpFp_apply, if_pos ⟨h.enabled, h.precision⟩, h.operation,
    DecodedInst.isDouble]

lemma ieee_fmtOf (isDouble : Bool) : (fmtOf isDouble).Ieee := by
  cases isDouble
  · exact ieee_F32
  · exact ieee_F64

lemma isPattern_fpSource (s : Hart) (i : ℕ) :
    (fmtOf inst.isDouble).IsPattern (s.fpSource inst i) := by
  unfold Hart.fpSource
  cases inst.isDouble
  · show (BitVec.setWidth 64 (nanUnbox (s.cpu.fregs i))).toNat < 2 ^ 32
    rw [BitVec.toNat_setWidth, Nat.mod_eq_of_lt (by omega)]
    exact BitVec.isLt _
  · exact BitVec.isLt _

lemma execute_compare (h : RunsFp s inst 0x14) (hfunct3 : inst.funct3 ≤ 2) :
    execute inst s =
      putInt inst (ieeeCompare inst.funct3 (s.fpSource inst inst.rs1) (s.fpSource inst inst.rs2)
      (fmtOf inst.isDouble)) s := by
  have hcompare := fcompare_eq (ieee_fmtOf inst.isDouble) (isPattern_fpSource s inst.rs1)
    (isPattern_fpSource s inst.rs2) hfunct3
  rw [Hart.fpSource, Hart.fpSource] at hcompare
  rw [h.execute, opFp_compare, hcompare]
  rfl

lemma execute_minMax (h : RunsFp s inst 0x05) (hfunct3 : inst.funct3 ≤ 1) :
    execute inst s =
      putFp inst inst.isDouble (ieeeMinMax (inst.funct3 == 0x1) (s.fpSource inst inst.rs1)
      (s.fpSource inst inst.rs2) (fmtOf inst.isDouble)) s := by
  rw [h.execute, ← fminmax_eq (ieee_fmtOf inst.isDouble) (isPattern_fpSource s _)
    (isPattern_fpSource s _)]
  exact congrFun (if_neg (by omega : ¬inst.funct3 > 0x1)) s

lemma execute_toInt (h : RunsFp s inst 0x18) {rm : Rm} (hrm : rounding inst s = .ok rm s) {bits : ℕ}
    {sgn : Bool} (hkind : intKind inst.rs2 = some (bits, sgn)) :
    execute inst s = .ok () (s.putInt inst
      (widenInt bits (toInt (s.fpSource inst inst.rs1) (fmtOf inst.isDouble) rm bits sgn))) := by
  rw [h.execute, opFp_toInt, bind_of_ok hrm, hkind]
  rfl

lemma intKind_bits {i bits : ℕ} {sgn : Bool} (h : intKind i = some (bits, sgn)) :
    bits = 32 ∨ bits = 64 := by
  unfold intKind at h
  split at h <;> cases h <;> decide

end Instructions

/-- `to_int` rounds and then saturates, and FCVT.W, FCVT.WU, FCVT.L and FCVT.LU write what it
returns, the 32-bit forms sign-extended. -/
theorem conversions_saturate :
    (∀ f a rm bits sgn, f = F32 ∨ f = F64 → bits = 32 ∨ bits = 64 →
      IsToInt f rm a (intRange bits sgn).1 (intRange bits sgn).2 (toInt a f rm bits sgn)) ∧
    ∀ s inst rm bits sgn, RunsFp s inst 0x18 → rounding inst s = .ok rm s → intKind inst.rs2 =
      some (bits, sgn) →
      ∃ res, IsToInt (fmtOf inst.isDouble) rm (s.fpSource inst inst.rs1) (intRange bits sgn).1
          (intRange bits sgn).2 res ∧
        execute inst s = .ok () (s.putInt inst
          (if bits = 32 then (res.1.setWidth 32).signExtend 64 else res.1, res.2)) := by
  refine ⟨?_, fun s inst rm bits sgn h hrm hkind => ⟨_, ?_, execute_toInt h hrm hkind⟩⟩
  · rintro f a rm bits sgn (rfl | rfl) hbits
    · exact toInt_isToInt ieee_F32 a rm hbits sgn
    · exact toInt_isToInt ieee_F64 a rm hbits sgn
  · exact toInt_isToInt (ieee_fmtOf inst.isDouble) _ rm (intKind_bits hkind) sgn

/-- `fcvt.w.s x4, f1, rtz`. -/
theorem conversions_saturate_sample :
    ∃ res, IsToInt F32 .rtz ((silentCompareHart 7).fpSource (decode 0xc0009253) 1) (-2 ^ 31)
      (2 ^ 31 - 1) res ∧
      execute (decode 0xc0009253) (silentCompareHart 7) =
        .ok () ((silentCompareHart 7).putInt (decode 0xc0009253)
        ((res.1.setWidth 32).signExtend 64, res.2)) :=
  conversions_saturate.2 (silentCompareHart 7) (decode 0xc0009253) .rtz 32 true
    ⟨by decide, by decide +kernel, by decide, by decide⟩ rfl rfl

end RiscvEmu
