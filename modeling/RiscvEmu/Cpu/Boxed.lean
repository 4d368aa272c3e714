import RiscvEmu.Cpu.FpState

/-!
# Boxed singles

A single-precision instruction takes an f register whose upper half is not all ones for the
canonical NaN.  So it does the same on a hart where such registers hold that NaN, boxed: the view
that puts it there shows every operand as the instruction sees it, and leaves alone what the
instruction writes.
-/

namespace RiscvEmu

open Exec

/-- The upper half is all ones. -/
def Boxed (x : U64) : Prop := x >>> 32 = 0xffffffff

instance (x : U64) : Decidable (Boxed x) := inferInstanceAs (Decidable (_ = _))

/-- The chosen registers that hold no boxed single now hold the boxed canonical NaN. -/
def rebox (chosen : ℕ → Bool) (r : ℕ → U64) (i : ℕ) : U64 :=
  if chosen i ∧ ¬ Boxed (r i) then nanBox canonicalNanF32 else r i

/-- The hart with the chosen registers boxed. -/
def Hart.rebox (chosen : ℕ → Bool) (s : Hart) : Hart :=
  { s with cpu := { s.cpu with fregs := RiscvEmu.rebox chosen s.cpu.fregs } }

/-- The opcodes of the fused operations. -/
def IsFused (opcode : ℕ) : Prop :=
  opcode = Opcode.madd ∨ opcode = Opcode.msub ∨ opcode = Opcode.nmsub ∨ opcode = Opcode.nmadd

/-- The instructions with a single-precision result in an f register. -/
def WritesSingle (inst : DecodedInst) : Prop :=
  inst.opcode = Opcode.loadFp ∧ inst.funct3 = 0x2 ∨
    inst.opcode = Opcode.opFp ∧ inst.funct7 % 4 = 0 ∧ inst.funct7 / 4 ∉ [0x14, 0x18, 0x1c] ∨
    IsFused inst.opcode ∧ ((inst.raw >>> 25) &&& 0x3).toNat = 0

/-- The instructions of the F extension other than FSW and FMV.X.W.  FCVT.S.D has a single-precision
result as well, but what it reads is a double. -/
def IsSingle (inst : DecodedInst) : Prop :=
  inst.opcode = Opcode.loadFp ∧ inst.funct3 = 0x2 ∨
    inst.opcode = Opcode.opFp ∧ inst.funct7 % 4 = 0 ∧ inst.funct7 / 4 ≠ 0x08 ∧
      ¬ (inst.funct7 / 4 = 0x1c ∧ inst.funct3 = 0x0) ∨
    IsFused inst.opcode ∧ ((inst.raw >>> 25) &&& 0x3).toNat = 0

/-- FCVT.D.S: what it reads is a single, and its result is a double. -/
def WidensSingle (inst : DecodedInst) : Prop :=
  inst.opcode = Opcode.opFp ∧ inst.funct7 % 4 = 1 ∧ inst.funct7 / 4 = 0x08

variable {inst : DecodedInst} {chosen : ℕ → Bool}

lemma execute_fused (h : IsFused inst.opcode) : execute inst = executeFusedMadd inst := by
  unfold execute
  rcases h with h | h | h | h <;> (simp only [h]; rfl)

lemma boxed_fpResult (x : U64) : Boxed (fpResult false x) := by
  show (0xffffffff00000000 ||| (x.setWidth 32).setWidth 64) >>> 32 = 0xffffffff
  have hlow : ((x.setWidth 32).setWidth 64 : U64) >>> 32 = 0 := by
    apply BitVec.eq_of_toNat_eq
    simp [BitVec.toNat_ushiftRight, Nat.shiftRight_eq_div_pow]
    omega
  rw [BitVec.ushiftRight_or_distrib, hlow]
  rfl

/-! ## The view -/

lemma fpOperand_rebox (r : ℕ → U64) (i : ℕ) :
    fpOperand false (rebox chosen r i) = fpOperand false (r i) := by
  unfold rebox
  split
  · next h =>
    have hnan : nanUnbox (r i) = canonicalNanF32 := if_neg h.2
    exact congrArg (BitVec.setWidth 64) (Eq.trans (by decide) hnan.symm)
  · rfl

lemma opFp_rebox (hconvert : inst.funct7 / 4 ≠ 0x08)
    (hmove : ¬ (inst.funct7 / 4 = 0x1c ∧ inst.funct3 = 0x0))
    (r : ℕ → U64) : opFp inst (inst.funct7 / 4) false (rebox chosen r inst.rs1)
    (rebox chosen r inst.rs2) =
      opFp inst (inst.funct7 / 4) false (r inst.rs1) (r inst.rs2) := by
  dsimp only [opFp]
  simp only [fpOperand_rebox, hconvert, if_false]
  by_cases h : inst.funct7 / 4 = 0x1c
  · rw [if_neg fun hzero => hmove ⟨h, hzero⟩, if_neg fun hzero => hmove ⟨h, hzero⟩]
  · simp only [h, if_false]

/-- Boxed canonical NaNs in the chosen registers. -/
def Window.boxing (chosen : ℕ → Bool) : Window where
  view := ⟨fun r _ => r, id, id, rebox chosen, id, @View.raw_id, @View.setRaw_id⟩
  ok _ _ _ := True
  exact := View.exact_of_plain rfl rfl rfl
  enabled := True
  csrs _ := rfl

lemma writes_boxing : (Window.boxing chosen).view.Writes false := by
  intro r i x
  funext j
  show rebox chosen _ j = Function.update (rebox chosen r) i _ j
  rcases eq_or_ne j i with rfl | hne
  · rw [rebox, Function.update_self, Function.update_self, if_neg fun h => h.2 (boxed_fpResult x)]
  · rw [rebox, Function.update_of_ne hne, Function.update_of_ne hne, rebox]

lemma does_single (h : IsSingle inst) : (Window.boxing chosen).Does inst (execute inst) := by
  rcases h with ⟨hop, hf⟩ | ⟨hop, hfmt, hconvert, hmove⟩ | ⟨hop, hfmt⟩
  · rw [execute_loadFp hop]
    exact Window.does_executeLoadFp fun _ => by simpa [hf] using writes_boxing
  · rw [execute_opFp hop]
    refine Window.does_executeOpFp hop (fun _ => by simpa [hfmt] using writes_boxing) fun _ r => ?_
    rw [hfmt]
    exact opFp_rebox hconvert hmove r
  · rw [execute_fused hop]
    refine Window.does_executeFusedMadd (fun _ => ?_) fun _ r i => ?_
    · rw [hfmt]
      exact writes_boxing
    · rw [hfmt]
      exact fpOperand_rebox r i

/-! ## From single to double -/

/-- The chosen registers other than the destination. -/
def otherThan (inst : DecodedInst) (chosen : ℕ → Bool) : ℕ → Bool :=
  Function.update chosen inst.rd false

variable (inst chosen) in
lemma rebox_update (r : ℕ → U64) (x : U64) : Function.update (rebox chosen r) inst.rd x =
    rebox (otherThan inst chosen) (Function.update r inst.rd x) := by
  funext j
  unfold otherThan rebox
  rcases eq_or_ne j inst.rd with rfl | hne
  · simp
  · simp [Function.update_of_ne hne]

/-- On the hart with the boxed NaNs the program does the same.  If it returns, the destination is no
longer one of the registers that differ, whatever it held before. -/
def Widens (inst : DecodedInst) (chosen : ℕ → Bool) (m : HartM Unit) : Prop :=
  ∀ s : Hart, m (s.rebox chosen) =
    match m s with
    | .ok a t => .ok a (t.rebox (otherThan inst chosen))
    | .error e t => .error e (t.rebox chosen)

namespace Widens

lemma illegal : Widens inst chosen (throw (illegal inst)) := fun _ => rfl

lemma putFp (r : U64 × U64) : Widens inst chosen (putFp inst true r) := by
  intro s
  have hfregs := rebox_update inst chosen s.cpu.fregs (fpResult true r.1)
  -- the flags and the dirty unit are the same from both harts
  exact congrArg (fun fregs => EStateM.Result.ok () ({ s with cpu := { s.cpu with
    fregs, csrs := (s.cpu.csrs.raiseFflags r.2).markFpuDirty } } : Hart)) hfregs

lemma fpArith (f : Softfloat.Rm → U64 × U64) : Widens inst chosen (fpArith inst true f) := by
  intro s
  have hcsrs : (s.rebox chosen).cpu.csrs = s.cpu.csrs := rfl
  unfold RiscvEmu.fpArith
  rw [bind_apply, bind_apply, rounding_apply, rounding_apply, hcsrs]
  cases Softfloat.Rm.fromBits
    (if inst.funct3 = frmDyn then s.cpu.csrs.roundingMode else inst.funct3) with
  | none => rfl
  | some rm => exact putFp (f rm) s

/-- The conversion reads its operand through `nan_unbox`, so it takes the same value from both
harts. -/
lemma convert (s : Hart) :
    opFp inst 0x08 true (rebox chosen s.cpu.fregs inst.rs1) (rebox chosen s.cpu.fregs inst.rs2)
        (s.rebox chosen) =
      match opFp inst 0x08 true (s.cpu.fregs inst.rs1) (s.cpu.fregs inst.rs2) s with
      | .ok a t => .ok a (t.rebox (otherThan inst chosen))
      | .error e t => .error e (t.rebox chosen) := by
  have hopFp : ∀ a b, opFp inst 0x08 true a b = if inst.rs2 ≠ 0 then throw (RiscvEmu.illegal inst)
      else RiscvEmu.fpArith inst true
        (Softfloat.convert (fpOperand false a) (fmtOf false) (fmtOf true)) := fun _ _ => rfl
  rw [hopFp, hopFp, fpOperand_rebox]
  split
  · exact illegal s
  · exact fpArith _ s

lemma execute (h : WidensSingle inst) : Widens inst chosen (execute inst) := by
  obtain ⟨hop, hfmt, hconvert⟩ := h
  intro s
  have hcsrs : (s.rebox chosen).cpu.csrs = s.cpu.csrs := rfl
  have hfregs : (s.rebox chosen).cpu.fregs = rebox chosen s.cpu.fregs := rfl
  rw [execute_opFp hop, executeOpFp_apply, executeOpFp_apply, hcsrs, hfregs, hfmt, hconvert]
  split
  · exact convert s
  · rfl

variable {m : HartM Unit} {s t : Hart}

lemma outcome_eq (h : Widens inst chosen m) (s : Hart) :
    outcome m (s.rebox chosen) = outcome m s := by
  unfold outcome
  rw [h s]
  cases m s <;> rfl

lemma final_of_ok (h : Widens inst chosen m) (hrun : m s = .ok () t) :
    final m (s.rebox chosen) = t.rebox (otherThan inst chosen) := by
  have hrebox := h s
  rw [hrun] at hrebox
  exact Exec.final_of_ok hrebox

lemma final_of_error {e : Trap} (h : Widens inst chosen m) (hrun : m s = .error e t) :
    final m (s.rebox chosen) = t.rebox chosen := by
  have hrebox := h s
  rw [hrun] at hrebox
  exact Exec.final_of_error hrebox

end Widens

/-! ## What is written -/

/-- A run of the program that returns leaves a boxed single in the destination. -/
def LeavesBoxed (inst : DecodedInst) (m : HartM Unit) : Prop :=
  Ensures (fun _ => True) m fun _ t => Boxed (t.cpu.fregs inst.rd)

namespace LeavesBoxed

lemma illegal : LeavesBoxed inst (throw (illegal inst)) := .throw _

lemma writeFreg (x : U64) : LeavesBoxed inst (writeFreg inst.rd (fpResult false x)) := by
  refine .modify fun s _ => ?_
  show Boxed (Function.update s.cpu.fregs inst.rd (fpResult false x) inst.rd)
  rw [Function.update_self]
  exact boxed_fpResult x

lemma seq {α : Type} {m : HartM α} {k : α → HartM Unit} (h : ∀ a, LeavesBoxed inst (k a)) :
    LeavesBoxed inst (m >>= k) :=
  .bind (Q := fun _ _ => True) (fun _ _ _ _ _ => trivial) h

lemma fpArith (f : Softfloat.Rm → U64 × U64) : LeavesBoxed inst (fpArith inst false f) :=
  .seq fun _ => .seq fun _ => .writeFreg _

lemma ite {c : Prop} [Decidable c] {m m' : HartM Unit} (h : c → LeavesBoxed inst m)
    (h' : LeavesBoxed inst m') :
    LeavesBoxed inst (if c then m else m') := by
  split
  · next hc => exact h hc
  · exact h'

lemma opFp {op : ℕ} (hop : op ∉ [0x14, 0x18, 0x1c]) (a b : U64) :
    LeavesBoxed inst (opFp inst op false a b) := by
  have hint : ¬ op = 0x14 ∧ ¬ op = 0x18 ∧ ¬ op = 0x1c := by simpa using hop
  dsimp only [RiscvEmu.opFp]
  iterate 4 refine .ite (fun _ => .fpArith _) ?_
  refine .ite (fun _ => .ite (fun _ => .illegal) (.fpArith _)) (.ite (fun _ => ?_) ?_)
  · cases fsgnjSign inst.funct3 (fpOperand false a) (fpOperand false b) (fpSignBit false) with
    | none => exact .illegal
    | some sign => exact .writeFreg _
  refine .ite (fun _ => .ite (fun _ => .illegal) (.seq fun _ => .writeFreg _)) ?_
  refine .ite (fun _ => .ite (fun _ => .illegal) (.fpArith _)) ?_
  refine .ite (fun h => absurd h hint.1) (.ite (fun h => absurd h hint.2.1) ?_)
  refine .ite
    (fun _ => .ite (fun _ => .illegal) (.seq fun _ => .seq fun _ => .seq fun _ => .writeFreg _)) ?_
  refine .ite (fun h => absurd h hint.2.2) (.ite (fun _ => .ite (fun _ => .illegal) ?_) .illegal)
  exact .seq fun _ => .writeFreg _

lemma execute (h : WritesSingle inst) : LeavesBoxed inst (execute inst) := by
  rcases h with ⟨hop, hf⟩ | ⟨hop, hfmt, hint⟩ | ⟨hop, hfmt⟩
  · rw [execute_loadFp hop]
    refine .seq fun _ => .seq fun _ => ?_
    rw [if_pos hf]
    exact .seq fun x => .writeFreg x
  · rw [execute_opFp hop]
    refine .seq fun _ => .seq fun s => .ite (fun _ => .illegal) ?_
    rw [hfmt]
    exact .opFp hint _ _
  · rw [execute_fused hop]
    refine .seq fun _ => .seq fun s => .ite (fun _ => .illegal) ?_
    rw [hfmt]
    exact .fpArith _

end LeavesBoxed

/-- **Single-precision instructions cannot see an unboxed register.**  Whatever registers without a
boxed single are given the boxed canonical NaN, an instruction that reads singles fails with the
same exception or returns, and leaves the same hart up to those registers.  This includes FCVT.D.S,
whose result is a double and so takes its destination out of the registers that differ.  The value
an instruction writes to an f register is the same, and a single-precision one is boxed. -/
theorem singles_stay_boxed (inst : DecodedInst) (s : Hart) (chosen : ℕ → Bool) :
    (IsSingle inst ∨ WidensSingle inst →
      outcome (execute inst) (s.rebox chosen) = outcome (execute inst) s) ∧
    (IsSingle inst →
      final (execute inst) (s.rebox chosen) = (final (execute inst) s).rebox chosen) ∧
    (WidensSingle inst →
      (∀ t, execute inst s = .ok () t →
        final (execute inst) (s.rebox chosen) = t.rebox (otherThan inst chosen)) ∧
      ∀ e t, execute inst s = .error e t →
        final (execute inst) (s.rebox chosen) = t.rebox chosen) ∧
    (IsSingle inst ∧ WritesSingle inst ∨ WidensSingle inst → ∀ t, execute inst s = .ok () t →
      (final (execute inst) (s.rebox chosen)).cpu.fregs inst.rd = t.cpu.fregs inst.rd) ∧
    (WritesSingle inst → ∀ t, execute inst s = .ok () t → Boxed (t.cpu.fregs inst.rd)) := by
  have hbefore : (Window.boxing chosen).Before s := ⟨trivial, fun _ => trivial⟩
  have hsame (h : IsSingle inst) :
      final (execute inst) (s.rebox chosen) = (final (execute inst) s).rebox chosen :=
    (does_single h).mirrors.final_eq hbefore
  have hwidens (h : WidensSingle inst) (t : Hart) (hrun : execute inst s = .ok () t) :
      final (execute inst) (s.rebox chosen) = t.rebox (otherThan inst chosen) :=
    Widens.final_of_ok (.execute h) hrun
  have hboxed (h : WritesSingle inst) (t : Hart) (hrun : execute inst s = .ok () t) :
      Boxed (t.cpu.fregs inst.rd) :=
    (LeavesBoxed.execute h).of_ok trivial hrun
  refine ⟨?_, hsame, fun h => ⟨hwidens h, fun e t hrun => ?_⟩, ?_, hboxed⟩
  · rintro (h | h)
    · exact (does_single h).mirrors.outcome_eq hbefore
    · exact Widens.outcome_eq (.execute h) s
  · exact Widens.final_of_error (.execute h) hrun
  · rintro (⟨h, hw⟩ | h) t hrun
    · -- what is written is boxed already
      rw [hsame h, final_of_ok hrun]
      exact if_neg fun hun => hun.2 (hboxed hw t hrun)
    · rw [hwidens h t hrun]
      exact if_neg fun hun => by simp [otherThan] at hun

end RiscvEmu
