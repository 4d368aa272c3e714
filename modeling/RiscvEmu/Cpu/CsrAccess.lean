import RiscvEmu.CsrLaws

/-!
# When a CSR instruction is legal

The checks of a read, those of a write and the rules for leaving one of them out stand in three
functions.  Together they refuse what they should, with one exception: CSRRS and CSRRC decide by the
value of the source register whether they write, and not by which register it is.  So with a
register that happens to hold zero they read a read-only register where they should trap.
-/

namespace RiscvEmu

open Exec

/-- The six CSR instructions: the low bits of `funct3` say which, the next one that the source is an
immediate. -/
structure IsCsrAccess (inst : DecodedInst) : Prop where
  form : inst.funct3 % 4 ≠ 0
  rs1 : inst.rs1 < 32

/-- The instruction writes its CSR. -/
def csrWrites (inst : DecodedInst) : Prop := inst.funct3 % 4 = 1 ∨ inst.rs1 ≠ 0

/-- The instruction reads its CSR. -/
def csrReads (inst : DecodedInst) : Prop := ¬ (inst.funct3 % 4 = 1 ∧ inst.rd = 0)

instance (inst : DecodedInst) : Decidable (csrWrites inst) := by
  unfold csrWrites
  infer_instance

/-- A counter that the modes above do not let this one read. -/
def Cpu.counterHidden (c : Cpu) (addr : CsrAddr) : Prop :=
  (addr = Csr.cycle ∧ ¬ c.csrs.counterEnabled 0 c.priv.val) ∨
    (addr = Csr.time ∧ ¬ c.csrs.counterEnabled 1 c.priv.val) ∨
    (addr = Csr.instret ∧ ¬ c.csrs.counterEnabled 2 c.priv.val)

/-- The reasons for which the architecture refuses a CSR instruction. -/
inductive CsrIllegal (c : Cpu) (inst : DecodedInst) : Prop
  | missing (h : ¬ CsrFile.csrExists (csrAddrOf inst))
  | privilege (h : c.priv.val < Csr.minPrivilege (csrAddrOf inst))
  | virtualMemory (ha : csrAddrOf inst = Csr.satp) (hp : c.priv.val = privSupervisor)
      (h : c.csrs.mstatus &&& Csr.mstatusTvm ≠ 0)
  | unitOff (ha : isFpCsr (csrAddrOf inst)) (h : ¬ c.csrs.fpuEnabled)
  | counter (hr : csrReads inst) (h : c.counterHidden (csrAddrOf inst))
  | readOnly (hw : csrWrites inst) (h : Csr.isReadOnly (csrAddrOf inst))

/-! ## What an instruction computes -/

/-- The value a CSR reads as. -/
def Hart.csrValue (s : Hart) (addr : CsrAddr) : U64 :=
  if addr = Csr.time ∧ s.sys.wired then s.sys.clint.clock.now else s.cpu.csrs.read addr

/-- The source operand, and the hart that has read it. -/
def Hart.csrOperand (s : Hart) (inst : DecodedInst) : U64 × Hart :=
  if inst.funct3 / 4 % 2 = 1 then (BitVec.ofNat 64 inst.rs1, s)
  else ((s.cpu.getReg inst.rs1).1, { s with cpu := (s.cpu.getReg inst.rs1).2 })

/-- The value to be written: swapped, set or cleared. -/
def csrNew (inst : DecodedInst) (old src : U64) : U64 :=
  if inst.funct3 % 4 = 1 then src else if inst.funct3 % 4 = 2 then old ||| src else old &&& ~~~src

/-- The destination register and the CSR hold what they should. -/
structure CsrDone (inst : DecodedInst) (s t : Hart) : Prop where
  regs : t.cpu.regs = ((s.csrOperand inst).2.cpu.setReg inst.rd (s.csrValue (csrAddrOf inst))).regs
  regfile : t.cpu.regfile =
    ((s.csrOperand inst).2.cpu.setReg inst.rd (s.csrValue (csrAddrOf inst))).regfile
  written : csrWrites inst → t.cpu.csrs.read (csrAddrOf inst) = (s.cpu.csrs.write (csrAddrOf inst)
    (csrNew inst (s.csrValue (csrAddrOf inst)) (s.csrOperand inst).1)).read (csrAddrOf inst)
  kept : ¬ csrWrites inst → t.cpu.csrs = s.cpu.csrs

/-- The instruction is refused exactly if it is illegal, and does what it should if not. -/
structure CsrAsSpecified (inst : DecodedInst) (s : Hart) : Prop where
  refused : (∃ t s', executeCsr inst s = .error t s' ∧ t.cause = .illegalInstruction) ↔
    CsrIllegal s.cpu inst
  done : ¬ CsrIllegal s.cpu inst → ∃ t, executeCsr inst s = .ok () t ∧ CsrDone inst s t

/-- A read-only CSR is named together with a register other than x0 that holds zero, and the CSR
could be read. -/
structure SilentReadOnly (inst : DecodedInst) (s : Hart) : Prop where
  form : inst.funct3 % 4 ≠ 1
  register : inst.funct3 / 4 % 2 ≠ 1
  rs1 : inst.rs1 ≠ 0
  zero : (s.cpu.getReg inst.rs1).1 = 0
  readOnly : Csr.isReadOnly (csrAddrOf inst)
  readable : s.cpu.csrReadable (csrAddrOf inst)

/-! ## The checks -/

section Checks

variable {c : Cpu} {addr : CsrAddr}

/-- A CSR that exists, is of this level, and is not shut off by a field of `mstatus`. -/
@[mk_iff]
structure Cpu.CsrOpen (c : Cpu) (addr : CsrAddr) : Prop where
  present : CsrFile.csrExists addr
  privilege : ¬ c.priv.val < Csr.minPrivilege addr
  virtualMemory : c.tvmBlocks addr = false
  unitOn : ¬ (isFpCsr addr ∧ ¬ c.csrs.fpuEnabled)

lemma csrReadable_iff : c.csrReadable addr ↔ c.CsrOpen addr ∧ ¬ c.counterHidden addr := by
  rw [Cpu.csrOpen_iff]
  simp only [Cpu.csrReadable, Cpu.counterHidden, Bool.and_eq_true, Bool.not_eq_true',
    Bool.or_eq_true, beq_iff_eq, decide_eq_true_eq, ← Bool.not_eq_true, not_or, not_and_or, not_not]
  constructor
  · rintro ⟨⟨⟨⟨⟨hex, hfp⟩, hpriv, htvm⟩, hcycle⟩, htime⟩, hinstret⟩
    exact ⟨⟨hex, hpriv, htvm, hfp⟩, hcycle, htime, hinstret⟩
  · rintro ⟨⟨hex, hpriv, htvm, hfp⟩, hcycle, htime, hinstret⟩
    exact ⟨⟨⟨⟨⟨hex, hfp⟩, hpriv, htvm⟩, hcycle⟩, htime⟩, hinstret⟩

lemma csrWritable_iff (ho : c.CsrOpen addr) : c.csrWritable addr ↔ Csr.isReadOnly addr = false := by
  simp [Cpu.csrWritable, ho.virtualMemory, ho.privilege]

lemma csrIllegal_iff {inst : DecodedInst} :
    CsrIllegal c inst ↔ ¬ c.CsrOpen (csrAddrOf inst) ∨
      (csrReads inst ∧ c.counterHidden (csrAddrOf inst)) ∨
      (csrWrites inst ∧ Csr.isReadOnly (csrAddrOf inst)) := by
  constructor
  · rintro (h | h | ⟨ha, hp, h⟩ | ⟨ha, h⟩ | ⟨hr, h⟩ | ⟨hw, h⟩)
    · exact .inl fun ho => h ho.present
    · exact .inl fun ho => ho.privilege h
    · have hblocks : c.tvmBlocks (csrAddrOf inst) = true := decide_eq_true ⟨ha, hp, h⟩
      exact .inl fun ho => absurd (hblocks.symm.trans ho.virtualMemory) (by decide)
    · exact .inl fun ho => ho.unitOn ⟨ha, h⟩
    · exact .inr (.inl ⟨hr, h⟩)
    · exact .inr (.inr ⟨hw, h⟩)
  · rintro (h | ⟨hr, h⟩ | ⟨hw, h⟩)
    · by_contra hlegal
      refine h ⟨?_, ?_, ?_, ?_⟩
      · exact by_contra fun hm => hlegal (.missing hm)
      · exact fun hp => hlegal (.privilege hp)
      · refine Bool.eq_false_iff.mpr fun ht => ?_
        obtain ⟨ha, hp, ht⟩ := of_decide_eq_true ht
        exact hlegal (.virtualMemory ha hp ht)
      · exact fun hu => hlegal (.unitOff hu.1 hu.2)
    · exact .counter hr h
    · exact .readOnly hw h

end Checks

/-! ## The parts of the instruction -/

section Parts

variable {inst : DecodedInst} {addr : CsrAddr} {s : Hart}

/-- Reading the operand touches the register file at most. -/
lemma csrOperand_eq (s : Hart) (inst : DecodedInst) :
    (s.csrOperand inst).2 =
    { s with cpu := { s.cpu with regfile := (s.csrOperand inst).2.cpu.regfile } } := by
  unfold Hart.csrOperand
  split
  · rfl
  · dsimp only
    rw [Cpu.getReg_eq]

lemma csrSource_apply (s : Hart) :
    csrSource inst s = .ok (s.csrOperand inst).1 (s.csrOperand inst).2 := by
  unfold csrSource Hart.csrOperand
  split <;> rfl

lemma csrRead_apply (addr : CsrAddr) (s : Hart) :
    csrRead addr s = if s.cpu.csrReadable addr then .ok (s.csrValue addr) s
      else .error badCsr s := by
  unfold csrRead Hart.csrValue
  rw [bind_of_ok (get_apply s)]
  by_cases h : s.cpu.csrReadable addr = true
  · rw [if_neg (not_not.mpr h), if_pos h]
    split <;> rfl
  · rw [if_pos h, if_neg h]
    rfl

/-- The checks of a write do not see that the unit is marked dirty. -/
lemma markFp_csrWritable (s : Hart) (addr : CsrAddr) :
    (s.markFp addr).cpu.csrWritable addr = s.cpu.csrWritable addr := by
  unfold Hart.markFp
  split
  · next h => rw [csrWritable_of_isFpCsr h, csrWritable_of_isFpCsr h]
  · rfl

lemma csrWrite_apply (v : U64) (s : Hart) : csrWrite addr v s =
    if ¬ CsrFile.csrExists addr ∨ (isFpCsr addr ∧ ¬ s.cpu.csrs.fpuEnabled) then .error badCsr s
    else if s.cpu.csrWritable addr then csrCommit addr v (s.markFp addr)
      else .error badCsr (s.markFp addr) := by
  unfold csrWrite csrFinish
  rw [bind_of_ok (get_apply s)]
  by_cases hex : CsrFile.csrExists addr = true
  swap
  · rw [if_pos hex, if_pos (.inl hex)]
    rfl
  by_cases hfp : isFpCsr addr = true ∧ ¬ s.cpu.csrs.fpuEnabled = true
  · rw [if_neg (not_not.mpr hex), if_pos hfp, if_pos (.inr hfp)]
    rfl
  have hopen :
    ¬ (¬ CsrFile.csrExists addr = true ∨
      (isFpCsr addr = true ∧ ¬ s.cpu.csrs.fpuEnabled = true)) := by tauto
  rw [if_neg (not_not.mpr hex), if_neg hfp, if_neg hopen, bind_of_ok (modify_apply _ s),
    bind_of_ok (get_apply _), markFp_csrWritable]
  split <;> rfl

/-- Marking the unit dirty does not change what an FP CSR becomes. -/
lemma read_write_markFp (s : Hart) (addr : CsrAddr) (v : U64) :
    ((s.markFp addr).cpu.csrs.write addr v).read addr = (s.cpu.csrs.write addr v).read addr := by
  unfold Hart.markFp
  split
  swap
  · rfl
  next h =>
    have haddr : addr = Csr.fcsr ∨ addr = Csr.fflags ∨ addr = Csr.frm := of_decide_eq_true h
    have hraw : s.cpu.csrs.markFpuDirty.raw Csr.fcsr = s.cpu.csrs.raw Csr.fcsr :=
      CsrFile.setRaw_raw_ne _ _ (by decide)
    apply CsrFile.read_congr
    rcases haddr with rfl | rfl | rfl
    · exact (write_fcsr _ v).trans (write_fcsr _ v).symm
    · exact (write_fflags _ v).trans (hraw ▸ (write_fflags _ v).symm)
    · exact (write_frm _ v).trans (hraw ▸ (write_frm _ v).symm)

lemma csrWrite_ok (ho : s.cpu.CsrOpen addr) (hro : Csr.isReadOnly addr = false) (v : U64) :
    csrWrite addr v s = .ok () (final (csrCommit addr v) (s.markFp addr)) := by
  have hopen :
    ¬ (¬ CsrFile.csrExists addr = true ∨ (isFpCsr addr = true ∧ ¬ s.cpu.csrs.fpuEnabled = true)) :=
    fun h => h.elim (fun h => h ho.present) ho.unitOn
  rw [csrWrite_apply, if_neg hopen, if_pos ((csrWritable_iff ho).mpr hro)]
  rfl

lemma csrWrite_refused (h : ¬ (s.cpu.CsrOpen addr ∧ Csr.isReadOnly addr = false)) (v : U64) :
    ∃ s', csrWrite addr v s = .error badCsr s' := by
  rw [csrWrite_apply]
  split
  · exact ⟨s, rfl⟩
  next hopen =>
    rw [not_or, not_not] at hopen
    split
    · next hw =>
        have hparts : Csr.isReadOnly addr = false ∧ ¬ s.cpu.priv.val < Csr.minPrivilege addr ∧
            s.cpu.tvmBlocks addr = false := by
          simpa [Cpu.csrWritable, and_assoc] using hw
        exact absurd ⟨⟨hopen.1, hparts.2.1, hparts.2.2, hopen.2⟩, hparts.1⟩ h
    · exact ⟨_, rfl⟩

/-- The operand and the checks do not see each other. -/
lemma csrOperand_open : (s.csrOperand inst).2.cpu.CsrOpen addr ↔ s.cpu.CsrOpen addr := by
  rw [csrOperand_eq, Cpu.csrOpen_iff, Cpu.csrOpen_iff]
  rfl

lemma csrOperand_readable :
    (s.csrOperand inst).2.cpu.csrReadable addr = s.cpu.csrReadable addr := by
  rw [csrOperand_eq]
  rfl

lemma csrOperand_value : (s.csrOperand inst).2.csrValue addr = s.csrValue addr := by
  rw [csrOperand_eq]
  rfl

end Parts

/-! ## The instruction -/

section Whole

variable {inst : DecodedInst} {s : Hart}

/-- The source attempts a write: by the value of its operand, except for a swap. -/
def csrAttempts (inst : DecodedInst) (s : Hart) : Prop :=
  inst.funct3 % 4 = 1 ∨ (s.csrOperand inst).1 ≠ 0

instance (inst : DecodedInst) (s : Hart) : Decidable (csrAttempts inst s) := by
  unfold csrAttempts
  infer_instance

/-- The instruction passes the checks of the source. -/
structure CsrPasses (inst : DecodedInst) (s : Hart) : Prop where
  isOpen : s.cpu.CsrOpen (csrAddrOf inst)
  visible : csrReads inst → ¬ s.cpu.counterHidden (csrAddrOf inst)
  writable : csrAttempts inst s → Csr.isReadOnly (csrAddrOf inst) = false

lemma executeCsr_apply (h : inst.funct3 % 4 ≠ 0) (s : Hart) : executeCsr inst s =
    (if inst.funct3 % 4 = 1 then csrSwap inst (s.csrOperand inst).1
      else csrModify inst (s.csrOperand inst).1)
      (s.csrOperand inst).2 := by
  have hforms : inst.funct3 % 4 = 1 ∨ inst.funct3 % 4 = 2 ∨ inst.funct3 % 4 = 3 := by
    omega
  unfold executeCsr
  rw [bind_of_ok (csrSource_apply s)]
  rcases hforms with hf | hf | hf
  · rw [if_pos hf, if_pos hf]
  · rw [if_neg (by omega), if_pos (.inl hf), if_neg (by omega)]
  · rw [if_neg (by omega), if_pos (.inr hf), if_neg (by omega)]

lemma csrSwapRead_apply (u : Hart) (ho : u.cpu.CsrOpen (csrAddrOf inst)) :
    csrSwapRead inst u = if inst.rd ≠ 0 → u.cpu.csrReadable (csrAddrOf inst) then
      .ok (if inst.rd ≠ 0 then u.csrValue (csrAddrOf inst) else 0) u else .error badCsr u := by
  unfold csrSwapRead
  rw [bind_of_ok (get_apply u)]
  by_cases hrd : inst.rd = 0
  · have hpass : ¬ (¬ CsrFile.csrExists (csrAddrOf inst) = true ∨
        u.cpu.priv.val < Csr.minPrivilege (csrAddrOf inst)) :=
      fun h => h.elim (fun h => h ho.present) ho.privilege
    rw [if_neg (not_not.mpr hrd), if_neg hpass, if_pos (fun h => absurd hrd h),
      if_neg (not_not.mpr hrd)]
    rfl
  · rw [if_pos hrd, csrRead_apply]
    by_cases hr : u.cpu.csrReadable (csrAddrOf inst) = true
    · rw [if_pos hr, if_pos (fun _ => hr), if_pos hrd]
    · rw [if_neg hr, if_neg (fun h => hr (h hrd))]

lemma Cpu.setReg_congr {c c' : Cpu} (hr : c'.regs = c.regs) (hf : c'.regfile = c.regfile) (i : ℕ)
    (v : U64) :
    (c'.setReg i v).regs = (c.setReg i v).regs ∧
      (c'.setReg i v).regfile = (c.setReg i v).regfile := by
  unfold Cpu.setReg
  rw [hf]
  split
  · exact ⟨hr, hf⟩
  · split
    · exact ⟨hr, rfl⟩
    · exact ⟨by rw [hr], rfl⟩

/-- What the source does with an instruction that passes. -/
structure CsrPassed (inst : DecodedInst) (s t : Hart) : Prop where
  regs : t.cpu.regs = ((s.csrOperand inst).2.cpu.setReg inst.rd (s.csrValue (csrAddrOf inst))).regs
  regfile : t.cpu.regfile =
    ((s.csrOperand inst).2.cpu.setReg inst.rd (s.csrValue (csrAddrOf inst))).regfile
  written : csrAttempts inst s → t.cpu.csrs.read (csrAddrOf inst) =
    (s.cpu.csrs.write (csrAddrOf inst)
    (csrNew inst (s.csrValue (csrAddrOf inst)) (s.csrOperand inst).1)).read (csrAddrOf inst)
  kept : ¬ csrAttempts inst s → t.cpu.csrs = s.cpu.csrs

lemma operand_csrs (s : Hart) (inst : DecodedInst) :
    (s.csrOperand inst).2.cpu.csrs = s.cpu.csrs := by
  rw [csrOperand_eq]

/-- The hart after the write. -/
def Hart.afterCsrWrite (s : Hart) (inst : DecodedInst) : Hart :=
  if csrAttempts inst s then final (csrCommit (csrAddrOf inst)
    (csrNew inst (s.csrValue (csrAddrOf inst)) (s.csrOperand inst).1))
      ((s.csrOperand inst).2.markFp (csrAddrOf inst))
  else (s.csrOperand inst).2

/-- The hart after an instruction that passes. -/
def Hart.afterCsr (s : Hart) (inst : DecodedInst) : Hart :=
  { s.afterCsrWrite inst with
    cpu := (s.afterCsrWrite inst).cpu.setReg inst.rd (s.csrValue (csrAddrOf inst)) }

lemma csrPassed_afterCsr (s : Hart) (inst : DecodedInst) : CsrPassed inst s (s.afterCsr inst) := by
  have hmark (u : Hart) : (u.markFp (csrAddrOf inst)).cpu.regs = u.cpu.regs ∧
      (u.markFp (csrAddrOf inst)).cpu.regfile = u.cpu.regfile := by
    unfold Hart.markFp
    split <;> exact ⟨rfl, rfl⟩
  have hcsrs : (s.afterCsr inst).cpu.csrs = (s.afterCsrWrite inst).cpu.csrs := Cpu.setReg_csrs ..
  by_cases ha : csrAttempts inst s
  · obtain ⟨hwrite, hregs, hregfile, -⟩ := csrCommit_cpu (csrAddrOf inst)
      (csrNew inst (s.csrValue (csrAddrOf inst)) (s.csrOperand inst).1)
      ((s.csrOperand inst).2.markFp (csrAddrOf inst))
    rw [(hmark _).1] at hregs
    rw [(hmark _).2] at hregfile
    rw [Hart.afterCsrWrite, if_pos ha, hwrite] at hcsrs
    have hset := Cpu.setReg_congr hregs hregfile inst.rd (s.csrValue (csrAddrOf inst))
    have hafter : (s.afterCsr inst).cpu = (s.afterCsrWrite inst).cpu.setReg inst.rd _ := rfl
    rw [Hart.afterCsrWrite, if_pos ha] at hafter
    refine ⟨by rw [hafter, hset.1], by rw [hafter, hset.2], fun _ => ?_, fun h => absurd ha h⟩
    rw [hcsrs, read_write_markFp, operand_csrs]
  · unfold Hart.afterCsr Hart.afterCsrWrite
    rw [if_neg ha]
    exact ⟨rfl, rfl, fun h => absurd h ha, fun _ =>
      (Cpu.setReg_csrs ..).trans (operand_csrs s inst)⟩

lemma csrSwap_ok (hf : inst.funct3 % 4 = 1) (hp : CsrPasses inst s) :
    csrSwap inst (s.csrOperand inst).1 (s.csrOperand inst).2 = .ok () (s.afterCsr inst) := by
  have ho : (s.csrOperand inst).2.cpu.CsrOpen (csrAddrOf inst) := csrOperand_open.mpr hp.isOpen
  have hread : inst.rd ≠ 0 → (s.csrOperand inst).2.cpu.csrReadable (csrAddrOf inst) := fun hrd => by
    rw [csrOperand_readable, csrReadable_iff]
    exact ⟨hp.isOpen, hp.visible fun h => hrd h.2⟩
  have hvalue := csrSwapRead_apply _ ho
  rw [if_pos hread, csrOperand_value] at hvalue
  have hwritten : s.afterCsrWrite inst = final (csrCommit (csrAddrOf inst) (s.csrOperand inst).1)
      ((s.csrOperand inst).2.markFp (csrAddrOf inst)) := by
    rw [Hart.afterCsrWrite, if_pos (.inl hf), csrNew, if_pos hf]
  -- with x0 as the destination it does not matter what would be written there
  have hx0 (c : Cpu) : c.setReg inst.rd (if inst.rd ≠ 0 then s.csrValue (csrAddrOf inst) else 0) =
      c.setReg inst.rd (s.csrValue (csrAddrOf inst)) := by
    split
    · rfl
    · next hrd =>
        unfold Cpu.setReg
        rw [if_pos (.inl (not_not.mp hrd)), if_pos (.inl (not_not.mp hrd))]
  unfold csrSwap
  rw [bind_of_ok hvalue, bind_of_ok (csrWrite_ok ho (hp.writable (.inl hf)) _), ← hwritten,
    Hart.afterCsr, ← hx0]
  rfl

lemma csrSwapRead_cases (inst : DecodedInst) (u : Hart) :
    (∃ v, csrSwapRead inst u = .ok v u) ∨ csrSwapRead inst u = .error badCsr u := by
  unfold csrSwapRead
  rw [bind_of_ok (get_apply u)]
  split
  · rw [csrRead_apply]
    split
    · exact .inl ⟨_, rfl⟩
    · exact .inr rfl
  · split
    · exact .inr rfl
    · exact .inl ⟨_, rfl⟩

lemma csrSwap_refused (hf : inst.funct3 % 4 = 1) (hp : ¬ CsrPasses inst s) :
    ∃ s', csrSwap inst (s.csrOperand inst).1 (s.csrOperand inst).2 = .error badCsr s' := by
  unfold csrSwap
  rcases csrSwapRead_cases inst (s.csrOperand inst).2 with ⟨v, hv⟩ | he
  swap
  · exact ⟨_, bind_of_error he⟩
  rw [bind_of_ok hv]
  by_cases hw : (s.csrOperand inst).2.cpu.CsrOpen (csrAddrOf inst) ∧
    Csr.isReadOnly (csrAddrOf inst) = false
  swap
  · obtain ⟨s', hs'⟩ := csrWrite_refused hw (s.csrOperand inst).1
    exact ⟨s', bind_of_error hs'⟩
  -- the only check left is that of a counter, and it fails in the read
  have ho : s.cpu.CsrOpen (csrAddrOf inst) := csrOperand_open.mp hw.1
  have hhidden : csrReads inst ∧ s.cpu.counterHidden (csrAddrOf inst) := by
    by_contra hvisible
    exact hp ⟨ho, fun hr hh => hvisible ⟨hr, hh⟩, fun _ => hw.2⟩
  have hrd : inst.rd ≠ 0 := fun hrd => hhidden.1 ⟨hf, hrd⟩
  have hread : ¬ (inst.rd ≠ 0 → (s.csrOperand inst).2.cpu.csrReadable (csrAddrOf inst) = true) := by
    intro h
    have hr := h hrd
    rw [csrOperand_readable, csrReadable_iff] at hr
    exact hr.2 hhidden.2
  rw [csrSwapRead_apply _ hw.1, if_neg hread] at hv
  cases hv

lemma csrReads_of_modify (hf : inst.funct3 % 4 ≠ 1) : csrReads inst := fun h => hf h.1

lemma csrModify_ok (hf : inst.funct3 % 4 ≠ 1) (hp : CsrPasses inst s) :
    csrModify inst (s.csrOperand inst).1 (s.csrOperand inst).2 = .ok () (s.afterCsr inst) := by
  have hread : (s.csrOperand inst).2.cpu.csrReadable (csrAddrOf inst) = true := by
    rw [csrOperand_readable, csrReadable_iff]
    exact ⟨hp.isOpen, hp.visible (csrReads_of_modify hf)⟩
  have hvalue : csrRead (csrAddrOf inst) (s.csrOperand inst).2 =
      .ok (s.csrValue (csrAddrOf inst)) (s.csrOperand inst).2 := by
    rw [csrRead_apply, if_pos hread, csrOperand_value]
  have hattempt : csrAttempts inst s ↔ (s.csrOperand inst).1 ≠ 0 := or_iff_right hf
  unfold csrModify csrModifyWrite
  rw [bind_of_ok hvalue]
  by_cases hsrc : (s.csrOperand inst).1 = 0
  · -- nothing is written
    rw [if_neg (not_not.mpr hsrc), bind_of_ok (pure_apply _ _), Hart.afterCsr, Hart.afterCsrWrite,
      if_neg (mt hattempt.mp (not_not.mpr hsrc))]
    rfl
  · rw [if_pos hsrc,
      bind_of_ok (csrWrite_ok (csrOperand_open.mpr hp.isOpen) (hp.writable (hattempt.mpr hsrc)) _),
        Hart.afterCsr, Hart.afterCsrWrite, if_pos (hattempt.mpr hsrc), csrNew, if_neg hf]
    rfl

lemma csrModify_refused (hf : inst.funct3 % 4 ≠ 1) (hp : ¬ CsrPasses inst s) :
    ∃ s', csrModify inst (s.csrOperand inst).1 (s.csrOperand inst).2 = .error badCsr s' := by
  unfold csrModify csrModifyWrite
  by_cases hread : (s.csrOperand inst).2.cpu.csrReadable (csrAddrOf inst) = true
  swap
  · have hrefused := csrRead_apply (csrAddrOf inst) (s.csrOperand inst).2
    rw [if_neg hread] at hrefused
    exact ⟨_, bind_of_error hrefused⟩
  have hvalue := csrRead_apply (csrAddrOf inst) (s.csrOperand inst).2
  rw [if_pos hread] at hvalue
  rw [bind_of_ok hvalue]
  rw [csrOperand_readable, csrReadable_iff] at hread
  -- the read was allowed, so the write is attempted and refused
  have hro : csrAttempts inst s ∧ Csr.isReadOnly (csrAddrOf inst) = true := by
    by_contra hw
    refine hp ⟨hread.1, fun _ => hread.2, fun ha => ?_⟩
    exact Bool.eq_false_iff.mpr fun h => hw ⟨ha, h⟩
  have hsrc : (s.csrOperand inst).1 ≠ 0 := hro.1.resolve_left hf
  have hnot : ¬ ((s.csrOperand inst).2.cpu.CsrOpen (csrAddrOf inst) ∧
    Csr.isReadOnly (csrAddrOf inst) = false) :=
    fun h => absurd (hro.2.symm.trans h.2) (by decide)
  rw [if_pos hsrc]
  obtain ⟨s', hs'⟩ := csrWrite_refused hnot _
  exact ⟨s', bind_of_error hs'⟩

/-- The instruction passes exactly if the checks of the source say so. -/
lemma executeCsr_cases (h : inst.funct3 % 4 ≠ 0) :
    (CsrPasses inst s ∧ executeCsr inst s = .ok () (s.afterCsr inst)) ∨
      (¬ CsrPasses inst s ∧ ∃ s', executeCsr inst s = .error badCsr s') := by
  rw [executeCsr_apply h]
  by_cases hp : CsrPasses inst s
  · refine .inl ⟨hp, ?_⟩
    split
    · next hf => exact csrSwap_ok hf hp
    · next hf => exact csrModify_ok hf hp
  · refine .inr ⟨hp, ?_⟩
    split
    · next hf => exact csrSwap_refused hf hp
    · next hf => exact csrModify_refused hf hp

lemma csrOperand_immediate (h : IsCsrAccess inst) (hi : inst.funct3 / 4 % 2 = 1) :
    (s.csrOperand inst).1 = 0 ↔ inst.rs1 = 0 := by
  have hlt := h.rs1
  rw [Hart.csrOperand, if_pos hi]
  constructor
  · intro h0
    have hnat := congrArg BitVec.toNat h0
    simp only [BitVec.toNat_ofNat] at hnat
    rw [Nat.mod_eq_of_lt (by omega)] at hnat
    exact hnat
  · intro h0
    rw [h0]
    rfl

lemma csrOperand_x0 (hi : inst.funct3 / 4 % 2 ≠ 1) (h0 : inst.rs1 = 0) :
    (s.csrOperand inst).1 = 0 := by
  rw [Hart.csrOperand, if_neg hi, h0]
  rfl

/-- The source attempts no write that the architecture does not. -/
lemma csrWrites_of_attempts (h : IsCsrAccess inst) (ha : csrAttempts inst s) : csrWrites inst := by
  rcases ha with hf | hsrc
  · exact .inl hf
  · refine .inr fun h0 => hsrc ?_
    by_cases hi : inst.funct3 / 4 % 2 = 1
    · exact (csrOperand_immediate h hi).mpr h0
    · exact csrOperand_x0 hi h0

/-- Where it attempts fewer, a register holds zero. -/
lemma zero_of_not_attempts (h : IsCsrAccess inst) (hw : csrWrites inst)
    (ha : ¬ csrAttempts inst s) :
    inst.funct3 % 4 ≠ 1 ∧ inst.funct3 / 4 % 2 ≠ 1 ∧ inst.rs1 ≠ 0 ∧
      (s.cpu.getReg inst.rs1).1 = 0 := by
  have hf : inst.funct3 % 4 ≠ 1 := fun hf => ha (.inl hf)
  have hrs1 : inst.rs1 ≠ 0 := hw.resolve_left hf
  have hsrc : (s.csrOperand inst).1 = 0 := by_contra fun hsrc => ha (.inr hsrc)
  have hi : inst.funct3 / 4 % 2 ≠ 1 := fun hi => hrs1 ((csrOperand_immediate h hi).mp hsrc)
  refine ⟨hf, hi, hrs1, ?_⟩
  rw [Hart.csrOperand, if_neg hi] at hsrc
  exact hsrc

lemma csrNew_zero (hf : inst.funct3 % 4 ≠ 1) (old : U64) : csrNew inst old 0 = old := by
  rw [csrNew, if_neg hf]
  split
  · exact BitVec.or_zero
  · rw [show ~~~(0 : U64) = BitVec.allOnes 64 by decide, BitVec.and_allOnes]

/-- An instruction that passes does what it should, unless it was let through by its zero
operand. -/
lemma CsrPassed.done {t : Hart} (hform : IsCsrAccess inst) (hl : s.cpu.csrs.Legal)
    (hlegal : ¬ CsrIllegal s.cpu inst) (hp : CsrPassed inst s t) : CsrDone inst s t := by
  refine ⟨hp.regs, hp.regfile, fun hw => ?_, fun hw => hp.kept fun ha =>
    hw (csrWrites_of_attempts hform ha)⟩
  by_cases ha : csrAttempts inst s
  · exact hp.written ha
  obtain ⟨hf, hi, -, hzero⟩ := zero_of_not_attempts hform hw ha
  have hro : Csr.isReadOnly (csrAddrOf inst) = false :=
    Bool.eq_false_iff.mpr fun h => hlegal (.readOnly hw h)
  have hsrc : (s.csrOperand inst).1 = 0 := by
    rw [Hart.csrOperand, if_neg hi]
    exact hzero
  have hvalue : s.csrValue (csrAddrOf inst) = s.cpu.csrs.read (csrAddrOf inst) := by
    rw [Hart.csrValue, if_neg]
    rintro ⟨htime, -⟩
    rw [htime] at hro
    exact absurd hro (by decide)
  rw [hp.kept ha, hsrc, csrNew_zero hf, hvalue, CsrFile.write_read_self hl hro]

end Whole

/-- CSR instructions are legal exactly when the architecture says so, and do what it says, except
that CSRRS and CSRRC read a read-only CSR when their source register, not being x0, holds zero. -/
theorem csr_access_iff (inst : DecodedInst) (h : IsCsrAccess inst) (s : Hart)
    (hbuilt : s.cpu.csrs.Built) :
    CsrAsSpecified inst s ↔ ¬ SilentReadOnly inst s := by
  have hpasses : CsrPasses inst s ∧ ¬ SilentReadOnly inst s ↔ ¬ CsrIllegal s.cpu inst := by
    rw [csrIllegal_iff]
    constructor
    · rintro ⟨hp, hsilent⟩ (ho | ⟨hr, hh⟩ | ⟨hw, hro⟩)
      · exact ho hp.isOpen
      · exact hp.visible hr hh
      · by_cases ha : csrAttempts inst s
        · exact absurd (hro.symm.trans (hp.writable ha)) (by decide)
        · obtain ⟨hf, hi, hrs1, hzero⟩ := zero_of_not_attempts h hw ha
          have hread := csrReadable_iff.mpr ⟨hp.isOpen, hp.visible (csrReads_of_modify hf)⟩
          exact hsilent ⟨hf, hi, hrs1, hzero, hro, hread⟩
    · intro hlegal
      simp only [not_or, not_not, not_and] at hlegal
      obtain ⟨ho, hc, hw⟩ := hlegal
      refine ⟨⟨ho, hc, fun ha => Bool.eq_false_iff.mpr (hw (csrWrites_of_attempts h ha))⟩,
        fun hsilent => ?_⟩
      exact hw (.inr hsilent.rs1) hsilent.readOnly
  constructor
  · intro hspec hsilent
    -- the instruction is illegal, and the source executes it
    have hillegal : CsrIllegal s.cpu inst := .readOnly (.inr hsilent.rs1) hsilent.readOnly
    have hna : ¬ csrAttempts inst s := by
      rintro (hf | hsrc)
      · exact hsilent.form hf
      · refine hsrc ?_
        rw [Hart.csrOperand, if_neg hsilent.register]
        exact hsilent.zero
    have hread := csrReadable_iff.mp hsilent.readable
    obtain ⟨t, s', herror, -⟩ := hspec.refused.mpr hillegal
    rcases executeCsr_cases h.form (s := s) with ⟨-, hu⟩ | ⟨hnp, -⟩
    · rw [hu] at herror
      cases herror
    · exact hnp ⟨hread.1, fun _ => hread.2, fun ha => absurd ha hna⟩
  · intro hsilent
    rcases executeCsr_cases h.form (s := s) with ⟨hp, ht⟩ | ⟨hnp, s', hs'⟩
    · have hlegal := hpasses.mp ⟨hp, hsilent⟩
      have hdone := (csrPassed_afterCsr s inst).done h hbuilt.legal hlegal
      refine ⟨⟨?_, fun hillegal => absurd hillegal hlegal⟩, fun _ => ⟨_, ht, hdone⟩⟩
      rintro ⟨e, u, hu, -⟩
      rw [ht] at hu
      cases hu
    · have hillegal : CsrIllegal s.cpu inst := by_contra fun hlegal => hnp (hpasses.mpr hlegal).1
      exact ⟨⟨fun _ => hillegal, fun _ => ⟨badCsr, s', hs', rfl⟩⟩, fun hlegal =>
        absurd hillegal hlegal⟩

/-- `csrrs x1, cycle, x5` in machine mode, with zero in `x5`: it writes to a read-only CSR, and is
executed. -/
theorem csr_access_silent :
    CsrIllegal ((Machine.init (.plain 1 4096 page_fits)).hart 0).cpu (decode 0xc002a0f3) ∧
      failure (executeCsr (decode 0xc002a0f3)) ((Machine.init (.plain 1 4096 page_fits)).hart 0) =
        none :=
  ⟨.readOnly (by decide +kernel) (by decide +kernel), by decide +kernel⟩

/-- `csrrs x1, cycle, x0` there. -/
theorem csr_access_iff_cycle :
    CsrAsSpecified (decode 0xc00020f3) ((Machine.init (.plain 1 4096 page_fits)).hart 0) := by
  have hinst : IsCsrAccess (decode 0xc00020f3) := by constructor <;> decide +kernel
  have hbuilt : ((Machine.init (.plain 1 4096 page_fits)).hart 0).cpu.csrs.Built :=
    (CsrStep.setHartid _ _).moves
  exact (csr_access_iff _ hinst _ hbuilt).mpr fun h => h.rs1 (by decide +kernel)

end RiscvEmu
