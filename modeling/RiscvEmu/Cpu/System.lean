import RiscvEmu.Sbi

/-!
# Privileged instructions and CSR access

The SYSTEM part of `cpu/exec.rs`.
-/

namespace RiscvEmu

open Exec BitField Csr

/-! ## Returning from a trap -/

/-- The privilege in the MPP field of a status word. -/
def PrivLevel.ofMpp (status : U64) : PrivLevel where
  val := ((status &&& mstatusMpp) >>> mstatusMppShift).setWidth 32
  le := by
    have h : status.toNat &&& 6144 ≤ 6144 := Nat.and_le_right
    simp only [BitVec.le_def, BitVec.toNat_setWidth, BitVec.toNat_ushiftRight, BitVec.toNat_and,
      mstatusMpp, mstatusMppShift, Nat.shiftRight_eq_div_pow]
    simp
    omega

/-- The status word MRET leaves. -/
def mretStatus (status : U64) : U64 :=
  let status := if status &&& mstatusMpie ≠ 0 then status ||| mstatusMie
    else status &&& ~~~mstatusMie
  let status := status ||| mstatusMpie
  let returnPriv := PrivLevel.ofMpp status
  let status := (status &&& ~~~mstatusMpp) |||
    (privLeastSupported.setWidth 64 <<< mstatusMppShift)
  if returnPriv.val ≠ privMachine then status &&& ~~~mstatusMprv else status

/-- MRET touches MPRV last. -/
lemma mretStatus_of_disjoint (st : U64) {k : U64} (h : mstatusMprv &&& k = 0) :
    mretStatus st &&& k =
    (((if st &&& mstatusMpie ≠ 0 then st ||| mstatusMie else st &&& ~~~mstatusMie) |||
      mstatusMpie) &&& ~~~mstatusMpp) &&& k := by
  have hleast : (privLeastSupported.setWidth 64 <<< mstatusMppShift : U64) = 0#64 := by decide
  unfold mretStatus
  dsimp only
  rw [hleast, BitVec.or_zero]
  generalize (if st &&& mstatusMpie ≠ 0 then st ||| mstatusMie else st &&& ~~~mstatusMie) = saved
  split
  · exact clear_and_of_disjoint h
  · rfl

lemma mretStatus_and {k : U64} (hmie : mstatusMie &&& k = 0) (hmpie : mstatusMpie &&& k = 0)
    (hmpp : mstatusMpp &&& k = 0) (hmprv : mstatusMprv &&& k = 0) (st : U64) :
    mretStatus st &&& k = st &&& k := by
  rw [mretStatus_of_disjoint st hmprv, clear_and_of_disjoint hmpp, or_and_of_disjoint hmpie,
    assign_and_of_disjoint hmie]

/-- MRET. -/
def executeMret (inst : DecodedInst) : HartM Unit := do
  let s ← get
  if inst.rd ≠ 0 ∨ inst.rs1 ≠ 0 ∨ s.cpu.priv.val < privMachine then throw (illegal inst)
  else modifyCpu fun c => { c with
    csrs := c.csrs.setMstatus (mretStatus c.csrs.mstatus)
    priv := PrivLevel.ofMpp c.csrs.mstatus
    nextPc := (c.csrs.setMstatus (mretStatus c.csrs.mstatus)).read mepc }

/-- The status word SRET leaves.  It never returns to machine mode, so MPRV always goes. -/
def sretStatus (status : U64) : U64 :=
  let status := if status &&& mstatusSpie ≠ 0 then status ||| mstatusSie
    else status &&& ~~~mstatusSie
  let status := status ||| mstatusSpie
  (status &&& ~~~mstatusSpp) &&& ~~~mstatusMprv

lemma sretStatus_and {k : U64} (hsie : mstatusSie &&& k = 0) (hspie : mstatusSpie &&& k = 0)
    (hspp : mstatusSpp &&& k = 0) (hmprv : mstatusMprv &&& k = 0) (st : U64) :
    sretStatus st &&& k = st &&& k := by
  unfold sretStatus
  dsimp only
  rw [clear_and_of_disjoint hmprv, clear_and_of_disjoint hspp, or_and_of_disjoint hspie,
    assign_and_of_disjoint hsie]

/-- The level SRET goes to. -/
def sretPriv (status : U64) : PrivLevel :=
  if status &&& mstatusSpp ≠ 0 then .supervisor else .user

/-- SRET. -/
def executeSret (inst : DecodedInst) : HartM Unit := do
  let s ← get
  if inst.rd ≠ 0 ∨ inst.rs1 ≠ 0 ∨ s.cpu.priv.val < privSupervisor then throw (illegal inst)
  else if s.cpu.priv.val = privSupervisor ∧ s.cpu.csrs.mstatus &&& mstatusTsr ≠ 0 then
    throw (illegal inst)
  else modifyCpu fun c => { c with
    csrs := c.csrs.setMstatus (sretStatus c.csrs.mstatus)
    priv := sretPriv c.csrs.mstatus
    nextPc := (c.csrs.setMstatus (sretStatus c.csrs.mstatus)).read sepc }

/-- SFENCE.VMA. -/
def executeSfenceVma (inst : DecodedInst) : HartM Unit := do
  let s ← get
  if inst.rd ≠ 0 ∨ s.cpu.priv.val < privSupervisor then throw (illegal inst)
  else if s.cpu.priv.val = privSupervisor ∧ s.cpu.csrs.mstatus &&& mstatusTvm ≠ 0 then
    throw (illegal inst)
  else modify Hart.remoteFence

/-! ## CSR access -/

/-- The trap of a refused CSR access. -/
def badCsr : Trap := ⟨.illegalInstruction, 0⟩

/-- The CSRs that `mstatus.FS` guards. -/
def isFpCsr (addr : CsrAddr) : Bool := addr = fcsr ∨ addr = fflags ∨ addr = frm

namespace Cpu

variable (c : Cpu)

/-- Does TVM keep supervisor mode from `satp`? -/
def tvmBlocks (addr : CsrAddr) : Bool :=
  addr = satp ∧ c.priv.val = privSupervisor ∧ c.csrs.mstatus &&& mstatusTvm ≠ 0

/-- The checks of a read. -/
def csrReadable (addr : CsrAddr) : Bool :=
  CsrFile.csrExists addr && !(isFpCsr addr && !c.csrs.fpuEnabled) &&
    !(c.priv.val < minPrivilege addr || c.tvmBlocks addr) &&
    !(addr == cycle && !c.csrs.counterEnabled 0 c.priv.val) &&
    !(addr == time && !c.csrs.counterEnabled 1 c.priv.val) &&
    !(addr == Csr.instret && !c.csrs.counterEnabled 2 c.priv.val)

/-- The checks of a write that come after an FP CSR has marked the unit dirty. -/
def csrWritable (addr : CsrAddr) : Bool :=
  !(isReadOnly addr || c.priv.val < minPrivilege addr || c.tvmBlocks addr)

end Cpu

/-- Read a CSR, or refuse. -/
def csrRead (addr : CsrAddr) : HartM U64 := do
  let s ← get
  if ¬ s.cpu.csrReadable addr then throw badCsr
  else if addr = time ∧ s.sys.wired then pure s.sys.clint.clock.now
  else pure (s.cpu.csrs.read addr)

/-- The part of a write that cannot fail. -/
def csrCommit (addr : CsrAddr) (value : U64) : HartM Unit := modify fun s =>
  let c := if addr = minstret ∨ addr = mcycle then { s.cpu with counterWritten := true }
    else s.cpu
  let s : Hart :=
    { cpu := { c with csrs := c.csrs.write addr value }
      sys := s.sys.emit (.csrWrite s.cpu.hartid addr value) }
  if addr = satp then s.remoteFence else s

/-- The flags of the counters and the fence after a write of `satp` do not matter to these. -/
lemma csrCommit_cpu (addr : CsrAddr) (v : U64) (s : Hart) :
    let c := (final (csrCommit addr v) s).cpu
    c.csrs = s.cpu.csrs.write addr v ∧ c.regs = s.cpu.regs ∧ c.regfile = s.cpu.regfile ∧
      c.fregs = s.cpu.fregs ∧ c.priv = s.cpu.priv ∧ c.sbiEnabled = s.cpu.sbiEnabled := by
  unfold final csrCommit
  rw [modify_apply]
  dsimp only
  split_ifs <;> exact ⟨rfl, rfl, rfl, rfl, rfl, rfl⟩

/-- An access to an FP CSR makes the unit dirty. -/
def Hart.markFp (s : Hart) (addr : CsrAddr) : Hart :=
  if isFpCsr addr then { s with cpu := { s.cpu with csrs := s.cpu.csrs.markFpuDirty } } else s

/-- The checks that come after that, and the write. -/
def csrFinish (addr : CsrAddr) (value : U64) : HartM Unit := do
  let s ← get
  if s.cpu.csrWritable addr then csrCommit addr value else throw badCsr

/-- Write a CSR, or refuse. -/
def csrWrite (addr : CsrAddr) (value : U64) : HartM Unit := do
  let s ← get
  if ¬ CsrFile.csrExists addr then throw badCsr
  else if isFpCsr addr ∧ ¬ s.cpu.csrs.fpuEnabled then throw badCsr
  else do
    modify fun s => s.markFp addr
    csrFinish addr value

/-- The CSR an instruction names. -/
def csrAddrOf (inst : DecodedInst) : CsrAddr := inst.imm.setWidth 12

/-- The source operand: the `rs1` field itself in the immediate forms. -/
def csrSource (inst : DecodedInst) : HartM U64 :=
  if inst.funct3 / 4 % 2 = 1 then pure (BitVec.ofNat 64 inst.rs1) else readReg inst.rs1

/-- The read of CSRRW and CSRRWI: with `rd = x0` it is suppressed, its checks are not. -/
def csrSwapRead (inst : DecodedInst) : HartM U64 := do
  let s ← get
  if inst.rd ≠ 0 then csrRead (csrAddrOf inst)
  else if ¬ CsrFile.csrExists (csrAddrOf inst) ∨
    s.cpu.priv.val < minPrivilege (csrAddrOf inst) then throw badCsr
  else pure 0

/-- CSRRW and CSRRWI. -/
def csrSwap (inst : DecodedInst) (src : U64) : HartM Unit := do
  let old ← csrSwapRead inst
  csrWrite (csrAddrOf inst) src
  writeReg inst.rd old

/-- The write of CSRRS, CSRRC and their immediate forms: a zero source writes nothing. -/
def csrModifyWrite (inst : DecodedInst) (old src : U64) : HartM Unit :=
  if src ≠ 0 then
    csrWrite (csrAddrOf inst) (if inst.funct3 % 4 = 2 then old ||| src else old &&& ~~~src)
  else pure ()

/-- CSRRS, CSRRC and their immediate forms. -/
def csrModify (inst : DecodedInst) (src : U64) : HartM Unit := do
  let old ← csrRead (csrAddrOf inst)
  csrModifyWrite inst old src
  writeReg inst.rd old

/-- The CSR instructions. -/
def executeCsr (inst : DecodedInst) : HartM Unit := do
  let src ← csrSource inst
  if inst.funct3 % 4 = 1 then csrSwap inst src
  else if inst.funct3 % 4 = 2 ∨ inst.funct3 % 4 = 3 then csrModify inst src
  else throw (illegal inst)

/-! ## SYSTEM -/

/-- ECALL: a call into the emulator's own firmware, or an exception. -/
def executeEcall : HartM Unit := do
  let s ← get
  if s.cpu.priv.val = privUser then throw ⟨.eCallFromUMode, 0⟩
  else if s.cpu.priv.val = privSupervisor then
    if s.cpu.sbiEnabled then Sbi.handleEcall else throw ⟨.eCallFromSMode, 0⟩
  else throw ⟨.eCallFromMMode, 0⟩

/-- WFI. -/
def executeWfi : HartM Unit :=
  modifyCpu fun c => if c.idleOnWfi then { c with waitingForInterrupt := true } else c

/-- The immediate that tells the instructions without operands apart. -/
def systemImm (inst : DecodedInst) : ℕ := (inst.imm &&& 0xfff).toNat

/-- The SYSTEM instructions. -/
def executeSystem (inst : DecodedInst) : HartM Unit :=
  if inst.funct3 ≠ 0 then executeCsr inst
  else if systemImm inst = 0x000 then
    if inst.rd ≠ 0 ∨ inst.rs1 ≠ 0 then throw (illegal inst) else executeEcall
  else if systemImm inst = 0x001 then
    if inst.rd ≠ 0 ∨ inst.rs1 ≠ 0 then throw (illegal inst)
    else do
      let s ← get
      throw ⟨.breakpoint, s.cpu.pc⟩
  else if systemImm inst = 0x102 then executeSret inst
  else if systemImm inst = 0x302 then executeMret inst
  else if systemImm inst = 0x105 then
    if inst.rd ≠ 0 ∨ inst.rs1 ≠ 0 then throw (illegal inst) else executeWfi
  else if inst.funct7 = 0x09 then executeSfenceVma inst
  else throw (illegal inst)

end RiscvEmu
