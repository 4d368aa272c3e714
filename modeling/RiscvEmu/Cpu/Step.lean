import RiscvEmu.Cpu.Float

/-!
# The step loop

Fetch, decode cache, trap entry and `step_core` of `cpu/mod.rs`.  The program counter moves only
when an instruction succeeds.
-/

namespace RiscvEmu

open Exec

/-! ## Execution -/

/-- FENCE orders nothing here; FENCE.I drops the cached decodes. -/
def executeMiscMem (inst : DecodedInst) : HartM Unit :=
  if inst.funct3 = 1 then modify Hart.flushDecodeCache else pure ()

/-- AUIPC. -/
def executeAuipc (inst : DecodedInst) : HartM Unit := do
  let s ← get
  writeReg inst.rd (s.cpu.pc + inst.imm)

/-- Execute an instruction. -/
def execute (inst : DecodedInst) : HartM Unit :=
  if inst.opcode = Opcode.lui then writeReg inst.rd inst.imm
  else if inst.opcode = Opcode.auipc then executeAuipc inst
  else if inst.opcode = Opcode.jal then executeJal inst
  else if inst.opcode = Opcode.jalr then executeJalr inst
  else if inst.opcode = Opcode.branch then executeBranch inst
  else if inst.opcode = Opcode.load then executeLoad inst
  else if inst.opcode = Opcode.store then executeStore inst
  else if inst.opcode = Opcode.opImm then executeOpImm inst
  else if inst.opcode = Opcode.opImm32 then executeOpImm32 inst
  else if inst.opcode = Opcode.op then executeOp inst
  else if inst.opcode = Opcode.op32 then executeOp32 inst
  else if inst.opcode = Opcode.amo then executeAmo inst
  else if inst.opcode = Opcode.system then executeSystem inst
  else if inst.opcode = Opcode.loadFp then executeLoadFp inst
  else if inst.opcode = Opcode.storeFp then executeStoreFp inst
  else if inst.opcode = Opcode.opFp then executeOpFp inst
  else if inst.opcode = Opcode.madd ∨ inst.opcode = Opcode.msub ∨ inst.opcode = Opcode.nmsub ∨
    inst.opcode = Opcode.nmadd then executeFusedMadd inst
  else if inst.opcode = Opcode.miscMem then executeMiscMem inst
  else throw (illegal inst)

section Dispatch

variable {inst : DecodedInst}

lemma execute_amo (h : inst.opcode = Opcode.amo) : execute inst = executeAmo inst := by
  rw [execute, h]
  rfl

lemma execute_system (h : inst.opcode = Opcode.system) : execute inst = executeSystem inst := by
  rw [execute, h]
  rfl

lemma execute_loadFp (h : inst.opcode = Opcode.loadFp) : execute inst = executeLoadFp inst := by
  rw [execute, h]
  rfl

end Dispatch

/-! ## Fetch -/

/-- Fetch and decode. -/
def fetchInst : HartM DecodedInst := do
  let s ← get
  if s.cpu.pc &&& 1 ≠ 0 then throw ⟨.instructionAddressMisaligned, s.cpu.pc⟩
  else do
    let low ← memLoad s.cpu.pc 2 .instruction
    if ¬ is32bitInstruction (low.setWidth 16) then pure (decode16 (low.setWidth 16) 0)
    else do
      let high ← memLoad (s.cpu.pc + 2) 2 .instruction
      pure (decode16 (low.setWidth 16) (high.setWidth 16))

/-- The slot of an address in the decode cache. -/
def dcacheIndex (pc : U64) : ℕ := (pc >>> 1).toNat % dcacheSlots

/-- Write the entry of an instruction fetched from `pa`, and mark its page. -/
def Hart.fillEntry (s : Hart) (pa : U64) (inst : DecodedInst) : Hart :=
  let entry : DecodeEntry := ⟨s.cpu.pc, s.cpu.priv.val.setWidth 8, inst⟩
  let t := { s.sys with ram := s.sys.ram.markCodePage (pa - dramBase).toNat }
  { cpu := { s.cpu with dcache := Function.update s.cpu.dcache (dcacheIndex s.cpu.pc) entry }
    sys := t.emit (.fill s.cpu.hartid s.cpu.pc pa s.cpu.priv.val inst) }

/-- Remember the instruction just fetched, if it lies wholly inside one page of RAM. -/
def cacheFill (inst : DecodedInst) : HartM Unit := do
  let s ← get
  if inst.length = 4 ∧ s.cpu.pc.toNat % pageSize = pageSize - 2 then pure ()
  else do
    match ← attempt (translateFor s.cpu.pc .instruction s.cpu.priv.val) with
    | .error _ => pure ()
    | .ok pa =>
      modify fun s =>
        if dramBase ≤ pa ∧ s.sys.ram.inRange (pa - dramBase).toNat inst.length.toNat then
          s.fillEntry pa inst
        else s

/-- Drop the cached decodes if a page they came from was written. -/
def Hart.checkEpoch (s : Hart) : Hart :=
  if s.sys.ram.epoch ≠ s.cpu.dcacheEpoch then
    let t := s.flushDecodeCache
    { t with cpu := { t.cpu with dcacheEpoch := s.sys.ram.epoch } }
  else s

/-- The entry of the decode cache for the current pc and privilege. -/
def Cpu.cached (c : Cpu) : Option DecodedInst :=
  let e := c.dcache (dcacheIndex c.pc)
  if e.pc = c.pc ∧ e.priv = c.priv.val.setWidth 8 then some e.inst else none

/-- The instruction to execute, from the cache or from memory. -/
def nextInst : HartM DecodedInst := do
  modify Hart.checkEpoch
  let s ← get
  match s.cpu.cached with
  | some inst => pure inst
  | none => do
    let inst ← fetchInst
    cacheFill inst
    pure inst

/-! ## Traps -/

/-- The status word after a trap into supervisor mode. -/
def supervisorTrapStatus (priv : PrivLevel) (status : U64) : U64 :=
  let status := if status &&& Csr.mstatusSie ≠ 0 then status ||| Csr.mstatusSpie
    else status &&& ~~~Csr.mstatusSpie
  let status := status &&& ~~~Csr.mstatusSie
  if priv.val = privSupervisor then status ||| Csr.mstatusSpp else status &&& ~~~Csr.mstatusSpp

/-- The status word after a trap into machine mode. -/
def machineTrapStatus (priv : PrivLevel) (status : U64) : U64 :=
  let status := if status &&& Csr.mstatusMie ≠ 0 then status ||| Csr.mstatusMpie
    else status &&& ~~~Csr.mstatusMpie
  let status := status &&& ~~~Csr.mstatusMie
  (status &&& ~~~Csr.mstatusMpp) ||| (priv.val.setWidth 64 <<< Csr.mstatusMppShift)

namespace CsrFile

/-- Record a trap in the CSRs of the mode that takes it. -/
def enterTrap (c : CsrFile) (toSupervisor : Bool) (priv : PrivLevel) (cause tval epc : U64) :
    CsrFile :=
  if toSupervisor then
    (((c.write Csr.sepc epc).write Csr.scause cause).write Csr.stval tval).setMstatus
      (supervisorTrapStatus priv c.mstatus)
  else
    (((c.write Csr.mepc epc).write Csr.mcause cause).write Csr.mtval tval).setMstatus
      (machineTrapStatus priv c.mstatus)

end CsrFile

/-- Does a trap of this hart go to supervisor mode? -/
def Cpu.trapToSupervisor (c : Cpu) (cause : U64) (isInterrupt : Bool) : Bool :=
  let rawCause := cause &&& ~~~((1 : U64) <<< 63)
  c.priv.val ≤ privSupervisor ∧
    (if isInterrupt then c.csrs.delegatedInterrupt rawCause
      else c.csrs.delegatedException rawCause)

/-- Where a trap vector sends the hart. -/
def trapVector (target cause : U64) (isInterrupt : Bool) : U64 :=
  let vectorBase := target &&& ~~~Csr.mtvecModeMask
  if target &&& Csr.mtvecModeMask = Csr.mtvecModeVectored ∧ isInterrupt then
    vectorBase + 4 * (cause &&& 0x3f)
  else vectorBase

/-- Enter a trap handler. -/
def Hart.enterTrap (s : Hart) (cause tval epc : U64) (isInterrupt : Bool) : Hart :=
  let toSupervisor := s.cpu.trapToSupervisor cause isInterrupt
  let csrs := s.cpu.csrs.enterTrap toSupervisor s.cpu.priv cause tval epc
  let target := csrs.read (if toSupervisor then Csr.stvec else Csr.mtvec)
  let t : Hart :=
    { cpu := { s.cpu with
        csrs := csrs
        priv := if toSupervisor then .supervisor else .machine
        pc := trapVector target cause isInterrupt }
      sys := s.sys.emit (.trap s.cpu.hartid) }
  t.clearReservation

/-- Take an exception. -/
def Hart.takeTrap (s : Hart) (t : Trap) : Hart := s.enterTrap t.cause.code t.tval s.cpu.pc false

/-- Take an interrupt. -/
def Hart.takeInterrupt (s : Hart) (i : Interrupt) : Hart :=
  s.enterTrap i.causeCode 0 s.cpu.pc true

/-- Would the trap reach a vector the guest has written? -/
def Cpu.handlerInstalledFor (c : Cpu) (t : Trap) : Bool :=
  let toSupervisor : Bool := c.priv.val ≤ privSupervisor ∧ c.csrs.delegatedException t.cause.code
  c.csrs.read (if toSupervisor then Csr.stvec else Csr.mtvec) != 0

/-- Deliver a trap, or stop on it while the guest has no handler. -/
def handleTrapOrStop (t : Trap) : HartM Unit := do
  modifyCpu fun c => { c with lastTrap := some t }
  let s ← get
  if s.cpu.trapFatalWithoutHandler ∧ ¬ s.cpu.handlerInstalledFor t then throw t
  else modify fun s => s.takeTrap t

/-- The interrupts the current mode lets through: not delegated ones first. -/
def Cpu.interruptCandidates (c : Cpu) : U64 :=
  let ready := c.csrs.pendingEnabled
  let mideleg := c.csrs.read Csr.mideleg
  let mEnabled := c.priv.val < privMachine || c.csrs.mstatusMie
  let sEnabled := c.priv.val < privSupervisor ||
    (c.priv.val == privSupervisor && c.csrs.mstatusSie)
  if mEnabled ∧ ready &&& ~~~mideleg ≠ 0 then ready &&& ~~~mideleg
  else if sEnabled ∧ ready &&& mideleg ≠ 0 then ready &&& mideleg
  else 0

/-- The interrupt to take before the next instruction. -/
def Cpu.nextInterrupt (c : Cpu) : Option Interrupt :=
  let candidates := c.interruptCandidates
  if candidates &&& Csr.mipMeip ≠ 0 then some .machineExternal
  else if candidates &&& Csr.mipMsip ≠ 0 then some .machineSoftware
  else if candidates &&& Csr.mipMtip ≠ 0 then some .machineTimer
  else if candidates &&& Csr.mipSeip ≠ 0 then some .supervisorExternal
  else if candidates &&& Csr.mipSsip ≠ 0 then some .supervisorSoftware
  else if candidates &&& Csr.mipStip ≠ 0 then some .supervisorTimer
  else none

/-! ## One step -/

/-- What `step_core` sets up before it executes an instruction. -/
def Hart.begin (s : Hart) (inst : DecodedInst) : Hart :=
  { s with cpu := { s.cpu with nextPc := s.cpu.pc + inst.length, counterWritten := false } }

/-- An instruction succeeded. -/
def Hart.retire (s : Hart) : Hart :=
  { s with cpu := { s.cpu with
      pc := s.cpu.nextPc
      instret := s.cpu.instret + 1
      csrs := if s.cpu.counterWritten then s.cpu.csrs else s.cpu.csrs.tickCounters } }

/-- Fetch and execute one instruction. -/
def instruction : HartM Unit := do
  let inst ← nextInst
  modify fun s => s.begin inst
  execute inst
  modify Hart.retire

/-- One step of a hart; it throws the trap that stops the machine. -/
def stepCore : HartM Unit := do
  let s ← get
  match s.cpu.nextInterrupt with
  | some i => modify fun s => s.takeInterrupt i
  | none => do
    match ← attempt instruction with
    | .ok _ => pure ()
    | .error t => handleTrapOrStop t

/-! ## The ways a step goes -/

section Cases

variable {s s₁ t : Hart} {inst : DecodedInst} {e : Trap}

lemma instruction_of_ok (hn : nextInst s = .ok inst s₁)
    (he : execute inst (s₁.begin inst) = .ok () t) : instruction s = .ok () t.retire := by
  unfold instruction
  rw [bind_of_ok hn, bind_of_ok (modify_apply _ s₁), bind_of_ok he, modify_apply]

lemma instruction_of_error (hn : nextInst s = .ok inst s₁)
    (he : execute inst (s₁.begin inst) = .error e t) : instruction s = .error e t := by
  unfold instruction
  rw [bind_of_ok hn, bind_of_ok (modify_apply _ s₁), bind_of_error he]

lemma instruction_of_fetch (hn : nextInst s = .error e s₁) : instruction s = .error e s₁ := by
  unfold instruction
  rw [bind_of_error hn]

lemma stepCore_of_interrupt {i : Interrupt} (hi : s.cpu.nextInterrupt = some i) :
    stepCore s = .ok () (s.takeInterrupt i) := by
  unfold stepCore
  rw [bind_of_ok (get_apply s)]
  simp only [hi]
  rfl

lemma stepCore_of_ok (hi : s.cpu.nextInterrupt = none) (h : instruction s = .ok () t) :
    stepCore s = .ok () t := by
  unfold stepCore
  rw [bind_of_ok (get_apply s)]
  simp only [hi]
  rw [bind_of_ok (attempt_of_ok h)]
  rfl

lemma stepCore_of_error (hi : s.cpu.nextInterrupt = none) (h : instruction s = .error e t) :
    stepCore s = handleTrapOrStop e t := by
  unfold stepCore
  rw [bind_of_ok (get_apply s)]
  simp only [hi]
  rw [bind_of_ok (attempt_of_error h)]

lemma handleTrapOrStop_apply (e : Trap) (s : Hart) :
    handleTrapOrStop e s =
      if s.cpu.trapFatalWithoutHandler ∧ ¬ s.cpu.handlerInstalledFor e then
        .error e { s with cpu := { s.cpu with lastTrap := some e } }
      else .ok () (Hart.takeTrap { s with cpu := { s.cpu with lastTrap := some e } } e) := by
  unfold handleTrapOrStop modifyCpu
  rw [bind_of_ok (modify_apply _ s), bind_of_ok (get_apply _)]
  by_cases h : s.cpu.trapFatalWithoutHandler = true ∧ ¬ s.cpu.handlerInstalledFor e = true
  · rw [if_pos h]
    exact congrFun (if_pos h) _
  · rw [if_neg h]
    exact congrFun (if_neg h) _

end Cases

end RiscvEmu
