import RiscvEmu.Mmu
import RiscvEmu.Arith

/-!
# A hart: state, registers and memory accesses

The parts of `cpu/mod.rs` below the step loop.  A hart works on its own state and on what all
harts share; an operation that can fault is a program on both, and a fault keeps the state reached.
-/

namespace RiscvEmu

open Exec

/-- The slots of the decode cache. -/
def dcacheSlots : ℕ := 4096

/-- A cached decoded instruction; an odd `pc` is an empty slot. -/
structure DecodeEntry where
  pc : U64
  priv : U8
  inst : DecodedInst
deriving DecidableEq

/-- The state of one hart. -/
structure Cpu where
  regs : ℕ → U64
  fregs : ℕ → U64
  pc : U64
  csrs : CsrFile
  priv : PrivLevel
  mmu : Mmu
  regfile : Option RegFileBackend
  aluBackend : Option AluBackend
  nextPc : U64
  reservationValid : Bool
  reservationAddr : U64
  dcache : ℕ → DecodeEntry
  dcacheEpoch : ℕ
  trapFatalWithoutHandler : Bool
  lastTrap : Option Trap
  halted : Bool
  sbiEnabled : Bool
  sbiShutdown : Bool
  hartid : ℕ
  idleOnWfi : Bool
  waitingForInterrupt : Bool
  roundStartInstret : ℕ
  instret : ℕ
  counterWritten : Bool

/-- A hart and what it shares with the others. -/
structure Hart where
  cpu : Cpu
  sys : Sys

/-- A program of a hart. -/
abbrev HartM := EStateM Trap Hart

namespace Cpu

/-- An instruction that decodes to nothing, the filler of an empty slot. -/
def noInst : DecodedInst := ⟨0, 0, 0, 0, 0, 0, 0, 0, 0, 0, .unknown⟩

/-- A hart at reset. -/
def new : Cpu where
  regs := fun _ => 0
  fregs := fun _ => 0
  pc := dramBase
  csrs := CsrFile.new
  priv := .machine
  mmu := Mmu.new
  regfile := none
  aluBackend := none
  nextPc := 0
  reservationValid := false
  reservationAddr := 0
  dcache := fun _ => ⟨~~~0, 0, noInst⟩
  dcacheEpoch := 0
  trapFatalWithoutHandler := true
  lastTrap := none
  halted := false
  sbiEnabled := false
  sbiShutdown := false
  hartid := 0
  idleOnWfi := false
  waitingForInterrupt := false
  roundStartInstret := 0
  instret := 0
  counterWritten := false

/-! ## Registers -/

/-- Write a register. -/
def setReg (c : Cpu) (index : ℕ) (value : U64) : Cpu :=
  if index = 0 ∨ index ≥ numRegs then c
  else match c.regfile with
    | some rf => { c with regfile := some (rf.write index value) }
    | none => { c with regs := Function.update c.regs index value }

/-- Writing a register changes the array or the backend in its place. -/
lemma setReg_eq (c : Cpu) (i : ℕ) (v : U64) :
    c.setReg i v = { c with regs := (c.setReg i v).regs, regfile := (c.setReg i v).regfile } := by
  unfold setReg
  split
  · rfl
  · split <;> rfl

@[simp] lemma setReg_hartid (c : Cpu) (i : ℕ) (v : U64) : (c.setReg i v).hartid = c.hartid := by
  rw [setReg_eq]

@[simp] lemma setReg_pc (c : Cpu) (i : ℕ) (v : U64) : (c.setReg i v).pc = c.pc := by
  rw [setReg_eq]

@[simp] lemma setReg_waitingForInterrupt (c : Cpu) (i : ℕ) (v : U64) :
    (c.setReg i v).waitingForInterrupt = c.waitingForInterrupt := by
  rw [setReg_eq]

@[simp] lemma setReg_priv (c : Cpu) (i : ℕ) (v : U64) : (c.setReg i v).priv = c.priv := by
  rw [setReg_eq]

@[simp] lemma setReg_csrs (c : Cpu) (i : ℕ) (v : U64) : (c.setReg i v).csrs = c.csrs := by
  rw [setReg_eq]

@[simp] lemma setReg_fregs (c : Cpu) (i : ℕ) (v : U64) : (c.setReg i v).fregs = c.fregs := by
  rw [setReg_eq]

@[simp] lemma setReg_sbiEnabled (c : Cpu) (i : ℕ) (v : U64) :
    (c.setReg i v).sbiEnabled = c.sbiEnabled := by
  rw [setReg_eq]

@[simp] lemma setReg_counterWritten (c : Cpu) (i : ℕ) (v : U64) :
    (c.setReg i v).counterWritten = c.counterWritten := by
  rw [setReg_eq]

@[simp] lemma setReg_dcache (c : Cpu) (i : ℕ) (v : U64) : (c.setReg i v).dcache = c.dcache := by
  rw [setReg_eq]

@[simp] lemma setReg_mmu (c : Cpu) (i : ℕ) (v : U64) : (c.setReg i v).mmu = c.mmu := by
  rw [setReg_eq]

/-- Read a register. -/
def getReg (c : Cpu) (index : ℕ) : U64 × Cpu :=
  if index = 0 ∨ index ≥ numRegs then (0, c)
  else match c.regfile with
    | some rf => ((rf.read index).1, { c with regfile := some (rf.read index).2 })
    | none => (c.regs index, c)

/-- Reading a register touches the register file at most. -/
lemma getReg_eq (c : Cpu) (i : ℕ) :
    (c.getReg i).2 = { c with regfile := (c.getReg i).2.regfile } := by
  unfold getReg
  split
  · rfl
  · split <;> rfl

/-- An operation of the ALU. -/
def runAlu (c : Cpu) (op : AluOp) (a b : U64) : U64 × Cpu :=
  match c.aluBackend with
  | some be => ((be.exec op a b).1, { c with aluBackend := some (be.exec op a b).2 })
  | none => (aluReference op a b, c)

end Cpu

/-! ## Elementary programs -/

/-- Change the hart's own state. -/
def modifyCpu (f : Cpu → Cpu) : HartM Unit := modify fun s => { s with cpu := f s.cpu }

/-- Change what the harts share. -/
def modifySys (f : Sys → Sys) : HartM Unit := modify fun s => { s with sys := f s.sys }

/-- A program on what the harts share. -/
def liftSys {α : Type} (m : SysM α) : HartM α := zoom Hart.sys (fun t s => { s with sys := t }) m

/-- Read a register, as a program. -/
def readReg (index : ℕ) : HartM U64 := fun s =>
  .ok (s.cpu.getReg index).1 { s with cpu := (s.cpu.getReg index).2 }

/-- Write a register, as a program. -/
def writeReg (index : ℕ) (value : U64) : HartM Unit := modifyCpu fun c => c.setReg index value

/-- One integer operation: the installed backend, or the plain ALU. -/
def alu (op : AluOp) (a b : U64) : HartM U64 := fun s =>
  .ok (s.cpu.runAlu op a b).1 { s with cpu := (s.cpu.runAlu op a b).2 }

/-- Record an event. -/
def emit (e : Event) : HartM Unit := modifySys fun t => t.emit e

/-! ## Caches and reservations -/

namespace Hart

variable (s : Hart)

/-- Change this hart's own mailbox. -/
def mapMail (f : Mailbox → Mailbox) : Hart :=
  { s with sys := { s.sys with
      mail := Function.update s.sys.mail s.cpu.hartid (f (s.sys.mail s.cpu.hartid)) } }

/-- Change another hart's mailbox. -/
def mapPeer (id : ℕ) (f : Mailbox → Mailbox) : Hart :=
  { s with sys := { s.sys with mail := Function.update s.sys.mail id (f (s.sys.mail id)) } }

/-- Give up the reservation. -/
def clearReservation : Hart :=
  { s with cpu := { s.cpu with reservationValid := false } }.mapMail
    fun m => { m with reservation := noRes }

/-- Forget all decoded instructions. -/
def flushDecodeCache : Hart :=
  { cpu := { s.cpu with dcache := fun i => { s.cpu.dcache i with pc := ~~~0 } }
    sys := s.sys.emit (.flush s.cpu.hartid) }

/-- Drop the TLB and the decode cache. -/
def remoteFence : Hart :=
  { s with cpu := { s.cpu with mmu := s.cpu.mmu.flush } }.flushDecodeCache

/-- Release the hart at `addr` in supervisor mode, with its id and `opaqueValue` as arguments. -/
def startAt (addr opaqueValue : U64) : Hart :=
  let s := s.mapMail fun m => { m with parked := false }
  let c := s.cpu
  let csrs := c.csrs.write Csr.satp 0
  let csrs := csrs.setMstatus (csrs.mstatus &&& ~~~(Csr.mstatusSie ||| Csr.mstatusSpie))
  let c := { c with
    waitingForInterrupt := false
    priv := .supervisor
    pc := addr
    csrs := csrs }
  let c := (c.setReg 10 (BitVec.ofNat 64 c.hartid)).setReg 11 opaqueValue
  let s : Hart := { s with cpu := c }
  let s : Hart := { s with sys := s.sys.emit (.start s.cpu.hartid) }
  s.clearReservation.remoteFence

@[simp] lemma startAt_priv (addr arg : U64) : (s.startAt addr arg).cpu.priv = .supervisor := by
  simp [startAt, remoteFence, flushDecodeCache, clearReservation, mapMail]

lemma startAt_csrs (addr arg : U64) :
    (s.startAt addr arg).cpu.csrs = (s.cpu.csrs.write Csr.satp 0).setMstatus
      ((s.cpu.csrs.write Csr.satp 0).mstatus &&& ~~~(Csr.mstatusSie ||| Csr.mstatusSpie)) := by
  simp [startAt, remoteFence, flushDecodeCache, clearReservation, mapMail]

/-- Apply what other harts left in the mailbox. -/
def applyMailbox : Hart :=
  let flags := (s.sys.mail s.cpu.hartid).pending
  if flags = 0 then s
  else
    let s := s.mapMail fun m => { m with pending := 0 }
    let s := if flags &&& mbIpi ≠ 0 then
        { s with cpu := { s.cpu with csrs := s.cpu.csrs.raiseInterrupt Csr.mipSsip } }
      else s
    let s := if flags &&& mbFence ≠ 0 then s.remoteFence else s
    if flags &&& mbStart ≠ 0 then
      let m := s.sys.mail s.cpu.hartid
      s.startAt m.startAddr m.startOpaque
    else s

/-- Can the hart execute an instruction now?  Asking applies the mailbox and ends a wait. -/
def runnable : Bool × Hart :=
  let s := s.applyMailbox
  if (s.sys.mail s.cpu.hartid).parked then (false, s)
  else if s.cpu.waitingForInterrupt then
    if s.cpu.csrs.pendingEnabled = 0 then (false, s)
    else (true, { s with cpu := { s.cpu with waitingForInterrupt := false } })
  else (true, s)

end Hart

/-! ## Memory -/

/-- The privilege of a load or a store: MPRV lends machine mode the one in MPP. -/
def Cpu.dataPrivilege (c : Cpu) : U32 :=
  if c.priv.val = privMachine ∧ c.csrs.mstatus &&& Csr.mstatusMprv ≠ 0 then c.csrs.mstatusMpp
  else c.priv.val

/-- Does an access reach another page? -/
def crossesPage (vaddr : U64) (size : ℕ) : Bool := vaddr.toNat % pageSize + size > pageSize

/-- Translate with this hart's TLB. -/
def translateFor (vaddr : U64) (ty : AccessType) (priv : U32) : HartM U64 := fun s =>
  zoom (fun s : Hart => (⟨s.cpu.mmu, s.sys⟩ : MmuSys))
    (fun t s => { cpu := { s.cpu with mmu := t.mmu }, sys := t.sys })
    (translate s.cpu.hartid s.cpu.csrs vaddr ty priv) s

/-- Does a store to `[paddr, paddr + size)` touch the granule `g`? -/
def touchesGranule (paddr : U64) (size : ℕ) (g : U64) : Bool :=
  g ≠ noRes ∧ g ≥ paddr >>> 3 ∧ g ≤ (paddr + BitVec.ofNat 64 size - 1) >>> 3

/-- Cancel the reservations of the other harts on what was just stored. -/
def Sys.noteStore (t : Sys) (hart : ℕ) (paddr : U64) (size : ℕ) : Sys :=
  { t with mail := fun i =>
      if i ≠ hart ∧ i < t.numHarts ∧ touchesGranule paddr size (t.mail i).reservation then
        { t.mail i with reservation := noRes }
      else t.mail i }

/-- A bus store of this hart, and what follows it. -/
def storeAt (paddr : U64) (size : ℕ) (value : U64) : HartM Unit := do
  liftSys (Bus.store paddr size value)
  modify fun s =>
    let t := s.sys.emit (.store s.cpu.hartid paddr size)
    { s with sys := if t.numHarts > 1 then t.noteStore s.cpu.hartid paddr size else t }

/-- The loop of `load_across_pages` over the byte numbers still to come. -/
def loadBytes (vaddr : U64) (ty : AccessType) (priv : U32) : List ℕ → U64 → HartM U64
  | [], value => pure value
  | i :: rest, value => do
    let pa ← translateFor (vaddr + BitVec.ofNat 64 i) ty priv
    let b ← liftSys (Bus.load pa 1 ty)
    loadBytes vaddr ty priv rest (value ||| (b &&& 0xff) <<< (8 * i))

/-- The first loop of `store_across_pages`: all bytes are translated before any is written. -/
def translateBytes (vaddr : U64) (priv : U32) : List ℕ → HartM Unit
  | [] => pure ()
  | i :: rest => do
    let _ ← translateFor (vaddr + BitVec.ofNat 64 i) .store priv
    translateBytes vaddr priv rest

/-- The second loop of `store_across_pages`. -/
def storeBytes (vaddr : U64) (priv : U32) (value : U64) : List ℕ → HartM Unit
  | [] => pure ()
  | i :: rest => do
    let pa ← translateFor (vaddr + BitVec.ofNat 64 i) .store priv
    storeAt pa 1 ((value >>> (8 * i)) &&& 0xff)
    storeBytes vaddr priv value rest

/-- A load across pages: byte by byte. -/
def loadAcrossPages (vaddr : U64) (size : ℕ) (ty : AccessType) : HartM U64 := do
  let s ← get
  loadBytes vaddr ty s.cpu.dataPrivilege (List.range size) 0

/-- A store across pages: all bytes are translated before one is written. -/
def storeAcrossPages (vaddr : U64) (size : ℕ) (value : U64) : HartM Unit := do
  let s ← get
  translateBytes vaddr s.cpu.dataPrivilege (List.range size)
  storeBytes vaddr s.cpu.dataPrivilege value (List.range size)

/-- `mem_load`: translate, then load. -/
def memLoad (vaddr : U64) (size : ℕ) (ty : AccessType) : HartM U64 :=
  if crossesPage vaddr size then loadAcrossPages vaddr size ty
  else do
    let s ← get
    let p := if ty = .instruction then s.cpu.priv.val else s.cpu.dataPrivilege
    let pa ← translateFor vaddr ty p
    liftSys (Bus.load pa size ty)

/-- `mem_store`: translate, then store. -/
def memStore (vaddr : U64) (size : ℕ) (value : U64) : HartM Unit :=
  if crossesPage vaddr size then storeAcrossPages vaddr size value
  else do
    let s ← get
    let pa ← translateFor vaddr .store s.cpu.dataPrivilege
    storeAt pa size value

end RiscvEmu
