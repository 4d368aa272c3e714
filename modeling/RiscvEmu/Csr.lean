import RiscvEmu.Types
import RiscvEmu.Lib.BitField

/-!
# Control and status registers

`csr.rs`.  The register file is an array over all 4096 addresses; `read` and `write` put the
views (`sstatus`, `sie`, `sip`, `fflags`, `frm` and the counter shadows) and the legalised fields
on top of it.
-/

namespace RiscvEmu

open BitField

/-- The address of a CSR. -/
abbrev CsrAddr := BitVec 12

namespace Csr

/-! ## Addresses -/

/-- The vendor. -/
def mvendorid : CsrAddr := 0xf11
/-- The architecture. -/
def marchid : CsrAddr := 0xf12
/-- The implementation. -/
def mimpid : CsrAddr := 0xf13
/-- The number of the hart. -/
def mhartid : CsrAddr := 0xf14
/-- The status of the hart. -/
def mstatus : CsrAddr := 0x300
/-- The instruction set. -/
def misa : CsrAddr := 0x301
/-- Exceptions left to supervisor mode. -/
def medeleg : CsrAddr := 0x302
/-- Interrupts left to supervisor mode. -/
def mideleg : CsrAddr := 0x303
/-- Interrupts that are enabled. -/
def mie : CsrAddr := 0x304
/-- Where machine-mode traps go. -/
def mtvec : CsrAddr := 0x305
/-- Counters open to supervisor mode. -/
def mcounteren : CsrAddr := 0x306
/-- A word for machine mode's own use. -/
def mscratch : CsrAddr := 0x340
/-- Where a machine-mode trap came from. -/
def mepc : CsrAddr := 0x341
/-- Why there was a machine-mode trap. -/
def mcause : CsrAddr := 0x342
/-- What a machine-mode trap was about. -/
def mtval : CsrAddr := 0x343
/-- Interrupts that are pending. -/
def mip : CsrAddr := 0x344
/-- The accrued exceptions, in `fcsr`. -/
def fflags : CsrAddr := 0x001
/-- The rounding mode, in `fcsr`. -/
def frm : CsrAddr := 0x002
/-- Floating-point control and status. -/
def fcsr : CsrAddr := 0x003
/-- What supervisor mode sees of `mstatus`. -/
def sstatus : CsrAddr := 0x100
/-- What supervisor mode sees of `mie`. -/
def sie : CsrAddr := 0x104
/-- Where supervisor-mode traps go. -/
def stvec : CsrAddr := 0x105
/-- Counters open to user mode. -/
def scounteren : CsrAddr := 0x106
/-- A word for supervisor mode's own use. -/
def sscratch : CsrAddr := 0x140
/-- Where a supervisor-mode trap came from. -/
def sepc : CsrAddr := 0x141
/-- Why there was a supervisor-mode trap. -/
def scause : CsrAddr := 0x142
/-- What a supervisor-mode trap was about. -/
def stval : CsrAddr := 0x143
/-- What supervisor mode sees of `mip`. -/
def sip : CsrAddr := 0x144
/-- The address space. -/
def satp : CsrAddr := 0x180
/-- The supervisor's own deadline (Sstc). -/
def stimecmp : CsrAddr := 0x14d
/-- What supervisor mode may use. -/
def menvcfg : CsrAddr := 0x30a
/-- The first of the protection settings. -/
def pmpcfg0 : CsrAddr := 0x3a0
/-- The last of the protection settings. -/
def pmpcfg2 : CsrAddr := 0x3a2
/-- The first protected region. -/
def pmpaddr0 : CsrAddr := 0x3b0
/-- The last protected region. -/
def pmpaddr15 : CsrAddr := 0x3bf
/-- Cycles, as machine mode counts them. -/
def mcycle : CsrAddr := 0xb00
/-- Instructions, as machine mode counts them. -/
def minstret : CsrAddr := 0xb02
/-- Cycles, for everyone. -/
def cycle : CsrAddr := 0xc00
/-- The time, for everyone. -/
def time : CsrAddr := 0xc01
/-- Instructions, for everyone. -/
def instret : CsrAddr := 0xc02

/-! ## Fields -/

/-- Enables `stimecmp`. -/
def menvcfgStce : U64 := 1 <<< 63

/-- Supervisor interrupts are enabled. -/
def mstatusSie : U64 := 1 <<< 1
/-- Machine interrupts are enabled. -/
def mstatusMie : U64 := 1 <<< 3
/-- SIE before the trap. -/
def mstatusSpie : U64 := 1 <<< 5
/-- MIE before the trap. -/
def mstatusMpie : U64 := 1 <<< 7
/-- The level before a trap to supervisor mode. -/
def mstatusSpp : U64 := 1 <<< 8
/-- The level before a trap to machine mode. -/
def mstatusMpp : U64 := 3 <<< 11
/-- The lowest bit of MPP. -/
def mstatusMppShift : ℕ := 11
/-- The floating-point unit's state: 0 Off, 1 Initial, 2 Clean, 3 Dirty. -/
def mstatusFs : U64 := 3 <<< 13
/-- The unit is off. -/
def mstatusFsOff : U64 := 0
/-- The unit has state to be saved. -/
def mstatusFsDirty : U64 := 3 <<< 13
/-- The summary bit, read-only: set when FS is Dirty. -/
def mstatusSd : U64 := 1 <<< 63
/-- Loads and stores take the level in MPP. -/
def mstatusMprv : U64 := 1 <<< 17
/-- Supervisor mode reaches user pages. -/
def mstatusSum : U64 := 1 <<< 18
/-- Executable pages can be read. -/
def mstatusMxr : U64 := 1 <<< 19
/-- Supervisor mode may not touch `satp`. -/
def mstatusTvm : U64 := 1 <<< 20
/-- Supervisor mode may not wait. -/
def mstatusTw : U64 := 1 <<< 21
/-- Supervisor mode may not use SRET. -/
def mstatusTsr : U64 := 1 <<< 22
/-- The width of user mode. -/
def mstatusUxl : U64 := 3 <<< 32
/-- Registers of 64 bits. -/
def mstatusXlRv64 : U64 := 2

/-- The bits `sstatus` exposes. -/
def sstatusMask : U64 :=
  mstatusSie ||| mstatusSpie ||| mstatusSpp ||| mstatusSum ||| mstatusMxr ||| mstatusFs |||
    mstatusUxl ||| mstatusSd

/-- What a write to `sstatus` reaches. -/
def sstatusWriteMask : U64 := sstatusMask &&& ~~~mstatusUxl

/-- The interrupt bits `sie` and `sip` expose. -/
def sieSipMask : U64 := (1 <<< 1) ||| (1 <<< 5) ||| (1 <<< 9)

/-- The exceptions in `fcsr`. -/
def fcsrFflagsMask : U64 := 0x1f
/-- The rounding mode in `fcsr`. -/
def fcsrFrmMask : U64 := 0x7 <<< 5
/-- The lowest bit of the rounding mode. -/
def fcsrFrmShift : ℕ := 5

/-- Inexact. -/
def fflagNx : U64 := 1 <<< 0
/-- Underflow. -/
def fflagUf : U64 := 1 <<< 1
/-- Overflow. -/
def fflagOf : U64 := 1 <<< 2
/-- Division by zero. -/
def fflagDz : U64 := 1 <<< 3
/-- Invalid operation. -/
def fflagNv : U64 := 1 <<< 4

/-- The lowest bit of the mode. -/
def satpModeShift : ℕ := 60
/-- The mode in `satp`. -/
def satpModeMask : U64 := 0xf <<< 60
/-- The number of the address space in `satp`. -/
def satpAsidMask : U64 := 0xffff <<< 44
/-- The root page table in `satp`. -/
def satpPpnMask : U64 := (1 <<< 44) - 1
/-- No translation. -/
def satpModeBare : U64 := 0
/-- Three levels of tables. -/
def satpModeSv39 : U64 := 8

/-- Supervisor software interrupt. -/
def mipSsip : U64 := 1 <<< 1
/-- Machine software interrupt. -/
def mipMsip : U64 := 1 <<< 3
/-- Supervisor timer interrupt. -/
def mipStip : U64 := 1 <<< 5
/-- Machine timer interrupt. -/
def mipMtip : U64 := 1 <<< 7
/-- Supervisor external interrupt. -/
def mipSeip : U64 := 1 <<< 9
/-- Machine external interrupt. -/
def mipMeip : U64 := 1 <<< 11

/-- The mode in a trap vector. -/
def mtvecModeMask : U64 := 0x3
/-- All traps go to one address. -/
def mtvecModeDirect : U64 := 0
/-- Each interrupt has its own address. -/
def mtvecModeVectored : U64 := 1

/-- Writing this address is forbidden: its top two bits are set. -/
def isReadOnly (addr : CsrAddr) : Bool := (addr >>> 10) &&& 0x3 == 0x3

/-- The lowest privilege that may access this address. -/
def minPrivilege (addr : CsrAddr) : U32 := ((addr >>> 8) &&& 0x3).setWidth 32

/-- Every interrupt source that exists. -/
def interruptMask : U64 := mipMsip ||| mipMtip ||| mipMeip ||| mipSsip ||| mipStip ||| mipSeip

/-- The pending bits that machine mode may write. -/
def mipSoftwareWritable : U64 := mipSsip ||| mipStip ||| mipSeip

/-- The writable bits of `mstatus`. -/
def mstatusMask : U64 :=
  mstatusMie ||| mstatusMpie ||| mstatusMpp ||| mstatusSie ||| mstatusSpie ||| mstatusSpp |||
    mstatusMprv ||| mstatusSum ||| mstatusMxr ||| mstatusTvm ||| mstatusTw ||| mstatusTsr |||
    mstatusFs

/-- The bit of `misa` for an extension, given by the position of its letter. -/
def misaExt (letter : ℕ) : U64 := (1 : U64) <<< letter

/-- The addresses `exists` lists one by one. -/
def listed : List CsrAddr :=
  [mvendorid, marchid, mimpid, mhartid, mstatus, misa, medeleg, mideleg, mie, mtvec, mcounteren,
    mscratch, mepc, mcause, mtval, mip, mcycle, minstret, cycle, time, instret, sstatus, sie,
    stvec, scounteren, sscratch, sepc, scause, stval, sip, satp, stimecmp, menvcfg, pmpcfg0,
    pmpcfg2, fflags, frm, fcsr]

end Csr

open Csr

/-! ## The register file -/

/-- The CSR storage. -/
structure CsrFile where
  raw : CsrAddr → U64

namespace CsrFile

variable (c : CsrFile)

/-- Overwrite one element of the array. -/
def setRaw (addr : CsrAddr) (value : U64) : CsrFile := ⟨Function.update c.raw addr value⟩

@[simp] lemma setRaw_raw_self (a : CsrAddr) (v : U64) : (c.setRaw a v).raw a = v := by
  simp [setRaw]

lemma setRaw_raw_ne {a b : CsrAddr} (v : U64) (h : b ≠ a) : (c.setRaw a v).raw b = c.raw b := by
  simp [setRaw, Function.update_of_ne h]

/-- The file of a hart out of reset. -/
def new : CsrFile :=
  let blank : CsrFile := ⟨fun _ => 0⟩
  let withMisa := blank.setRaw misa
    ((2 <<< 62) ||| misaExt 8 ||| misaExt 12 ||| misaExt 0 ||| misaExt 1 ||| misaExt 2 |||
      misaExt 5 ||| misaExt 3 ||| misaExt 18 ||| misaExt 20)
  withMisa.setRaw mstatus
    (privMachine.setWidth 64 <<< mstatusMppShift |||
      (mstatusXlRv64 <<< 32 ||| mstatusXlRv64 <<< 34))

/-- Give the hart its number. -/
def setHartid (id : U64) : CsrFile := c.setRaw mhartid id

/-- Is the CSR implemented? -/
def csrExists (addr : CsrAddr) : Bool := addr ∈ listed ∨ (pmpaddr0 ≤ addr ∧ addr ≤ pmpaddr15)

/-- `mstatus` as it reads: SD is derived from FS. -/
def mstatus : U64 :=
  let status := c.raw Csr.mstatus
  if status &&& mstatusFs = mstatusFsDirty then status ||| mstatusSd else status &&& ~~~mstatusSd

/-- What a register reads as. -/
def read (addr : CsrAddr) : U64 :=
  if addr = cycle then c.raw mcycle
  else if addr = instret then c.raw minstret
  else if addr = sstatus then c.mstatus &&& sstatusMask
  else if addr = Csr.mstatus then c.mstatus
  else if addr = fcsr then c.raw fcsr
  else if addr = fflags then c.raw fcsr &&& fcsrFflagsMask
  else if addr = frm then (c.raw fcsr &&& fcsrFrmMask) >>> fcsrFrmShift
  else if addr = sie then c.raw mie &&& sieSipMask
  else if addr = sip then c.raw mip &&& sieSipMask
  else c.raw addr

/-- The bits that a write to a register reaches. -/
def writeMask (addr : CsrAddr) : U64 :=
  if addr = Csr.mstatus then mstatusMask
  else if addr = mie then interruptMask
  else if addr = mip then mipSoftwareWritable
  else if addr = misa then 0
  else ~~~0

/-- Write a register, whose fields may refuse values. -/
def write (addr : CsrAddr) (value : U64) : CsrFile :=
  if addr = mtvec ∨ addr = stvec then
    let mode := value &&& mtvecModeMask
    let mode := if mode > mtvecModeVectored then mtvecModeDirect else mode
    c.setRaw addr ((value &&& ~~~mtvecModeMask) ||| mode)
  else if addr = fcsr then c.setRaw fcsr (value &&& (fcsrFflagsMask ||| fcsrFrmMask))
  else if addr = fflags then c.setRaw fcsr (merge fcsrFflagsMask (c.raw fcsr) value)
  else if addr = frm then
    c.setRaw fcsr (merge fcsrFrmMask (c.raw fcsr) (value <<< fcsrFrmShift))
  else if addr = sstatus then
    c.setRaw Csr.mstatus (merge sstatusWriteMask (c.raw Csr.mstatus) value)
  else if addr = sie then c.setRaw mie (merge sieSipMask (c.raw mie) value)
  else if addr = sip then c.setRaw mip (merge mipSsip (c.raw mip) value)
  else if addr = Csr.satp then
    -- an unsupported mode is ignored, not stored
    let mode := (value &&& satpModeMask) >>> satpModeShift
    if mode ≠ satpModeBare ∧ mode ≠ satpModeSv39 then c else c.setRaw addr value
  else if addr = mepc ∨ addr = sepc then c.setRaw addr (value &&& ~~~1)
  else if addr = cycle ∨ addr = time ∨ addr = instret then c
  else c.setRaw addr (merge (writeMask addr) (c.raw addr) value)

/-! ### Accessors -/

/-- Write the status. -/
def setMstatus (v : U64) : CsrFile := c.write Csr.mstatus v

/-- Are machine interrupts enabled? -/
def mstatusMie : Bool := c.mstatus &&& Csr.mstatusMie != 0
/-- Are supervisor interrupts enabled? -/
def mstatusSie : Bool := c.mstatus &&& Csr.mstatusSie != 0
/-- Does supervisor mode reach user pages? -/
def mstatusSum : Bool := c.raw Csr.mstatus &&& Csr.mstatusSum != 0
/-- Can executable pages be read? -/
def mstatusMxr : Bool := c.raw Csr.mstatus &&& Csr.mstatusMxr != 0
/-- The level before the last trap to machine mode. -/
def mstatusMpp : U32 := ((c.raw Csr.mstatus &&& Csr.mstatusMpp) >>> mstatusMppShift).setWidth 32

/-- May a mode read the counter whose enable bit is `bit`? -/
def counterEnabled (bit : ℕ) (priv : U32) : Bool :=
  if priv ≥ privMachine then true
  else if (c.read mcounteren >>> bit) &&& 1 = 0 then false
  else if priv = privSupervisor then true
  else (c.read scounteren >>> bit) &&& 1 != 0

/-- May supervisor mode set its own deadline? -/
def sstcEnabled : Bool := c.raw menvcfg &&& menvcfgStce != 0

/-- Is the floating-point unit on? -/
def fpuEnabled : Bool := c.raw Csr.mstatus &&& mstatusFs != mstatusFsOff

/-- The floating-point unit has state to be saved. -/
def markFpuDirty : CsrFile :=
  c.setRaw Csr.mstatus ((c.raw Csr.mstatus &&& ~~~mstatusFs) ||| mstatusFsDirty)

/-- Exceptions accrue. -/
def raiseFflags (flags : U64) : CsrFile := c.setRaw fcsr (c.raw fcsr ||| flags &&& fcsrFflagsMask)

/-- The rounding mode in force. -/
def roundingMode : ℕ := ((c.raw fcsr &&& fcsrFrmMask) >>> fcsrFrmShift).toNat

/-- The address space in force. -/
def satp : U64 := c.raw Csr.satp
/-- How it is translated. -/
def satpMode : U64 := (c.satp &&& satpModeMask) >>> satpModeShift
/-- Its root page table. -/
def satpPpn : U64 := c.satp &&& satpPpnMask
/-- Its number. -/
def satpAsid : U64 := (c.satp &&& satpAsidMask) >>> 44

/-- Is an exception left to supervisor mode? -/
def delegatedException (cause : U64) : Bool :=
  cause < 64 ∧ (c.raw medeleg >>> cause.toNat) &&& 1 ≠ 0

/-- Is an interrupt left to supervisor mode? -/
def delegatedInterrupt (cause : U64) : Bool :=
  cause < 64 ∧ (c.raw mideleg >>> cause.toNat) &&& 1 ≠ 0

/-- Pending interrupts that are enabled. -/
def pendingEnabled : U64 := c.raw mip &&& c.raw mie

/-- Make an interrupt pending. -/
def raiseInterrupt (mipBit : U64) : CsrFile := c.setRaw mip (c.raw mip ||| mipBit)
/-- Take a pending interrupt back. -/
def clearInterrupt (mipBit : U64) : CsrFile := c.setRaw mip (c.raw mip &&& ~~~mipBit)

/-- One more instruction retired, one more cycle. -/
def tickCounters : CsrFile :=
  (c.setRaw minstret (c.raw minstret + 1)).setRaw mcycle (c.raw mcycle + 1)

/-! ### What a write changes -/

/-- The element of the array that a write goes to. -/
def cell (addr : CsrAddr) : CsrAddr :=
  if addr = fflags ∨ addr = frm then fcsr
  else if addr = sstatus then Csr.mstatus
  else if addr = sie then mie
  else if addr = sip then mip
  else addr

/-- The views write to the register behind them, the others to themselves. -/
lemma cell_cases (addr : CsrAddr) :
    (cell addr = fcsr ∧ (addr = fflags ∨ addr = frm)) ∨ (cell addr = Csr.mstatus ∧ addr = sstatus) ∨
      (cell addr = mie ∧ addr = sie) ∨ (cell addr = mip ∧ addr = sip) ∨ cell addr = addr := by
  unfold cell
  split_ifs <;> simp_all

lemma mstatus_ne_cell {addr : CsrAddr} (hm : addr ≠ Csr.mstatus) (hs : addr ≠ sstatus) :
    Csr.mstatus ≠ cell addr := by
  unfold cell
  split_ifs
  · decide
  · decide
  · decide
  · exact hm.symm

lemma write_raw_of_ne {addr b : CsrAddr} (v : U64) (h : b ≠ cell addr) :
    (c.write addr v).raw b = c.raw b := by
  unfold write
  by_cases hff : addr = fflags
  · subst hff
    exact setRaw_raw_ne _ _ h
  by_cases hfr : addr = frm
  · subst hfr
    exact setRaw_raw_ne _ _ h
  by_cases hss : addr = sstatus
  · subst hss
    exact setRaw_raw_ne _ _ h
  by_cases hsi : addr = sie
  · subst hsi
    exact setRaw_raw_ne _ _ h
  by_cases hsp : addr = sip
  · subst hsp
    exact setRaw_raw_ne _ _ h
  -- everywhere else the cell is the CSR itself
  have hb : b ≠ addr := by simpa [cell, hff, hfr, hss, hsi, hsp] using h
  simp only [hff, hfr, hss, hsi, hsp, if_false]
  by_cases htv : addr = mtvec ∨ addr = stvec
  · rw [if_pos htv]
    exact setRaw_raw_ne _ _ hb
  rw [if_neg htv]
  by_cases hfc : addr = fcsr
  · rw [if_pos hfc]
    exact setRaw_raw_ne _ _ (hfc ▸ hb)
  rw [if_neg hfc]
  by_cases hsa : addr = Csr.satp
  · rw [if_pos hsa]
    split
    · rfl
    · exact setRaw_raw_ne _ _ hb
  rw [if_neg hsa]
  split
  · exact setRaw_raw_ne _ _ hb
  · split
    · rfl
    · exact setRaw_raw_ne _ _ hb

@[simp] lemma setMstatus_raw (v : U64) :
    (c.setMstatus v).raw Csr.mstatus = merge mstatusMask (c.raw Csr.mstatus) v :=
  setRaw_raw_self _ _ _

lemma setMstatus_raw_ne {b : CsrAddr} (v : U64) (h : b ≠ Csr.mstatus) :
    (c.setMstatus v).raw b = c.raw b :=
  c.write_raw_of_ne v h

/-- The status word reads as it is stored, apart from the derived bit. -/
lemma mstatus_and {k : U64} (h : mstatusSd &&& k = 0) :
    c.mstatus &&& k = c.raw Csr.mstatus &&& k := by
  unfold mstatus
  exact assign_and_of_disjoint h

end CsrFile

/-- The privilege levels the machine supports. -/
def isValidPriv (p : U32) : Bool := p = privUser ∨ p = privSupervisor ∨ p = privMachine

end RiscvEmu
