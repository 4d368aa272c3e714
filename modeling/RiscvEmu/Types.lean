import Mathlib.Logic.Function.Basic
import Mathlib.Data.Nat.Notation
import Mathlib.Tactic.Common
import Mathlib.Algebra.Group.Int.Defs
import Mathlib.Algebra.GroupWithZero.Nat
import Mathlib.Order.Lattice

/-!
# Widths, the memory map, privilege levels and traps

`types.rs`, `trap.rs` and the access types of `device.rs`.  A register, an address or a CSR is a
`BitVec 64`; an `i64` of the source is the same bits read as two's complement.
-/

namespace RiscvEmu

/-- Bytes. -/
abbrev U8 := BitVec 8
/-- Halfwords. -/
abbrev U16 := BitVec 16
/-- Words. -/
abbrev U32 := BitVec 32
/-- Doublewords. -/
abbrev U64 := BitVec 64

/-! ## The memory map -/

/-- The number of registers. -/
def numRegs : ℕ := 32

/-- Where the power button is. -/
def sysconBase : U64 := 0x00100000
/-- Where the clock on the wall is. -/
def rtcBase : U64 := 0x00101000
/-- Where the interruptor is. -/
def clintBase : U64 := 0x02000000
/-- Where the interrupt controller is. -/
def plicBase : U64 := 0x0c000000
/-- Where the serial port is. -/
def uart0Base : U64 := 0x10000000
/-- Where the disk is. -/
def virtioBase : U64 := 0x10001000
/-- From one virtio device to the next. -/
def virtioStride : U64 := 0x1000
/-- Where the network card is. -/
def virtioNetBase : U64 := virtioBase + virtioStride
/-- Where the entropy source is. -/
def virtioRngBase : U64 := virtioBase + 2 * virtioStride
/-- Where RAM is. -/
def dramBase : U64 := 0x80000000

/-! Interrupt numbers on the PLIC. -/

/-- The line of the disk. -/
def virtio0Irq : ℕ := 1
/-- The line of the network card. -/
def virtioNetIrq : ℕ := 2
/-- The line of the entropy source. -/
def virtioRngIrq : ℕ := 3
/-- The line of the serial port. -/
def uart0Irq : ℕ := 10
/-- The line of the clock on the wall. -/
def rtcIrq : ℕ := 11

/-! ## Privilege levels -/

/-- User mode. -/
def privUser : U32 := 0
/-- Supervisor mode. -/
def privSupervisor : U32 := 1
/-- Machine mode. -/
def privMachine : U32 := 3

/-- What MRET and SRET leave in the previous-privilege field. -/
def privLeastSupported : U32 := privUser

/-- The privilege a hart runs at.  The source keeps it in a `u32`; every value written there comes
from one of the constants or from a two-bit field, which is what the bound records. -/
structure PrivLevel where
  val : U32
  le : val ≤ 3
deriving DecidableEq

namespace PrivLevel

/-- User mode, as a level. -/
def user : PrivLevel := ⟨privUser, by decide⟩
/-- Supervisor mode, as a level. -/
def supervisor : PrivLevel := ⟨privSupervisor, by decide⟩
/-- Machine mode, as a level. -/
def machine : PrivLevel := ⟨privMachine, by decide⟩

@[ext] lemma ext {p q : PrivLevel} (h : p.val = q.val) : p = q := by
  cases p
  cases q
  simpa using h

lemma val_cases (p : PrivLevel) : p.val = 0 ∨ p.val = 1 ∨ p.val = 2 ∨ p.val = 3 := by
  have h := p.le
  bv_omega

end PrivLevel

/-! ## Sign extension -/

/-- Sign-extend the low `bits` bits of `value`. -/
def signExtend (value : U64) (bits : ℕ) : U64 :=
  let shift := 64 - bits
  (value <<< shift).sshiftRight shift

/-- Sign-extend 32 bits to 64. -/
def sext32 (value : U32) : U64 := value.signExtend 64

/-! ## Traps -/

/-- Synchronous exception causes. -/
inductive Exception where
  | instructionAddressMisaligned
  | instructionAccessFault
  | illegalInstruction
  | breakpoint
  | loadAddressMisaligned
  | loadAccessFault
  | storeAMOAddressMisaligned
  | storeAMOAccessFault
  | eCallFromUMode
  | eCallFromSMode
  | eCallFromMMode
  | instructionPageFault
  | loadPageFault
  | storeAMOPageFault
deriving DecidableEq, Repr

/-- The number of a cause in `mcause`. -/
def Exception.code : Exception → U64
  | instructionAddressMisaligned => 0
  | instructionAccessFault => 1
  | illegalInstruction => 2
  | breakpoint => 3
  | loadAddressMisaligned => 4
  | loadAccessFault => 5
  | storeAMOAddressMisaligned => 6
  | storeAMOAccessFault => 7
  | eCallFromUMode => 8
  | eCallFromSMode => 9
  | eCallFromMMode => 11
  | instructionPageFault => 12
  | loadPageFault => 13
  | storeAMOPageFault => 15

/-- Interrupt causes. -/
inductive Interrupt where
  | supervisorSoftware
  | machineSoftware
  | supervisorTimer
  | machineTimer
  | supervisorExternal
  | machineExternal
deriving DecidableEq, Repr

/-- The cause number of an interrupt, which is also its bit in `mip` and `mie`. -/
def Interrupt.number : Interrupt → ℕ
  | supervisorSoftware => 1
  | machineSoftware => 3
  | supervisorTimer => 5
  | machineTimer => 7
  | supervisorExternal => 9
  | machineExternal => 11

/-- An interrupt as it is written to `mcause`. -/
def Interrupt.causeCode (i : Interrupt) : U64 := (1 <<< 63) ||| BitVec.ofNat 64 i.number

/-- A trap in flight: the cause and what goes in `mtval` or `stval`. -/
structure Trap where
  cause : Exception
  tval : U64
deriving DecidableEq, Repr

/-! ## Accesses -/

/-- Why memory is being touched. -/
inductive AccessType where
  | instruction
  | load
  | store
deriving DecidableEq, Repr

/-- Little-endian value of at most eight bytes. -/
def readLe (bytes : List U8) : U64 :=
  (bytes.take 8).foldr (fun b v => b.setWidth 64 ||| v <<< 8) 0

end RiscvEmu
