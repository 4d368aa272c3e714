import RiscvEmu.Csr
import RiscvEmu.Decoder

/-!
# The history of a machine

The state of the machine carries the list of what happened in it, newest first.  The program
neither keeps nor reads this list: it is a history variable, written where the event happens and
never looked at by any modelled function, and it lets a theorem say what came before what.
-/

namespace RiscvEmu

/-- What is recorded. -/
inductive Event where
  /-- A load-reserved returned `value`. -/
  | loadReserved (hart : ℕ) (va pa : U64) (size : ℕ) (value : U64)
  /-- A store-conditional was executed, whatever its outcome. -/
  | scStart (hart : ℕ) (va : U64)
  /-- A store-conditional succeeded: it wrote `value` and reported 0. -/
  | scDone (hart : ℕ) (va pa : U64) (size : ℕ) (value : U64)
  /-- An instruction of a hart wrote bytes `[pa, pa + size)`. -/
  | store (hart : ℕ) (pa : U64) (size : ℕ)
  /-- A translation of a hart wrote back a page-table entry. -/
  | pteUpdate (hart : ℕ) (pteAddr : U64)
  /-- A device wrote bytes `[addr, addr + len)`. -/
  | dma (addr : U64) (len : ℕ)
  /-- An image was copied to `[addr, addr + len)`. -/
  | image (addr : U64) (len : ℕ)
  /-- A hart took a trap or an interrupt. -/
  | trap (hart : ℕ)
  /-- A hart cached the instruction it had fetched from `pa`. -/
  | fill (hart : ℕ) (pc pa : U64) (priv : U32) (inst : DecodedInst)
  /-- A hart emptied its decode cache. -/
  | flush (hart : ℕ)
  /-- A CSR instruction of a hart wrote `value`. -/
  | csrWrite (hart : ℕ) (addr : CsrAddr) (value : U64)
  /-- A hart began at the address another one gave it. -/
  | start (hart : ℕ)
deriving DecidableEq, Repr

end RiscvEmu
