import RiscvEmu.Bus

/-!
# Sv39 virtual memory

`mmu.rs`: the page-table walk, the TLB in front of it, and the permission check both use.  A
translation reads and writes page tables over the bus, so it runs on the TLB together with the
shared state; `hart` only labels what it records in the history.
-/

namespace RiscvEmu

open Exec

namespace Pte

/-- The entry is valid. -/
def V : U64 := 1 <<< 0
/-- The page can be read. -/
def R : U64 := 1 <<< 1
/-- The page can be written. -/
def W : U64 := 1 <<< 2
/-- The page can be executed. -/
def X : U64 := 1 <<< 3
/-- The page is a user's. -/
def U : U64 := 1 <<< 4
/-- The page has been accessed. -/
def A : U64 := 1 <<< 6
/-- The page has been written. -/
def D : U64 := 1 <<< 7
/-- The lowest bit of the page number. -/
def ppnShift : ℕ := 10

end Pte

/-- The bytes of a page. -/
def pageSize : ℕ := 4096
/-- The bits of an offset. -/
def pageShift : ℕ := 12
/-- The levels of tables. -/
def sv39Levels : ℕ := 3
/-- The slots of the TLB. -/
def tlbSlots : ℕ := 1024
/-- The tag of an empty slot. -/
def invalidTag : U64 := ~~~0

/-- A cached translation. -/
structure TlbEntry where
  /-- Address space and virtual page, or `invalidTag`. -/
  tag : U64
  ppn : U64
  /-- The leaf page-table entry. -/
  perms : U64
  /-- Where that entry is. -/
  pteAddr : U64
deriving DecidableEq, Repr

/-- The TLB of a hart and its counters. -/
structure Mmu where
  tlb : ℕ → TlbEntry
  hits : ℕ
  misses : ℕ

/-- The TLB at reset. -/
def Mmu.new : Mmu := ⟨fun _ => ⟨invalidTag, 0, 0, 0⟩, 0, 0⟩

/-- SFENCE.VMA: empty the TLB. -/
def Mmu.flush (m : Mmu) : Mmu := { m with tlb := fun i => { m.tlb i with tag := invalidTag } }

/-- The page fault of an access. -/
def pageFaultFor : AccessType → Exception
  | .instruction => .instructionPageFault
  | .load => .loadPageFault
  | .store => .storeAMOPageFault

/-- Does `perms` permit this access at this privilege? -/
def permitted (perms : U64) (ty : AccessType) (priv : U32) (csrs : CsrFile) : Bool :=
  let userPage := perms &&& Pte.U != 0
  if priv = privUser ∧ !userPage then false
  else if priv ≠ privUser ∧ userPage ∧ (ty = .instruction ∨ !csrs.mstatusSum) then false
  else
    match ty with
    | .instruction => perms &&& Pte.X != 0
    | .load => perms &&& Pte.R != 0 || (csrs.mstatusMxr && perms &&& Pte.X != 0)
    | .store => perms &&& Pte.W != 0

/-! ## The walk -/

/-- The leaf a walk ends at. -/
structure Leaf where
  level : ℕ
  entry : U64
  pteAddr : U64

/-- The bits of a page number that a leaf at `level` does not supply. -/
def levelMask (level : ℕ) : U64 := ((1 : U64) <<< (9 * level)) - 1

namespace Leaf

variable (l : Leaf)

/-- A superpage whose frame is not aligned to its size. -/
def misaligned : Bool := l.level > 0 ∧ (l.entry >>> Pte.ppnShift) &&& levelMask l.level ≠ 0

/-- The frame of the page `vpn` inside the leaf. -/
def ppn (vpn : U64) : U64 :=
  if l.level > 0 then (l.entry >>> Pte.ppnShift) ||| (vpn &&& levelMask l.level)
  else l.entry >>> Pte.ppnShift

end Leaf

/-- The address of the entry for `vaddr` in a table of some level. -/
def pteSlot (vaddr : U64) (level : ℕ) (table : U64) : U64 :=
  table + ((vaddr >>> (pageShift + 9 * level)) &&& 0x1ff) * 8

/-- Walk down from a table; the number is how many levels are left.  `none` is a page fault,
whatever its reason: an entry out of reach, an invalid one, or no leaf at the last level. -/
def walk (vaddr : U64) : ℕ → U64 → SysM (Option Leaf)
  | 0, _ => pure none
  | level + 1, table => do
    let addr := pteSlot vaddr level table
    match ← attempt (Bus.load addr 8 .load) with
    | .error _ => pure none
    | .ok entry =>
      if entry &&& Pte.V = 0 then pure none
      else if entry &&& Pte.W ≠ 0 ∧ entry &&& Pte.R = 0 then pure none
      else if entry &&& (Pte.R ||| Pte.X) ≠ 0 then pure (some ⟨level, entry, addr⟩)
      else walk vaddr level ((entry >>> Pte.ppnShift) <<< pageShift)

/-! ## Translation -/

/-- What a translation works on. -/
structure MmuSys where
  mmu : Mmu
  sys : Sys

/-- Programs that translate. -/
abbrev MmuM := EStateM Trap MmuSys

/-- Run a bus access from a translation. -/
def onBus {α : Type} (m : SysM α) : MmuM α := zoom MmuSys.sys (fun t s => { s with sys := t }) m

/-- Fill a slot. -/
def MmuSys.setSlot (s : MmuSys) (idx : ℕ) (e : TlbEntry) : MmuSys :=
  { s with mmu := { s.mmu with tlb := Function.update s.mmu.tlb idx e } }

/-- Write back a page-table entry; a refused store is ignored. -/
def writePte (hart : ℕ) (pteAddr value : U64) : MmuM Unit := do
  match ← attempt (onBus (Bus.store pteAddr 8 value)) with
  | .ok _ => modify fun s => { s with sys := s.sys.emit (.pteUpdate hart pteAddr) }
  | .error _ => pure ()

/-- The rule for the top bits of a virtual address. -/
def canonical (vaddr : U64) : Bool := vaddr >>> 38 = 0 ∨ vaddr >>> 38 = 0x3ffffff

/-- The number of a page. -/
def vpnOf (vaddr : U64) : U64 := vaddr >>> pageShift
/-- The offset inside a page. -/
def pageOffset (vaddr : U64) : U64 := vaddr &&& BitVec.ofNat 64 (pageSize - 1)

/-- The tag of a page under the current address space. -/
def tlbKey (csrs : CsrFile) (vaddr : U64) : U64 := (csrs.satpAsid <<< 44) ||| vpnOf vaddr

/-- The only slot a page can be cached in. -/
def tlbIndex (vaddr : U64) : ℕ := (vpnOf vaddr).toNat % tlbSlots

/-- The physical address of `vaddr` in frame `ppn`. -/
def physAddr (ppn vaddr : U64) : U64 := (ppn <<< pageShift) ||| pageOffset vaddr

section Translate

variable (hart : ℕ) (csrs : CsrFile) (vaddr : U64) (ty : AccessType) (priv : U32)

/-- A store through a cached entry whose dirty bit is clear sets it, in the slot and in memory. -/
def setDirty (slot : TlbEntry) : MmuM Unit :=
  if ty = .store ∧ slot.perms &&& Pte.D = 0 then do
    modify fun s => s.setSlot (tlbIndex vaddr) { slot with perms := slot.perms ||| Pte.D }
    writePte hart slot.pteAddr (slot.perms ||| Pte.D)
  else pure ()

/-- A page that is cached. -/
def tlbHit (slot : TlbEntry) : MmuM U64 :=
  if permitted slot.perms ty priv csrs then do
    setDirty hart vaddr ty slot
    modify fun s => { s with mmu := { s.mmu with hits := s.mmu.hits + 1 } }
    pure (physAddr slot.ppn vaddr)
  else throw ⟨pageFaultFor ty, vaddr⟩

/-- The entry of a leaf with the accessed bit, and the dirty bit for a store. -/
def updatedPte (entry : U64) : U64 :=
  if ty = .store then entry ||| Pte.A ||| Pte.D else entry ||| Pte.A

/-- Write the leaf back if a bit was missing, and cache the translation. -/
def fillSlot (leaf : Leaf) : MmuM U64 := do
  let updated := updatedPte ty leaf.entry
  if updated ≠ leaf.entry then writePte hart leaf.pteAddr updated else pure ()
  let ppn := leaf.ppn (vpnOf vaddr)
  modify fun s => s.setSlot (tlbIndex vaddr) ⟨tlbKey csrs vaddr, ppn, updated, leaf.pteAddr⟩
  pure (physAddr ppn vaddr)

/-- A page that is not: walk the tables. -/
def tlbMiss : MmuM U64 := do
  modify fun s => { s with mmu := { s.mmu with misses := s.mmu.misses + 1 } }
  match ← onBus (walk vaddr sv39Levels (csrs.satpPpn <<< pageShift)) with
  | none => throw ⟨pageFaultFor ty, vaddr⟩
  | some leaf =>
    if permitted leaf.entry ty priv csrs ∧ !leaf.misaligned then fillSlot hart csrs vaddr ty leaf
    else throw ⟨pageFaultFor ty, vaddr⟩

/-- A translation by TLB or walk. -/
def translatePaged : MmuM U64 := do
  let s ← get
  if canonical vaddr then
    let slot := s.mmu.tlb (tlbIndex vaddr)
    if slot.tag = tlbKey csrs vaddr then tlbHit hart csrs vaddr ty priv slot
    else tlbMiss hart csrs vaddr ty priv
  else throw ⟨pageFaultFor ty, vaddr⟩

/-- Machine mode does not translate, and nothing does while `satp` says Bare. -/
def translate : MmuM U64 :=
  if priv = privMachine ∨ csrs.satpMode = Csr.satpModeBare then pure vaddr
  else translatePaged hart csrs vaddr ty priv

end Translate

end RiscvEmu
