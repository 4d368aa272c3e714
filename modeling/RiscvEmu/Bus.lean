import RiscvEmu.Lib.Exec
import RiscvEmu.Virtio.Blk
import RiscvEmu.Virtio.NetRng
import RiscvEmu.Device.Peripherals

/-!
# The system bus and what the harts share

`bus.rs`, and the state that all harts of a machine reach: RAM, the devices, the mailboxes by
which harts signal each other, and the history of the run.
-/

namespace RiscvEmu

open Exec Virtio

/-! ## Mailboxes -/

/-- Messages one hart leaves for another. -/
structure Mailbox where
  parked : Bool
  pending : U32
  startAddr : U64
  startOpaque : U64
  /-- The hart's reservation as a physical 8-byte granule, or `noRes`. -/
  reservation : U64

/-- An interrupt for the hart. -/
def mbIpi : U32 := 1
/-- A fence for the hart. -/
def mbFence : U32 := 2
/-- A start of the hart. -/
def mbStart : U32 := 4
/-- No reservation. -/
def noRes : U64 := ~~~0

namespace Mailbox

/-- An empty mailbox. -/
def new (parked : Bool) : Mailbox := ⟨parked, 0, 0, 0, noRes⟩

variable (m : Mailbox)

/-- Leave an interrupt. -/
def sendIpi : Mailbox := { m with pending := m.pending ||| mbIpi }
/-- Leave a fence. -/
def sendFence : Mailbox := { m with pending := m.pending ||| mbFence }
/-- Leave a start. -/
def sendStart (addr opaqueValue : U64) : Mailbox :=
  { m with
    startAddr := addr
    startOpaque := opaqueValue
    pending := m.pending ||| mbStart
    parked := false }

/-- All of a mailbox but the reservation. -/
def letters : Mailbox := { m with reservation := noRes }

end Mailbox

/-! ## The shared state -/

/-- The devices a bus may have. -/
inductive DevId where
  | uart
  | clint
  | plic
  | syscon
  | rtc
  | blk
  | net
  | rng
deriving DecidableEq, Repr

/-- A virtio device and its transport. -/
structure VirtioMmio (D : Type) where
  core : Core
  dev : D

/-- What the harts share. -/
structure Sys where
  ram : Dram
  /-- First address, first address past the end, and device, in the order of attachment. -/
  ranges : List (U64 × U64 × DevId)
  mmioEpoch : ℕ
  clint : Clint
  plic : Plic
  uart : Uart
  syscon : Syscon
  rtc : Rtc
  blk : VirtioMmio Blk
  net : VirtioMmio Net
  rng : VirtioMmio Rng
  /-- The harts have their handles on the clock, the interruptor and the console. -/
  wired : Bool
  numHarts : ℕ
  mail : ℕ → Mailbox
  /-- What happened so far, newest first. -/
  log : List Event
  /-- The bound of `Virtio.Dma.fuel`. -/
  fuel : ℕ

/-- A program on the shared state. -/
abbrev SysM := EStateM Trap Sys

/-! ## Devices -/

/-- What a virtio device works on, taken out of the shared state. -/
def virtioSlot {D : Type} (unit : Sys → VirtioMmio D) (s : Sys) : Slot D :=
  ⟨(unit s).dev, ⟨(unit s).core, s.ram, s.plic, s.log, s.fuel⟩⟩

/-- Write back the part of a slot that all devices share. -/
def putSlot {D : Type} (slot : Slot D) (s : Sys) : Sys :=
  { s with ram := slot.env.ram, plic := slot.env.plic, log := slot.env.log }

/-- Put the disk back. -/
def putBlk (slot : Slot Blk) (s : Sys) : Sys :=
  { putSlot slot s with blk := ⟨slot.env.core, slot.dev⟩ }

/-- Put the network card back. -/
def putNet (slot : Slot Net) (s : Sys) : Sys :=
  { putSlot slot s with net := ⟨slot.env.core, slot.dev⟩ }

/-- Put the entropy source back. -/
def putRng (slot : Slot Rng) (s : Sys) : Sys :=
  { putSlot slot s with rng := ⟨slot.env.core, slot.dev⟩ }

/-- A load routed to a device. -/
def deviceLoad (id : DevId) (offset size : ℕ) : SysM U64 :=
  match id with
  | .uart => zoom Sys.uart (fun d s => { s with uart := d }) (Uart.load offset size)
  | .clint => zoom Sys.clint (fun d s => { s with clint := d }) (Clint.load offset size)
  | .plic => zoom Sys.plic (fun d s => { s with plic := d }) (Plic.load offset size)
  | .syscon => zoom Sys.syscon (fun d s => { s with syscon := d }) (Syscon.load offset size)
  | .rtc => zoom Sys.rtc (fun d s => { s with rtc := d }) (Rtc.load offset size)
  | .blk => zoom (virtioSlot Sys.blk) putBlk (Slot.load offset size)
  | .net => zoom (virtioSlot Sys.net) putNet (Slot.load offset size)
  | .rng => zoom (virtioSlot Sys.rng) putRng (Slot.load offset size)

/-- A store routed to a device. -/
def deviceStore (id : DevId) (offset size : ℕ) (value : U64) : SysM Unit :=
  match id with
  | .uart => zoom Sys.uart (fun d s => { s with uart := d }) (Uart.store offset size value)
  | .clint => zoom Sys.clint (fun d s => { s with clint := d }) (Clint.store offset size value)
  | .plic => zoom Sys.plic (fun d s => { s with plic := d }) (Plic.store offset size value)
  | .syscon => zoom Sys.syscon (fun d s => { s with syscon := d }) (Syscon.store offset size value)
  | .rtc =>
    zoom (fun s => (s.rtc, s.plic)) (fun d s => { s with rtc := d.1, plic := d.2 })
      (Rtc.store offset size value)
  | .blk => zoom (virtioSlot Sys.blk) putBlk (Slot.store offset size value)
  | .net => zoom (virtioSlot Sys.net) putNet (Slot.store offset size value)
  | .rng => zoom (virtioSlot Sys.rng) putRng (Slot.store offset size value)

/-! ## Routing -/

/-- The access fault of an access. -/
def accessFaultFor : AccessType → Exception
  | .instruction => .instructionAccessFault
  | .load => .loadAccessFault
  | .store => .storeAMOAccessFault

namespace Sys

variable (s : Sys)

/-- The device that claims an address, and the base of its range. -/
def find (addr : U64) : Option (U64 × DevId) :=
  (s.ranges.find? fun r => r.1 ≤ addr ∧ addr < r.2.1).map fun r => (r.1, r.2.2)

/-- Register a range unless it overlaps RAM or an earlier one. -/
def attach (base size : U64) (id : DevId) : Option Sys :=
  let hi := if base.toNat + size.toNat < 2 ^ 64 then base + size else ~~~0
  let ramEnd := dramBase + BitVec.ofNat 64 s.ram.len
  if base < ramEnd ∧ dramBase < hi then none
  else if s.ranges.any fun r => base < r.2.1 ∧ r.1 < hi then none
  else some { s with ranges := s.ranges ++ [(base, hi, id)] }

/-- Record an event. -/
def emit (e : Event) : Sys := { s with log := e :: s.log }

end Sys

/-- A device reports its faults as load faults; a fetch has its own cause. -/
def fetchFault (ty : AccessType) (t : Trap) : Trap :=
  if ty = .instruction ∧ t.cause = .loadAccessFault then { t with cause := .instructionAccessFault }
  else t

/-- A load from a device. -/
def loadDevice (addr : U64) (size : ℕ) (ty : AccessType) : SysM U64 := fun s =>
  match s.find addr with
  | none => .error ⟨accessFaultFor ty, addr⟩ s
  | some (base, id) =>
    match deviceLoad id (addr - base).toNat size { s with mmioEpoch := s.mmioEpoch + 1 } with
    | .ok v s' => .ok v s'
    | .error t s' => .error (fetchFault ty t) s'

/-- A store to a device. -/
def storeDevice (addr : U64) (size : ℕ) (value : U64) : SysM Unit := fun s =>
  match s.find addr with
  | none => .error ⟨.storeAMOAccessFault, addr⟩ s
  | some (base, id) =>
    deviceStore id (addr - base).toNat size value { s with mmioEpoch := s.mmioEpoch + 1 }

namespace Bus

/-- RAM first; a device only for what does not start in RAM. -/
def load (addr : U64) (size : ℕ) (ty : AccessType) : SysM U64 := fun s =>
  if dramBase ≤ addr then
    match s.ram.load (addr - dramBase).toNat size with
    | some v => .ok v s
    | none =>
      if (addr - dramBase).toNat < s.ram.len then .error ⟨accessFaultFor ty, addr⟩ s
      else loadDevice addr size ty s
  else loadDevice addr size ty s

/-- A store to RAM or a device. -/
def store (addr : U64) (size : ℕ) (value : U64) : SysM Unit := fun s =>
  if dramBase ≤ addr then
    match s.ram.store (addr - dramBase).toNat size value with
    | some ram => .ok () { s with ram := ram }
    | none =>
      if (addr - dramBase).toNat < s.ram.len then .error ⟨.storeAMOAccessFault, addr⟩ s
      else storeDevice addr size value s
  else storeDevice addr size value s

end Bus

end RiscvEmu
