import RiscvEmu.Trace
import RiscvEmu.Dram
import RiscvEmu.Device.Plic

/-!
# The virtio transport

`virtio/mod.rs`: the registers of an MMIO slot, and the walk over descriptor chains in guest
memory.  A device behind the transport is a type `D` with a `VirtioDevice` instance; it works on
the transport's state together with the RAM and the interrupt controller it shares.
-/

namespace RiscvEmu

namespace Virtio

/-- The most descriptors of a queue. -/
def queueMax : ℕ := 256
/-- The most descriptors of a chain. -/
def maxChain : ℕ := queueMax

/-- There is another descriptor. -/
def descNext : U16 := 1
/-- The buffer is for the device. -/
def descWrite : U16 := 2
/-- The driver wants no interrupts. -/
def availFNoInterrupt : U16 := 1
/-- The features are agreed on. -/
def featuresOk : U32 := 8
/-- The device is a modern one. -/
def fVersion1 : U64 := 1 <<< 32

/-- One buffer of a descriptor chain. -/
structure Segment where
  addr : U64
  len : ℕ
  deviceWrites : Bool

/-- The registers of a queue. -/
structure Queue where
  num : ℕ
  ready : Bool
  desc : U64
  avail : U64
  used : U64
  lastAvail : U16

/-- A queue at reset. -/
def Queue.default : Queue := ⟨0, false, 0, 0, 0, 0⟩

/-- The transport state. -/
structure Core where
  base : U64
  /-- The interrupt number, once attached to the controller. -/
  irq : Option ℕ
  deviceId : ℕ
  numQueues : ℕ
  queues : ℕ → Queue
  status : U32
  driverFeatures : U64
  deviceFeaturesSel : ℕ
  driverFeaturesSel : ℕ
  queueSel : ℕ
  interruptStatus : U32

/-- A device at reset. -/
def Core.new (base : U64) (deviceId numQueues : ℕ) : Core :=
  ⟨base, none, deviceId, numQueues, fun _ => Queue.default, 0, 0, 0, 0, 0, 0⟩

/-- What a device works on: its transport, and what the transport reaches. -/
structure Dma where
  core : Core
  ram : Dram
  plic : Plic
  log : List Event
  /-- After how many turns the model gives up a loop over a queue that need not end. -/
  fuel : ℕ

namespace Dma

variable (e : Dma)

/-- Can the queue be used? -/
def queueReady (queue : ℕ) : Bool :=
  queue < e.core.numQueues ∧ (e.core.queues queue).ready ∧ (e.core.queues queue).num ≠ 0

/-- Read guest memory. -/
def readGuestBytes (addr : U64) (n : ℕ) : Option (List U8) := e.ram.readBytes addr n

/-- Write guest memory, or fail. -/
def writeGuestBytes (addr : U64) (src : List U8) : Bool × Dma :=
  match e.ram.writeBytes addr src with
  | some ram => (true, { e with ram := ram, log := .dma addr src.length :: e.log })
  | none => (false, e)

/-- A little-endian integer, or 0 if the address is not RAM. -/
def readGuest (addr : U64) (size : ℕ) : U64 :=
  match e.ram.readBytes addr size with
  | some bytes => readLe bytes
  | none => 0

/-- Write a number to guest memory. -/
def writeGuest (addr : U64) (size : ℕ) (value : U64) : Dma :=
  (e.writeGuestBytes addr ((List.range size).map (Bytes.byte value))).2

/-- Change the registers of a queue. -/
def setQueue (queue : ℕ) (q : Queue) : Dma :=
  { e with core := { e.core with queues := Function.update e.core.queues queue q } }

end Dma

/-- The total length of the buffers of one direction. -/
def segmentsLength (segs : List Segment) (deviceWrites : Bool) : ℕ :=
  ((segs.filter fun s => s.deviceWrites == deviceWrites).map (·.len)).sum

/-- Copy bytes out of the buffers the driver filled, `skip` bytes in, until `len` are there. -/
def readFromSegments (e : Dma) (len : ℕ) : List Segment → ℕ → List U8 → List U8
  | [], _, acc => acc
  | s :: segs, skip, acc =>
    if s.deviceWrites then readFromSegments e len segs skip acc
    else if skip ≥ s.len then readFromSegments e len segs (skip - s.len) acc
    else
      let n := min (len - acc.length) (s.len - skip)
      match e.readGuestBytes (s.addr + BitVec.ofNat 64 skip) n with
      | none => acc
      | some bytes =>
        let acc := acc ++ bytes
        if acc.length = len then acc else readFromSegments e len segs 0 acc

/-- Copy bytes into the buffers left for the device, `skip` bytes in. -/
def writeToSegments (e : Dma) : List Segment → ℕ → List U8 → Dma
  | [], _, _ => e
  | s :: segs, skip, src =>
    if !s.deviceWrites then writeToSegments e segs skip src
    else if skip ≥ s.len then writeToSegments e segs (skip - s.len) src
    else
      let n := min src.length (s.len - skip)
      match e.writeGuestBytes (s.addr + BitVec.ofNat 64 skip) (src.take n) with
      | (false, e') => e'
      | (true, e') => if src.drop n = [] then e' else writeToSegments e' segs 0 (src.drop n)

/-- The descriptors from `index` on, at most `turns` of them. -/
def walkChain (e : Dma) (q : Queue) : ℕ → ℕ → List Segment
  | 0, _ => []
  | turns + 1, index =>
    if index ≥ q.num then []
    else
      let d := q.desc + BitVec.ofNat 64 (index * 16)
      let flags : U16 := (e.readGuest (d + 12) 2).setWidth 16
      let segment : Segment :=
        ⟨e.readGuest d 8, ((e.readGuest (d + 8) 4).setWidth 32).toNat, flags &&& descWrite != 0⟩
      if flags &&& descNext = 0 then [segment]
      else segment :: walkChain e q turns ((e.readGuest (d + 14) 2).setWidth 16).toNat

namespace Dma

variable (e : Dma)

/-- Take the next chain off a queue. -/
def popChain (queue : ℕ) : Option (U16 × List Segment) × Dma :=
  if !e.queueReady queue then (none, e)
  else
    let q := e.core.queues queue
    let availIdx : U16 := (e.readGuest (q.avail + 2) 2).setWidth 16
    if q.lastAvail = availIdx then (none, e)
    else
      let slot := q.avail + 4 + BitVec.ofNat 64 (q.lastAvail.toNat % q.num * 2)
      let head : U16 := (e.readGuest slot 2).setWidth 16
      let e' := e.setQueue queue { q with lastAvail := q.lastAvail + 1 }
      (some (head, walkChain e' q maxChain head.toNat), e')

/-- Publish a finished chain. -/
def pushUsed (queue : ℕ) (head : U16) (written : ℕ) : Dma :=
  if !e.queueReady queue then e
  else
    let q := e.core.queues queue
    let usedIdx : U16 := (e.readGuest (q.used + 2) 2).setWidth 16
    let slot := q.used + 4 + BitVec.ofNat 64 (usedIdx.toNat % q.num * 8)
    let e := e.writeGuest slot 4 (head.setWidth 64)
    let e := e.writeGuest (slot + 4) 4 (BitVec.ofNat 64 written)
    e.writeGuest (q.used + 2) 2 ((usedIdx + 1).setWidth 64)

/-- Drive the device's line. -/
def setLine (on : Bool) : Dma :=
  match e.core.irq with
  | some irq => { e with plic := e.plic.setPending irq on }
  | none => e

/-- Raise the line. -/
def raiseInterrupt : Dma :=
  { e with core := { e.core with interruptStatus := e.core.interruptStatus ||| 1 } }.setLine true

/-- Tell the driver, if it wants to know. -/
def signalUsed (queue : ℕ) : Dma :=
  if !e.queueReady queue then e
  else
    let availFlags : U16 := (e.readGuest (e.core.queues queue).avail 2).setWidth 16
    if availFlags &&& availFNoInterrupt ≠ 0 then e else e.raiseInterrupt

/-- Back to reset. -/
def reset : Dma :=
  { e with
    core := { e.core with
      status := 0
      driverFeatures := 0
      interruptStatus := 0
      queues := fun _ => Queue.default } }.setLine false

end Dma

/-- What a concrete device provides. -/
class VirtioDevice (D : Type) where
  features : D → U64
  configRead : D → ℕ → ℕ → U64
  notify : D → Dma → ℕ → D × Dma
  poll : D → Dma → D × Dma

/-- A slot: the device and what it works on. -/
structure Slot (D : Type) where
  dev : D
  env : Dma

namespace Slot

variable {D : Type} [VirtioDevice D]

/-- Where the configuration begins. -/
def config : ℕ := 0x100

/-- The registers below the configuration space, as they read. -/
def readReg (s : Slot D) (offset : ℕ) : U64 :=
  let c := s.env.core
  if offset = 0x000 then 0x74726976
  else if offset = 0x004 then 2
  else if offset = 0x008 then BitVec.ofNat 64 c.deviceId
  else if offset = 0x00c then 0x554d4551
  else if offset = 0x010 then
    let features := VirtioDevice.features s.dev ||| fVersion1
    ((features >>> (c.deviceFeaturesSel * 32)).setWidth 32).setWidth 64
  else if offset = 0x034 then (if c.queueSel < c.numQueues then BitVec.ofNat 64 queueMax else 0)
  else if offset = 0x044 then
    (if c.queueSel < c.numQueues ∧ (c.queues c.queueSel).ready then 1 else 0)
  else if offset = 0x060 then c.interruptStatus.setWidth 64
  else if offset = 0x070 then c.status.setWidth 64
  else 0

/-- A load from the registers or the configuration. -/
def load (offset size : ℕ) : DevM (Slot D) U64 := fun s =>
  if offset ≥ config then .ok (VirtioDevice.configRead s.dev (offset - config) size) s
  else if size ≠ 4 then .error ⟨.loadAccessFault, s.env.core.base + BitVec.ofNat 64 offset⟩ s
  else .ok (s.readReg offset) s

/-- Change the transport only. -/
def mapCore (s : Slot D) (f : Core → Core) : Slot D :=
  { s with env := { s.env with core := f s.env.core } }

/-- Change the selected queue, if there is one. -/
def mapSelected (s : Slot D) (f : Queue → Queue) : Slot D :=
  let sel := s.env.core.queueSel
  if sel < s.env.core.numQueues then
    s.mapCore fun c => { c with queues := Function.update c.queues sel (f (c.queues sel)) }
  else s

/-- Replace the low or the high half of an address. -/
def setLow (addr : U64) (v : U32) : U64 := (addr &&& ~~~0xffffffff) ||| v.setWidth 64
/-- Set the upper half of an address. -/
def setHigh (addr : U64) (v : U32) : U64 := (addr &&& 0xffffffff) ||| (v.setWidth 64 <<< 32)

/-- The effect of writing a register below the configuration space. -/
def writeReg (s : Slot D) (offset : ℕ) (v : U32) : Slot D :=
  if offset = 0x014 then
    s.mapCore fun c => { c with deviceFeaturesSel := if v ≠ 0 then 1 else 0 }
  else if offset = 0x024 then
    s.mapCore fun c => { c with driverFeaturesSel := if v ≠ 0 then 1 else 0 }
  else if offset = 0x020 then
    s.mapCore fun c =>
      let sh := c.driverFeaturesSel * 32
      { c with driverFeatures := (c.driverFeatures &&& ~~~((0xffffffff : U64) <<< sh)) |||
          (v.setWidth 64 <<< sh) }
  else if offset = 0x030 then s.mapCore fun c => { c with queueSel := v.toNat }
  else if offset = 0x038 then s.mapSelected fun q => { q with num := min v.toNat queueMax }
  else if offset = 0x044 then s.mapSelected fun q => { q with ready := v &&& 1 != 0 }
  else if offset = 0x080 then s.mapSelected fun q => { q with desc := setLow q.desc v }
  else if offset = 0x084 then s.mapSelected fun q => { q with desc := setHigh q.desc v }
  else if offset = 0x090 then s.mapSelected fun q => { q with avail := setLow q.avail v }
  else if offset = 0x094 then s.mapSelected fun q => { q with avail := setHigh q.avail v }
  else if offset = 0x0a0 then s.mapSelected fun q => { q with used := setLow q.used v }
  else if offset = 0x0a4 then s.mapSelected fun q => { q with used := setHigh q.used v }
  else if offset = 0x050 then
    if v.toNat < s.env.core.numQueues then
      let (dev, env) := VirtioDevice.notify s.dev s.env v.toNat
      ⟨dev, env⟩
    else s
  else if offset = 0x064 then
    let s := s.mapCore fun c => { c with interruptStatus := c.interruptStatus &&& ~~~v }
    if s.env.core.interruptStatus = 0 then { s with env := s.env.setLine false } else s
  else if offset = 0x070 then
    if v = 0 then { s with env := s.env.reset }
    else
      -- FEATURES_OK is part of the value written
      s.mapCore fun c => { c with status := if v &&& featuresOk ≠ 0 then v ||| featuresOk else v }
  else s

/-- A store to the registers or the configuration. -/
def store (offset size : ℕ) (value : U64) : DevM (Slot D) Unit := fun s =>
  if offset ≥ config then .ok () s
  else if size ≠ 4 then .error ⟨.storeAMOAccessFault, s.env.core.base + BitVec.ofNat 64 offset⟩ s
  else .ok () (s.writeReg offset (value.setWidth 32))

/-- Let the device do what it has left to do. -/
def poll (s : Slot D) : Slot D :=
  let (dev, env) := VirtioDevice.poll s.dev s.env
  ⟨dev, env⟩

end Slot

/-- The bytes of a configuration structure as they read; past its end they are zero. -/
def readConfig (bytes : List U8) (offset size : ℕ) : U64 :=
  if offset ≥ bytes.length ∨ size = 0 ∨ size > 8 then 0 else readLe ((bytes.drop offset).take size)

end Virtio

end RiscvEmu
