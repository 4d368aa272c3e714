import RiscvEmu.Device.Clint

/-!
# The console, the power button and the real-time clock

`uart.rs`, `syscon.rs` and `rtc.rs`.  What the host types is a list of chunks received and not
yet moved to the receive queue; what the guest prints is collected in `out`.  The host's time of
day is a field that only the environment changes.
-/

namespace RiscvEmu

/-! ## UART -/

/-- The serial port. -/
structure Uart where
  out : List U8
  rx : List U8
  ier : U8
  lcr : U8
  mcr : U8
  scr : U8
  dll : U8
  dlm : U8
  txIrq : Bool
  emptyPolls : ℕ
  /-- The chunks the host has sent and the guest has not seen, once stdin is attached. -/
  hostRx : Option (List (List U8))
  /-- The sending side of the channel is gone. -/
  hostClosed : Bool
  hostEof : Bool
  escapeArmed : Bool
  exitRequested : Bool

namespace Uart

/-- A byte has come in. -/
def lsrDataReady : U8 := 1 <<< 0
/-- The holding register is empty. -/
def lsrThrEmpty : U8 := 1 <<< 5
/-- The transmitter is idle. -/
def lsrTransmitIdle : U8 := 1 <<< 6
/-- Interrupt when a byte has come in. -/
def ierRxReady : U8 := 1 <<< 0
/-- Interrupt when a byte has gone out. -/
def ierTxEmpty : U8 := 1 <<< 1
/-- The escape key. -/
def ctrlA : U8 := 0x01
/-- Polls without input before the guest yields. -/
def emptyPollsBeforeYield : ℕ := 64

/-- The port at reset. -/
def new : Uart :=
  ⟨[], [], 0, 0, 0, 0, 0, 0, false, 0, none, false, false, false, false⟩

variable (u : Uart)

/-- Can the host still type? -/
def hostInputActive : Bool := u.hostRx.isSome && !u.hostEof

/-- The loop over one chunk.  The flag says that the exit sequence ended it. -/
def takeChunk (u : Uart) : List U8 → Uart × Bool
  | [] => (u, false)
  | c :: cs =>
    if u.escapeArmed then
      if c = 0x78 ∨ c = 0x58 then ({ u with escapeArmed := false, exitRequested := true }, true)
      else if c = ctrlA then
        takeChunk { u with escapeArmed := false, rx := u.rx ++ [ctrlA] } cs
      else takeChunk { u with escapeArmed := false, rx := u.rx ++ [ctrlA, c] } cs
    else if c = ctrlA then takeChunk { u with escapeArmed := true } cs
    else takeChunk { u with rx := u.rx ++ [c] } cs

/-- The loop over the chunks received. -/
def takeChunks (u : Uart) : List (List U8) → Uart
  | [] => { u with hostRx := some [], hostEof := u.hostClosed }
  | chunk :: rest =>
    match u.takeChunk chunk with
    | (u', true) => { u' with hostRx := some rest }
    | (u', false) => takeChunks u' rest

/-- Take what the host has typed. -/
def pollHostInput : Uart :=
  if u.hostEof then u
  else match u.hostRx with
    | none => u
    | some chunks => takeChunks u chunks

/-- Did the guest poll in vain often enough? -/
def takeYieldRequest : Bool × Uart :=
  if u.emptyPolls ≥ emptyPollsBeforeYield then (true, { u with emptyPolls := 0 }) else (false, u)

/-- The next received byte, `none` for the source's -1. -/
def takeInputByte : Option U8 × Uart := (u.rx.head?, { u with rx := u.rx.tail })

/-- Is there an interrupt for input? -/
def rxReady : Bool := u.ier &&& ierRxReady != 0 && !u.rx.isEmpty
/-- Is there an interrupt for output? -/
def txReady : Bool := u.ier &&& ierTxEmpty != 0 && u.txIrq

/-- Does the port ask for an interrupt? -/
def interrupting : Bool := u.rxReady || u.txReady

/-- Are the divisor registers showing? -/
def dlab : Bool := u.lcr &&& 0x80 != 0

/-- Send a byte to the host. -/
def putByte (b : U8) : Uart := { u with out := u.out ++ [b] }

/-- The value of register `r` and the side effects of reading it. -/
def readReg (r : ℕ) : U8 × Uart :=
  match r with
  | 0 =>
    if u.dlab then (u.dll, u)
    else (u.rx.headD 0, { u with emptyPolls := 0, rx := u.rx.tail })
  | 1 => (if u.dlab then u.dlm else u.ier, u)
  | 2 =>
    if u.rxReady then (0xc0 ||| 0x04, u)
    else if u.txReady then (0xc0 ||| 0x02, { u with txIrq := false })
    else (0xc0 ||| 0x01, u)
  | 3 => (u.lcr, u)
  | 4 => (u.mcr, u)
  | 5 =>
    let lsr := lsrThrEmpty ||| lsrTransmitIdle
    if u.rx.isEmpty then (lsr, { u with emptyPolls := min (u.emptyPolls + 1) (2 ^ 32 - 1) })
    else (lsr ||| lsrDataReady, { u with emptyPolls := 0 })
  | 6 => (0, u)
  | _ => (u.scr, u)

/-- A load from the port. -/
def load (offset size : ℕ) : DevM Uart U64 := fun u =>
  if size ≠ 1 then .error ⟨.loadAccessFault, uart0Base + BitVec.ofNat 64 offset⟩ u
  else
    let (v, u') := u.readReg (offset % 8)
    .ok (v.setWidth 64) u'

/-- Write a register. -/
def writeReg (r : ℕ) (v : U8) : Uart :=
  match r with
  | 0 => if u.dlab then { u with dll := v } else { u.putByte v with txIrq := true }
  | 1 => if u.dlab then { u with dlm := v } else { u with ier := v }
  | 3 => { u with lcr := v }
  | 4 => { u with mcr := v }
  | 7 => { u with scr := v }
  | _ => u

/-- A store to the port. -/
def store (offset size : ℕ) (value : U64) : DevM Uart Unit := fun u =>
  if size ≠ 1 then .error ⟨.storeAMOAccessFault, uart0Base + BitVec.ofNat 64 offset⟩ u
  else .ok () (u.writeReg (offset % 8) (value.setWidth 8))

end Uart

/-! ## Syscon -/

/-- The power button. -/
structure Syscon where
  poweroff : Bool
  reboot : Bool
  exitCode : U64

namespace Syscon

/-- Written to power off. -/
def poweroffValue : U64 := 0x5555
/-- Written to reboot. -/
def rebootValue : U64 := 0x7777

/-- The button at reset. -/
def new : Syscon := ⟨false, false, 0⟩

/-- Loads give zero. -/
def load (_offset _size : ℕ) : DevM Syscon U64 := fun s => .ok 0 s

/-- A store may power off or reboot. -/
def store (offset _size : ℕ) (value : U64) : DevM Syscon Unit := fun s =>
  if offset ≠ 0 then .ok () s
  else if value &&& 0xffff = poweroffValue then
    .ok () { s with poweroff := true, exitCode := value >>> 16 }
  else if value &&& 0xffff = rebootValue then .ok () { s with reboot := true }
  else .ok () s

end Syscon

/-! ## RTC -/

/-- The clock on the wall. -/
structure Rtc where
  /-- The interrupt number, once attached to the controller. -/
  irq : Option ℕ
  /-- A frozen time, if one was set. -/
  fixedNs : Option U64
  /-- The host's time of day. -/
  hostNs : U64
  latchedHigh : U64
  alarmNs : U64
  alarmArmed : Bool
  irqEnabled : Bool
  irqRaised : Bool

namespace Rtc

/-- The lower half of the time. -/
def timeLow : ℕ := 0x00
/-- The upper half of the time. -/
def timeHigh : ℕ := 0x04
/-- The lower half of the alarm. -/
def alarmLow : ℕ := 0x08
/-- The upper half of the alarm. -/
def alarmHigh : ℕ := 0x0c
/-- Whether the alarm may interrupt. -/
def irqEnabledReg : ℕ := 0x10
/-- Disarms the alarm. -/
def clearAlarm : ℕ := 0x14
/-- Whether the alarm is armed. -/
def alarmStatus : ℕ := 0x18
/-- Takes the interrupt back. -/
def clearInterrupt : ℕ := 0x1c

/-- The clock at reset. -/
def new (irq : Option ℕ) : Rtc := ⟨irq, none, 0, 0, 0, false, false, false⟩

variable (r : Rtc)

/-- The time of day. -/
def nowNs : U64 := r.fixedNs.getD r.hostNs

/-- Drive the clock's line into the controller. -/
def setLine (plic : Plic) (on : Bool) : Plic :=
  match r.irq with
  | some irq => plic.setPending irq on
  | none => plic

/-- A load from the clock. -/
def load (offset size : ℕ) : DevM Rtc U64 := fun r =>
  if size ≠ 4 then .error ⟨.loadAccessFault, rtcBase + BitVec.ofNat 64 offset⟩ r
  else if offset = timeLow then
    .ok (r.nowNs &&& 0xffffffff) { r with latchedHigh := r.nowNs >>> 32 }
  else if offset = timeHigh then .ok r.latchedHigh r
  else if offset = alarmLow then .ok (r.alarmNs &&& 0xffffffff) r
  else if offset = alarmHigh then .ok (r.alarmNs >>> 32) r
  else if offset = irqEnabledReg then .ok (if r.irqEnabled then 1 else 0) r
  else if offset = alarmStatus then .ok (if r.alarmArmed then 1 else 0) r
  else .ok 0 r

/-- The state is the clock and the controller its line goes to. -/
def store (offset size : ℕ) (value : U64) : DevM (Rtc × Plic) Unit := fun (r, plic) =>
  let v : U64 := (value.setWidth 32).setWidth 64
  if size ≠ 4 then .error ⟨.storeAMOAccessFault, rtcBase + BitVec.ofNat 64 offset⟩ (r, plic)
  else if offset = alarmHigh then
    .ok () ({ r with alarmNs := (r.alarmNs &&& 0xffffffff) ||| (v <<< 32) }, plic)
  else if offset = alarmLow then
    .ok () ({ r with alarmNs := (r.alarmNs &&& ~~~0xffffffff) ||| v, alarmArmed := true }, plic)
  else if offset = irqEnabledReg then .ok () ({ r with irqEnabled := v &&& 1 != 0 }, plic)
  else if offset = clearAlarm then .ok () ({ r with alarmArmed := false }, plic)
  else if offset = clearInterrupt then
    .ok () ({ r with irqRaised := false }, r.setLine plic false)
  else .ok () (r, plic)

/-- Let the alarm ring. -/
def poll (plic : Plic) : Rtc × Plic :=
  if r.alarmArmed && r.irqEnabled && !r.irqRaised && r.nowNs ≥ r.alarmNs then
    ({ r with alarmArmed := false, irqRaised := true }, r.setLine plic true)
  else (r, plic)

end Rtc

end RiscvEmu
