import RiscvEmu.Cpu.Integer

/-!
# The supervisor binary interface

`sbi.rs`: the firmware calls the emulator answers itself.  A character written to the console by
`console_putchar` goes to the host and is not part of the state.
-/

namespace RiscvEmu

open Exec

namespace Sbi

/-- The old timer call. -/
def extSetTimer : U64 := 0x00
/-- The old call to print a character. -/
def extConsolePutchar : U64 := 0x01
/-- The old call to read a character. -/
def extConsoleGetchar : U64 := 0x02
/-- The old call to power off. -/
def extShutdown : U64 := 0x08
/-- What the firmware is. -/
def extBase : U64 := 0x10
/-- Timers. -/
def extTime : U64 := 0x54494d45
/-- Interrupts for other harts. -/
def extIpi : U64 := 0x735049
/-- Fences on other harts. -/
def extRfence : U64 := 0x52464e43
/-- Starting and stopping harts. -/
def extHsm : U64 := 0x48534d
/-- Reset. -/
def extSrst : U64 := 0x53525354

/-! Error codes, as the two's complement that goes in a register. -/

/-- The call did what it should. -/
def success : U64 := 0
/-- There is no such call. -/
def errNotSupported : U64 := -2
/-- An argument is wrong. -/
def errInvalidParam : U64 := -3
/-- The hart has been started before. -/
def errAlreadyAvailable : U64 := -6

/-- The hart runs. -/
def hartStarted : U64 := 0
/-- The hart is stopped. -/
def hartStopped : U64 := 1

/-- Which firmware this is. -/
def implId : U64 := 5
/-- Its version. -/
def implVersion : U64 := 1
/-- The version of the interface. -/
def specVersion : U64 := 3

/-- The two words a call returns. -/
def setReturn (error value : U64) : HartM Unit := do
  writeReg 10 error
  writeReg 11 value

/-- Is there such an extension? -/
def haveExtension (eid : U64) : Bool :=
  eid ∈ [extSetTimer, extConsolePutchar, extConsoleGetchar, extShutdown, extBase, extTime, extIpi,
    extRfence, extHsm, extSrst]

/-- The harts a mask relative to a base selects, or `none` if one of them does not exist. -/
def targets (count : ℕ) (mask base : U64) : Option (List ℕ) :=
  if base = ~~~0 then some (List.range count)
  else
    let ids := ((List.range 64).filter fun bit => mask.getLsbD bit).map
      fun bit => (base + BitVec.ofNat 64 bit).toNat
    if ids.all (· < count) then some ids else none

/-- Set the deadline of the calling hart. -/
def setTimer (deadline : U64) : HartM Unit := modify fun s =>
  if s.sys.wired then
    let r := s.sys.clint.setTimer deadline s.cpu.csrs s.cpu.hartid
    { cpu := { s.cpu with csrs := r.1 }, sys := { s.sys with clint := r.2 } }
  else s

/-- Read a character. -/
def consoleGetchar : HartM Unit := do
  let s ← get
  let r := s.sys.uart.takeInputByte
  if s.sys.wired then do
    modifySys fun t => { t with uart := r.2 }
    writeReg 10 (match r.1 with
      | some b => b.setWidth 64
      | none => ~~~0)
  else writeReg 10 (~~~0)

/-- Power off. -/
def shutdown : HartM Unit := modifyCpu fun c => { c with halted := true, sbiShutdown := true }

/-- The calls of the base extension. -/
def base (fid a0 : U64) : HartM Unit :=
  if fid = 0 then setReturn success specVersion
  else if fid = 1 then setReturn success implId
  else if fid = 2 then setReturn success implVersion
  else if fid = 3 then setReturn success (boolToU64 (haveExtension a0))
  else if 4 ≤ fid ∧ fid ≤ 6 then setReturn success 0
  else setReturn errNotSupported 0

/-- The calls of the timer extension. -/
def time (fid a0 : U64) : HartM Unit :=
  if fid = 0 then do
    setTimer a0
    setReturn success 0
  else setReturn errNotSupported 0

/-- Raise the supervisor software interrupt of a hart. -/
def ipiTo (id : ℕ) : HartM Unit := modify fun s =>
  if id = s.cpu.hartid then
    { s with cpu := { s.cpu with csrs := s.cpu.csrs.raiseInterrupt Csr.mipSsip } }
  else s.mapPeer id Mailbox.sendIpi

/-- Make a hart drop what it has cached. -/
def fenceTo (id : ℕ) : HartM Unit := modify fun s =>
  if id = s.cpu.hartid then s.remoteFence else s.mapPeer id Mailbox.sendFence

/-- Run `send` for every selected hart; the two calls that take a mask differ in it only. -/
def broadcast (send : ℕ → HartM Unit) (a0 : U64) : HartM Unit := do
  let a1 ← readReg 11
  let s ← get
  match targets s.sys.numHarts a0 a1 with
  | some ids => do
    ids.forM send
    setReturn success 0
  | none => setReturn errInvalidParam 0

/-- The call to interrupt harts. -/
def ipi (fid a0 : U64) : HartM Unit :=
  if fid ≠ 0 then setReturn errNotSupported 0 else broadcast ipiTo a0

/-- The calls for fences. -/
def rfence (fid a0 : U64) : HartM Unit :=
  if fid > 2 then setReturn errNotSupported 0 else broadcast fenceTo a0

/-- Start a hart. -/
def hartStart (a0 : U64) : HartM Unit := do
  let addr ← readReg 11
  let opaqueValue ← readReg 12
  let s ← get
  if a0.toNat ≥ s.sys.numHarts then setReturn errInvalidParam 0
  else if ¬ (s.sys.mail a0.toNat).parked then setReturn errAlreadyAvailable 0
  else do
    modify fun s => s.mapPeer a0.toNat fun m => m.sendStart addr opaqueValue
    setReturn success 0

/-- Stop the calling hart. -/
def hartStop : HartM Unit := do
  modify fun s => s.mapMail fun m => { m with parked := true }
  setReturn success 0

/-- Ask whether a hart runs. -/
def hartGetStatus (a0 : U64) : HartM Unit := do
  let s ← get
  if a0.toNat ≥ s.sys.numHarts then setReturn errInvalidParam 0
  else setReturn success (if (s.sys.mail a0.toNat).parked then hartStopped else hartStarted)

/-- Wait for an interrupt. -/
def hartSuspend (a0 : U64) : HartM Unit :=
  if a0 &&& 0x80000000 ≠ 0 then setReturn errNotSupported 0
  else do
    modifyCpu fun c => { c with waitingForInterrupt := c.idleOnWfi }
    setReturn success 0

/-- The calls to manage harts. -/
def hsm (fid a0 : U64) : HartM Unit :=
  if fid = 0 then hartStart a0
  else if fid = 1 then hartStop
  else if fid = 2 then hartGetStatus a0
  else if fid = 3 then hartSuspend a0
  else setReturn errNotSupported 0

/-- The call to reset. -/
def srst (fid : U64) : HartM Unit :=
  if fid = 0 then do
    shutdown
    setReturn success 0
  else setReturn errNotSupported 0

/-- The call named by `eid`. -/
def dispatch (eid fid a0 : U64) : HartM Unit :=
  if eid = extSetTimer then setTimer a0
  else if eid = extConsolePutchar then pure ()
  else if eid = extConsoleGetchar then consoleGetchar
  else if eid = extShutdown then shutdown
  else if eid = extBase then base fid a0
  else if eid = extTime then time fid a0
  else if eid = extIpi then ipi fid a0
  else if eid = extRfence then rfence fid a0
  else if eid = extHsm then hsm fid a0
  else if eid = extSrst then srst fid
  else setReturn errNotSupported 0

/-- Answer a call of the supervisor.  The source returns whether it was handled, which is always
`true`: an extension it does not know gets an error code. -/
def handleEcall : HartM Unit := do
  let eid ← readReg 17
  let fid ← readReg 16
  let a0 ← readReg 10
  dispatch eid fid a0

end Sbi

end RiscvEmu
