import RiscvEmu.Machine

/-!
# The scheduler

`Platform` of `platform.rs` with `run_core` of `cpu/mod.rs`: the loop that gives every hart its
quantum, polls the devices and moves the clock.  It acts on the machine by labels and keeps the
list of them; the outside world acts before every instruction and every poll, depending on all
that has happened so far.
-/

namespace RiscvEmu

open Exec

/-- A machine out of reset with a program at the start of its RAM. -/
def Machine.loaded (harts : ℕ) (program : List U32) : Machine :=
  (Machine.init (.plain harts 4096 page_fits)).run [.loadImage dramBase (codeBytes program)]

/-- The machine and how it is scheduled. -/
structure Platform where
  machine : Machine
  /-- The instructions a hart may run in a round. -/
  quantum : ℕ
  htifTohostAddr : U64
  htifTohostValue : U64
  halted : Bool
  userQuit : Bool
  sbiShutdown : Bool
  stalled : Bool
  faultHart : ℕ
  retired : ℕ
  sinceHostPoll : ℕ
  /-- What the outside world does next. -/
  world : List Label → List HostEvent
  /-- What was done to the machine, the last operation first. -/
  trace : List Label

/-- What `run_core` returns, with the flag `device_touched` it leaves. -/
structure CoreRun where
  done : ℕ
  fault : Option Trap
  touched : Bool

namespace Platform

/-- A platform that has not run yet. -/
def new (machine : Machine) (quantum : ℕ) (world : List Label → List HostEvent) : Platform where
  machine := machine
  quantum := quantum
  htifTohostAddr := 0
  htifTohostValue := 0
  halted := false
  userQuit := false
  sbiShutdown := false
  stalled := false
  faultHart := 0
  retired := 0
  sinceHostPoll := 0
  world := world
  trace := []

variable (p : Platform)

/-- Perform an operation on the machine. -/
def act (l : Label) : Platform := { p with machine := p.machine.act l, trace := l :: p.trace }

/-- The outside world acts. -/
def outside : Platform := (p.world p.trace).foldl (fun p e => p.act (.host e)) p

/-- Is the hart stopped? -/
def parked (i : ℕ) : Bool := (p.machine.sys.mail i).parked

/-- Ask whether hart `i` can run. -/
def runnable (i : ℕ) : Bool × Platform := ((p.machine.hart i).runnable.1, p.act (.runnable i))

/-! ## Devices -/

/-- Can the host still type? -/
def hostInputActive : Bool := p.machine.sys.uart.hostInputActive

/-- Does a device still expect an answer from outside?  Only a network card ever does. -/
def ioPending : Bool :=
  p.machine.sys.ranges.any fun r =>
    match r.2.2 with
    | .net => p.machine.sys.net.dev.backend.ioPending p.machine.sys.net.dev.backend.calls
    | _ => false

/-- The instructions between two looks at the host side. -/
def hostPollInterval : ℕ := 4096

/-- Poll the devices, and the host if it is time. -/
def pollDevices : Platform :=
  let p := p.outside
  let wait := p.machine.sys.uart.takeYieldRequest.1 && p.hostInputActive
  let since := if wait then hostPollInterval else p.sinceHostPoll
  if since ≥ hostPollInterval then { p.act (.pollDevices true) with sinceHostPoll := 0 }
  else { p.act (.pollDevices false) with sinceHostPoll := since }

/-! ## Stopping -/

/-- The harts that exist. -/
def harts : List Cpu := (List.range p.machine.sys.numHarts).map p.machine.harts

/-- Note what the harts and the devices say about stopping. -/
def noteStop : Platform :=
  let s := p.machine.sys
  { p with
    halted := p.halted || p.harts.any (·.halted) || s.syscon.poweroff || s.syscon.reboot ||
      s.uart.exitRequested
    sbiShutdown := p.sbiShutdown || p.harts.any fun c => c.halted && c.sbiShutdown
    userQuit := p.userQuit || s.uart.exitRequested }

/-- Look at the word a test program reports to. -/
def readTohost : Platform :=
  if p.htifTohostAddr = 0 then p
  else
    match Bus.load p.htifTohostAddr 8 .load p.machine.sys with
    | .ok v _ =>
      let p := p.act (.htif p.htifTohostAddr)
      if v ≠ 0 then { p with htifTohostValue := v, halted := true } else p
    | .error _ _ => p.act (.htif p.htifTohostAddr)

/-- Is it time to stop?  The verdict is mirrored onto the boot hart. -/
def checkStop : Bool × Platform :=
  let p := p.noteStop.readTohost
  (p.halted, if p.halted then p.act (.halt p.sbiShutdown) else p)

/-! ## Idling -/

/-- Deadlines further away count as disarmed. -/
def horizon : U64 := 1 <<< 36

/-- The earlier of two deadlines, if the second one counts. -/
def consider (now best deadline : U64) : U64 :=
  if deadline > now ∧ deadline - now ≤ horizon then (if deadline < best then deadline else best)
  else best

/-- The deadline hart `i` is waiting for, if it is earlier. -/
def considerHart (best : U64) (i : ℕ) : U64 :=
  let c := p.machine.sys.clint
  if p.parked i then best
  else
    let best := consider c.clock.mtime best (if i < c.harts then c.mtimecmp i else ~~~0)
    let csrs := (p.machine.harts i).csrs
    if csrs.sstcEnabled then consider c.clock.mtime best (csrs.read Csr.stimecmp) else best

/-- The earliest deadline any hart is waiting for, or all-ones. -/
def nextDeadline : U64 := (List.range p.machine.sys.numHarts).foldl p.considerHart (~~~0)

/-- Jump the clock to the next deadline; `false` if there is none. -/
def fastForwardIdle : Bool × Platform :=
  if p.nextDeadline = ~~~0 then (false, p) else (true, p.act (.advanceTo p.nextDeadline))

/-! ## A hart's quantum -/

/-- A hart in WFI goes on when something it has enabled is pending. -/
def wake (i : ℕ) : Bool × Platform :=
  if (p.machine.harts i).waitingForInterrupt then p.runnable i else (true, p)

/-- One instruction of hart `i`, with the trap that stops the machine if there is one. -/
def stepHart (i : ℕ) : Option Trap × Platform :=
  let p := p.outside
  (failure stepCore (p.machine.hart i), p.act (.step i))

/-- The loop of `run_core`: at most `left` more steps after `n`; `mmioBefore` is the count of
device accesses when it began. -/
def runCoreLoop (i mmioBefore : ℕ) : ℕ → ℕ → Platform → CoreRun × Platform
  | 0, n, p => (⟨n, none, false⟩, p)
  | left + 1, n, p =>
    match p.wake i with
    | (false, p) => (⟨n, none, false⟩, p)
    | (true, p) =>
      match p.stepHart i with
      | (some t, p) => (⟨n, some t, false⟩, p)
      | (none, p) =>
        if (p.machine.harts i).halted ∨ p.parked i then (⟨n + 1, none, false⟩, p)
        else if p.machine.sys.mmioEpoch ≠ mmioBefore then (⟨n + 1, none, true⟩, p)
        else runCoreLoop i mmioBefore left (n + 1) p

/-- A call of `run_core`. -/
def runCore (i maxSteps : ℕ) : CoreRun × Platform :=
  runCoreLoop i p.machine.sys.mmioEpoch maxSteps 0 p

/-- The steps of a call of `run_core` are counted. -/
def count (done : ℕ) : Platform :=
  { p with retired := p.retired + done, sinceHostPoll := p.sinceHostPoll + done }

/-- The loop over a quantum: a device access ends a call of `run_core`, the devices are polled and
the rest of the quantum follows.  It returns the steps used.  The first argument bounds the turns;
every turn but the last takes a step, so `budget` of them are enough. -/
def quantumLoop (i : ℕ) : ℕ → ℕ → ℕ → Platform → ℕ × Option Trap × Platform
  | 0, _, used, p => (used, none, p)
  | turns + 1, budget, used, p =>
    if budget = 0 then (used, none, p)
    else
      match p.runCore i budget with
      | (r, p) =>
        let p := p.count r.done
        match r.fault with
        | some t => (used + r.done, some t, { p with faultHart := i })
        | none =>
          if (p.machine.harts i).halted ∨ p.parked i ∨ !r.touched then (used + r.done, none, p)
          else quantumLoop i turns (budget - min budget r.done) (used + r.done) p.pollDevices

/-- The turn of a hart. -/
def runQuantum (i budget : ℕ) : ℕ × Option Trap × Platform :=
  quantumLoop i budget budget 0 (p.act (.beginRound i))

/-! ## A round -/

/-- What the turns of the harts in a round come to. -/
inductive Turns where
  | fault (t : Trap)
  /-- The longest quantum, and whether any hart ran. -/
  | ended (roundMax : ℕ) (anyRan : Bool)

/-- The turns of the harts in the list. -/
def turns (maxSteps : ℕ) : List ℕ → ℕ → Bool → Platform → Turns × Platform
  | [], roundMax, anyRan, p => (.ended roundMax anyRan, p)
  | i :: rest, roundMax, anyRan, p =>
    match p.runnable i with
    | (false, p) => turns maxSteps rest roundMax anyRan p
    | (true, p) =>
      match p.runQuantum i (min p.quantum (maxSteps - p.retired)) with
      | (_, some t, p) => (.fault t, p)
      | (used, none, p) =>
        if p.retired ≥ maxSteps then (.ended (max roundMax used) true, p)
        else turns maxSteps rest (max roundMax used) true p

/-- How a round ends. -/
inductive RoundEnd where
  /-- The next round follows, with the number of idle rounds in a row and in all. -/
  | next (consecutiveIdle idleRounds : ℕ)
  | stop
  | fault (t : Trap)

/-- The end of a round: devices and stop conditions. -/
def finishRound (consecutiveIdle idleRounds : ℕ) : RoundEnd × Platform :=
  match p.pollDevices.checkStop with
  | (true, p) => (.stop, p)
  | (false, p) => (.next consecutiveIdle idleRounds, p)

/-- A round in which no hart ran, `idleRounds` with it. -/
def idleRound (maxSteps consecutiveIdle idleRounds : ℕ) : RoundEnd × Platform :=
  if idleRounds > maxSteps then (.stop, p)
  else
    let p := { p with sinceHostPoll := p.sinceHostPoll + 64 }
    if p.ioPending then (p.act (.tick 2000)).finishRound 0 idleRounds
    else if p.hostInputActive then
      { p.act (.tick 10000) with sinceHostPoll := hostPollInterval }.finishRound 0 idleRounds
    else
      match p.fastForwardIdle with
      | (true, p) => p.finishRound consecutiveIdle idleRounds
      | (false, p) =>
        if p.hostInputActive then
          { p with sinceHostPoll := hostPollInterval }.finishRound consecutiveIdle idleRounds
        else if consecutiveIdle + 1 > 4 then (.stop, { p with stalled := true })
        else p.finishRound (consecutiveIdle + 1) idleRounds

/-- One scheduling round.  The count of idle rounds is a machine word. -/
def round (maxSteps consecutiveIdle idleRounds : ℕ) : RoundEnd × Platform :=
  match turns maxSteps (List.range p.machine.sys.numHarts) 0 false p with
  | (.fault t, p) => (.fault t, p)
  | (.ended roundMax true, p) =>
    ((p.act .resetLive).act (.tick (BitVec.ofNat 64 roundMax))).finishRound 0 idleRounds
  | (.ended _ false, p) => p.idleRound maxSteps consecutiveIdle ((idleRounds + 1) % 2 ^ 64)

/-- The loop of `run`, for at most `rounds` rounds: `none` if it has not returned by then. -/
def runLoop (maxSteps : ℕ) : ℕ → ℕ → ℕ → Platform → Option (Option Trap) × Platform
  | rounds, consecutiveIdle, idleRounds, p =>
    if p.retired ≥ maxSteps then (some none, p)
    else
      match rounds with
      | 0 => (none, p)
      | rounds + 1 =>
        match p.round maxSteps consecutiveIdle idleRounds with
        | (.next c n, p) => runLoop maxSteps rounds c n p
        | (.stop, p) => (some none, p)
        | (.fault t, p) => (some (some t), p)

/-- `Platform::run`, followed for at most `rounds` rounds. -/
def run (maxSteps rounds : ℕ) : Option (Option Trap) × Platform := runLoop maxSteps rounds 0 0 p

end Platform

end RiscvEmu
