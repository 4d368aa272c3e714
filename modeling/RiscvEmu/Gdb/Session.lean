import RiscvEmu.Platform.Protocol
import RiscvEmu.Gdb.Memory
import RiscvEmu.Gdb.Framing
import RiscvEmu.Lib.Checked
import Mathlib.Data.Finset.Basic

/-!
# A debugged target

`GdbStub` of `gdb.rs` without its packets: what it remembers, the hook it installs before every
instruction, and how it resumes the target until something stops it.  Harts are numbered by their
ids.  A sum that does not fit and an index out of range stop the program, as in a build with
overflow checks; the guest's own instructions are not looked at in this way.

Two fields of a session are no part of the program and are never read by it: which harts have come
to a breakpoint and were not reported there yet, and where one went on all the same.
-/

namespace RiscvEmu

open Exec Checked

namespace Gdb

/-- Why the target is stopped. -/
inductive Stop where
  | none
  | step
  | breakpoint
  | watch
  | interrupt
  | halted
  | trap
deriving DecidableEq, Repr

/-- What the stub remembers between packets. -/
structure Stub where
  /-- By virtual address. -/
  breakpoints : Finset U64
  watches : List Watch
  /-- Whose registers and memory packets are about. -/
  generalHart : ℕ
  detached : Bool
  killed : Bool
  stop : Stop
  stopHart : ℕ
  /-- The address of the watchpoint that stopped the target. -/
  stopAddr : U64
  signal : ℕ

/-- The stub at the start. -/
def Stub.new : Stub where
  breakpoints := ∅
  watches := []
  generalHart := 0
  detached := false
  killed := false
  stop := .none
  stopHart := 0
  stopAddr := 0
  signal := 5

/-- The target with the stub that debugs it. -/
structure Session where
  platform : Platform
  stub : Stub
  interruptPollInterval : ℕ
  /-- What the debugger answers when it is asked for the n-th time whether to stop. -/
  interrupt : ℕ → Bool
  asked : ℕ
  /-- The harts the hook still lets off the breakpoint they are on, in the current run. -/
  leaving : Finset ℕ
  /-- How often the hook was called in the current run. -/
  calls : ℕ
  /-- The harts that have come to a breakpoint by executing and were not reported there. -/
  owed : Finset ℕ
  /-- Where such a hart executed the instruction all the same, the last case first. -/
  missed : List (ℕ × U64)

/-- A program of the stub. -/
abbrev StubM := EStateM Panic Session

namespace Session

variable (s : Session)

/-- A stub that has just been attached. -/
def new (platform : Platform) (interrupt : ℕ → Bool) : Session where
  platform := platform
  stub := .new
  interruptPollInterval := 4096
  interrupt := interrupt
  asked := 0
  leaving := ∅
  calls := 0
  owed := ∅
  missed := []

/-- The number of harts. -/
def numHarts : ℕ := s.platform.machine.sys.numHarts

/-- A hart. -/
def hart (i : ℕ) : Hart := s.platform.machine.hart i

/-- The program counter of a hart. -/
def pc (i : ℕ) : U64 := (s.platform.machine.harts i).pc

/-- The platform has changed without a hart executing.  A hart whose pc was moved is no longer at
the breakpoint it had come to. -/
def moved (p : Platform) : Session :=
  { s with platform := p, owed := s.owed.filter fun h => (p.machine.harts h).pc = s.pc h }

/-- Change a hart. -/
def setHart (i : ℕ) (h : Hart) : Session :=
  s.moved { s.platform with machine := s.platform.machine.setHart i h }

/-- Change the stub. -/
def mapStub (f : Stub → Stub) : Session := { s with stub := f s.stub }

end Session

/-- Let the platform do something other than executing. -/
def onPlatform {α : Type} (f : Platform → α × Platform) : StubM α := fun s =>
  .ok (f s.platform).1 (s.moved (f s.platform).2)

/-- Change the platform. -/
def modifyPlatform (f : Platform → Platform) : StubM Unit := modify fun s => s.moved (f s.platform)

/-- Change the stub, as a program. -/
def modifyStub (f : Stub → Stub) : StubM Unit := modify fun s => s.mapStub f

/-- `harts[i]`. -/
def hartAt (i : ℕ) : StubM Hart := do
  let s ← get
  if i < s.numHarts then pure (s.hart i) else throw .outOfRange

/-! ## Looks at memory -/

/-- A walk for `va` loads the time although its reading does not fit a word. -/
def walkOverflows (s : Hart) (va : U64) : Bool :=
  Paged s.cpu.csrs s.cpu.priv.val ∧ canonical va ∧ ¬Hit s.cpu.csrs va s.cpu.mmu ∧
    ¬s.sys.clint.clock.ReadFits ∧
    (walkReads s.sys.entryAt va sv39Levels s.cpu.csrs.root).any s.sys.clockAt

/-- One of the walks made to resolve an address does. -/
def translateOverflows (s : Hart) (va : U64) (write : Bool) : Bool :=
  walkOverflows s va ||
    match translateFor va (if write then .store else .load) s.cpu.priv.val s with
    | .ok _ _ => false
    | .error _ t => !write && walkOverflows t va

/-- Does a read come to a walk that overflows? -/
def readFromOverflows : ℕ → U64 → ℕ → Hart → Bool
  | 0, _, _, _ => false
  | turns + 1, va, left, s =>
    if left = 0 then false
    else
      translateOverflows s va false ||
        match translate s va false with
        | (none, _) => false
        | (some pa, t) =>
          match t.sys.ram.readBytes pa (chunk va left) with
          | none => false
          | some _ =>
            readFromOverflows turns (va + BitVec.ofNat 64 (chunk va left)) (left - chunk va left) t

/-- Reading these bytes makes a walk that loads the time when it does not fit. -/
def readOverflows (s : Hart) (vaddr : U64) (len : ℕ) : Bool := readFromOverflows len vaddr len s

/-- Does a look at the watchpoints? -/
def watchesOverflow : List Watch → Hart → Bool
  | [], _ => false
  | w :: ws, s =>
    readOverflows s w.addr w.len.toNat ||
      let r := readBytes s w.addr w.len.toNat
      if r.1.isSome ∧ r.1 ≠ some w.last then false else watchesOverflow ws r.2

/-- `read_bytes` on hart `i`. -/
def readMemory (i : ℕ) (vaddr : U64) (len : ℕ) : StubM (Option (List U8)) := do
  let h ← hartAt i
  if readOverflows h vaddr len then throw .overflow
  else
    let r := readBytes h vaddr len
    modify fun s => s.setHart i r.2
    pure r.1

/-- The watchpoints as hart `i` sees them: the address of the first one that has changed. -/
def checkWatches (i : ℕ) : StubM (Option U64) := do
  let s ← get
  if watchesOverflow s.stub.watches (s.hart i) then throw .overflow
  else
    let r := compareWatches s.stub.watches (s.hart i)
    modify fun s => (s.setHart i r.2.2).mapStub fun st => { st with watches := r.2.1 }
    pure r.1

/-- The selected hart, if there is one. -/
def general : StubM (Option ℕ) := do
  let s ← get
  pure (if s.stub.generalHart < s.numHarts then some s.stub.generalHart else none)

/-! ## The hook -/

/-- Every so often the debugger is asked whether it wants the target to stop. -/
def pollInterrupt : StubM Bool := do
  modify fun s => { s with calls := s.calls + 1 }
  let s ← get
  if s.calls % max s.interruptPollInterval 1 = 0 then do
    modify fun s => { s with asked := s.asked + 1 }
    pure (s.interrupt s.asked)
  else pure false

/-- Is the hart let off the breakpoint it is on?  That happens once. -/
def leaves (i : ℕ) : StubM Bool := do
  let s ← get
  modify fun s => { s with leaving := s.leaving.erase i }
  pure (decide (i ∈ s.leaving))

/-- The check before an instruction of hart `i`: does the target stop? -/
def hook (i : ℕ) : StubM Bool := do
  if ← pollInterrupt then
    modifyStub fun st => { st with stop := .interrupt, stopHart := i, signal := 2 }
    pure true
  else
    match ← checkWatches i with
    | some addr =>
      modifyStub fun st => { st with stop := .watch, stopHart := i, stopAddr := addr, signal := 5 }
      pure true
    | none =>
      let left ← leaves i
      let s ← get
      if !left ∧ s.pc i ∈ s.stub.breakpoints then
        modifyStub fun st => { st with stop := .breakpoint, stopHart := i, signal := 5 }
        pure true
      else pure false

/-! ## Running with the hook -/

/-- Hart `i` has executed an instruction, or taken an interrupt in its place. -/
def Session.stepped (s : Session) (i : ℕ) : Session :=
  let before := s.platform.outside.machine.harts i
  let r := s.platform.stepHart i
  let t := s.moved r.2
  { t with
    owed := if r.1.isNone ∧ t.pc i ∈ s.stub.breakpoints then insert i t.owed else t.owed.erase i
    missed := if i ∈ s.owed ∧ before.nextInterrupt.isNone then (i, before.pc) :: s.missed
      else s.missed }

/-- Step a hart. -/
def stepHart (i : ℕ) : StubM (Option Trap) := fun s => .ok (s.platform.stepHart i).1 (s.stepped i)

/-- `run_core(1)`. -/
def runCore (i : ℕ) : StubM CoreRun := do
  let mmioBefore := (← get).platform.machine.sys.mmioEpoch
  if ← onPlatform (·.wake i) then
    match ← stepHart i with
    | some t => pure ⟨0, some t, false⟩
    | none =>
      let s ← get
      if (s.hart i).cpu.halted ∨ s.platform.parked i then pure ⟨1, none, false⟩
      else if s.platform.machine.sys.mmioEpoch ≠ mmioBefore then pure ⟨1, none, true⟩
      else pure ⟨1, none, false⟩
  else pure ⟨0, none, false⟩

/-- How a hart's quantum ends, or a run of the target. -/
inductive Ended where
  | hooked
  | fault (t : Trap)
  | ended
deriving DecidableEq

/-- The loop over a quantum, one instruction a turn; it returns the steps used. -/
def quantumLoop (i : ℕ) : ℕ → ℕ → ℕ → StubM (ℕ × Ended)
  | 0, _, used => pure (used, .ended)
  | turns + 1, budget, used => do
    if budget = 0 then pure (used, .ended)
    else if ← hook i then pure (used, .hooked)
    else
      let r ← runCore i
      modifyPlatform fun p => p.count r.done
      match r.fault with
      | some t =>
        modifyPlatform fun p => { p with faultHart := i }
        pure (used + r.done, .fault t)
      | none =>
        let s ← get
        if (s.hart i).cpu.halted ∨ s.platform.parked i ∨
          !r.touched then pure (used + r.done, .ended)
        else
          modifyPlatform fun p => p.pollDevices
          quantumLoop i turns (budget - min budget r.done) (used + r.done)

/-- The turns of the harts in a round: the longest quantum, and whether any hart ran. -/
def turns (maxSteps : ℕ) : List ℕ → ℕ → Bool → StubM (Ended × ℕ × Bool)
  | [], roundMax, anyRan => pure (.ended, roundMax, anyRan)
  | i :: rest, roundMax, anyRan => do
    if ← onPlatform (·.runnable i) then
      modifyPlatform fun p => p.act (.beginRound i)
      let s ← get
      let budget := min s.platform.quantum (maxSteps - s.platform.retired)
      let (used, e) ← quantumLoop i budget budget 0
      match e with
      | .ended =>
        let s ← get
        if s.platform.retired ≥ maxSteps then pure (.ended, max roundMax used, true)
        else turns maxSteps rest (max roundMax used) true
      | e => pure (e, roundMax, true)
    else turns maxSteps rest roundMax anyRan

/-- The loop of `run`, for at most `rounds` rounds: `none` if it has not returned by then. -/
def runLoop (maxSteps : ℕ) : ℕ → ℕ → ℕ → StubM (Option Ended)
  | rounds, consecutiveIdle, idleRounds => do
    if (← get).platform.retired ≥ maxSteps then pure (some .ended)
    else
      match rounds with
      | 0 => pure none
      | rounds + 1 =>
        let n := (← get).numHarts
        let (e, roundMax, anyRan) ← turns maxSteps (List.range n) 0 false
        match e with
        | .ended =>
          let next ← onPlatform fun p =>
            if anyRan then
              ((p.act .resetLive).act (.tick (BitVec.ofNat 64 roundMax))).finishRound 0 idleRounds
            else p.idleRound maxSteps consecutiveIdle ((idleRounds + 1) % 2 ^ 64)
          match next with
          | .next c n => runLoop maxSteps rounds c n
          | .stop => pure (some .ended)
          | .fault t => pure (some (.fault t))
        | e => pure (some e)

/-- `Platform::step_hart`. -/
def stepOnce (i : ℕ) : StubM (Option Trap) := do
  if i ≥ (← get).numHarts then pure none
  else if ← onPlatform (·.runnable i) then
    modifyPlatform fun p => p.act (.beginRound i)
    let r ← runCore i
    modifyPlatform fun p => { p with retired := p.retired + r.done }
    match r.fault with
    | some t =>
      modifyPlatform fun p => { p with faultHart := i }
      pure (some t)
    | none =>
      modifyPlatform fun p =>
        (((p.act (.tick (BitVec.ofNat 64 r.done))).act .resetLive).pollDevices.checkStop).2
      pure none
  else pure none

/-! ## Resuming -/

/-- The signal of an exception. -/
def signalFor (e : Exception) : ℕ :=
  match e with
  | .breakpoint | .eCallFromUMode | .eCallFromSMode | .eCallFromMMode => 5
  | .illegalInstruction => 4
  | .instructionAddressMisaligned | .loadAddressMisaligned | .storeAMOAddressMisaligned => 7
  | _ => 11

/-- A fatal trap stops the target at the hart that took it. -/
def classifyTrap (t : Trap) : StubM Unit :=
  modify fun s => s.mapStub fun st =>
    { st with stop := .trap, signal := signalFor t.cause, stopHart := s.platform.faultHart }

/-- The pc of hart `i` is moved on. -/
def advancePc (i : ℕ) (n : U64) : StubM Unit := do
  let s ← get
  match add (s.pc i) n with
  | .ok pc => set (s.setHart i { s.hart i with cpu := { (s.hart i).cpu with pc := pc } })
  | .error e => throw e

/-- An `ebreak` of the program itself is passed over. -/
def skipEbreakIfStoppedOnOne (i : ℕ) : StubM Unit := do
  if (← get).stub.stop ≠ .trap then pure ()
  else
    let h ← hartAt i
    match ← readMemory i h.cpu.pc 4 with
    | some [b₀, b₁, b₂, b₃] =>
      let word : U32 := b₃ ++ b₂ ++ b₁ ++ b₀
      if word = 0x00100073 then advancePc i 4
      else if word &&& 0xffff = 0x9002 then advancePc i 2
      else pure ()
    | some _ => throw .outOfRange
    | none => pure ()

/-- Let the harts pass the EBREAK they stopped on. -/
def skipEbreaks : List ℕ → StubM Unit
  | [] => pure ()
  | i :: rest => do
    skipEbreakIfStoppedOnOne i
    skipEbreaks rest

/-- Read the watched bytes anew, where that is possible. -/
def reread : List Watch → Hart → List Watch × Hart
  | [], s => ([], s)
  | w :: ws, s =>
    let now := readBytes s w.addr w.len.toNat
    let rest := reread ws now.2
    ({ w with last := now.1.getD w.last } :: rest.1, rest.2)

/-- Does a refresh of the watchpoints? -/
def rereadOverflows : List Watch → Hart → Bool
  | [], _ => false
  | w :: ws, s =>
    readOverflows s w.addr w.len.toNat || rereadOverflows ws (readBytes s w.addr w.len.toNat).2

/-- Note what the watchpoints hold now. -/
def refreshWatches : StubM Unit := do
  match ← general with
  | none => pure ()
  | some i =>
    let h ← hartAt i
    let ws := (← get).stub.watches
    if rereadOverflows ws h then throw .overflow
    else
      let r := reread ws h
      modify fun s => (s.setHart i r.2).mapStub fun st => { st with watches := r.1 }

/-- Before a run every hart on a breakpoint is allowed to leave it. -/
def letLeave : StubM Unit :=
  modify fun s => { s with
    leaving := (Finset.range s.numHarts).filter fun h => s.pc h ∈ s.stub.breakpoints
    calls := 0 }

/-- The instructions a run may take before it counts as interrupted. -/
def runBudget : ℕ := 2 ^ 60

/-- What the stub makes of the end of a run. -/
def classifyEnd : Option Ended → StubM (Option Unit)
  | none => pure none
  | some .hooked => pure (some ())
  | some (.fault t) => do
    classifyTrap t
    pure (some ())
  | some .ended => do
    let halted := (← get).platform.halted
    modifyStub fun st =>
      if halted then { st with stop := .halted } else { st with stop := .interrupt, signal := 2 }
    pure (some ())

/-- Run all harts until something stops them; `none` if that takes more than `rounds` rounds. -/
def runAll (rounds : ℕ) : StubM (Option Unit) := do
  skipEbreaks (List.range (← get).numHarts)
  refreshWatches
  letLeave
  let retired := (← get).platform.retired
  if retired + runBudget ≥ 2 ^ 64 then throw .overflow
  else runLoop (retired + runBudget) rounds 0 0 >>= classifyEnd

/-- Let one hart take one step. -/
def runOne (h : ℕ) : StubM Unit := do
  skipEbreakIfStoppedOnOne h
  let r ← stepOnce h
  modifyStub fun st => { st with stopHart := h }
  match r with
  | some t => classifyTrap t
  | none =>
    if (← get).platform.halted then modifyStub fun st => { st with stop := .halted }
    else modifyStub fun st => { st with stop := .step, signal := 5 }

/-- Run until something stops the machine. -/
def runUntilStop (onlyHart : Option ℕ) (singleStep : Bool) (rounds : ℕ) : StubM (Option Unit) := do
  let s ← get
  if s.platform.halted then
    modifyStub fun st => { st with stop := .halted }
    pure (some ())
  else if singleStep then
    runOne (onlyHart.getD s.stub.generalHart)
    pure (some ())
  else runAll rounds

/-- A number in hexadecimal. -/
def hex (n : ℕ) : Str := Nat.toDigits 16 n

/-- The same with two digits at least. -/
def hex2 (n : ℕ) : Str := if n < 16 then '0' :: hex n else hex n

/-- The number by which the debugger knows a hart. -/
def threadId (h : ℕ) : Except Panic ℕ := if h + 1 < 2 ^ 32 then .ok (h + 1) else .error .overflow

/-- What the debugger is told of a stop. -/
def stopReply (st : Stub) : Except Panic Str :=
  match st.stop with
  | .halted => .ok "W00".toList
  | .watch => do
    let t ← threadId st.stopHart
    pure ("T05watch:".toList ++ hex st.stopAddr.toNat ++ ";thread:".toList ++ hex t ++ ";".toList)
  | .none => do
    let t ← threadId st.generalHart
    pure ("T05thread:".toList ++ hex t ++ ";".toList)
  | _ => do
    let t ← threadId st.stopHart
    pure ("T".toList ++ hex2 st.signal ++ "thread:".toList ++ hex t ++ ";".toList)

/-- Hand on a value or stop the program. -/
def liftPanic {α : Type} : Except Panic α → StubM α
  | .ok a => pure a
  | .error e => throw e

/-- A reply that names a hart at its breakpoint is the stop that hart was owed. -/
def Session.report (s : Session) : Session :=
  if s.stub.stop = .breakpoint then { s with owed := s.owed.erase s.stub.stopHart } else s

@[simp] lemma Session.report_platform (s : Session) : s.report.platform = s.platform := by
  unfold Session.report
  split <;> rfl

@[simp] lemma Session.report_stub (s : Session) : s.report.stub = s.stub := by
  unfold Session.report
  split <;> rfl

@[simp] lemma Session.report_missed (s : Session) : s.report.missed = s.missed := by
  unfold Session.report
  split <;> rfl

/-- Resume the target; the reply says why it stopped, if it did within `rounds` rounds. -/
def resume (step : Bool) (hart : Option ℕ) (rounds : ℕ) : StubM (Option Str) := do
  match ← runUntilStop hart step rounds with
  | none => pure none
  | some _ =>
    let reply ← liftPanic (stopReply (← get).stub)
    modify Session.report
    pure (some reply)

/-- `c` and `s` packets may move the selected hart first. -/
def resumeAt (step : Bool) (addr : Option U64) (rounds : ℕ) : StubM (Option Str) := do
  match addr with
  | none => resume step none rounds
  | some pc =>
    let i := (← get).stub.generalHart
    let h ← hartAt i
    modify fun s => s.setHart i { h with cpu := { h.cpu with pc := pc } }
    resume step none rounds

end Gdb

end RiscvEmu
