import RiscvEmu.Cpu.Step

/-!
# The machine

`platform.rs` and the part of `main.rs` that builds a machine: harts on one bus.  What happens to
a machine is a list of labels, one for every operation the platform performs on it, in any order;
the scheduler of the program chooses some of these lists.  The outside world (what is typed, the
time of day, images and writes by a loader) is given by labels too.
-/

namespace RiscvEmu

open Exec Virtio

/-! ## Building a machine -/

/-- The choices made on the command line. -/
structure Config where
  harts : ℕ
  ramBytes : ℕ
  fits : dramBase.toNat + ramBytes < 2 ^ 64
  regfile : ℕ → Option RegFileBackend
  aluBackend : ℕ → Option AluBackend
  disk : Blk
  net : Option Net
  rng : Option Rng
  /-- A real-time clock, with its frozen time if it has one. -/
  rtc : Option (Option U64)
  entry : U64
  /-- The bound on loops that only a guest can make endless. -/
  fuel : ℕ

namespace Config

variable (cfg : Config)

/-- The platform has at least one hart. -/
def numHarts : ℕ := max cfg.harts 1

/-- Base, size and identity of the attached devices, in the order of attachment. -/
def devices : List (U64 × U64 × DevId) :=
  [(uart0Base, 0x100, .uart), (clintBase, 0x10000, .clint), (sysconBase, 0x1000, .syscon),
    (plicBase, 0x400000, .plic), (virtioBase, 0x1000, .blk)] ++
    (if cfg.net.isSome then [(virtioNetBase, 0x1000, .net)] else []) ++
    (if cfg.rng.isSome then [(virtioRngBase, 0x1000, .rng)] else []) ++
    (if cfg.rtc.isSome then [(rtcBase, 0x1000, .rtc)] else [])

/-- A machine that boots at the start of RAM, with an empty disk and nothing optional. -/
def plain (harts ramBytes : ℕ) (fits : dramBase.toNat + ramBytes < 2 ^ 64) : Config :=
  ⟨harts, ramBytes, fits, fun _ => none, fun _ => none, Blk.new, none, none, none, dramBase, 0⟩

end Config

/-- The bytes of a sequence of instruction words. -/
def codeBytes (words : List U32) : List U8 :=
  words.flatMap fun (w : U32) => (List.range 4).map fun i => (w >>> (8 * i)).setWidth 8

/-- A network card that is not connected to anything. -/
def noNet : Net := ⟨⟨[], fun _ => none, fun _ => false⟩, [], [], 0⟩

/-- The bus of a machine, before a device is attached. -/
def Sys.bare (cfg : Config) : Sys where
  ram := ⟨fun _ => 0, cfg.ramBytes, 1, fun _ => false, [], false, cfg.fits⟩
  ranges := []
  mmioEpoch := 0
  clint := Clint.new cfg.numHarts Clock.new
  plic := Plic.new cfg.numHarts
  uart := Uart.new
  syscon := Syscon.new
  rtc := { Rtc.new (some rtcIrq) with fixedNs := cfg.rtc.getD none }
  blk := ⟨{ Core.new virtioBase 2 1 with irq := some virtio0Irq }, cfg.disk⟩
  net := ⟨{ Core.new virtioNetBase 1 2 with irq := some virtioNetIrq }, cfg.net.getD noNet⟩
  rng := ⟨{ Core.new virtioRngBase 4 1 with irq := some virtioRngIrq }, cfg.rng.getD ⟨0⟩⟩
  wired := true
  numHarts := cfg.numHarts
  mail := fun _ => Mailbox.new false
  log := []
  fuel := cfg.fuel

/-- The range a device is registered with. -/
def rangeOf (d : U64 × U64 × DevId) : U64 × U64 × DevId := (d.1, d.1 + d.2.1, d.2.2)

/-- The bus of a machine. -/
def Sys.new (cfg : Config) : Sys :=
  { Sys.bare cfg with ranges := cfg.devices.map rangeOf }

/-- Hart `i` out of reset. -/
def Cpu.ofConfig (cfg : Config) (i : ℕ) : Cpu :=
  { Cpu.new with
    hartid := i
    csrs := CsrFile.new.setHartid (BitVec.ofNat 64 i)
    regfile := cfg.regfile i
    aluBackend := cfg.aluBackend i
    pc := cfg.entry }

/-- The harts, of which the first `sys.numHarts` exist, and what they share. -/
structure Machine where
  harts : ℕ → Cpu
  sys : Sys

namespace Machine

/-- A machine out of reset. -/
def init (cfg : Config) : Machine := ⟨Cpu.ofConfig cfg, Sys.new cfg⟩

variable (m : Machine)

/-- Hart `h` and what it shares. -/
def hart (h : ℕ) : Hart := ⟨m.harts h, m.sys⟩

/-- Put back what an operation of hart `h` left. -/
def setHart (h : ℕ) (s : Hart) : Machine := ⟨Function.update m.harts h s.cpu, s.sys⟩

/-- Run `f` on hart `h`, if there is such a hart. -/
def onHart (h : ℕ) (f : Hart → Hart) : Machine :=
  if h < m.sys.numHarts then m.setHart h (f (m.hart h)) else m

end Machine

/-! ## What happens to a machine -/

/-- Publish how many instructions the running hart has retired in this round. -/
def Hart.publishLive (s : Hart) : Hart :=
  let live := BitVec.ofNat 64 (s.cpu.instret - s.cpu.roundStartInstret)
  { s with sys := { s.sys with clint := { s.sys.clint with
      clock := { s.sys.clint.clock with live := live } } } }

/-- One turn of the loop of `run_core`. -/
def Hart.step (s : Hart) : Hart :=
  match stepCore s with
  | .ok _ t => t.publishLive
  | .error _ t => t

/-- The begin of a hart's quantum. -/
def Hart.beginRound (s : Hart) : Hart :=
  { cpu := { s.cpu with roundStartInstret := s.cpu.instret }
    sys := { s.sys with clint := { s.sys.clint with
      clock := { s.sys.clint.clock with live := 0 } } } }

namespace Sys

variable (s : Sys)

/-- Change the clock. -/
def mapClock (f : Clock → Clock) : Sys :=
  { s with clint := { s.clint with clock := f s.clint.clock } }

/-- Poll a device. -/
def pollDevice (id : DevId) : Sys :=
  match id with
  | .blk => putBlk (virtioSlot Sys.blk s).poll s
  | .net => putNet (virtioSlot Sys.net s).poll s
  | .rng => putRng (virtioSlot Sys.rng s).poll s
  | .rtc => { s with rtc := (s.rtc.poll s.plic).1, plic := (s.rtc.poll s.plic).2 }
  | _ => s

/-- Poll all attached devices in their order. -/
def pollDevices : Sys := (s.ranges.map fun r => r.2.2).foldl pollDevice s

/-- The part of `poll_devices` before the harts are updated.  `host` says that it is time to look
for input on the host side. -/
def pollAll (host : Bool) : Sys :=
  let uart := s.uart.takeYieldRequest.2
  let s := { s with uart := if host then uart.pollHostInput else uart }
  let s := s.pollDevices
  { s with plic := s.plic.setPending uart0Irq s.uart.interrupting }

end Sys

namespace Hart

/-- Bring the interrupt-pending bits of a hart up to date. -/
def drive (s : Hart) : Hart :=
  let csrs := s.sys.clint.update s.cpu.csrs s.cpu.hartid
  let r := s.sys.plic.update csrs s.cpu.hartid
  { cpu := { s.cpu with csrs := r.1 }, sys := { s.sys with plic := r.2 } }

/-- What `enter_supervisor` does to every hart. -/
def delegate (s : Hart) : Hart :=
  let csrs := (s.cpu.csrs.write Csr.medeleg 0xffff).write Csr.mideleg 0xffff
  let csrs := csrs.write Csr.mie (Csr.mipSeip ||| Csr.mipStip ||| Csr.mipSsip)
  let csrs := (csrs.write Csr.mcounteren 0xffffffff).write Csr.scounteren 0xffffffff
  { s with cpu := { s.cpu with
      idleOnWfi := true
      sbiEnabled := true
      csrs := csrs
      trapFatalWithoutHandler := false } }

/-- What it does to the boot hart. -/
def enterKernel (entry dtbAddr : U64) (s : Hart) : Hart :=
  let c := { s.cpu with priv := .supervisor, pc := entry }
  { s with cpu := (c.setReg 10 0).setReg 11 dtbAddr }

/-- What it does to the others. -/
def park (s : Hart) : Hart := s.mapMail fun m => { m with parked := true }

end Hart

/-- What the outside world does. -/
inductive HostEvent where
  | attachStdin
  | input (chunk : List U8)
  | closeInput
  | timeOfDay (ns : U64)
deriving DecidableEq

/-- What the host does. -/
def Sys.host (s : Sys) : HostEvent → Sys
  | .attachStdin => { s with uart := { s.uart with hostRx := some [] } }
  | .input chunk => { s with uart := { s.uart with hostRx := s.uart.hostRx.map (· ++ [chunk]) } }
  | .closeInput => { s with uart := { s.uart with hostClosed := true } }
  | .timeOfDay ns => { s with rtc := { s.rtc with hostNs := ns } }

/-- An operation on the machine. -/
inductive Label where
  /-- A hart executes one instruction or takes an interrupt. -/
  | step (h : ℕ)
  /-- The scheduler asks whether a hart can run. -/
  | runnable (h : ℕ)
  | beginRound (h : ℕ)
  /-- The clock moves by a number of instructions. -/
  | tick (instructions : U64)
  | resetLive
  /-- The clock of an idle machine jumps. -/
  | advanceTo (t : U64)
  /-- The command line says how many instructions make a tick. -/
  | setInstructionsPerTick (n : U64)
  | pollDevices (host : Bool)
  /-- The boot hart is told that the machine stops. -/
  | halt (sbiShutdown : Bool)
  /-- The `tohost` word is read. -/
  | htif (addr : U64)
  | idleOnWfi (on : Bool)
  | enterSupervisor (entry dtbAddr : U64)
  | loadImage (addr : U64) (bytes : List U8)
  /-- A loader or a device writes to RAM. -/
  | writeBytes (addr : U64) (bytes : List U8)
  | host (e : HostEvent)
deriving DecidableEq

namespace Machine

variable (m : Machine)

/-- Change what the harts share. -/
def mapSys (f : Sys → Sys) : Machine := { m with sys := f m.sys }

/-- Run `f` on every hart in turn. -/
def onHarts (f : Hart → Hart) : Machine :=
  (List.range m.sys.numHarts).foldl (fun m h => m.onHart h f) m

/-- Start a kernel on hart 0; the others wait. -/
def enterSupervisor (entry dtbAddr : U64) : Machine :=
  let m := (m.onHarts Hart.delegate).onHart 0 (Hart.enterKernel entry dtbAddr)
  ((List.range m.sys.numHarts).drop 1).foldl (fun m h => m.onHart h Hart.park) m

/-- Load an image before the run. -/
def loadImage (addr : U64) (bytes : List U8) : Machine :=
  match m.sys.ram.loadImage addr bytes with
  | some ram => m.mapSys fun s => { s with ram := ram }.emit (.image addr bytes.length)
  | none => m

/-- Write guest memory from outside. -/
def writeBytes (addr : U64) (bytes : List U8) : Machine :=
  match m.sys.ram.writeBytes addr bytes with
  | some ram => m.mapSys fun s => { s with ram := ram }.emit (.dma addr bytes.length)
  | none => m

/-- The effect of an operation. -/
def act (m : Machine) : Label → Machine
  | .step h => m.onHart h Hart.step
  | .runnable h => m.onHart h fun s => s.runnable.2
  | .beginRound h => m.onHart h Hart.beginRound
  | .tick n => m.mapSys fun s => s.mapClock fun c => c.tick n
  | .resetLive => m.mapSys fun s => s.mapClock fun c => { c with live := 0 }
  | .advanceTo t => m.mapSys fun s => s.mapClock fun c => c.advanceTo t
  | .setInstructionsPerTick n => m.mapSys fun s => s.mapClock fun c => c.setInstructionsPerTick n
  | .pollDevices host => (m.mapSys fun s => s.pollAll host).onHarts Hart.drive
  | .halt shutdown =>
    m.onHart 0 fun s => { s with cpu := { s.cpu with halted := true, sbiShutdown := shutdown } }
  | .htif addr => m.mapSys fun s => final (Bus.load addr 8 .load) s
  | .idleOnWfi on => m.onHarts fun s => { s with cpu := { s.cpu with idleOnWfi := on } }
  | .enterSupervisor entry dtbAddr => m.enterSupervisor entry dtbAddr
  | .loadImage addr bytes => m.loadImage addr bytes
  | .writeBytes addr bytes => m.writeBytes addr bytes
  | .host e => m.mapSys fun s => s.host e

/-- Carry out a list of operations. -/
def run (ls : List Label) : Machine := ls.foldl act m

end Machine

/-- The machines some run leads to. -/
def Reachable (cfg : Config) (m : Machine) : Prop := ∃ ls, m = (Machine.init cfg).run ls

end RiscvEmu
