import RiscvEmu.Device.Plic

/-!
# The clock and the core-local interruptor

`clint.rs`.  The clock is shared by all harts; a hart publishes in `live` how many instructions
it has retired since the round began, and reads of the time add them.
-/

namespace RiscvEmu

/-- The clock. -/
structure Clock where
  mtime : U64
  live : U64
  /-- Instructions per tick. -/
  ipt : U64
  subtick : U64

namespace Clock

/-- The clock at reset. -/
def new : Clock := ⟨0, 0, 1, 0⟩

variable (c : Clock)

/-- The larger of a number and one. -/
def atLeastOne (n : U64) : U64 := if n = 0 then 1 else n

/-- The time as the running hart sees it. -/
def now : U64 := c.mtime + c.live / atLeastOne c.ipt

/-- The ticks the running hart is ahead of its round. -/
def progress : U64 := c.live / atLeastOne c.ipt

/-- The clock can be read without overflow. -/
def ReadFits : Prop := c.mtime.toNat + c.progress.toNat < 2 ^ 64

instance : Decidable c.ReadFits := inferInstanceAs (Decidable (_ < _))

/-- Set the instructions per tick. -/
def setInstructionsPerTick (n : U64) : Clock := { c with ipt := atLeastOne n }

/-- Move on by some instructions. -/
def tick (instructions : U64) : Clock :=
  let ipt := atLeastOne c.ipt
  if ipt ≤ 1 then { c with mtime := c.mtime + instructions }
  else
    let sub := c.subtick + instructions
    { c with mtime := c.mtime + sub / ipt, subtick := sub % ipt }

/-- Jump forward, never back. -/
def advanceTo (t : U64) : Clock :=
  if t > c.mtime then { c with mtime := t, subtick := 0 } else c

end Clock

/-- The most harts. -/
def maxHarts : ℕ := 32

/-- The interruptor, with the clock it shares with the harts. -/
structure Clint where
  clock : Clock
  harts : ℕ
  /-- The harts whose timer was armed through SBI. -/
  sbiTimer : ℕ → Bool
  mtimecmp : ℕ → U64
  msip : ℕ → U32

namespace Clint

/-- Where deadlines are. -/
def mtimecmpOffset : ℕ := 0x4000
/-- Where the time is. -/
def mtimeOffset : ℕ := 0xbff8

/-- The interruptor at reset. -/
def new (harts : ℕ) (clock : Clock) : Clint :=
  ⟨clock, min (max harts 1) maxHarts, fun _ => false, fun _ => 0, fun _ => 0⟩

variable (c : Clint)

/-- Drive MTIP, MSIP and the supervisor timer bit of a hart. -/
def update (csrs : CsrFile) (hart : ℕ) : CsrFile :=
  if hart ≥ c.harts then csrs
  else
    let mtime := c.clock.mtime
    let csrs := Plic.drive csrs Csr.mipMtip (mtime ≥ c.mtimecmp hart)
    let csrs := Plic.drive csrs Csr.mipMsip (c.msip hart &&& 1 != 0)
    if csrs.sstcEnabled then Plic.drive csrs Csr.mipStip (mtime ≥ csrs.read Csr.stimecmp)
    else if c.sbiTimer hart then Plic.drive csrs Csr.mipStip (mtime ≥ c.mtimecmp hart)
    else csrs

/-- Set the deadline for a supervisor and clear the pending timer interrupt. -/
def setTimer (deadline : U64) (csrs : CsrFile) (hart : ℕ) : CsrFile × Clint :=
  if hart ≥ c.harts then (csrs, c)
  else
    ((csrs.clearInterrupt Csr.mipMtip).clearInterrupt Csr.mipStip,
      { c with
        mtimecmp := Function.update c.mtimecmp hart deadline
        sbiTimer := Function.update c.sbiTimer hart true })

/-- Driving the interrupt bits of a hart touches `mip` only. -/
lemma update_raw (csrs : CsrFile) (hart : ℕ) {b : CsrAddr} (h : b ≠ Csr.mip) :
    (c.update csrs hart).raw b = csrs.raw b := by
  unfold update
  split
  · rfl
  · dsimp only
    split_ifs <;> simp only [Plic.drive_raw_ne _ _ _ h]

lemma setTimer_raw (deadline : U64) (csrs : CsrFile) (hart : ℕ) {b : CsrAddr} (h : b ≠ Csr.mip) :
    (c.setTimer deadline csrs hart).1.raw b = csrs.raw b := by
  unfold setTimer
  split
  · rfl
  · exact (CsrFile.setRaw_raw_ne _ _ h).trans (CsrFile.setRaw_raw_ne _ _ h)

/-- A load from the interruptor. -/
def load (offset size : ℕ) : DevM Clint U64 := fun c =>
  let fault : EStateM.Result Trap Clint U64 :=
    .error ⟨.loadAccessFault, clintBase + BitVec.ofNat 64 offset⟩ c
  if offset < 4 * maxHarts ∧ size = 4 then
    let hart := offset / 4
    .ok (if hart < c.harts then (c.msip hart).setWidth 64 else 0) c
  else if mtimecmpOffset ≤ offset ∧ offset < mtimecmpOffset + 8 * maxHarts then
    let hart := (offset - mtimecmpOffset) / 8
    let word := (offset - mtimecmpOffset) % 8
    let v := if hart < c.harts then c.mtimecmp hart else ~~~0
    if word = 0 ∧ size = 8 then .ok v c
    else if word = 0 ∧ size = 4 then .ok (v &&& 0xffffffff) c
    else if word = 4 ∧ size = 4 then .ok (v >>> 32) c
    else fault
  else if offset = mtimeOffset ∧ size = 8 then .ok c.clock.now c
  else if offset = mtimeOffset ∧ size = 4 then .ok (c.clock.now &&& 0xffffffff) c
  else if offset = mtimeOffset + 4 ∧ size = 4 then .ok (c.clock.now >>> 32) c
  else fault

/-- A store to the interruptor. -/
def store (offset size : ℕ) (value : U64) : DevM Clint Unit := fun c =>
  let fault : EStateM.Result Trap Clint Unit :=
    .error ⟨.storeAMOAccessFault, clintBase + BitVec.ofNat 64 offset⟩ c
  if offset < 4 * maxHarts ∧ size = 4 then
    let hart := offset / 4
    let m : U32 := value.setWidth 32 &&& 1
    .ok () (if hart < c.harts then { c with msip := Function.update c.msip hart m } else c)
  else if mtimecmpOffset ≤ offset ∧ offset < mtimecmpOffset + 8 * maxHarts then
    let hart := (offset - mtimecmpOffset) / 8
    let word := (offset - mtimecmpOffset) % 8
    if ¬ ((word = 0 ∧ (size = 8 ∨ size = 4)) ∨ (word = 4 ∧ size = 4)) then fault
    else if hart < c.harts then
      let slot := c.mtimecmp hart
      let slot :=
        if word = 0 ∧ size = 8 then value
        else if word = 0 then (slot &&& ~~~0xffffffff) ||| (value &&& 0xffffffff)
        else (slot &&& 0xffffffff) ||| (value <<< 32)
      .ok () { c with mtimecmp := Function.update c.mtimecmp hart slot }
    else .ok () c
  else if offset = mtimeOffset ∧ size = 8 then
    .ok () { c with clock := { c.clock with mtime := value } }
  else fault

end Clint

end RiscvEmu
