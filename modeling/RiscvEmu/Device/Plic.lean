import RiscvEmu.Csr

/-!
# The interrupt controller

`plic.rs`.  Sources 1 to 63 are bits of three bitmaps: `line` is what the devices assert,
`pending` what was forwarded and not yet claimed, `claimed` what is in service.  The answer of the
arbitration is kept for every context and recomputed when `dirty` is set.
-/

namespace RiscvEmu

/-- A device access: the device after it, and a value or the trap it raised. -/
abbrev DevM (D α : Type) := EStateM Trap D α

/-- The number of sources. -/
def maxIrqs : ℕ := 64

/-- The enable bits and the threshold of one (hart, mode) pair. -/
structure PlicContext where
  enabled : U64
  threshold : U32
deriving DecidableEq, Repr

/-- The interrupt controller. -/
structure Plic where
  priority : ℕ → U32
  line : U64
  pending : U64
  claimed : U64
  contexts : ℕ → PlicContext
  numContexts : ℕ
  best : ℕ → ℕ
  dirty : Bool

namespace Plic

/-- Where priorities are. -/
def priorityBase : ℕ := 0x000000
/-- Where pending bits are. -/
def pendingBase : ℕ := 0x001000
/-- Where enable bits are. -/
def enableBase : ℕ := 0x002000
/-- Where contexts are. -/
def contextBase : ℕ := 0x200000
/-- From one context to the next. -/
def contextStride : ℕ := 0x1000
/-- The threshold of a context. -/
def thresholdOff : ℕ := 0x0
/-- Claims and completions. -/
def claimOff : ℕ := 0x4

/-- The bit of a source. -/
def bit (irq : ℕ) : U64 := (1 : U64) <<< irq

/-- The controller at reset. -/
def new (harts : ℕ) : Plic where
  priority := fun _ => 0
  line := 0
  pending := 0
  claimed := 0
  contexts := fun _ => ⟨0, 0⟩
  numContexts := 2 * max harts 1
  best := fun _ => 0
  dirty := true

variable (p : Plic)

/-- A device's line rises or falls. -/
def setPending (irq : ℕ) (asserted : Bool) : Plic :=
  if irq = 0 ∨ irq ≥ maxIrqs then p
  else
    let line := if asserted then p.line ||| bit irq else p.line &&& ~~~bit irq
    let pending := if asserted then p.pending ||| bit irq else p.pending &&& ~~~bit irq
    let dirty := p.dirty || line != p.line || pending != p.pending
    { p with line := line, pending := pending, dirty := dirty }

/-- One turn of the loop of `scan`: the best source so far and its priority. -/
def scanStep (candidates : U64) (threshold : U32) (acc : ℕ × U32) (irq : ℕ) : ℕ × U32 :=
  if candidates &&& bit irq = 0 then acc
  else if p.priority irq = 0 ∨ p.priority irq ≤ threshold then acc
  else if p.priority irq > acc.2 then (irq, p.priority irq)
  else acc

/-- The source a context should be told about, 0 for none. -/
def scan (context : ℕ) : ℕ :=
  if context < p.numContexts then
    let c := p.contexts context
    let candidates := p.pending &&& c.enabled &&& ~~~p.claimed
    ((List.range' 1 (maxIrqs - 1)).foldl (p.scanStep candidates c.threshold) (0, 0)).1
  else 0

/-- Recompute the kept answers if something changed. -/
def refresh : Plic :=
  if p.dirty then { p with best := p.scan, dirty := false } else p

/-- The kept answer for a context, refreshed first. -/
def bestIrq (context : ℕ) : ℕ × Plic :=
  let p' := p.refresh
  (if context < p'.numContexts then p'.best context else 0, p')

/-- Raise or clear one bit of `mip`. -/
def drive (csrs : CsrFile) (mipBit : U64) (on : Bool) : CsrFile :=
  if on then csrs.raiseInterrupt mipBit else csrs.clearInterrupt mipBit

lemma drive_raw_ne (csrs : CsrFile) (mipBit : U64) (on : Bool) {b : CsrAddr} (h : b ≠ Csr.mip) :
    (drive csrs mipBit on).raw b = csrs.raw b := by
  cases on with
  | true => exact CsrFile.setRaw_raw_ne _ _ h
  | false => exact CsrFile.setRaw_raw_ne _ _ h

/-- Drive MEIP and SEIP of a hart from its two contexts. -/
def update (csrs : CsrFile) (hart : ℕ) : CsrFile × Plic :=
  let (m, p') := p.bestIrq (2 * hart)
  let (s, p'') := p'.bestIrq (2 * hart + 1)
  (drive (drive csrs Csr.mipMeip (m != 0)) Csr.mipSeip (s != 0), p'')

lemma update_raw (csrs : CsrFile) (hart : ℕ) {b : CsrAddr} (h : b ≠ Csr.mip) :
    (p.update csrs hart).1.raw b = csrs.raw b :=
  (drive_raw_ne _ _ _ h).trans (drive_raw_ne _ _ _ h)

/-- Claim the best source. -/
def claim (context : ℕ) : ℕ × Plic :=
  let (irq, p') := p.bestIrq context
  if irq ≠ 0 then
    (irq, { p' with
      claimed := p'.claimed ||| bit irq
      pending := p'.pending &&& ~~~bit irq
      dirty := true })
  else (irq, p')

/-- A source is done with. -/
def complete (irq : ℕ) : Plic :=
  if irq = 0 ∨ irq ≥ maxIrqs then p
  else
    { p with
      claimed := p.claimed &&& ~~~bit irq
      pending := if p.line &&& bit irq ≠ 0 then p.pending ||| bit irq else p.pending
      dirty := true }

/-- The low 32 bits of a word of a bitmap. -/
def word (bitmap : U64) (i : ℕ) : U64 := ((bitmap >>> (i * 32)).setWidth 32).setWidth 64

/-- A load from the controller. -/
def load (offset size : ℕ) : DevM Plic U64 := fun p =>
  if size ≠ 4 then .error ⟨.loadAccessFault, plicBase + BitVec.ofNat 64 offset⟩ p
  else if offset < priorityBase + maxIrqs * 4 then .ok ((p.priority (offset / 4)).setWidth 64) p
  else if pendingBase ≤ offset ∧ offset < pendingBase + 0x80 then
    let i := (offset - pendingBase) / 4
    .ok (if i ≥ 2 then 0 else word p.pending i) p
  else if enableBase ≤ offset ∧ offset < contextBase then
    let ctx := (offset - enableBase) / 0x80
    let i := (offset - enableBase) % 0x80 / 4
    .ok (if ctx ≥ p.numContexts ∨ i ≥ 2 then 0 else word (p.contexts ctx).enabled i) p
  else if offset ≥ contextBase then
    let ctx := (offset - contextBase) / contextStride
    let within := (offset - contextBase) % contextStride
    if ctx ≥ p.numContexts then .ok 0 p
    else if within = thresholdOff then .ok ((p.contexts ctx).threshold.setWidth 64) p
    else if within = claimOff then .ok (BitVec.ofNat 64 (p.claim ctx).1) (p.claim ctx).2
    else .ok 0 p
  else .ok 0 p

/-- Replace one context. -/
def setContext (ctx : ℕ) (c : PlicContext) : Plic :=
  { p with contexts := Function.update p.contexts ctx c, dirty := true }

/-- Write one word of a context's enable bits. -/
def setEnabled (ctx i : ℕ) (v : U32) : Plic :=
  let c := p.contexts ctx
  let mask : U64 := (0xffffffff : U64) <<< (i * 32)
  p.setContext ctx { c with enabled := (c.enabled &&& ~~~mask) ||| (v.setWidth 64 <<< (i * 32)) }

/-- A store to the controller. -/
def store (offset size : ℕ) (value : U64) : DevM Plic Unit := fun p =>
  let v : U32 := value.setWidth 32
  if size ≠ 4 then .error ⟨.storeAMOAccessFault, plicBase + BitVec.ofNat 64 offset⟩ p
  else if offset < priorityBase + maxIrqs * 4 then
    .ok () { p with priority := Function.update p.priority (offset / 4) v, dirty := true }
  else if enableBase ≤ offset ∧ offset < contextBase then
    let ctx := (offset - enableBase) / 0x80
    let i := (offset - enableBase) % 0x80 / 4
    .ok () (if ctx < p.numContexts ∧ i < 2 then p.setEnabled ctx i v else p)
  else if offset ≥ contextBase then
    let ctx := (offset - contextBase) / contextStride
    let within := (offset - contextBase) % contextStride
    if ctx < p.numContexts then
      if within = thresholdOff then
        .ok () (p.setContext ctx { p.contexts ctx with threshold := v })
      else if within = claimOff then .ok () (p.complete v.toNat)
      else .ok () p
    else .ok () p
  else .ok () p

end Plic

end RiscvEmu
