import RiscvEmu.Cpu.Step

/-!
# What an instruction can do

Every instruction reads and checks first and writes afterwards.  `Instr inst m` says that `m` is a
program of this kind, built from the elementary operations of a hart: a `Probe` may fail, a `Commit`
may not.  A relation between the states before and after a program of this kind follows from what
the elementary operations do (`Instr.keeps`).
-/

namespace RiscvEmu

open Exec

/-- The instructions that raise exception flags and write an integer register. -/
def RaisesSilently (inst : DecodedInst) : Prop :=
  inst.opcode = Opcode.opFp ∧ (inst.funct7 / 4 = 0x14 ∨ inst.funct7 / 4 = 0x18)

/-- The CSR instructions. -/
def IsCsr (inst : DecodedInst) : Prop := inst.opcode = Opcode.system ∧ inst.funct3 ≠ 0

/-- The other SYSTEM instructions. -/
def IsPrivileged (inst : DecodedInst) : Prop := inst.opcode = Opcode.system ∧ inst.funct3 = 0

/-- The calls of the environment. -/
def IsEcall (inst : DecodedInst) : Prop := IsPrivileged inst ∧ systemImm inst = 0

/-! ## Elementary operations -/

/-- The changes of state an instruction makes once it can no longer fail. -/
inductive Update (inst : DecodedInst) : (Hart → Hart) → Prop
  | setReg (i : ℕ) (v : U64) : Update inst fun s => { s with cpu := s.cpu.setReg i v }
  | writeFreg (i : ℕ) (v : U64) : Update inst fun s => { s with cpu := { s.cpu with
      fregs := Function.update s.cpu.fregs i v, csrs := s.cpu.csrs.markFpuDirty } }
  | putFp (i : ℕ) (v flags : U64) : Update inst fun s => { s with cpu := { s.cpu with
      fregs := Function.update s.cpu.fregs i v
      csrs := (s.cpu.csrs.raiseFflags flags).markFpuDirty } }
  | raiseFflags (flags : U64) (h : RaisesSilently inst) : Update inst fun s =>
    { s with cpu := { s.cpu with csrs := s.cpu.csrs.raiseFflags flags } }
  | mret (h : IsPrivileged inst) : Update inst fun s => { s with cpu := { s.cpu with
      csrs := s.cpu.csrs.setMstatus (mretStatus s.cpu.csrs.mstatus)
      priv := PrivLevel.ofMpp s.cpu.csrs.mstatus
      nextPc := (s.cpu.csrs.setMstatus (mretStatus s.cpu.csrs.mstatus)).read Csr.mepc } }
  | sret (h : IsPrivileged inst) : Update inst fun s => { s with cpu := { s.cpu with
      csrs := s.cpu.csrs.setMstatus (sretStatus s.cpu.csrs.mstatus)
      priv := sretPriv s.cpu.csrs.mstatus
      nextPc := (s.cpu.csrs.setMstatus (sretStatus s.cpu.csrs.mstatus)).read Csr.sepc } }
  | fence : Update inst Hart.remoteFence
  | fenceI : Update inst Hart.flushDecodeCache
  | wait (f : Cpu → Bool) : Update inst fun s =>
    { s with cpu := { s.cpu with waitingForInterrupt := f s.cpu } }
  | shutdown : Update inst fun s =>
    { s with cpu := { s.cpu with halted := true, sbiShutdown := true } }
  | setTimer (deadline : U64) (h : IsPrivileged inst) : Update inst fun s =>
    let r := s.sys.clint.setTimer deadline s.cpu.csrs s.cpu.hartid
    { cpu := { s.cpu with csrs := r.1 }, sys := { s.sys with clint := r.2 } }
  | takeInput (u : Uart) : Update inst fun s => { s with sys := { s.sys with uart := u } }
  | ipi (h : IsPrivileged inst) : Update inst fun s =>
    { s with cpu := { s.cpu with csrs := s.cpu.csrs.raiseInterrupt Csr.mipSsip } }
  | sendIpi (id : ℕ) (h : IsEcall inst) : Update inst fun s => s.mapPeer id Mailbox.sendIpi
  | sendFence (id : ℕ) (h : IsEcall inst) : Update inst fun s => s.mapPeer id Mailbox.sendFence
  | sendStart (id : ℕ) (addr arg : U64) (h : IsEcall inst) : Update inst fun s =>
    s.mapPeer id fun m => m.sendStart addr arg
  | stop (h : IsEcall inst) : Update inst fun s => s.mapMail fun m => { m with parked := true }

/-- Programs that never fail. -/
inductive Commit (inst : DecodedInst) : {α : Type} → HartM α → Prop
  | pure {α : Type} (a : α) : Commit inst (pure a)
  | get : Commit inst (get : HartM Hart)
  | readReg (i : ℕ) : Commit inst (readReg i)
  | update {f : Hart → Hart} (h : Update inst f) : Commit inst (modify f : HartM Unit)
  | updates {f : Hart → Hart} (h : ∀ s, f s = s ∨ ∃ g, Update inst g ∧ f s = g s) :
      Commit inst (modify f : HartM Unit)
  | bind {α β : Type} {m : HartM α} {k : α → HartM β} (hm : Commit inst m)
      (hk : ∀ a, Commit inst (k a)) : Commit inst (m >>= k)

/-- Programs that may fail and do not touch the registers, the CSRs, the pc or the privilege. -/
inductive Probe : {α : Type} → HartM α → Prop
  | pure {α : Type} (a : α) : Probe (pure a)
  | throw {α : Type} (t : Trap) : Probe (throw t : HartM α)
  | get : Probe (get : HartM Hart)
  | readReg (i : ℕ) : Probe (readReg i)
  | alu (op : AluOp) (a b : U64) : Probe (alu op a b)
  | setBranchTarget (target : U64) : Probe (setBranchTarget target)
  | memLoad (va : U64) (size : ℕ) : Probe (memLoad va size .load)
  | memStore (va : U64) (size : ℕ) (v : U64) : Probe (memStore va size v)
  | loadReserved (va : U64) (size : ℕ) : Probe (loadReserved va size)
  | storeConditional (va : U64) (size rs2 : ℕ) : Probe (storeConditional va size rs2)
  | bind {α β : Type} {m : HartM α} {k : α → HartM β} (hm : Probe m) (hk : ∀ a, Probe (k a)) :
      Probe (m >>= k)

/-- Programs that may fail only before their first write. -/
inductive Instr (inst : DecodedInst) : {α : Type} → HartM α → Prop
  | probe {α : Type} {m : HartM α} (h : Probe m) : Instr inst m
  | commit {α : Type} {m : HartM α} (h : Commit inst m) : Instr inst m
  | csrWrite (h : IsCsr inst) (v : U64) : Instr inst (csrWrite (csrAddrOf inst) v)
  | seq {α β : Type} {m : HartM α} {k : α → HartM β} (hm : Probe m)
      (hk : ∀ a, Instr inst (k a)) : Instr inst (m >>= k)
  | tail {α β : Type} {m : HartM α} {k : α → HartM β} (hm : Instr inst m)
      (hk : ∀ a, Commit inst (k a)) : Instr inst (m >>= k)

variable {inst : DecodedInst}

lemma Commit.writeReg (i : ℕ) (v : U64) : Commit inst (writeReg i v) := .update (.setReg i v)

/-! ## Relations kept by an instruction -/

/-- A relation between states that the operations of a probe keep. -/
structure ProbeKeeps (R : Hart → Hart → Prop) : Prop where
  readReg : ∀ i, Keeps R (readReg i)
  alu : ∀ op a b, Keeps R (alu op a b)
  nextPc : ∀ (s : Hart) (pc : U64), R s { s with cpu := { s.cpu with nextPc := pc } }
  memLoad : ∀ va size, Keeps R (memLoad va size .load)
  memStore : ∀ va size v, Keeps R (memStore va size v)
  loadReserved : ∀ va size, Keeps R (loadReserved va size)
  storeConditional : ∀ va size rs2, Keeps R (storeConditional va size rs2)

/-- A relation between states that every elementary operation of an instruction keeps. -/
structure InstrKeeps (inst : DecodedInst) (R : Hart → Hart → Prop) : Prop extends ProbeKeeps R where
  update : ∀ f, Update inst f → ∀ s, R s (f s)
  csrWrite : IsCsr inst → ∀ v, Keeps R (csrWrite (csrAddrOf inst) v)

variable {R : Hart → Hart → Prop} [IsPreorder Hart R] {α : Type} {m : HartM α}

lemma Commit.total (h : Commit inst m) : Total m := by
  induction h with
  | pure a => exact .pure a
  | get => exact .get
  | readReg i => exact fun s => ⟨_, _, rfl⟩
  | update _ => exact .modify _
  | updates _ => exact .modify _
  | bind _ _ ihm ihk => exact .bind ihm ihk

lemma Commit.keeps (h : Commit inst m) (hR : InstrKeeps inst R) : Keeps R m := by
  induction h with
  | pure a => exact .pure a
  | get => exact .get
  | readReg i => exact hR.readReg i
  | update hf => exact .modify (hR.update _ hf)
  | updates hf =>
    refine .modify fun s => ?_
    rcases hf s with heq | ⟨g, hg, heq⟩
    · rw [heq]
      exact refl_of R s
    · rw [heq]
      exact hR.update g hg s
  | bind _ _ ihm ihk => exact .bind ihm ihk

lemma keeps_setBranchTarget
    (h : ∀ (s : Hart) (pc : U64), R s { s with cpu := { s.cpu with nextPc := pc } })
    (target : U64) : Keeps R (setBranchTarget target) := by
  unfold setBranchTarget
  split
  · exact .throw _
  · exact .modify fun s => h s target

lemma Probe.keeps (h : Probe m) (hR : ProbeKeeps R) : Keeps R m := by
  induction h with
  | pure a => exact .pure a
  | throw t => exact .throw t
  | get => exact .get
  | readReg i => exact hR.readReg i
  | alu op a b => exact hR.alu op a b
  | setBranchTarget target => exact keeps_setBranchTarget hR.nextPc target
  | memLoad va size => exact hR.memLoad va size
  | memStore va size v => exact hR.memStore va size v
  | loadReserved va size => exact hR.loadReserved va size
  | storeConditional va size rs2 => exact hR.storeConditional va size rs2
  | bind _ _ ihm ihk => exact .bind ihm ihk

lemma Instr.keeps (h : Instr inst m) (hR : InstrKeeps inst R) : Keeps R m := by
  induction h with
  | probe h => exact h.keeps hR.toProbeKeeps
  | commit h => exact h.keeps hR
  | csrWrite h v => exact hR.csrWrite h v
  | seq hm _ ihk => exact .bind (hm.keeps hR.toProbeKeeps) ihk
  | tail _ hk ihm => exact .bind ihm fun a => (hk a).keeps hR

/-- If probes keep a relation, a failed instruction does: it had not written anything yet. -/
lemma Instr.failKeeps (h : Instr inst m) (hR : ProbeKeeps R)
    (hcsr : ∀ v, FailKeeps R (RiscvEmu.csrWrite (csrAddrOf inst) v)) : FailKeeps R m := by
  induction h with
  | probe h => exact (h.keeps hR).failKeeps
  | commit h => exact h.total.failKeeps
  | csrWrite _ v => exact hcsr v
  | seq hm _ ihk => exact (hm.keeps hR).bind_failKeeps ihk
  | tail _ hk ihm => exact ihm.bind_total fun a => (hk a).total

lemma probe_requireFpu : Probe (requireFpu inst) := by
  refine .bind .get fun s => ?_
  split
  · exact .throw _
  · exact .pure _

end RiscvEmu
