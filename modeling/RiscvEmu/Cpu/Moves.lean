import RiscvEmu.Cpu.Instructions
import RiscvEmu.Machine

/-!
# What a hart can do

Everything the platform does with a hart is made of instructions and of a few moves of the step
loop and the scheduler.  A relation between states of a hart that all of these keep (`HartKeeps`)
is kept by every operation on the hart.
-/

namespace RiscvEmu

open Exec

/-! ## Moves of the step loop and the scheduler -/

/-- What the step loop and the scheduler do to a hart, apart from instructions. -/
inductive Move : (Hart → Hart) → Prop
  | begin (inst : DecodedInst) : Move fun s => s.begin inst
  | retire : Move Hart.retire
  | lastTrap (t : Trap) : Move fun s => { s with cpu := { s.cpu with lastTrap := some t } }
  | enterTrap (cause tval epc : U64) (isInterrupt : Bool) :
      Move fun s => s.enterTrap cause tval epc isInterrupt
  | publishLive : Move Hart.publishLive
  | beginRound : Move Hart.beginRound
  | takeMail : Move fun s => s.mapMail fun m => { m with pending := 0 }
  | startAt (addr arg : U64) : Move fun s => s.startAt addr arg
  | drive : Move Hart.drive
  | halt (shutdown : Bool) :
      Move fun s => { s with cpu := { s.cpu with halted := true, sbiShutdown := shutdown } }
  | idleOnWfi (on : Bool) : Move fun s => { s with cpu := { s.cpu with idleOnWfi := on } }
  | delegate : Move Hart.delegate
  | enterKernel (entry dtbAddr : U64) : Move (Hart.enterKernel entry dtbAddr)

/-- A CSR write marks the FP unit, checks, and commits. -/
lemma keeps_csrWrite {R : Hart → Hart → Prop} [IsPreorder Hart R]
    (hmark : ∀ s : Hart, R s { s with cpu := { s.cpu with csrs := s.cpu.csrs.markFpuDirty } })
    (hcommit : ∀ addr v, Keeps R (csrCommit addr v))
    {addr : CsrAddr} {v : U64} : Keeps R (csrWrite addr v) := by
  refine .bind .get fun s => ?_
  split
  · exact .throw _
  split
  · exact .throw _
  · refine .bind (.modify fun s => ?_) fun _ => .bind .get fun s => ?_
    · unfold Hart.markFp
      split
      · exact hmark s
      · exact refl_of R s
    · split
      · exact hcommit addr v
      · exact .throw _

/-- An ECALL, the instruction behind what the firmware does. -/
def ecallInst : DecodedInst := { Cpu.noInst with opcode := Opcode.system }

/-- A relation between states that everything a hart does keeps. -/
structure HartKeeps (R : Hart → Hart → Prop) : Prop where
  probe : ProbeKeeps R
  nextInst : Keeps R nextInst
  update : ∀ inst f, Update inst f → ∀ s, R s (f s)
  csrWrite : ∀ addr v, Keeps R (csrWrite addr v)
  move : ∀ f, Move f → ∀ s, R s (f s)

/-- The operations of the platform on a hart. -/
inductive HartOp : (Hart → Hart) → Prop
  | step : HartOp Hart.step
  | runnable : HartOp fun s => s.runnable.2
  | move {f : Hart → Hart} (h : Move f) : HartOp f
  | park : HartOp Hart.park

section Keeps

variable {R : Hart → Hart → Prop} [IsPreorder Hart R]

lemma HartKeeps.execute (hR : HartKeeps R) (inst : DecodedInst) : Keeps R (execute inst) :=
  InstrKeeps.execute ⟨hR.probe, fun f hf s => hR.update inst f hf s, fun _ v => hR.csrWrite _ v⟩

lemma HartKeeps.instruction (hR : HartKeeps R) : Keeps R instruction :=
  .bind hR.nextInst fun inst => .bind (.modify (hR.move _ (.begin inst))) fun _ =>
    .bind (hR.execute inst) fun _ => .modify (hR.move _ .retire)

lemma HartKeeps.handleTrapOrStop (hR : HartKeeps R) (t : Trap) : Keeps R (handleTrapOrStop t) := by
  refine .bind (.modify (hR.move _ (.lastTrap t))) fun _ => .bind .get fun s => ?_
  split
  · exact .throw t
  · exact .modify fun s => hR.move _ (.enterTrap _ _ s.cpu.pc _) s

/-- One step of a hart. -/
theorem HartKeeps.stepCore (hR : HartKeeps R) : Keeps R stepCore := by
  refine .bind .get fun s => ?_
  split
  · exact .modify fun s => hR.move _ (.enterTrap _ _ s.cpu.pc _) s
  · refine .bind (.attempt hR.instruction) fun r => ?_
    split
    · exact .pure _
    · exact hR.handleTrapOrStop _

lemma HartKeeps.step (hR : HartKeeps R) (s : Hart) : R s s.step := by
  unfold Hart.step
  split
  · next t h => exact trans_of R (hR.stepCore.of_ok h) (hR.move _ .publishLive t)
  · next h => exact hR.stepCore.of_error h

/-- The flags of the mailbox are applied in turn: interrupt, fence, start. -/
lemma keeps_applyMailbox (htake : ∀ s : Hart, R s (s.mapMail fun m => { m with pending := 0 }))
    (hipi : ∀ s : Hart, R s { s with cpu := { s.cpu with
      csrs := s.cpu.csrs.raiseInterrupt Csr.mipSsip } })
    (hfence : ∀ s : Hart, R s s.remoteFence)
    (hstart : ∀ (s : Hart) (addr arg : U64), R s (s.startAt addr arg)) (s : Hart) :
    R s s.applyMailbox := by
  unfold Hart.applyMailbox
  dsimp only
  split
  · exact refl_of R s
  have hite : ∀ {c : Prop} [Decidable c] {u v : Hart}, R s u → R u v →
    R s (if c then v else u) := by
    intro c _ u v hu huv
    split
    · exact trans_of R hu huv
    · exact hu
  exact hite (hite (hite (htake s) (hipi _)) (hfence _)) (hstart _ _ _)

lemma keeps_runnable (hmail : ∀ s : Hart, R s s.applyMailbox)
    (hwake : ∀ s : Hart, R s { s with cpu := { s.cpu with waitingForInterrupt := false } })
    (s : Hart) : R s s.runnable.2 := by
  unfold Hart.runnable
  dsimp only
  split_ifs
  · exact hmail s
  · exact hmail s
  · exact trans_of R (hmail s) (hwake _)
  · exact hmail s

lemma HartKeeps.runnable (hR : HartKeeps R) (s : Hart) : R s s.runnable.2 :=
  keeps_runnable
    (keeps_applyMailbox (hR.move _ .takeMail) (hR.update ecallInst _ (.ipi ⟨rfl, rfl⟩))
      (hR.update Cpu.noInst _ .fence) fun s addr arg => hR.move _ (.startAt addr arg) s)
    (hR.update Cpu.noInst _ (.wait fun _ => false)) s

/-- A relation that everything a hart does keeps is kept by every operation on the hart. -/
theorem HartKeeps.op (hR : HartKeeps R) {f : Hart → Hart} (hf : HartOp f) (s : Hart) :
    R s (f s) := by
  cases hf with
  | step => exact hR.step s
  | runnable => exact hR.runnable s
  | move h => exact hR.move f h s
  | park => exact hR.update ecallInst _ (.stop ⟨⟨rfl, rfl⟩, rfl⟩) s

end Keeps

end RiscvEmu
