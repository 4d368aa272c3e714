import RiscvEmu.Cpu.Instructions

/-!
# Steps through a view

Traps and steps do to the image of a hart what they do to the hart.
-/

namespace RiscvEmu

open Exec

namespace View

variable {v : View} {Ok : Backing} {inst : DecodedInst}

lemma shows_fetchInst : v.Shows Ok fetchInst :=
  .get_bind fun _ _ => .branch (.throw _) <|
    (shows_memLoad _ _ _).bind fun _ => .branch (.pure _) <|
      (shows_memLoad _ _ _).bind fun _ => .pure _

lemma shows_cacheFill : v.Shows Ok (cacheFill inst) := by
  refine .get_bind fun s _ => .branch (.pure _) <|
    (shows_translateFor _ _ _).attempt.bind fun r => ?_
  cases r with
  | error e => exact .pure _
  | ok pa =>
    refine .modify fun s hs => ?_
    by_cases hram : dramBase ≤ pa ∧ s.sys.ram.inRange (pa - dramBase).toNat inst.length.toNat
    · rw [if_pos hram, if_pos (show _ ∧ (v.hart s).sys.ram.inRange _ _ = true from hram)]
      exact ⟨rfl, hs⟩
    · rw [if_neg hram, if_neg (show ¬ (_ ∧ (v.hart s).sys.ram.inRange _ _ = true) from hram)]
      exact ⟨rfl, hs⟩

lemma shows_checkEpoch : v.Shows Ok (modify Hart.checkEpoch : HartM Unit) := by
  refine .modify fun s hs => ?_
  unfold Hart.checkEpoch
  by_cases hepoch : s.sys.ram.epoch ≠ s.cpu.dcacheEpoch
  · rw [if_pos hepoch,
      if_pos (show (v.hart s).sys.ram.epoch ≠ (v.hart s).cpu.dcacheEpoch from hepoch)]
    exact ⟨rfl, hs⟩
  · rw [if_neg hepoch,
      if_neg (show ¬ (v.hart s).sys.ram.epoch ≠ (v.hart s).cpu.dcacheEpoch from hepoch)]
    exact ⟨rfl, hs⟩

lemma shows_nextInst : v.Shows Ok nextInst := by
  refine shows_checkEpoch.bind fun _ => .get_bind fun s _ => ?_
  rw [show (v.hart s).cpu.cached = s.cpu.cached from rfl]
  cases s.cpu.cached with
  | none => exact shows_fetchInst.bind fun _ => shows_cacheFill.bind fun _ => .pure _
  | some inst => exact .pure _

lemma shows_retire : v.Shows Ok (modify Hart.retire : HartM Unit) := by
  refine .modify fun s hs => ⟨?_, hs⟩
  unfold Hart.retire
  rw [show (v.hart s).cpu.csrs = v.csrs s.cpu.csrs from rfl, v.csrs_tickCounters,
    show (v.hart s).cpu.counterWritten = s.cpu.counterWritten from rfl, ← apply_ite v.csrs]
  rfl

lemma mirrors_instruction (hv : v.Exact Ok) :
    Mirrors v.hart (v.Hidden Ok) instruction instruction (Backed Ok) := by
  have hbegin : ∀ inst, v.Shows Ok (modify fun s : Hart => s.begin inst) := fun inst =>
    .modify fun _ hs => ⟨rfl, hs⟩
  refine (shows_nextInst.hidden untouched_csrs.nextInst).seq (fun inst => ?_) fun _ h => h.1
  refine ((hbegin inst).hidden (.modify fun _ => rfl)).seq (fun _ => ?_) fun _ h => h.1
  exact (mirrors_execute hv).seq (fun _ => shows_retire) fun _ h => h

lemma hart_trapToSupervisor (s : Hart) (cause : U64) (isInterrupt : Bool) :
    (v.hart s).cpu.trapToSupervisor cause isInterrupt =
      s.cpu.trapToSupervisor cause isInterrupt := by
  unfold Cpu.trapToSupervisor
  dsimp only
  rw [show (v.hart s).cpu.csrs = v.csrs s.cpu.csrs from rfl, v.csrs_delegatedInterrupt,
    v.csrs_delegatedException]
  rfl

lemma hart_enterTrap (s : Hart) (cause tval epc : U64) (isInterrupt : Bool) :
    (v.hart s).enterTrap cause tval epc isInterrupt =
      v.hart (s.enterTrap cause tval epc isInterrupt) := by
  have hfp : ∀ b : Bool, ¬ isFpCsr (if b then Csr.stvec else Csr.mtvec) = true := by decide
  unfold Hart.enterTrap
  dsimp only
  rw [hart_trapToSupervisor, show (v.hart s).cpu.csrs = v.csrs s.cpu.csrs from rfl,
    v.csrs_enterTrap, v.csrs_read _ (hfp _)]
  rfl

lemma hart_handlerInstalledFor (s : Hart) (t : Trap) :
    (v.hart s).cpu.handlerInstalledFor t = s.cpu.handlerInstalledFor t := by
  have hfp : ∀ b : Bool, ¬ isFpCsr (if b then Csr.stvec else Csr.mtvec) = true := by decide
  unfold Cpu.handlerInstalledFor
  dsimp only
  rw [show (v.hart s).cpu.csrs = v.csrs s.cpu.csrs from rfl, v.csrs_delegatedException,
    v.csrs_read _ (hfp _)]
  rfl

lemma hart_nextInterrupt (s : Hart) : (v.hart s).cpu.nextInterrupt = s.cpu.nextInterrupt := by
  unfold Cpu.nextInterrupt Cpu.interruptCandidates CsrFile.mstatusMie CsrFile.mstatusSie
  dsimp only
  rw [show (v.hart s).cpu.csrs = v.csrs s.cpu.csrs from rfl, v.csrs_pendingEnabled,
    v.csrs_read _ (by decide), v.csrs_mstatus]
  rfl

lemma shows_handleTrapOrStop (t : Trap) : v.Shows Ok (handleTrapOrStop t) := by
  refine .bind (shows_modifyCpu (fun _ => rfl) fun _ => ⟨rfl, rfl, rfl⟩) fun _ =>
    .get_bind fun s _ => .ite ?_ (fun _ => .throw _) fun _ => .modify fun s hs => ⟨?_, hs⟩
  · rw [hart_handlerInstalledFor]
    rfl
  · exact hart_enterTrap s _ _ _ _

/-- A step of the image is the image of the step. -/
lemma mirrors_stepCore (hv : v.Exact Ok) :
    Mirrors v.hart (v.Hidden Ok) stepCore stepCore (Backed Ok) := by
  refine .get_bind fun s _ => ?_
  rw [hart_nextInterrupt]
  cases s.cpu.nextInterrupt with
  | some i => exact .modify fun s hs => ⟨hart_enterTrap s _ _ _ _, hs.1⟩
  | none =>
    refine (mirrors_instruction hv).attempt.seq (fun r => ?_) fun _ h => h
    cases r with
    | ok _ => exact .pure _
    | error t => exact shows_handleTrapOrStop t

end View

end RiscvEmu
