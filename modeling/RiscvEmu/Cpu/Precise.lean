import RiscvEmu.Cpu.Instructions
import RiscvEmu.Machine

/-!
# Precise exceptions

An instruction that traps has not touched a register, a CSR, the pc or the privilege, and the
delivery of the trap writes the trap CSRs of one mode only.
-/

namespace RiscvEmu

open Exec BitField

/-! ## What a trap leaves alone -/

/-- The architectural state of the hart is the same.  A register file that stands in for the
array has seen the same writes. -/
structure ArchSame (s t : Hart) : Prop where
  regs : t.cpu.regs = s.cpu.regs
  regfile : t.cpu.regfile.map RegFileBackend.forgetReads =
    s.cpu.regfile.map RegFileBackend.forgetReads
  fregs : t.cpu.fregs = s.cpu.fregs
  pc : t.cpu.pc = s.cpu.pc
  priv : t.cpu.priv = s.cpu.priv
  csrs : t.cpu.csrs = s.cpu.csrs
  instret : t.cpu.instret = s.cpu.instret

instance : IsPreorder Hart ArchSame where
  refl _ := ⟨rfl, rfl, rfl, rfl, rfl, rfl, rfl⟩
  trans _ _ _ h g := ⟨g.regs.trans h.regs, g.regfile.trans h.regfile, g.fregs.trans h.fregs,
    g.pc.trans h.pc, g.priv.trans h.priv, g.csrs.trans h.csrs, g.instret.trans h.instret⟩

lemma ScratchFrame.archSame {s t : Hart} (h : ScratchFrame s t) : ArchSame s t where
  regs := by rw [h.cpu]
  regfile := h.regfile
  fregs := by rw [h.cpu]
  pc := by rw [h.cpu]
  priv := by rw [h.cpu]
  csrs := by rw [h.cpu]
  instret := by rw [h.cpu]

lemma memKeeps_archSame : MemKeeps ArchSame where
  translate va ty p s := by
    rw [final_translateFor]
    exact ⟨rfl, rfl, rfl, rfl, rfl, rfl, rfl⟩
  load pa size ty s := by
    rw [final_liftSys]
    exact ⟨rfl, rfl, rfl, rfl, rfl, rfl, rfl⟩
  store pa size v := by
    refine .bind (fun s => ?_) fun _ => .modify fun s => ⟨rfl, rfl, rfl, rfl, rfl, rfl, rfl⟩
    rw [final_liftSys]
    exact ⟨rfl, rfl, rfl, rfl, rfl, rfl, rfl⟩

lemma probeKeeps_archSame : ProbeKeeps ArchSame :=
  memKeeps_archSame.probeKeeps fun _ _ h => h.archSame

/-! ## Refused CSR writes -/

/-- Once an FP CSR has made the unit dirty, the write goes through. -/
lemma csrWritable_of_isFpCsr {addr : CsrAddr} (h : isFpCsr addr) (c : Cpu) :
    c.csrWritable addr = true := by
  have haddr : addr = Csr.fcsr ∨ addr = Csr.fflags ∨ addr = Csr.frm := by
    simpa only [isFpCsr, decide_eq_true_eq] using h
  rcases haddr with rfl | rfl | rfl <;>
    simp [Cpu.csrWritable, Cpu.tvmBlocks, Csr.isReadOnly, Csr.minPrivilege, Csr.fcsr, Csr.fflags,
      Csr.frm, Csr.satp]

lemma csrFinish_fail {addr : CsrAddr} {v : U64} {s s' : Hart} {t : Trap}
    (h : csrFinish addr v s = .error t s') : s' = s ∧ ¬ s.cpu.csrWritable addr = true := by
  unfold csrFinish at h
  rw [bind_of_ok (get_apply s)] at h
  by_cases hw : s.cpu.csrWritable addr = true
  · rw [if_pos hw] at h
    cases h
  · rw [if_neg hw] at h
    cases h
    exact ⟨rfl, hw⟩

lemma csrWrite_fail (addr : CsrAddr) (v : U64) : FailKeeps ArchSame (csrWrite addr v) := by
  intro s t s' h
  unfold csrWrite at h
  rw [bind_of_ok (get_apply s)] at h
  split at h
  · cases h
    exact refl_of ArchSame s
  · split at h
    · cases h
      exact refl_of ArchSame s
    · rw [bind_of_ok (modify_apply _ s)] at h
      obtain ⟨rfl, hw⟩ := csrFinish_fail h
      by_cases hfp : isFpCsr addr = true
      · exact absurd (csrWritable_of_isFpCsr hfp _) hw
      · rw [Hart.markFp, if_neg hfp]
        exact refl_of ArchSame s

/-- A failed instruction leaves the architectural state alone. -/
theorem execute_failKeeps (inst : DecodedInst) : FailKeeps ArchSame (execute inst) :=
  (instr_execute inst).failKeeps probeKeeps_archSame fun v => csrWrite_fail _ v

lemma nextInst_archSame : Keeps ArchSame nextInst := by
  refine memKeeps_archSame.nextInst (fun s => ?_) fun s pa inst =>
    ⟨rfl, rfl, rfl, rfl, rfl, rfl, rfl⟩
  unfold Hart.checkEpoch
  split
  · exact ⟨rfl, rfl, rfl, rfl, rfl, rfl, rfl⟩
  · exact refl_of ArchSame s

/-- So does a step that fails, in the fetch or in the execution. -/
lemma instruction_failKeeps : FailKeeps ArchSame instruction := by
  refine nextInst_archSame.bind_failKeeps fun inst => ?_
  refine (Keeps.modify fun s => ⟨rfl, rfl, rfl, rfl, rfl, rfl, rfl⟩).bind_failKeeps fun _ => ?_
  exact (execute_failKeeps inst).bind_total fun _ => .modify _

lemma retire_raw (s : Hart) (a : CsrAddr) (h₁ : a ≠ Csr.minstret) (h₂ : a ≠ Csr.mcycle) :
    s.retire.cpu.csrs.raw a = s.cpu.csrs.raw a := by
  show (if s.cpu.counterWritten then s.cpu.csrs else s.cpu.csrs.tickCounters).raw a = _
  split
  · rfl
  · exact (CsrFile.setRaw_raw_ne _ _ h₂).trans (CsrFile.setRaw_raw_ne _ _ h₁)

/-! ## Delivery -/

/-- The trap CSRs of the mode that takes a trap. -/
def trapCsrs (toSupervisor : Bool) : List CsrAddr :=
  if toSupervisor then [Csr.sepc, Csr.scause, Csr.stval] else [Csr.mepc, Csr.mcause, Csr.mtval]

/-- The fields of `mstatus` that belong to that mode. -/
def trapFields (toSupervisor : Bool) : U64 :=
  if toSupervisor then Csr.mstatusSie ||| Csr.mstatusSpie ||| Csr.mstatusSpp
  else Csr.mstatusMie ||| Csr.mstatusMpie ||| Csr.mstatusMpp

/-- Only the trap CSRs and the status fields of one mode differ. -/
structure TrapDelta (toSupervisor : Bool) (c c' : CsrFile) : Prop where
  others : ∀ a, a ∉ trapCsrs toSupervisor → a ≠ Csr.mstatus → c'.raw a = c.raw a
  status : c'.raw Csr.mstatus &&& ~~~trapFields toSupervisor =
    c.raw Csr.mstatus &&& ~~~trapFields toSupervisor

/-- The bits of `mstatus` a trap must not change: stored, and not a field of the mode. -/
def keptStatus (toSupervisor : Bool) : U64 := ~~~trapFields toSupervisor &&& Csr.mstatusMask

lemma supervisorTrapStatus_kept (priv : PrivLevel) (st : U64) :
    supervisorTrapStatus priv st &&& keptStatus true = st &&& keptStatus true := by
  dsimp only [supervisorTrapStatus]
  rw [assign_and_of_disjoint (by decide), clear_and_of_disjoint (by decide),
    assign_and_of_disjoint (by decide)]

lemma machineTrapStatus_kept (priv : PrivLevel) (st : U64) :
    machineTrapStatus priv st &&& keptStatus false = st &&& keptStatus false := by
  have hnew : (priv.val.setWidth 64 <<< Csr.mstatusMppShift) &&& keptStatus false = 0 := by
    rcases priv.val_cases with h | h | h | h <;> rw [h] <;> decide
  dsimp only [machineTrapStatus]
  rw [clear_or_and_of_disjoint (by decide) hnew, clear_and_of_disjoint (by decide),
    assign_and_of_disjoint (by decide)]

/-- Writing the trap CSRs and then the status word is a delta of the mode. -/
lemma trapDelta_of_writes {x : Bool} {c : CsrFile} {a₁ a₂ a₃ : CsrAddr} {v₁ v₂ v₃ st : U64}
    (hx : trapCsrs x = [a₁, a₂, a₃]) (h₁ : CsrFile.cell a₁ = a₁) (h₂ : CsrFile.cell a₂ = a₂)
    (h₃ : CsrFile.cell a₃ = a₃) (hms : Csr.mstatus ∉ trapCsrs x)
    (hkeep : st &&& keptStatus x = c.mstatus &&& keptStatus x) :
    TrapDelta x c ((((c.write a₁ v₁).write a₂ v₂).write a₃ v₃).setMstatus st) := by
  have hraw : ∀ a, a ∉ trapCsrs x →
      (((c.write a₁ v₁).write a₂ v₂).write a₃ v₃).raw a = c.raw a := by
    intro a ha
    rw [hx, List.mem_cons, List.mem_cons, List.mem_singleton, not_or, not_or] at ha
    rw [CsrFile.write_raw_of_ne _ _ (by rw [h₃]; exact ha.2.2),
      CsrFile.write_raw_of_ne _ _ (by rw [h₂]; exact ha.2.1),
      CsrFile.write_raw_of_ne _ _ (by rw [h₁]; exact ha.1)]
  refine ⟨fun a ha hne => ?_, ?_⟩
  · rw [CsrFile.setMstatus_raw_ne _ _ hne, hraw a ha]
  · rw [CsrFile.setMstatus_raw, hraw _ hms]
    apply merge_and_of_agree
    change st &&& keptStatus x = _
    rw [hkeep, CsrFile.mstatus_and]
    · rfl
    · cases x <;> decide

/-- Trap entry changes the CSRs of its mode only. -/
lemma enterTrap_delta (c : CsrFile) (x : Bool) (priv : PrivLevel) (cause tval epc : U64) :
    TrapDelta x c (c.enterTrap x priv cause tval epc) := by
  cases x with
  | true =>
    exact trapDelta_of_writes rfl rfl rfl rfl (by decide) (supervisorTrapStatus_kept _ _)
  | false =>
    exact trapDelta_of_writes rfl rfl rfl rfl (by decide) (machineTrapStatus_kept _ _)

/-- A trap reaches the trap CSRs of the two modes and the status word. -/
lemma enterTrap_raw (s : Hart) (cause tval epc : U64) (isInterrupt : Bool) {a : CsrAddr}
    (h : ∀ x, a ∉ trapCsrs x) (hs : a ≠ Csr.mstatus) :
    (s.enterTrap cause tval epc isInterrupt).cpu.csrs.raw a = s.cpu.csrs.raw a :=
  (enterTrap_delta s.cpu.csrs _ s.cpu.priv cause tval epc).others a (h _) hs

/-- What an instruction commits reaches the flags, the status word and the pending interrupts, CSR
writes apart. -/
lemma update_raw {inst : DecodedInst} {f : Hart → Hart} {a : CsrAddr} (h₁ : a ≠ Csr.fcsr)
    (h₂ : a ≠ Csr.mstatus)
    (h₃ : a ≠ Csr.mip) (hf : Update inst f) (s : Hart) : (f s).cpu.csrs.raw a =
      s.cpu.csrs.raw a := by
  cases hf with
  | setReg i v => rw [Cpu.setReg_csrs]
  | writeFreg i v => exact CsrFile.setRaw_raw_ne _ _ h₂
  | putFp i v flags => exact (CsrFile.setRaw_raw_ne _ _ h₂).trans (CsrFile.setRaw_raw_ne _ _ h₁)
  | raiseFflags flags _ => exact CsrFile.setRaw_raw_ne _ _ h₁
  | mret | sret => exact CsrFile.setMstatus_raw_ne _ _ h₂
  | setTimer deadline => exact Clint.setTimer_raw _ _ _ _ h₃
  | ipi => exact CsrFile.setRaw_raw_ne _ _ h₃
  | _ => rfl

/-! ## The step -/

/-- A trap that `step_core` does not stop on ends in the CSRs of its mode. -/
lemma stepCore_delta {s : Hart} {t : Trap} (hi : s.cpu.nextInterrupt = none)
    (hf : failure instruction s = some t) (hok : failure stepCore s = none) :
    TrapDelta (s.cpu.trapToSupervisor t.cause.code false) s.cpu.csrs
      (final stepCore s).cpu.csrs ∧ (final stepCore s).cpu.instret = s.cpu.instret := by
  have hsame := instruction_failKeeps s t _ (failure_eq_some.mp hf)
  obtain ⟨_, hstep⟩ := failure_eq_none.mp hok
  rw [stepCore_of_error hi (failure_eq_some.mp hf), handleTrapOrStop_apply] at hstep
  split at hstep
  · exact absurd hstep (by simp)
  · have hfin := (EStateM.Result.ok.inj hstep).2
    rw [← hfin]
    refine ⟨?_, hsame.instret⟩
    have hto : (final instruction s).cpu.trapToSupervisor t.cause.code false =
        s.cpu.trapToSupervisor t.cause.code false := by
      simp only [Cpu.trapToSupervisor, hsame.priv, hsame.csrs]
    rw [← hto, ← hsame.csrs]
    exact enterTrap_delta _ _ _ _ _ _

/-- A trap that stops the machine changes no CSR. -/
lemma stepCore_stopped {s : Hart} {t t' : Trap} (hi : s.cpu.nextInterrupt = none)
    (hf : failure instruction s = some t) (herr : failure stepCore s = some t') :
    ArchSame s (final stepCore s) := by
  have hsame := instruction_failKeeps s t _ (failure_eq_some.mp hf)
  have hstep := failure_eq_some.mp herr
  rw [stepCore_of_error hi (failure_eq_some.mp hf), handleTrapOrStop_apply] at hstep
  split at hstep
  · have hfin := (EStateM.Result.error.inj hstep).2
    rw [← hfin]
    exact ⟨hsame.regs, hsame.regfile, hsame.fregs, hsame.pc, hsame.priv, hsame.csrs, hsame.instret⟩
  · exact absurd hstep (by simp)

/-- **Precise exceptions.**  An instruction whose execution or fetch traps leaves the registers,
the privilege, the pc and the CSRs as they were, and the delivery of the trap changes the trap
CSRs and status fields of the mode that takes it and nothing else. -/
theorem precise_exceptions (s : Hart) :
    (∀ inst t, failure (execute inst) s = some t → ArchSame s (final (execute inst) s)) ∧
    (∀ t, failure fetchInst s = some t → ArchSame s (final fetchInst s)) ∧
    (∀ t, s.cpu.nextInterrupt = none → failure instruction s = some t →
      ArchSame s (final instruction s) ∧
      (failure stepCore s = none →
        TrapDelta (s.cpu.trapToSupervisor t.cause.code false) s.cpu.csrs
          (final stepCore s).cpu.csrs ∧ (final stepCore s).cpu.instret = s.cpu.instret) ∧
      (∀ t', failure stepCore s = some t' → ArchSame s (final stepCore s))) := by
  refine ⟨fun inst t h => ?_, fun t _ => ?_, fun t hi hf => ⟨?_, fun hok => ?_, fun t' herr => ?_⟩⟩
  · exact execute_failKeeps inst s t _ (failure_eq_some.mp h)
  · exact memKeeps_archSame.fetchInst s
  · exact instruction_failKeeps s t _ (failure_eq_some.mp hf)
  · exact stepCore_delta hi hf hok
  · exact stepCore_stopped hi hf herr

/-- A hart that has run `auipc x1, 0; csrrw x0, mtvec, x1` and stands at an illegal instruction. -/
def handlerSample : Hart :=
  ((Machine.init (.plain 1 4096 page_fits)).run
    [.loadImage dramBase (codeBytes [0x00000097, 0x30509073, 0]), .step 0, .step 0]).hart 0

/-- A hart out of reset, at an illegal instruction and with no handler. -/
def noHandlerSample : Hart := (Machine.init (.plain 1 4096 page_fits)).hart 0

/-- The same, at an odd address. -/
def oddPcSample : Hart :=
  { noHandlerSample with cpu := { noHandlerSample.cpu with pc := dramBase + 1 } }

theorem precise_exceptions_sample :
    (failure (execute Cpu.noInst) handlerSample = some ⟨.illegalInstruction, 0⟩ ∧
      ArchSame handlerSample (final (execute Cpu.noInst) handlerSample)) ∧
    (failure fetchInst oddPcSample = some ⟨.instructionAddressMisaligned, dramBase + 1⟩ ∧
      ArchSame oddPcSample (final fetchInst oddPcSample)) ∧
    (failure stepCore handlerSample = none ∧
      TrapDelta false handlerSample.cpu.csrs (final stepCore handlerSample).cpu.csrs) ∧
    failure stepCore noHandlerSample = some ⟨.illegalInstruction, 0⟩ ∧
      ArchSame noHandlerSample (final stepCore noHandlerSample) := by
  have hexec : failure (execute Cpu.noInst) handlerSample = some ⟨.illegalInstruction, 0⟩ := by
    decide +kernel
  have hfetch : failure fetchInst oddPcSample =
      some ⟨.instructionAddressMisaligned, dramBase + 1⟩ := by decide +kernel
  have hdeliver : failure stepCore handlerSample = none := by decide +kernel
  have hstop : failure stepCore noHandlerSample = some ⟨.illegalInstruction, 0⟩ := by
    decide +kernel
  have htrap := (precise_exceptions handlerSample).2.2 ⟨.illegalInstruction, 0⟩
    (by decide +kernel) (by decide +kernel)
  have hstopped := (precise_exceptions noHandlerSample).2.2 ⟨.illegalInstruction, 0⟩
    (by decide +kernel) (by decide +kernel)
  refine ⟨⟨hexec, ?_⟩, ⟨hfetch, ?_⟩, ⟨hdeliver, ?_⟩, hstop, ?_⟩
  · exact (precise_exceptions handlerSample).1 _ _ hexec
  · exact (precise_exceptions oddPcSample).2.1 _ hfetch
  · exact (htrap.2.1 hdeliver).1
  · exact hstopped.2.2 _ hstop

end RiscvEmu
