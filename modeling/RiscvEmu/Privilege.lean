import RiscvEmu.History

/-!
# Privilege levels

A hart leaves the three real levels only through a CSR instruction that writes the reserved level
to the MPP field of `mstatus`.
-/

namespace RiscvEmu

open Exec BitField Csr

/-- The level of the hart and the one it came from are real. -/
def RealLevels (c : Cpu) : Prop := isValidPriv c.priv.val ∧ isValidPriv c.csrs.mstatusMpp

/-- No CSR instruction has written a reserved level to MPP. -/
def NoReservedMpp (log : List Event) : Prop :=
  ∀ h v, Event.csrWrite h mstatus v ∈ log → isValidPriv (PrivLevel.ofMpp v).val

lemma NoReservedMpp.of_suffix {l l' : List Event} (h : NoReservedMpp l') (hl : l <:+ l') :
    NoReservedMpp l := fun i v hv => h i v (hl.subset hv)

/-! ## The field MPP -/

section Mpp

variable {c c' : CsrFile}

lemma mpp_of_raw (h : c'.raw mstatus = c.raw mstatus) : c'.mstatusMpp = c.mstatusMpp := by
  rw [CsrFile.mstatusMpp, CsrFile.mstatusMpp, h]

lemma mpp_of_and (h : c'.raw mstatus &&& mstatusMpp = c.raw mstatus &&& mstatusMpp) :
    c'.mstatusMpp = c.mstatusMpp := by
  rw [CsrFile.mstatusMpp, CsrFile.mstatusMpp, h]

variable (c)

lemma mpp_setMstatus (st : U64) : (c.setMstatus st).mstatusMpp = (PrivLevel.ofMpp st).val := by
  have hmask : mstatusMask &&& mstatusMpp = mstatusMpp := by decide
  rw [CsrFile.mstatusMpp, CsrFile.setMstatus_raw, merge_and_of_subset hmask]
  rfl

lemma val_ofMpp_mstatus : (PrivLevel.ofMpp c.mstatus).val = c.mstatusMpp := by
  have hsd : mstatusSd &&& mstatusMpp = 0 := by decide
  rw [CsrFile.mstatusMpp, ← c.mstatus_and hsd]
  rfl

lemma mpp_setMstatus_of_and {st : U64} (h : st &&& mstatusMpp = c.mstatus &&& mstatusMpp) :
    (c.setMstatus st).mstatusMpp = c.mstatusMpp := by
  rw [mpp_setMstatus, ← val_ofMpp_mstatus]
  simp only [PrivLevel.ofMpp, h]

/-- Of the CSRs only `mstatus` itself gives access to MPP. -/
lemma mpp_write {addr : CsrAddr} (v : U64) (h : addr ≠ mstatus) :
    (c.write addr v).mstatusMpp = c.mstatusMpp := by
  by_cases hs : addr = sstatus
  · subst hs
    have hmask : sstatusWriteMask &&& mstatusMpp = 0 := by decide
    apply mpp_of_and
    rw [show (c.write sstatus v).raw mstatus =
      merge sstatusWriteMask (c.raw mstatus) v from CsrFile.setRaw_raw_self ..]
    exact merge_and_of_disjoint hmask
  · apply mpp_of_raw
    exact CsrFile.write_raw_of_ne _ _ (CsrFile.mstatus_ne_cell h hs)

lemma mpp_markFpuDirty : c.markFpuDirty.mstatusMpp = c.mstatusMpp := by
  have hfs : mstatusFs &&& mstatusMpp = 0 := by decide
  have hdirty : mstatusFsDirty &&& mstatusMpp = 0 := by decide
  apply mpp_of_and
  rw [CsrFile.markFpuDirty, CsrFile.setRaw_raw_self]
  exact clear_or_and_of_disjoint hfs hdirty

lemma mpp_raiseFflags (flags : U64) : (c.raiseFflags flags).mstatusMpp = c.mstatusMpp :=
  mpp_of_raw (CsrFile.setRaw_raw_ne _ _ (by decide))

end Mpp

lemma isValidPriv_mretStatus (st : U64) : isValidPriv (PrivLevel.ofMpp (mretStatus st)).val := by
  have hmprv : mstatusMprv &&& mstatusMpp = 0 := by decide
  have hzero : mretStatus st &&& mstatusMpp = 0 := by
    unfold mretStatus
    dsimp only
    generalize (if st &&& mstatusMpie ≠ 0 then st ||| mstatusMie
      else st &&& ~~~mstatusMie) = a
    split
    · rw [clear_and_of_disjoint hmprv, clear_or_and_self]
      rfl
    · rw [clear_or_and_self]
      rfl
  simp only [PrivLevel.ofMpp, hzero]
  decide

/-- A trap into machine mode saves the level it came from. -/
lemma ofMpp_machineTrapStatus (priv : PrivLevel) (st : U64) :
    (PrivLevel.ofMpp (machineTrapStatus priv st)).val = priv.val := by
  simp only [PrivLevel.ofMpp, machineTrapStatus, clear_or_and_self]
  rcases priv.val_cases with h | h | h | h <;> rw [h] <;> decide

/-- Trap entry goes to a real level, and saves the one it came from or keeps MPP. -/
lemma realLevels_enterTrap {s : Hart} (h : RealLevels s.cpu) (cause tval epc : U64)
    (isInterrupt : Bool) : RealLevels (s.enterTrap cause tval epc isInterrupt).cpu := by
  unfold Hart.enterTrap RealLevels
  dsimp only [Hart.clearReservation, Hart.mapMail]
  generalize s.cpu.trapToSupervisor cause isInterrupt = x
  cases x with
  | true =>
    refine ⟨by decide, ?_⟩
    have hmpp : (s.cpu.csrs.enterTrap true s.cpu.priv cause tval epc).mstatusMpp =
        s.cpu.csrs.mstatusMpp := by
      have hkept : keptStatus true &&& mstatusMpp = mstatusMpp := by decide
      have hst := and_of_subset
        (supervisorTrapStatus_kept s.cpu.priv s.cpu.csrs.mstatus) hkept
      rw [show s.cpu.csrs.enterTrap true s.cpu.priv cause tval epc =
        (((s.cpu.csrs.write sepc epc).write scause cause).write stval tval).setMstatus
          (supervisorTrapStatus s.cpu.priv s.cpu.csrs.mstatus) from rfl, mpp_setMstatus,
        ← val_ofMpp_mstatus]
      simp only [PrivLevel.ofMpp, hst]
    rw [hmpp]
    exact h.2
  | false =>
    refine ⟨by decide, ?_⟩
    rw [show s.cpu.csrs.enterTrap false s.cpu.priv cause tval epc =
      (((s.cpu.csrs.write mepc epc).write mcause cause).write mtval tval).setMstatus
        (machineTrapStatus s.cpu.priv s.cpu.csrs.mstatus) from rfl, mpp_setMstatus,
      ofMpp_machineTrapStatus]
    exact h.1

/-! ## Steps -/

/-- Real levels stay real, as long as no reserved one is written. -/
def KeepsLevels (s t : Hart) : Prop :=
  LogGrows s t ∧ (NoReservedMpp t.sys.log → RealLevels s.cpu → RealLevels t.cpu)

instance : IsPreorder Hart KeepsLevels where
  refl s := ⟨refl_of LogGrows s, fun _ h => h⟩
  trans _ _ _ h g := ⟨trans_of LogGrows h.1 g.1,
    fun hlog hs => g.2 hlog (h.2 (hlog.of_suffix g.1) hs)⟩

/-- What leaves the architectural state alone. -/
lemma KeepsLevels.of_archSame {s t : Hart} (hl : LogGrows s t) (ha : ArchSame s t) :
    KeepsLevels s t := by
  refine ⟨hl, fun _ h => ?_⟩
  rw [RealLevels, ha.priv, ha.csrs]
  exact h

/-- What leaves the level alone, and MPP in the status word. -/
lemma KeepsLevels.of_mpp {s t : Hart} (hl : LogGrows s t) (hp : t.cpu.priv = s.cpu.priv)
    (hm : t.cpu.csrs.mstatusMpp = s.cpu.csrs.mstatusMpp) : KeepsLevels s t := by
  refine ⟨hl, fun _ h => ?_⟩
  rw [RealLevels, hp, hm]
  exact h

lemma keepsLevels_update {inst : DecodedInst} {f : Hart → Hart} (hf : Update inst f) (s : Hart) :
    KeepsLevels s (f s) := by
  have hl := hartKeeps_logGrows.update inst f hf s
  cases hf with
  | setReg i v => exact .of_mpp hl (Cpu.setReg_priv ..) (by rw [Cpu.setReg_csrs])
  | writeFreg i v => exact .of_mpp hl rfl (mpp_markFpuDirty _)
  | putFp i v flags =>
    exact .of_mpp hl rfl ((mpp_markFpuDirty _).trans (mpp_raiseFflags _ _))
  | raiseFflags flags _ => exact .of_mpp hl rfl (mpp_raiseFflags _ _)
  | mret =>
    refine ⟨hl, fun _ h => ⟨?_, ?_⟩⟩
    · show isValidPriv (PrivLevel.ofMpp s.cpu.csrs.mstatus).val
      rw [val_ofMpp_mstatus]
      exact h.2
    · show isValidPriv (s.cpu.csrs.setMstatus _).mstatusMpp
      rw [mpp_setMstatus]
      exact isValidPriv_mretStatus _
  | sret =>
    refine ⟨hl, fun _ h => ⟨?_, ?_⟩⟩
    · show isValidPriv (sretPriv s.cpu.csrs.mstatus).val
      unfold sretPriv
      split <;> decide
    · show isValidPriv (s.cpu.csrs.setMstatus _).mstatusMpp
      rw [mpp_setMstatus_of_and _
        (sretStatus_and (by decide) (by decide) (by decide) (by decide) _)]
      exact h.2
  | setTimer deadline =>
    exact .of_mpp hl rfl (mpp_of_raw (Clint.setTimer_raw _ _ _ _ (by decide)))
  | ipi => exact .of_mpp hl rfl (mpp_of_raw (CsrFile.setRaw_raw_ne _ _ (by decide)))
  | _ => exact .of_mpp hl rfl rfl

/-- A CSR write leaves real levels unless it writes a reserved one to `mstatus`. -/
lemma keepsLevels_csrCommit (addr : CsrAddr) (v : U64) : Keeps KeepsLevels (csrCommit addr v) := by
  intro s
  have hl := logGrows_csrCommit addr v s
  refine ⟨hl, fun hlog h => ?_⟩
  have hmem : Event.csrWrite s.cpu.hartid addr v ∈ (final (csrCommit addr v) s).sys.log := by
    unfold csrCommit final
    dsimp only [modify_apply]
    by_cases hsatp : addr = satp
    · rw [if_pos hsatp]
      exact List.mem_cons_of_mem _ List.mem_cons_self
    · rw [if_neg hsatp]
      exact List.mem_cons_self
  obtain ⟨hcsrs, -, -, -, hpriv, -⟩ := csrCommit_cpu addr v s
  rw [RealLevels, hpriv, hcsrs]
  refine ⟨h.1, ?_⟩
  by_cases haddr : addr = mstatus
  · subst haddr
    rw [show s.cpu.csrs.write mstatus v = s.cpu.csrs.setMstatus v from rfl, mpp_setMstatus]
    exact hlog _ _ hmem
  · rw [mpp_write _ _ haddr]
    exact h.2

lemma keepsLevels_move {f : Hart → Hart} (hf : Move f) (s : Hart) : KeepsLevels s (f s) := by
  have hl := hartKeeps_logGrows.move f hf s
  cases hf with
  | enterTrap cause tval epc isInterrupt =>
    exact ⟨hl, fun _ h => realLevels_enterTrap h cause tval epc isInterrupt⟩
  | retire =>
    refine .of_mpp hl rfl ?_
    show (if s.cpu.counterWritten then s.cpu.csrs else s.cpu.csrs.tickCounters).mstatusMpp = _
    split
    · rfl
    · exact mpp_of_raw ((CsrFile.setRaw_raw_ne _ _ (by decide)).trans
        (CsrFile.setRaw_raw_ne _ _ (by decide)))
  | startAt addr arg =>
    refine ⟨hl, fun _ h => ?_⟩
    have hcsrs : (s.startAt addr arg).cpu.csrs.mstatusMpp = s.cpu.csrs.mstatusMpp := by
      have hmask : (mstatusSie ||| mstatusSpie) &&& mstatusMpp = 0 := by decide
      rw [Hart.startAt_csrs, mpp_setMstatus_of_and _ (clear_and_of_disjoint hmask),
        mpp_write _ _ (by decide)]
    rw [RealLevels, Hart.startAt_priv, hcsrs]
    exact ⟨by decide, h.2⟩
  | drive =>
    refine .of_mpp hl rfl (mpp_of_raw ?_)
    exact (Plic.update_raw _ _ _ (by decide)).trans (Clint.update_raw _ _ _ (by decide))
  | delegate =>
    refine .of_mpp hl rfl ?_
    show ((((((s.cpu.csrs.write medeleg _).write mideleg _).write mie _).write
      mcounteren _).write scounteren _)).mstatusMpp = _
    rw [mpp_write _ _ (by decide), mpp_write _ _ (by decide), mpp_write _ _ (by decide),
      mpp_write _ _ (by decide), mpp_write _ _ (by decide)]
  | enterKernel entry dtbAddr =>
    refine ⟨hl, fun _ h => ?_⟩
    have hcpu : (Hart.enterKernel entry dtbAddr s).cpu.priv = .supervisor ∧
        (Hart.enterKernel entry dtbAddr s).cpu.csrs = s.cpu.csrs := by
      simp [Hart.enterKernel]
    rw [RealLevels, hcpu.1, hcpu.2]
    exact ⟨by decide, h.2⟩
  | _ => exact .of_mpp hl rfl rfl

lemma hartKeeps_levels : HartKeeps KeepsLevels where
  probe := (hartKeeps_logGrows.probe.and probeKeeps_archSame).mono
    fun _ _ h => .of_archSame h.1 h.2
  nextInst s := .of_archSame (hartKeeps_logGrows.nextInst s) (nextInst_archSame s)
  update _ _ hf s := keepsLevels_update hf s
  csrWrite _ _ :=
    keeps_csrWrite (fun s => .of_mpp (refl_of LogGrows s) rfl (mpp_markFpuDirty _))
      keepsLevels_csrCommit
  move _ hf s := keepsLevels_move hf s

/-! ## Runs -/

lemma hartInv_levels :
    HartInv (fun _ s => NoReservedMpp s.sys.log → RealLevels s.cpu)
      (fun _ t t' => t.log <:+ t'.log) where
  keeps i f s hf _ h hlog := by
    have hk := hartKeeps_levels.op hf s
    exact hk.2 hlog (h (hlog.of_suffix hk.1))
  guarantees i f s hf _ _ := (hartKeeps_levels.op hf s).1
  stable i j c s s' _ h hg hlog := h (hlog.of_suffix hg)
  outer i c s s' h ho hlog := h (hlog.of_suffix ho.suffix)

/-- In every run in which no CSR instruction writes a reserved level to MPP, every hart is always
at a real level, and so is the level in MPP. -/
theorem real_levels (cfg : Config) (m : Machine) (hm : Reachable cfg m)
    (hlog : ∀ h v, Event.csrWrite h mstatus v ∈ m.sys.log →
      isValidPriv (PrivLevel.ofMpp v).val) (i : ℕ) :
    isValidPriv (m.harts i).priv.val ∧ isValidPriv (m.harts i).csrs.mstatusMpp := by
  have hinit : ∀ j, NoReservedMpp ((Machine.init cfg).hart j).sys.log →
      RealLevels ((Machine.init cfg).hart j).cpu := by
    intro j _
    have hmpp : ((Machine.init cfg).hart j).cpu.csrs.mstatusMpp = CsrFile.new.mstatusMpp :=
      mpp_of_raw (CsrFile.setRaw_raw_ne _ _ (by decide))
    refine ⟨rfl, ?_⟩
    rw [hmpp]
    decide
  exact (hartInv_levels.reachable hinit hm i).2 hlog

/-- A program that writes the reserved level to MPP and returns to it. -/
def reservedMppCode : List U32 :=
  [0x000010b7, 0x30009073, 0x30200073] -- lui x1, 1; csrw mstatus, x1; mret

/-- One hart runs it from reset. -/
theorem reserved_level_reached :
    let cfg := Config.plain 1 4096 page_fits
    let m := (Machine.init cfg).run
      [.loadImage dramBase (codeBytes reservedMppCode), .step 0, .step 0, .step 0]
    (m.harts 0).priv.val = 2 := by
  decide +kernel

/-- A program that sets `mtvec`, writes the level of supervisor mode to MPP, returns to it and traps
there: `mepc` is not in RAM. -/
def supervisorMppCode : List U32 :=
  [0x00000117, 0x30511073,  -- auipc x2, 0; csrw mtvec, x2
   0x00100093, 0x00b09093,  -- addi x1, x0, 1; slli x1, x1, 11
   0x30009073, 0x30200073]  -- csrw mstatus, x1; mret

/-- One hart after the return, or after the trap. -/
def supervisorMpp (trapped : Bool) : Machine :=
  (Machine.init (.plain 1 4096 page_fits)).run
    (.loadImage dramBase (codeBytes supervisorMppCode) ::
      List.replicate (if trapped then 7 else 6) (.step 0))

/-- The levels stay real through a write of MPP, a return and a trap. -/
theorem real_levels_sample :
    Event.csrWrite 0 mstatus 0x800 ∈ (supervisorMpp true).sys.log ∧
      ((supervisorMpp false).harts 0).priv = .supervisor ∧
      ((supervisorMpp true).harts 0).priv = .machine ∧
      ∀ trapped, isValidPriv ((supervisorMpp trapped).harts 0).priv.val ∧
        isValidPriv ((supervisorMpp trapped).harts 0).csrs.mstatusMpp := by
  refine ⟨by decide +kernel, by decide +kernel, by decide +kernel, fun trapped => ?_⟩
  refine real_levels (.plain 1 4096 page_fits) _ ⟨_, rfl⟩ ?_ 0
  refine csrWrite_of_writesOnly (P := fun v => isValidPriv (PrivLevel.ofMpp v).val) ?_
  cases trapped <;> decide +kernel

end RiscvEmu
