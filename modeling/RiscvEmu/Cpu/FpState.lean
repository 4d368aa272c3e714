import RiscvEmu.Cpu.Precise

/-!
# Announcing changes of the floating-point state

A kernel saves the floating-point state of a process only if the FS field of `mstatus` says Dirty.
Every instruction that changes an f register or `fcsr` sets it, except the comparisons and the
conversions to an integer, which raise flags and write an x register.
-/

namespace RiscvEmu

open Exec BitField

/-! ## The field FS -/

/-- FS says Dirty. -/
def FsDirty (c : CsrFile) : Prop := c.raw Csr.mstatus &&& Csr.mstatusFs = Csr.mstatusFsDirty

instance (c : CsrFile) : Decidable (FsDirty c) := by
  unfold FsDirty
  infer_instance

section Fs

variable {c c' : CsrFile}

lemma fsDirty_of_raw (h : c'.raw Csr.mstatus = c.raw Csr.mstatus) : FsDirty c' ↔ FsDirty c := by
  rw [FsDirty, FsDirty, h]

lemma fsDirty_of_and
    (h : c'.raw Csr.mstatus &&& Csr.mstatusFs = c.raw Csr.mstatus &&& Csr.mstatusFs) :
    FsDirty c' ↔ FsDirty c := by
  rw [FsDirty, FsDirty, h]

variable (c)

lemma fsDirty_markFpuDirty : FsDirty c.markFpuDirty := by
  rw [FsDirty, CsrFile.markFpuDirty, CsrFile.setRaw_raw_self, clear_or_and_self]
  decide

/-- A status word with the FS bits of the old one keeps FS. -/
lemma fsDirty_setMstatus {st : U64} (h : st &&& Csr.mstatusFs = c.mstatus &&& Csr.mstatusFs) :
    FsDirty (c.setMstatus st) ↔ FsDirty c := by
  have hmask : Csr.mstatusMask &&& Csr.mstatusFs = Csr.mstatusFs := by decide
  apply fsDirty_of_and
  rw [CsrFile.setMstatus_raw, merge_and_of_subset hmask, h, c.mstatus_and (by decide)]

lemma setMstatus_fcsr (st : U64) : (c.setMstatus st).raw Csr.fcsr = c.raw Csr.fcsr :=
  c.setMstatus_raw_ne st (by decide)

/-- The summary bit reads 1 when FS says Dirty. -/
lemma FsDirty.sd {c : CsrFile} (h : FsDirty c) : c.mstatus &&& Csr.mstatusSd ≠ 0 := by
  have hor : ∀ x : U64, (x ||| Csr.mstatusSd) &&& Csr.mstatusSd = Csr.mstatusSd := by
    intro x
    grind
  unfold FsDirty at h
  unfold CsrFile.mstatus
  dsimp only
  rw [if_pos h, hor]
  decide

end Fs

/-! ## Announced changes -/

/-- The floating-point state is the same. -/
structure FpSame (s t : Hart) : Prop where
  fregs : t.cpu.fregs = s.cpu.fregs
  fcsr : t.cpu.csrs.raw Csr.fcsr = s.cpu.csrs.raw Csr.fcsr
  dirty : FsDirty s.cpu.csrs → FsDirty t.cpu.csrs

/-- The state is the same, or it is marked. -/
def FpMarked (s t : Hart) : Prop := FsDirty t.cpu.csrs ∨ FpSame s t

instance : IsPreorder Hart FpMarked where
  refl _ := Or.inr ⟨rfl, rfl, id⟩
  trans _ _ _ h g := by
    rcases g with hd | g
    · exact Or.inl hd
    rcases h with hd | h
    · exact Or.inl (g.dirty hd)
    · exact Or.inr ⟨g.fregs.trans h.fregs, g.fcsr.trans h.fcsr, fun hd => g.dirty (h.dirty hd)⟩

variable {s : Hart} {inst : DecodedInst}

lemma ArchSame.fpMarked {t : Hart} (h : ArchSame s t) : FpMarked s t := by
  refine Or.inr ⟨h.fregs, ?_, fun hd => ?_⟩
  · rw [h.csrs]
  · rw [h.csrs]
    exact hd

lemma FpMarked.of_csrs {t : Hart} (hf : t.cpu.fregs = s.cpu.fregs)
    (hc : t.cpu.csrs.raw Csr.fcsr = s.cpu.csrs.raw Csr.fcsr)
    (hd : FsDirty t.cpu.csrs ↔ FsDirty s.cpu.csrs) : FpMarked s t := Or.inr ⟨hf, hc, hd.mpr⟩

lemma fpMarked_enterTrap (s : Hart) (cause tval epc : U64) (isInterrupt : Bool) :
    FpMarked s (s.enterTrap cause tval epc isInterrupt) := by
  have hdelta := enterTrap_delta s.cpu.csrs (s.cpu.trapToSupervisor cause isInterrupt) s.cpu.priv
    cause tval epc
  generalize hx : s.cpu.trapToSupervisor cause isInterrupt = x at hdelta
  have hcsrs : (s.enterTrap cause tval epc isInterrupt).cpu.csrs =
      s.cpu.csrs.enterTrap x s.cpu.priv cause tval epc := by
    rw [← hx]
    rfl
  refine .of_csrs rfl ?_ ?_
  · rw [hcsrs]
    exact hdelta.others _ (by cases x <;> decide) (by decide)
  · rw [hcsrs]
    exact fsDirty_of_and (and_of_subset hdelta.status (by cases x <;> decide))

lemma fpMarked_retire (s : Hart) : FpMarked s s.retire :=
  .of_csrs rfl (retire_raw s _ (by decide) (by decide))
    (fsDirty_of_raw (retire_raw s _ (by decide) (by decide)))

/-! ## Instructions that announce -/

lemma fpMarked_update (hinst : ¬ RaisesSilently inst) {f : Hart → Hart}
    (hf : Update inst f) (s : Hart) : FpMarked s (f s) := by
  cases hf with
  | setReg i v =>
    refine Or.inr ⟨by rw [Cpu.setReg_fregs], by rw [Cpu.setReg_csrs], fun hd => ?_⟩
    rw [Cpu.setReg_csrs]
    exact hd
  | writeFreg i v => exact Or.inl (fsDirty_markFpuDirty _)
  | putFp i v flags => exact Or.inl (fsDirty_markFpuDirty _)
  | raiseFflags flags h => exact absurd h hinst
  | mret =>
    exact .of_csrs rfl (setMstatus_fcsr _ _) (fsDirty_setMstatus _
      (mretStatus_and (by decide) (by decide) (by decide) (by decide) _))
  | sret =>
    exact .of_csrs rfl (setMstatus_fcsr _ _) (fsDirty_setMstatus _
      (sretStatus_and (by decide) (by decide) (by decide) (by decide) _))
  | setTimer deadline =>
    exact .of_csrs rfl (Clint.setTimer_raw _ _ _ _ (by decide))
      (fsDirty_of_raw (Clint.setTimer_raw _ _ _ _ (by decide)))
  | ipi =>
    exact .of_csrs rfl (CsrFile.setRaw_raw_ne _ _ (by decide))
      (fsDirty_of_raw (CsrFile.setRaw_raw_ne _ _ (by decide)))
  | _ => exact .of_csrs rfl rfl Iff.rfl

lemma fpMarked_csrWrite {addr : CsrAddr} (h₁ : addr ≠ Csr.mstatus) (h₂ : addr ≠ Csr.sstatus)
    (v : U64) : Keeps FpMarked (csrWrite addr v) := by
  have hms := CsrFile.mstatus_ne_cell h₁ h₂
  refine .bind .get fun s => ?_
  split
  · exact .throw _
  split
  · exact .throw _
  · -- an FP CSR is marked first; another one does not reach `fcsr`
    intro s
    have hfinish : ∀ t : Hart, final (csrFinish addr v) t = t ∨
        final (csrFinish addr v) t = final (csrCommit addr v) t := by
      intro t
      unfold csrFinish
      by_cases hw : t.cpu.csrWritable addr = true
      · refine Or.inr ?_
        unfold final
        rw [bind_of_ok (get_apply t), if_pos hw]
      · refine Or.inl ?_
        unfold final
        rw [bind_of_ok (get_apply t), if_neg hw]
        rfl
    have hdirty : ∀ t : Hart, FsDirty (final (csrFinish addr v) t).cpu.csrs ↔
        FsDirty t.cpu.csrs := by
      intro t
      rcases hfinish t with heq | heq
      · rw [heq]
      · rw [heq, (csrCommit_cpu addr v t).1]
        exact fsDirty_of_raw (CsrFile.write_raw_of_ne _ _ hms)
    show FpMarked s (final (csrFinish addr v) (s.markFp addr))
    by_cases hfp : isFpCsr addr = true
    · refine Or.inl ((hdirty _).mpr ?_)
      rw [Hart.markFp, if_pos hfp]
      exact fsDirty_markFpuDirty _
    · rw [Hart.markFp, if_neg hfp]
      have hfc : Csr.fcsr ≠ CsrFile.cell addr := by
        have hne : addr ≠ Csr.fcsr ∧ addr ≠ Csr.fflags ∧ addr ≠ Csr.frm := by
          simpa [isFpCsr] using hfp
        unfold CsrFile.cell
        split_ifs with hff
        · exact absurd hff (by simp [hne.2.1, hne.2.2])
        · decide
        · decide
        · exact fun heq => hne.1 heq.symm
      refine .of_csrs ?_ ?_ (hdirty s)
      · rcases hfinish s with heq | heq
        · rw [heq]
        · rw [heq, (csrCommit_cpu addr v s).2.2.2.1]
      · rcases hfinish s with heq | heq
        · rw [heq]
        · rw [heq, (csrCommit_cpu addr v s).1]
          exact CsrFile.write_raw_of_ne _ _ hfc

/-- A direct write of `mstatus` or `sstatus`: CSRRW, CSRRWI, or one of the other forms with a source
other than `x0` or 0. -/
def WritesStatus (inst : DecodedInst) : Prop :=
  IsCsr inst ∧ (inst.funct3 % 4 = 1 ∨ inst.rs1 ≠ 0) ∧
    (csrAddrOf inst = Csr.mstatus ∨ csrAddrOf inst = Csr.sstatus)

lemma csrSource_zero (h : inst.rs1 = 0) : csrSource inst = pure 0 := by
  unfold csrSource
  rw [h]
  split
  · rfl
  · rfl

/-- Without a source, the forms that set and clear bits only read. -/
lemma fpMarked_csrModify_zero : Keeps FpMarked (csrModify inst 0) := by
  have hread : Keeps FpMarked (csrRead (csrAddrOf inst)) := by
    refine .bind .get fun s => ?_
    split
    · exact .throw _
    · split
      · exact .pure _
      · exact .pure _
  refine .bind hread fun old => .bind ?_ fun _ => .modify fun s => ?_
  · rw [csrModifyWrite, if_neg (not_not.mpr rfl)]
    exact .pure ()
  · exact .of_csrs (Cpu.setReg_fregs _ _ _) (by rw [Cpu.setReg_csrs]) (by rw [Cpu.setReg_csrs])

/-- Every instruction that does not raise flags silently announces what it changes. -/
lemma fpMarked_execute (hinst : ¬ RaisesSilently inst) (hstatus : ¬ WritesStatus inst) :
    Keeps FpMarked (execute inst) := by
  by_cases hread : IsCsr inst ∧ inst.funct3 % 4 ≠ 1 ∧ inst.rs1 = 0
  · obtain ⟨hcsr, hform, hrs⟩ := hread
    rw [execute_system hcsr.1, executeSystem, if_pos hcsr.2, executeCsr, csrSource_zero hrs,
      pure_bind, if_neg hform]
    split
    · exact fpMarked_csrModify_zero
    · exact .throw _
  · have hne : ∀ h : IsCsr inst, csrAddrOf inst ≠ Csr.mstatus ∧ csrAddrOf inst ≠ Csr.sstatus := by
      intro h
      have hwrites : inst.funct3 % 4 = 1 ∨ inst.rs1 ≠ 0 := by
        by_contra hno
        rw [not_or, not_not] at hno
        exact hread ⟨h, hno⟩
      exact ⟨fun heq => hstatus ⟨h, hwrites, Or.inl heq⟩,
        fun heq => hstatus ⟨h, hwrites, Or.inr heq⟩⟩
    refine InstrKeeps.execute ⟨probeKeeps_archSame.mono fun _ _ h => h.fpMarked, ?_, ?_⟩
    · exact fun f hf s => fpMarked_update hinst hf s
    · exact fun h v => fpMarked_csrWrite (hne h).1 (hne h).2 v

/-! ## Instructions that do not -/

/-- The flags that a comparison or a conversion to an integer raises; 0 for any other
instruction, and for one that is refused. -/
def Cpu.silentFlags (c : Cpu) (inst : DecodedInst) : U64 :=
  let isDouble := inst.funct7 % 4 == 1
  let fmt := fmtOf isDouble
  let a := fpOperand isDouble (c.fregs inst.rs1)
  let b := fpOperand isDouble (c.fregs inst.rs2)
  if inst.opcode = Opcode.opFp ∧ inst.funct7 % 4 ≤ 1 ∧ c.csrs.fpuEnabled then
    if inst.funct7 / 4 = 0x14 then ((fcompare inst.funct3 a b fmt).map (·.2)).getD 0
    else if inst.funct7 / 4 = 0x18 then
      match Softfloat.Rm.fromBits
          (if inst.funct3 = frmDyn then c.csrs.roundingMode else inst.funct3),
        intKind inst.rs2 with
      | some rm, some (bits, signed) => (Softfloat.toInt a fmt rm bits signed).2
      | _, _ => 0
    else 0
  else 0

/-- A result put into an x register: the state after it. -/
def Hart.putInt (s : Hart) (inst : DecodedInst) (r : U64 × U64) : Hart :=
  { s with cpu := { s.cpu with csrs := s.cpu.csrs.raiseFflags r.2 }.setReg inst.rd r.1 }

lemma execute_opFp (h : inst.opcode = Opcode.opFp) :
    execute inst = executeOpFp inst := by
  unfold execute
  simp only [h]
  rfl

lemma executeOpFp_apply (inst : DecodedInst) (s : Hart) :
    executeOpFp inst s =
      if s.cpu.csrs.fpuEnabled ∧ inst.funct7 % 4 ≤ 1 then
        opFp inst (inst.funct7 / 4) (inst.funct7 % 4 == 1) (s.cpu.fregs inst.rs1)
          (s.cpu.fregs inst.rs2) s
      else .error (illegal inst) s := by
  unfold executeOpFp requireFpu
  by_cases hfpu : s.cpu.csrs.fpuEnabled = true
  · by_cases hfmt : inst.funct7 % 4 ≤ 1
    · rw [if_pos ⟨hfpu, hfmt⟩]
      simp only [bind_apply, get_apply, hfpu, not_true_eq_false, if_false, pure_apply,
        Nat.not_lt.mpr hfmt]
    · rw [if_neg fun h => hfmt h.2]
      simp only [bind_apply, get_apply, hfpu, not_true_eq_false, if_false, pure_apply,
        Nat.not_le.mp hfmt, if_true, throw_apply]
  · rw [if_neg fun h => hfpu h.1]
    simp only [bind_apply, get_apply, hfpu, Bool.false_eq_true, not_false_eq_true, if_true,
      throw_apply]

section

variable (inst : DecodedInst) (isDouble : Bool) (a b : U64)

lemma opFp_compare : opFp inst 0x14 isDouble a b =
    match fcompare inst.funct3 (fpOperand isDouble a) (fpOperand isDouble b) (fmtOf isDouble) with
    | none => throw (illegal inst)
    | some r => putInt inst r := rfl

lemma opFp_toInt : opFp inst 0x18 isDouble a b = (do
    let rm ← rounding inst
    match intKind inst.rs2 with
    | none => throw (illegal inst)
    | some (bits, signed) =>
      putInt inst (widenInt bits
        (Softfloat.toInt (fpOperand isDouble a) (fmtOf isDouble) rm bits signed))) :=
  rfl

lemma rounding_apply (s : Hart) : rounding inst s =
    match Softfloat.Rm.fromBits
      (if inst.funct3 = frmDyn then s.cpu.csrs.roundingMode else inst.funct3) with
    | none => .error (illegal inst) s
    | some rm => .ok rm s := by
  unfold rounding
  rw [bind_apply, get_apply]
  dsimp only
  cases Softfloat.Rm.fromBits
    (if inst.funct3 = frmDyn then s.cpu.csrs.roundingMode else inst.funct3) <;> rfl

end

/-- A silent instruction is refused, or it raises its flags and writes an x register. -/
lemma execute_silent (h : RaisesSilently inst) (s : Hart) :
    (∃ t, execute inst s = .error t s ∧ s.cpu.silentFlags inst = 0) ∨
      ∃ v, execute inst s = .ok () (s.putInt inst (v, s.cpu.silentFlags inst)) := by
  rw [execute_opFp h.1, executeOpFp_apply]
  unfold Cpu.silentFlags
  dsimp only
  by_cases hon : s.cpu.csrs.fpuEnabled ∧ inst.funct7 % 4 ≤ 1
  swap
  · refine Or.inl ⟨illegal inst, ?_, ?_⟩
    · rw [if_neg hon]
    · rw [if_neg fun h => hon ⟨h.2.2, h.2.1⟩]
  rw [if_pos hon, if_pos ⟨h.1, hon.2, hon.1⟩]
  generalize (inst.funct7 % 4 == 1) = isDouble
  rcases h.2 with hop | hop
  · -- a comparison
    rw [hop, if_pos rfl, opFp_compare]
    cases fcompare inst.funct3 (fpOperand isDouble (s.cpu.fregs inst.rs1))
      (fpOperand isDouble (s.cpu.fregs inst.rs2)) (fmtOf isDouble) with
    | none => exact Or.inl ⟨illegal inst, rfl, rfl⟩
    | some r => exact Or.inr ⟨r.1, rfl⟩
  · -- a conversion to an integer
    rw [hop, if_neg (by decide), if_pos rfl, opFp_toInt, bind_apply, rounding_apply]
    cases Softfloat.Rm.fromBits
      (if inst.funct3 = frmDyn then s.cpu.csrs.roundingMode else inst.funct3) with
    | none => exact Or.inl ⟨illegal inst, rfl, rfl⟩
    | some rm =>
      cases intKind inst.rs2 with
      | none => exact Or.inl ⟨illegal inst, rfl, rfl⟩
      | some k => exact Or.inr ⟨_, rfl⟩

lemma silentFlags_of_not (h : ¬ RaisesSilently inst) (c : Cpu) :
    c.silentFlags inst = 0 := by
  unfold Cpu.silentFlags
  dsimp only
  split
  · next hop =>
      rw [if_neg fun h' => h ⟨hop.1, Or.inl h'⟩, if_neg fun h' => h ⟨hop.1, Or.inr h'⟩]
  · rfl

lemma silentFlags_congr {c c' : Cpu} (hf : c'.fregs = c.fregs) (hc : c'.csrs = c.csrs)
    (inst : DecodedInst) : c'.silentFlags inst = c.silentFlags inst := by
  unfold Cpu.silentFlags
  rw [hf, hc]

/-! ## The step -/

/-- The instruction that a step executes, if no interrupt comes first and the fetch succeeds. -/
def Hart.fetched (s : Hart) : Option DecodedInst :=
  match s.cpu.nextInterrupt, nextInst s with
  | none, .ok inst _ => some inst
  | _, _ => none

lemma fetched_eq_some (h : s.fetched = some inst) :
    s.cpu.nextInterrupt = none ∧ ∃ t, nextInst s = .ok inst t := by
  rcases hi : s.cpu.nextInterrupt with _ | i
  · rcases hn : nextInst s with ⟨inst', t⟩ | ⟨e, t⟩
    · simp only [Hart.fetched, hi, hn, Option.some.injEq] at h
      exact ⟨rfl, t, by rw [h]⟩
    · simp only [Hart.fetched, hi, hn] at h
      exact absurd h (by simp)
  · simp only [Hart.fetched, hi] at h
    exact absurd h (by simp)

lemma retires_of_fetched {s₁ : Hart} (hn : nextInst s = .ok inst s₁) (h : s.Retires) :
    ∃ t, execute inst (s₁.begin inst) = .ok () t ∧ final stepCore s = t.retire := by
  cases he : execute inst (s₁.begin inst) with
  | ok _ t => exact ⟨t, rfl, final_of_ok (stepCore_of_ok h.1 (instruction_of_ok hn he))⟩
  | error e t => exact absurd (h.2.symm.trans (failure_of_error (instruction_of_error hn he))) nofun

/-- An f register or `fcsr` differs. -/
def FpChanged (s t : Hart) : Prop :=
  (∃ i < 32, t.cpu.fregs i ≠ s.cpu.fregs i) ∨
    t.cpu.csrs.read Csr.fcsr ≠ s.cpu.csrs.read Csr.fcsr

/-- If the step changes the floating-point state, FS says Dirty after it and SD reads 1. -/
def FpAnnounced (s : Hart) : Prop :=
  FpChanged s (final stepCore s) →
    FsDirty (final stepCore s).cpu.csrs ∧
      (final stepCore s).cpu.csrs.mstatus &&& Csr.mstatusSd ≠ 0

/-- The step raises a new flag by a comparison or a conversion to an integer while FS does not say
Dirty. -/
def RaisesUnannounced (s : Hart) : Prop :=
  ∃ inst, s.fetched = some inst ∧ ¬ FsDirty s.cpu.csrs ∧
    s.cpu.silentFlags inst &&& Csr.fcsrFflagsMask &&& ~~~s.cpu.csrs.raw Csr.fcsr ≠ 0

lemma FpMarked.announced (h : FpMarked s (final stepCore s)) : FpAnnounced s := by
  intro hchanged
  rcases h with hd | hsame
  · exact ⟨hd, hd.sd⟩
  · exfalso
    rcases hchanged with ⟨i, _, hne⟩ | hne
    · exact hne (by rw [hsame.fregs])
    · exact hne hsame.fcsr

lemma stepKeeps_fpMarked : StepKeeps FpMarked where
  nextInst := nextInst_archSame.mono fun _ _ h => h.fpMarked
  begin _ _ := .of_csrs rfl rfl Iff.rfl
  lastTrap _ _ := .of_csrs rfl rfl Iff.rfl
  enterTrap := fpMarked_enterTrap

lemma stepCore_putInt {s₁ : Hart} {v : U64}
    (hi : s.cpu.nextInterrupt = none) (hn : nextInst s = .ok inst s₁)
    (he : execute inst (s₁.begin inst) =
      .ok () ((s₁.begin inst).putInt inst (v, s.cpu.silentFlags inst))) :
    (final stepCore s).cpu.fregs = s.cpu.fregs ∧
      (final stepCore s).cpu.csrs.raw Csr.fcsr =
        s.cpu.csrs.raw Csr.fcsr ||| s.cpu.silentFlags inst &&& Csr.fcsrFflagsMask ∧
      (FsDirty (final stepCore s).cpu.csrs ↔ FsDirty s.cpu.csrs) := by
  have hsame := nextInst_archSame.of_ok hn
  rw [final_of_ok (stepCore_of_ok hi (instruction_of_ok hn he))]
  generalize s.cpu.silentFlags inst = flags at he ⊢
  have hput : ((s₁.begin inst).putInt inst (v, flags)).cpu.csrs =
      s.cpu.csrs.raiseFflags flags := by
    rw [← hsame.csrs]
    exact Cpu.setReg_csrs _ _ _
  refine ⟨?_, ?_, ?_⟩
  · exact (Cpu.setReg_fregs _ _ _).trans hsame.fregs
  · rw [retire_raw _ _ (by decide) (by decide), hput]
    exact CsrFile.setRaw_raw_self _ _ _
  · apply fsDirty_of_raw
    rw [retire_raw _ _ (by decide) (by decide), hput]
    exact CsrFile.setRaw_raw_ne _ _ (by decide)

lemma announced_putInt {s₁ : Hart} {v : U64}
    (hi : s.cpu.nextInterrupt = none) (hn : nextInst s = .ok inst s₁)
    (he : execute inst (s₁.begin inst) =
      .ok () ((s₁.begin inst).putInt inst (v, s.cpu.silentFlags inst))) :
    FpAnnounced s ↔ ¬ (¬ FsDirty s.cpu.csrs ∧
      s.cpu.silentFlags inst &&& Csr.fcsrFflagsMask &&& ~~~s.cpu.csrs.raw Csr.fcsr ≠ 0) := by
  obtain ⟨hfregs, hfcsr, hdirty⟩ := stepCore_putInt hi hn he
  constructor
  · rintro h ⟨hclean, hnew⟩
    have hchanged : FpChanged s (final stepCore s) := by
      refine Or.inr fun heq => hnew ?_
      exact or_eq_left_iff.mp (hfcsr.symm.trans heq)
    exact hclean (hdirty.mp (h hchanged).1)
  · intro h
    refine FpMarked.announced ?_
    by_cases hd : FsDirty s.cpu.csrs
    · exact Or.inl (hdirty.mpr hd)
    · have hnone := not_not.mp fun hne => h ⟨hd, hne⟩
      exact .of_csrs hfregs (hfcsr.trans (or_eq_left_iff.mpr hnone)) hdirty

/-- **Announced floating-point state.**  A step that is not a direct write of the status register
announces what it changes, unless a comparison or a conversion to an integer raises a new flag
while FS does not say Dirty. -/
theorem fp_announced_iff (s : Hart) (hs : ∀ inst, s.fetched = some inst → ¬ WritesStatus inst) :
    FpAnnounced s ↔ ¬ RaisesUnannounced s := by
  -- nothing was fetched, or nothing new is raised: the step only has to be marked
  have hmarked : (∀ inst, s.fetched = some inst → s.cpu.silentFlags inst = 0) →
      FpMarked s (final stepCore s) → (FpAnnounced s ↔ ¬ RaisesUnannounced s) := by
    intro hzero h
    refine iff_of_true h.announced ?_
    rintro ⟨inst, hf, _, hnew⟩
    rw [hzero inst hf] at hnew
    exact hnew (by simp)
  cases stepEnd stepKeeps_fpMarked s fun inst s₁ e t _ _ he =>
    (execute_failKeeps inst _ e t he).fpMarked with
  | trapped hno h =>
    refine hmarked (fun inst hf => ?_) h
    obtain ⟨hi, s₁, hn⟩ := fetched_eq_some hf
    have hsame := nextInst_archSame.of_ok hn
    by_cases hsil : RaisesSilently inst
    · rcases execute_silent hsil (s₁.begin inst) with ⟨_, _, hz⟩ | ⟨v, hok⟩
      · rw [← hz]
        exact (silentFlags_congr hsame.fregs hsame.csrs inst).symm
      · exact absurd ⟨hi, failure_of_ok (instruction_of_ok hn hok)⟩ hno
    · exact silentFlags_of_not hsil _
  | @retired inst s₁ t hi hn he hfetch hfinal =>
    have hsome : s.fetched = some inst := by simp only [Hart.fetched, hi, hn]
    have hsame := nextInst_archSame.of_ok hn
    by_cases hsil : RaisesSilently inst
    · rcases execute_silent hsil (s₁.begin inst) with ⟨_, herr, _⟩ | ⟨v, hok⟩
      · rw [he] at herr
        exact absurd herr (by simp)
      · have hflags : (s₁.begin inst).cpu.silentFlags inst = s.cpu.silentFlags inst :=
          silentFlags_congr hsame.fregs hsame.csrs inst
        rw [hflags] at hok
        rw [announced_putInt hi hn hok, RaisesUnannounced]
        simp [hsome]
    · refine hmarked (fun inst' h => ?_) ?_
      · rw [← Option.some.inj (hsome.symm.trans h)]
        exact silentFlags_of_not hsil _
      · rw [hfinal]
        exact trans_of FpMarked hfetch (trans_of FpMarked
          ((fpMarked_execute hsil (hs inst hsome)).of_ok he) (fpMarked_retire t))

/-- A program that loads a signalling NaN, sets FS to Clean and compares it with itself. -/
def silentCompareCode : List U32 :=
  [0x000020b7, 0x3000a073,  -- lui x1, 2; csrs mstatus, x1
   0x7f800137, 0x00110113,  -- lui x2, 0x7f800; addi x2, x2, 1
   0xf00100d3,              -- fmv.w.x f1, x2
   0x000041b7, 0x3001b073,  -- lui x3, 4; csrc mstatus, x3
   0xa010a253]              -- feq.s x4, f1, f1

/-- One hart of a fresh machine after the first `n` of these instructions. -/
def silentCompareHart (n : ℕ) : Hart :=
  ((Machine.init (.plain 1 4096 page_fits)).run
    (.loadImage dramBase (codeBytes silentCompareCode) :: List.replicate n (.step 0))).hart 0

/-- The comparison raises the invalid flag and FS still says Clean. -/
theorem silent_compare_unannounced :
    (silentCompareHart 7).fetched.map (·.opcode) = some Opcode.opFp ∧
      ¬ FpAnnounced (silentCompareHart 7) := by
  refine ⟨by decide +kernel, fun h => ?_⟩
  have hchanged : (final stepCore (silentCompareHart 7)).cpu.csrs.read Csr.fcsr ≠
      (silentCompareHart 7).cpu.csrs.read Csr.fcsr := by decide +kernel
  have hclean : ¬ FsDirty (final stepCore (silentCompareHart 7)).cpu.csrs := by decide +kernel
  exact hclean (h (Or.inr hchanged)).1

/-- The move into `f1` three instructions before it is announced. -/
theorem fp_announced_iff_sample :
    (final stepCore (silentCompareHart 4)).cpu.fregs 1 ≠ (silentCompareHart 4).cpu.fregs 1 ∧
      FpAnnounced (silentCompareHart 4) := by
  refine ⟨by decide +kernel, (fp_announced_iff (silentCompareHart 4) fun inst h => ?_).mpr ?_⟩
  · have hop : (silentCompareHart 4).fetched.map (·.opcode) = some Opcode.opFp := by
      decide +kernel
    rw [h] at hop
    rintro ⟨⟨hsys, _⟩, _⟩
    rw [Option.map_some, hsys] at hop
    exact absurd hop (by decide)
  · rintro ⟨inst, h, _, hnew⟩
    have hzero : (silentCompareHart 4).fetched.map (silentCompareHart 4).cpu.silentFlags =
        some 0 := by decide +kernel
    rw [h] at hzero
    rw [Option.some.inj hzero] at hnew
    exact hnew (by simp)

end RiscvEmu
