import RiscvEmu.Cpu.FpState

/-!
# Confinement of the less privileged modes

A hart in user or supervisor mode, without the firmware of the emulator, changes a register of a
more privileged mode only through the windows the architecture leaves open: the supervisor views
of `mstatus`, `mie` and `mip`, the FS field, and what SRET does.
-/

namespace RiscvEmu

open Exec BitField Csr

/-- The bits of `mstatus` that code at level `p` reaches through `sstatus` and the use of
floating point. -/
def statusWindow (p : PrivLevel) : U64 :=
  (if p = .supervisor then sstatusWriteMask else 0) ||| mstatusFs

/-- The bits of `mie` and `mip` that code at level `p` reaches through `sie` and `sip`. -/
def interruptWindow (p : PrivLevel) : U64 := if p = .supervisor then sieSipMask else 0

/-- `t` differs from `s` by what code at the level of `s` may change. -/
structure Confined (s t : Hart) : Prop where
  priv : t.cpu.priv = s.cpu.priv
  counters : t.cpu.counterWritten = s.cpu.counterWritten
  others : ∀ a, s.cpu.priv.val < minPrivilege a →
    a ≠ mstatus → a ≠ mie → a ≠ mip → t.cpu.csrs.raw a = s.cpu.csrs.raw a
  status : t.cpu.csrs.raw mstatus &&& ~~~statusWindow s.cpu.priv =
    s.cpu.csrs.raw mstatus &&& ~~~statusWindow s.cpu.priv
  mie : t.cpu.csrs.raw mie &&& ~~~interruptWindow s.cpu.priv =
    s.cpu.csrs.raw mie &&& ~~~interruptWindow s.cpu.priv
  mip : t.cpu.csrs.raw mip &&& ~~~interruptWindow s.cpu.priv =
    s.cpu.csrs.raw mip &&& ~~~interruptWindow s.cpu.priv
  fs : s.cpu.priv = .user → FsDirty t.cpu.csrs ∨
    t.cpu.csrs.raw mstatus &&& mstatusFs = s.cpu.csrs.raw mstatus &&& mstatusFs

variable {s t : Hart} {p : PrivLevel} {c c' : CsrFile} {inst : DecodedInst}

lemma Confined.of_csrs (hp : t.cpu.priv = s.cpu.priv)
    (hw : t.cpu.counterWritten = s.cpu.counterWritten) (hc : t.cpu.csrs = s.cpu.csrs) :
    Confined s t := by
  refine ⟨hp, hw, fun _ _ _ _ _ => ?_, ?_, ?_, ?_, fun _ => Or.inr ?_⟩ <;> rw [hc]

lemma Confined.trans {u : Hart} (h : Confined s t) (g : Confined t u) : Confined s u where
  priv := g.priv.trans h.priv
  counters := g.counters.trans h.counters
  others a ha h₁ h₂ h₃ := (g.others a (h.priv ▸ ha) h₁ h₂ h₃).trans (h.others a ha h₁ h₂ h₃)
  status := by
    have hg := g.status
    rw [h.priv] at hg
    exact hg.trans h.status
  mie := by
    have hg := g.mie
    rw [h.priv] at hg
    exact hg.trans h.mie
  mip := by
    have hg := g.mip
    rw [h.priv] at hg
    exact hg.trans h.mip
  fs hu := by
    rcases g.fs (h.priv.trans hu) with hd | hg
    · exact Or.inl hd
    rcases h.fs hu with hd | hh
    · refine Or.inl ?_
      rwa [FsDirty, hg]
    · exact Or.inr (hg.trans hh)

/-- The relation instructions keep: code below machine mode is confined. -/
def ConfinedBelow (s t : Hart) : Prop := s.cpu.priv.val ≤ privSupervisor → Confined s t

instance : IsPreorder Hart ConfinedBelow where
  refl _ _ := .of_csrs rfl rfl rfl
  trans _ _ _ h g hp := (h hp).trans (g ((h hp).priv ▸ hp))

/-! ## Instructions -/

lemma user_or_supervisor (h : p.val ≤ privSupervisor) :
    p = .user ∨ p = .supervisor := by
  have hle : p.val ≤ 1 := h
  rcases p.val_cases with hv | hv | hv | hv
  · exact Or.inl (PrivLevel.ext hv)
  · exact Or.inr (PrivLevel.ext hv)
  · bv_omega
  · bv_omega

lemma not_lt_minPrivilege_fcsr (p : U32) : ¬ p < minPrivilege fcsr := by
  rw [show minPrivilege fcsr = 0 by decide]
  simp

/-- Using floating point changes `fcsr` and the FS field. -/
lemma confined_markFpuDirty (hp : t.cpu.priv = s.cpu.priv)
    (hw : t.cpu.counterWritten = s.cpu.counterWritten) (hc : t.cpu.csrs = c.markFpuDirty)
    (hraw : ∀ a, a ≠ fcsr → c.raw a = s.cpu.csrs.raw a) : Confined s t := by
  have hfs : mstatusFs &&& ~~~statusWindow s.cpu.priv = 0 := by
    unfold statusWindow
    split <;> decide
  have hdirty : mstatusFsDirty &&& ~~~statusWindow s.cpu.priv = 0 := by
    unfold statusWindow
    split <;> decide
  have hne : ∀ a, a ≠ mstatus → a ≠ fcsr → t.cpu.csrs.raw a = s.cpu.csrs.raw a := by
    intro a h₁ h₂
    rw [hc, CsrFile.markFpuDirty, CsrFile.setRaw_raw_ne _ _ h₁, hraw a h₂]
  refine ⟨hp, hw, fun a ha h₁ _ _ => hne a h₁ ?_, ?_, ?_, ?_, fun _ => Or.inl ?_⟩
  · rintro rfl
    exact not_lt_minPrivilege_fcsr _ ha
  · rw [hc, CsrFile.markFpuDirty, CsrFile.setRaw_raw_self, clear_or_and_of_disjoint hfs hdirty,
      hraw _ (by decide)]
  · rw [hne _ (by decide) (by decide)]
  · rw [hne _ (by decide) (by decide)]
  · rw [hc]
    exact fsDirty_markFpuDirty c

lemma Confined.of_raw (hbelow : s.cpu.priv.val ≤ privSupervisor)
    (hp : t.cpu.priv = s.cpu.priv) (hw : t.cpu.counterWritten = s.cpu.counterWritten)
    (hraw : ∀ a, s.cpu.priv.val < minPrivilege a → t.cpu.csrs.raw a = s.cpu.csrs.raw a) :
    Confined s t := by
  have hmachine : ∀ a, privSupervisor < minPrivilege a →
      t.cpu.csrs.raw a = s.cpu.csrs.raw a := by
    intro a ha
    exact hraw a (by bv_omega)
  refine ⟨hp, hw, fun a ha _ _ _ => hraw a ha, ?_, ?_, ?_, fun _ => Or.inr ?_⟩
  · rw [hmachine _ (by decide)]
  · rw [hmachine _ (by decide)]
  · rw [hmachine _ (by decide)]
  · rw [hmachine _ (by decide)]

lemma confined_update (hinst : ¬ IsPrivileged inst) {f : Hart → Hart}
    (hf : Update inst f) (s : Hart) : ConfinedBelow s (f s) := by
  intro hbelow
  cases hf with
  | setReg i v =>
    exact .of_csrs (Cpu.setReg_priv ..) (s.cpu.setReg_counterWritten i v) (Cpu.setReg_csrs ..)
  | writeFreg i v => exact confined_markFpuDirty rfl rfl rfl fun _ _ => rfl
  | putFp i v flags =>
    exact confined_markFpuDirty rfl rfl rfl fun a ha => CsrFile.setRaw_raw_ne _ _ ha
  | raiseFflags flags _ =>
    refine .of_raw hbelow rfl rfl fun a ha => CsrFile.setRaw_raw_ne _ _ ?_
    rintro rfl
    exact not_lt_minPrivilege_fcsr _ ha
  | mret h | sret h | setTimer _ h | ipi h => exact absurd h hinst
  | _ => exact .of_csrs rfl rfl rfl

/-! ## CSR writes -/

/-- A write to the file from below machine mode, to a register of the same or a lower mode. -/
lemma confined_write {addr : CsrAddr} {v : U64}
    (hmin : ¬ s.cpu.priv.val < minPrivilege addr) (hbelow : s.cpu.priv.val ≤ privSupervisor)
    (hp : t.cpu.priv = s.cpu.priv) (hw : t.cpu.counterWritten = s.cpu.counterWritten)
    (hc : t.cpu.csrs = s.cpu.csrs.write addr v) : Confined s t := by
  have hraw : ∀ a, a ≠ CsrFile.cell addr → t.cpu.csrs.raw a = s.cpu.csrs.raw a := by
    intro a ha
    rw [hc]
    exact CsrFile.write_raw_of_ne _ _ ha
  -- a view of supervisor mode needs that mode
  have hsup : minPrivilege addr = 1 → s.cpu.priv = .supervisor := by
    intro hone
    rcases user_or_supervisor hbelow with hu | hs
    · rw [hu, hone] at hmin
      exact absurd hmin (by decide)
    · exact hs
  -- and changes the bits under its mask
  have hview (b : CsrAddr) (mask w : U64)
    (hnew : (s.cpu.csrs.write addr v).raw (CsrFile.cell addr) =
      merge mask (s.cpu.csrs.raw (CsrFile.cell addr)) v)
        (hmask : b = CsrFile.cell addr → mask &&& ~~~w = 0) :
      t.cpu.csrs.raw b &&& ~~~w = s.cpu.csrs.raw b &&& ~~~w := by
    by_cases hb : b = CsrFile.cell addr
    · rw [hb, hc, hnew]
      exact merge_and_of_disjoint (hmask hb)
    · rw [hraw b hb]
  rcases CsrFile.cell_cases addr with
    ⟨hcell, -⟩ | ⟨hcell, rfl⟩ | ⟨hcell, rfl⟩ | ⟨hcell, rfl⟩ | hcell
  · refine .of_raw hbelow hp hw fun a ha => hraw a ?_
    rw [hcell]
    rintro rfl
    exact not_lt_minPrivilege_fcsr _ ha
  · have hs := hsup (by decide)
    refine ⟨hp, hw, fun a _ h₁ _ _ => hraw a (hcell ▸ h₁), ?_, ?_, ?_, fun hu =>
      absurd (hu.symm.trans hs) (by decide)⟩
    all_goals
      rw [hs]
      exact hview _ sstatusWriteMask _ (CsrFile.setRaw_raw_self ..) (by decide)
  · have hs := hsup (by decide)
    refine ⟨hp, hw, fun a _ _ h₂ _ => hraw a (hcell ▸ h₂), ?_, ?_, ?_, fun hu =>
      absurd (hu.symm.trans hs) (by decide)⟩
    all_goals
      rw [hs]
      exact hview _ sieSipMask _ (CsrFile.setRaw_raw_self ..) (by decide)
  · have hs := hsup (by decide)
    refine ⟨hp, hw, fun a _ _ _ h₃ => hraw a (hcell ▸ h₃), ?_, ?_, ?_, fun hu =>
      absurd (hu.symm.trans hs) (by decide)⟩
    all_goals
      rw [hs]
      exact hview _ mipSsip _ (CsrFile.setRaw_raw_self ..) (by decide)
  · refine .of_raw hbelow hp hw fun a ha => hraw a ?_
    rw [hcell]
    rintro rfl
    exact hmin ha

lemma confined_csrCommit {addr : CsrAddr} (v : U64)
    (hmin : ¬ s.cpu.priv.val < minPrivilege addr) (hbelow : s.cpu.priv.val ≤ privSupervisor) :
    Confined s (final (csrCommit addr v) s) := by
  -- the counters are out of reach
  have hcounters : ¬ (addr = minstret ∨ addr = mcycle) := by
    rcases user_or_supervisor hbelow with hp | hp <;> rw [hp] at hmin <;> rintro (rfl | rfl) <;>
      exact hmin (by decide)
  unfold csrCommit final
  dsimp only [modify_apply]
  rw [if_neg hcounters]
  split <;> exact confined_write (v := v) hmin hbelow rfl rfl rfl

lemma confined_csrWrite (addr : CsrAddr) (v : U64) : Keeps ConfinedBelow (csrWrite addr v) := by
  refine .bind .get fun s => ?_
  split
  · exact .throw _
  split
  · exact .throw _
  refine .bind (.modify fun s hbelow => ?_) fun _ => .get_bind fun s hbelow => ?_
  · unfold Hart.markFp
    split
    · exact confined_markFpuDirty rfl rfl rfl fun _ _ => rfl
    · exact .of_csrs rfl rfl rfl
  · by_cases hw : s.cpu.csrWritable addr = true
    · rw [if_pos hw]
      refine confined_csrCommit v (fun hlt => ?_) hbelow
      simp [Cpu.csrWritable, hlt] at hw
    · rw [if_neg hw]
      exact .of_csrs rfl rfl rfl

/-- An instruction other than the privileged ones. -/
lemma confined_execute (hinst : ¬ IsPrivileged inst) :
    Keeps ConfinedBelow (execute inst) := by
  refine InstrKeeps.execute ⟨?_, fun f hf s => confined_update hinst hf s,
    fun _ v => confined_csrWrite _ v⟩
  exact (probeKeeps_archSame.and untouched_counterWritten.probeKeeps).mono
    fun _ _ h _ => .of_csrs h.1.priv h.2 h.1.csrs

/-! ## Privileged instructions -/

/-- SRET. -/
def IsSret (inst : DecodedInst) : Prop := IsPrivileged inst ∧ systemImm inst = 0x102

instance (inst : DecodedInst) : Decidable (IsSret inst) := by
  unfold IsSret IsPrivileged
  infer_instance

/-- The state after SRET. -/
def Hart.afterSret (s : Hart) : Hart :=
  { s with cpu := { s.cpu with
      csrs := s.cpu.csrs.setMstatus (sretStatus s.cpu.csrs.mstatus)
      priv := sretPriv s.cpu.csrs.mstatus
      nextPc := (s.cpu.csrs.setMstatus (sretStatus s.cpu.csrs.mstatus)).read sepc } }

lemma executeEcall_below (hbelow : s.cpu.priv.val ≤ privSupervisor)
    (hsbi : s.cpu.sbiEnabled = false) : executeEcall s ≠ .ok () t := by
  unfold executeEcall
  rw [bind_of_ok (get_apply s)]
  rcases user_or_supervisor hbelow with hu | hs
  · rw [hu, if_pos (by decide), throw_apply]
    simp
  · rw [hs, if_neg (by decide), if_pos (by decide), hsbi, if_neg (by decide), throw_apply]
    simp

lemma executeMret_below
    (hbelow : s.cpu.priv.val ≤ privSupervisor) : executeMret inst s ≠ .ok () t := by
  have hlt : s.cpu.priv.val < privMachine := by
    have hle : s.cpu.priv.val ≤ 1 := hbelow
    show s.cpu.priv.val < 3
    bv_omega
  unfold executeMret
  rw [bind_of_ok (get_apply s), if_pos (Or.inr (Or.inr hlt)), throw_apply]
  simp

lemma executeSret_ok (h : executeSret inst s = .ok () t) :
    t = s.afterSret ∧ ¬ s.cpu.priv.val < privSupervisor := by
  unfold executeSret at h
  rw [bind_of_ok (get_apply s)] at h
  split at h
  · rw [throw_apply] at h
    exact absurd h (by simp)
  · next hpriv =>
      split at h
      · rw [throw_apply] at h
        exact absurd h (by simp)
      · exact ⟨((EStateM.Result.ok.inj h).2).symm, fun hlt => hpriv (Or.inr (Or.inr hlt))⟩

lemma executeSfenceVma_ok (h : executeSfenceVma inst s = .ok () t) : t = s.remoteFence := by
  unfold executeSfenceVma at h
  rw [bind_of_ok (get_apply s)] at h
  split at h
  · rw [throw_apply] at h
    exact absurd h (by simp)
  · split at h
    · rw [throw_apply] at h
      exact absurd h (by simp)
    · exact ((EStateM.Result.ok.inj h).2).symm

lemma confined_executeWfi (s : Hart) : Confined s (final executeWfi s) := by
  show Confined s { s with cpu := if s.cpu.idleOnWfi then _ else s.cpu }
  split <;> exact .of_csrs rfl rfl rfl

/-- Below machine mode and without the firmware, a privileged instruction that succeeds is SRET or
touches no register. -/
lemma execute_privileged (hinst : IsPrivileged inst)
    (hbelow : s.cpu.priv.val ≤ privSupervisor) (hsbi : s.cpu.sbiEnabled = false)
    (h : execute inst s = .ok () t) :
    (¬ IsSret inst ∧ Confined s t) ∨
      (IsSret inst ∧ t = s.afterSret ∧ s.cpu.priv = .supervisor) := by
  have hthrow : ∀ e : Trap, (throw e : HartM Unit) s ≠ .ok () t := by
    intro e
    rw [throw_apply]
    simp
  rw [execute_system hinst.1, executeSystem, if_neg (by simp [hinst.2])] at h
  by_cases h0 : systemImm inst = 0x000
  · rw [if_pos h0] at h
    split at h
    · exact absurd h (hthrow _)
    · exact absurd h (executeEcall_below hbelow hsbi)
  rw [if_neg h0] at h
  by_cases h1 : systemImm inst = 0x001
  · rw [if_pos h1] at h
    split at h
    · exact absurd h (hthrow _)
    · exact absurd h (hthrow _)
  rw [if_neg h1] at h
  by_cases hs : systemImm inst = 0x102
  · rw [if_pos hs] at h
    obtain ⟨ht, hge⟩ := executeSret_ok h
    refine Or.inr ⟨⟨hinst, hs⟩, ht, ?_⟩
    rcases user_or_supervisor hbelow with hu | hsup
    · rw [hu] at hge
      exact absurd (by decide) hge
    · exact hsup
  rw [if_neg hs] at h
  by_cases hm : systemImm inst = 0x302
  · rw [if_pos hm] at h
    exact absurd h (executeMret_below hbelow)
  rw [if_neg hm] at h
  refine Or.inl ⟨fun hsret => hs hsret.2, ?_⟩
  by_cases hw : systemImm inst = 0x105
  · rw [if_pos hw] at h
    split at h
    · exact absurd h (hthrow _)
    · rw [← final_of_ok h]
      exact confined_executeWfi s
  rw [if_neg hw] at h
  split at h
  · rw [executeSfenceVma_ok h]
    exact .of_csrs rfl rfl rfl
  · exact absurd h (hthrow _)

/-! ## The step -/

/-- What SRET updates. -/
def sretBits : U64 :=
  mstatusSie ||| mstatusSpie ||| mstatusSpp ||| mstatusMprv

/-- The bits of a register that an instruction at level `p` may change, as they are read.  `sret`
says that the instruction is SRET. -/
def exposedBits (p : PrivLevel) (sret : Bool) (a : CsrAddr) : U64 :=
  if a = mstatus then statusWindow p ||| (if sret then sretBits else 0) ||| mstatusSd
  else if a = sstatus then mstatusFs ||| mstatusSd
  else if a = mie ∨ a = mip then interruptWindow p
  else 0

lemma exposedBits_mstatus (p : PrivLevel) (sret : Bool) : exposedBits p sret mstatus =
    statusWindow p ||| (if sret then sretBits else 0) ||| mstatusSd := if_pos rfl

/-- From `c` to `c'` the stored registers above level `p` changed by the exposed bits only. -/
structure StoredKept (p : PrivLevel) (sret : Bool) (c c' : CsrFile) : Prop where
  others : ∀ a, p.val < minPrivilege a → a ≠ mstatus → a ≠ mie → a ≠ mip →
    a ≠ mcycle → a ≠ minstret → c'.raw a = c.raw a
  status : c'.raw mstatus &&& ~~~exposedBits p sret mstatus =
    c.raw mstatus &&& ~~~exposedBits p sret mstatus
  mie : c'.raw mie &&& ~~~interruptWindow p = c.raw mie &&& ~~~interruptWindow p
  mip : c'.raw mip &&& ~~~interruptWindow p = c.raw mip &&& ~~~interruptWindow p

lemma Confined.storedKept (h : Confined s t) :
    StoredKept s.cpu.priv false s.cpu.csrs t.retire.cpu.csrs := by
  have hsub : ~~~statusWindow s.cpu.priv &&& ~~~exposedBits s.cpu.priv false mstatus =
      ~~~exposedBits s.cpu.priv false mstatus := by
    rw [exposedBits_mstatus, BitVec.or_assoc, not_and_not_or]
  refine ⟨fun a ha h₁ h₂ h₃ h₄ h₅ => ?_, ?_, ?_, ?_⟩
  · rw [retire_raw t a h₅ h₄]
    exact h.others a ha h₁ h₂ h₃
  · rw [retire_raw t _ (by decide) (by decide)]
    exact and_of_subset h.status hsub
  · rw [retire_raw t _ (by decide) (by decide)]
    exact h.mie
  · rw [retire_raw t _ (by decide) (by decide)]
    exact h.mip

lemma storedKept_afterSret (hs : s.cpu.priv = .supervisor) :
    StoredKept s.cpu.priv true s.cpu.csrs s.afterSret.retire.cpu.csrs := by
  have hraw : ∀ a, a ≠ mstatus → s.afterSret.cpu.csrs.raw a = s.cpu.csrs.raw a :=
    fun a ha => CsrFile.setMstatus_raw_ne _ _ ha
  rw [hs]
  refine ⟨fun a _ h₁ _ _ h₄ h₅ => ?_, ?_, ?_, ?_⟩
  · rw [retire_raw _ a h₅ h₄]
    exact hraw a h₁
  · rw [retire_raw _ _ (by decide) (by decide)]
    show (s.cpu.csrs.setMstatus _).raw mstatus &&& _ = _
    rw [CsrFile.setMstatus_raw]
    refine merge_and_of_agree ?_
    rw [sretStatus_and (by decide) (by decide) (by decide) (by decide)]
    exact s.cpu.csrs.mstatus_and (by decide)
  · rw [retire_raw _ _ (by decide) (by decide), hraw _ (by decide)]
  · rw [retire_raw _ _ (by decide) (by decide), hraw _ (by decide)]

/-- In user mode the supervisor views are not exposed, and what is stored behind them stays. -/
lemma StoredKept.views (h : StoredKept .user false c c') :
    c'.raw Csr.mie = c.raw Csr.mie ∧ c'.raw Csr.mip = c.raw Csr.mip ∧
      c'.raw mstatus &&& (sstatusMask &&& ~~~(mstatusFs ||| mstatusSd)) =
        c.raw mstatus &&& (sstatusMask &&& ~~~(mstatusFs ||| mstatusSd)) := by
  have hclosed : ~~~interruptWindow .user = BitVec.allOnes 64 := by decide
  have hmie := h.mie
  have hmip := h.mip
  rw [hclosed, BitVec.and_allOnes, BitVec.and_allOnes] at hmie hmip
  exact ⟨hmie, hmip, and_of_subset h.status (by decide)⟩

lemma StoredKept.read {sret : Bool} (h : StoredKept p sret c c')
    (hp : p.val ≤ privSupervisor) (hsret : sret = true → p = .supervisor) {a : CsrAddr}
    (ha : p.val < minPrivilege a) (hcycle : a ≠ mcycle) (hinstret : a ≠ minstret) :
    c'.read a &&& ~~~exposedBits p sret a = c.read a &&& ~~~exposedBits p sret a := by
  by_cases hst : a = mstatus
  · subst hst
    have hsd : mstatusSd &&& ~~~exposedBits p sret mstatus = 0 := by
      rw [exposedBits_mstatus, BitVec.or_comm, and_not_or]
    show c'.mstatus &&& _ = c.mstatus &&& _
    rw [c'.mstatus_and hsd, c.mstatus_and hsd]
    exact h.status
  by_cases hmie : a = Csr.mie
  · subst hmie
    exact h.mie
  by_cases hmip : a = Csr.mip
  · subst hmip
    exact h.mip
  by_cases hview : a = sstatus ∨ a = sie ∨ a = sip
  · -- only user mode is below these
    have hone : minPrivilege a = 1 := by
      rcases hview with rfl | rfl | rfl <;> decide
    rcases user_or_supervisor hp with rfl | rfl
    swap
    · rw [hone] at ha
      exact absurd ha (by decide)
    have hno : sret = false := by
      cases sret with
      | false => rfl
      | true => exact absurd (hsret rfl) (by decide)
    subst hno
    obtain ⟨hie, hip, hstatus⟩ := h.views
    rcases hview with rfl | rfl | rfl
    · show c'.mstatus &&& sstatusMask &&& ~~~(mstatusFs ||| mstatusSd) =
        c.mstatus &&& sstatusMask &&& ~~~(mstatusFs ||| mstatusSd)
      rw [BitVec.and_assoc, BitVec.and_assoc, c'.mstatus_and (by decide),
        c.mstatus_and (by decide)]
      exact hstatus
    · show c'.raw Csr.mie &&& sieSipMask &&& _ = c.raw Csr.mie &&& sieSipMask &&& _
      rw [hie]
    · show c'.raw Csr.mip &&& sieSipMask &&& _ = c.raw Csr.mip &&& sieSipMask &&& _
      rw [hip]
  · -- every other register above the level reads as it is stored
    have hzero : ∀ b, minPrivilege b = 0 → a ≠ b := by
      rintro b hb rfl
      rw [hb] at ha
      simp at ha
    have hread : ∀ k : CsrFile, k.read a = k.raw a := by
      intro k
      simp only [not_or] at hview
      simp only [CsrFile.read, hzero cycle (by decide), hzero instret (by decide),
        hzero fcsr (by decide), hzero fflags (by decide), hzero frm (by decide), hst,
        hview.1, hview.2.1, hview.2.2, if_false]
    rw [hread, hread, h.others a ha hst hmie hmip hcycle hinstret]

lemma sretPriv_le (status : U64) : (sretPriv status).val ≤ privSupervisor := by
  unfold sretPriv
  split <;> decide

/-- Retiring an instruction that did not write the counters moves both by one. -/
lemma retire_counters (h : t.cpu.counterWritten = false) :
    t.retire.cpu.csrs.raw mcycle = t.cpu.csrs.raw mcycle + 1 ∧
      t.retire.cpu.csrs.raw minstret = t.cpu.csrs.raw minstret + 1 := by
  have hcsrs : t.retire.cpu.csrs = t.cpu.csrs.tickCounters := by
    show (if t.cpu.counterWritten then t.cpu.csrs else t.cpu.csrs.tickCounters) = _
    rw [h]
    rfl
  rw [hcsrs, CsrFile.tickCounters]
  refine ⟨CsrFile.setRaw_raw_self _ _ _, ?_⟩
  rw [CsrFile.setRaw_raw_ne _ _ (by decide), CsrFile.setRaw_raw_self]

/-- What a step from `s` to `t` with instruction `inst` may do to the more privileged state. -/
structure StepConfined (inst : DecodedInst) (s t : Hart) : Prop where
  priv : t.cpu.priv.val ≤ s.cpu.priv.val
  csrs : ∀ a, s.cpu.priv.val < minPrivilege a → a ≠ mcycle → a ≠ minstret →
    t.cpu.csrs.read a &&& ~~~exposedBits s.cpu.priv (IsSret inst) a =
      s.cpu.csrs.read a &&& ~~~exposedBits s.cpu.priv (IsSret inst) a
  mcycle : t.cpu.csrs.read mcycle = s.cpu.csrs.read mcycle + 1
  minstret : t.cpu.csrs.read minstret = s.cpu.csrs.read minstret + 1
  fs : s.cpu.priv = .user → FsDirty t.cpu.csrs ∨
    t.cpu.csrs.mstatus &&& mstatusFs = s.cpu.csrs.mstatus &&& mstatusFs

lemma StoredKept.mono (h : StoredKept p false c c')
    (sret : Bool) : StoredKept p sret c c' := by
  refine ⟨h.others, and_of_subset h.status ?_, h.mie, h.mip⟩
  have hwider : exposedBits p sret mstatus =
      exposedBits p false mstatus ||| (if sret then sretBits else 0) := by
    have hnone : exposedBits p false mstatus = statusWindow p ||| mstatusSd := by
      rw [exposedBits_mstatus]
      simp
    rw [hnone, exposedBits_mstatus, BitVec.or_assoc, BitVec.or_assoc, BitVec.or_comm mstatusSd]
  rw [hwider, not_and_not_or]

lemma Confined.stepConfined
    (hbelow : s.cpu.priv.val ≤ privSupervisor) (hsret : IsSret inst → s.cpu.priv = .supervisor)
    (hw : s.cpu.counterWritten = false) (h : Confined s t) : StepConfined inst s t.retire := by
  have hraw : ∀ a, privSupervisor < minPrivilege a → a ≠ mstatus → a ≠ Csr.mie →
      a ≠ Csr.mip → t.cpu.csrs.raw a = s.cpu.csrs.raw a := by
    intro a ha
    exact h.others a (by bv_omega)
  obtain ⟨hcycle, hinstret⟩ := retire_counters (h.counters.trans hw)
  refine ⟨?_, fun a ha h₁ h₂ => ?_, ?_, ?_, fun hu => ?_⟩
  · show t.cpu.priv.val ≤ _
    rw [h.priv]
    exact BitVec.le_refl _
  · exact (h.storedKept.mono _).read hbelow (fun hs => hsret (of_decide_eq_true hs)) ha h₁ h₂
  · exact hcycle.trans (by rw [hraw _ (by decide) (by decide) (by decide) (by decide)]; rfl)
  · exact hinstret.trans (by rw [hraw _ (by decide) (by decide) (by decide) (by decide)]; rfl)
  · have hsame := retire_raw t mstatus (by decide) (by decide)
    rcases h.fs hu with hd | hfs
    · exact Or.inl ((fsDirty_of_raw hsame).mpr hd)
    · refine Or.inr ?_
      rw [CsrFile.mstatus_and _ (by decide), CsrFile.mstatus_and _ (by decide), hsame, hfs]

lemma stepConfined_afterSret (hinst : IsSret inst)
    (hs : s.cpu.priv = .supervisor) (hw : s.cpu.counterWritten = false) :
    StepConfined inst s s.afterSret.retire := by
  have hkept := storedKept_afterSret hs
  have htrue : decide (IsSret inst) = true := decide_eq_true hinst
  have hraw : ∀ a, a ≠ mstatus → s.afterSret.cpu.csrs.raw a = s.cpu.csrs.raw a :=
    fun a ha => CsrFile.setMstatus_raw_ne _ _ ha
  obtain ⟨hcycle, hinstret⟩ := retire_counters (t := s.afterSret) hw
  refine ⟨?_, fun a ha h₁ h₂ => ?_, ?_, ?_, fun hu => ?_⟩
  · rw [hs]
    exact sretPriv_le _
  · rw [htrue]
    exact hkept.read (by rw [hs]; decide) (fun _ => hs) ha h₁ h₂
  · exact hcycle.trans (by rw [hraw _ (by decide)]; rfl)
  · exact hinstret.trans (by rw [hraw _ (by decide)]; rfl)
  · exact absurd (hu.symm.trans hs) (by decide)

/-- **Confinement.**  A step in user or supervisor mode, without the firmware of the emulator, that
takes neither a trap nor an interrupt changes the registers of the higher modes in the exposed
bits only, and does not raise the privilege. -/
theorem less_privileged_confined (s : Hart) (inst : DecodedInst)
    (hsbi : s.cpu.sbiEnabled = false) (hp : s.cpu.priv = .user ∨ s.cpu.priv = .supervisor)
    (hf : s.fetched = some inst) (hok : failure instruction s = none) :
    StepConfined inst s (final stepCore s) := by
  have hbelow : s.cpu.priv.val ≤ privSupervisor := by
    rcases hp with h | h <;> rw [h] <;> decide
  obtain ⟨hi, s₁, hn⟩ := fetched_eq_some hf
  obtain ⟨t, he, hstep⟩ := retires_of_fetched hn ⟨hi, hok⟩
  -- the fetch changed nothing that matters here
  have hsame := nextInst_archSame.of_ok hn
  have hsbi₁ : (s₁.begin inst).cpu.sbiEnabled = false :=
    (untouched_sbiEnabled.nextInst.of_ok hn).trans hsbi
  have hbegin : StepConfined inst (s₁.begin inst) t.retire := by
    have hbelow₁ : (s₁.begin inst).cpu.priv.val ≤ privSupervisor := by
      show s₁.cpu.priv.val ≤ _
      rwa [hsame.priv]
    by_cases hpriv : IsPrivileged inst
    · rcases execute_privileged hpriv hbelow₁ hsbi₁ he with
        ⟨hno, hc⟩ | ⟨hsret, rfl, hs⟩
      · exact hc.stepConfined hbelow₁ (fun hsret => absurd hsret hno) rfl
      · exact stepConfined_afterSret hsret hs rfl
    · have hc := (confined_execute hpriv).of_ok he hbelow₁
      exact hc.stepConfined hbelow₁ (fun hsret => absurd hsret.1 hpriv) rfl
  have hcsrs : (s₁.begin inst).cpu.csrs = s.cpu.csrs := hsame.csrs
  have hpv : (s₁.begin inst).cpu.priv = s.cpu.priv := hsame.priv
  rw [hstep]
  obtain ⟨h₁, h₂, h₃, h₄, h₅⟩ := hbegin
  rw [hpv] at h₁ h₂ h₅
  rw [hcsrs] at h₂ h₃ h₄ h₅
  exact ⟨h₁, h₂, h₃, h₄, h₅⟩

/-- A hart in supervisor mode at an SRET. -/
def sretSample : Hart :=
  let s := ((Machine.init (.plain 1 4096 page_fits)).run
    [.loadImage dramBase (codeBytes [0x10200073])]).hart 0
  { s with cpu := { s.cpu with priv := .supervisor } }

/-- It returns to user mode and stays confined. -/
theorem less_privileged_confined_sample :
    (final stepCore sretSample).cpu.priv = .user ∧
      ∃ inst, sretSample.fetched = some inst ∧
        StepConfined inst sretSample (final stepCore sretSample) := by
  have hsome : sretSample.fetched.isSome = true := by decide +kernel
  obtain ⟨inst, hinst⟩ := Option.isSome_iff_exists.mp hsome
  exact ⟨by decide +kernel, inst, hinst, less_privileged_confined sretSample inst
    (by decide +kernel) (Or.inr (by decide +kernel)) hinst (by decide +kernel)⟩

end RiscvEmu
