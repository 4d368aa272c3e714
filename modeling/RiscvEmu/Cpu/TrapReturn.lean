import RiscvEmu.Privilege
import RiscvEmu.CsrLaws
import RiscvEmu.Cpu.Interrupts

/-!
# Returning from a trap

Trap entry pushes the interrupt enable and the privilege of the interrupted program on a stack of
depth one, in fields of `mstatus`; MRET and SRET pop it.  Whatever the handler does to the rest of
the machine, the program goes on where it was, at the level it had, with its interrupts as they
were.
-/

namespace RiscvEmu

open Exec BitField Csr

/-- A SYSTEM instruction without operands, with its number in the immediate. -/
structure EncodesReturn (code : ℕ) (inst : DecodedInst) : Prop where
  opcode : inst.opcode = Opcode.system
  funct3 : inst.funct3 = 0
  imm : systemImm inst = code
  rd : inst.rd = 0
  rs1 : inst.rs1 = 0

/-- MRET. -/
abbrev EncodesMret (inst : DecodedInst) : Prop := EncodesReturn 0x302 inst

/-- SRET. -/
abbrev EncodesSret (inst : DecodedInst) : Prop := EncodesReturn 0x102 inst

/-! ## Status words -/

lemma bit_cases {bit : U64} {n : ℕ} (h : bit = BitVec.twoPow 64 n) (x : U64) :
    x &&& bit = 0 ∨ x &&& bit = bit := by
  rw [h, BitVec.and_twoPow]
  split
  · exact .inr rfl
  · exact .inl rfl

/-- A bit that is saved in another one and restored from there is what it was. -/
lemma restore_bit {bit saved x : U64} {n : ℕ} (hbit : bit = BitVec.twoPow 64 n)
    (hsaved : saved ≠ 0) :
    (if (if x &&& bit ≠ 0 then saved else 0) ≠ 0 then bit else 0) = x &&& bit := by
  rcases bit_cases hbit x with h | h
  · simp [h]
  · rw [h]
    by_cases hb : bit = 0
    · rw [hb, ite_self]
    · rw [if_pos hb, if_pos hsaved]

lemma assign_bit (c : Prop) [Decidable c] (x bit : U64) :
    (if c then x ||| bit else x &&& ~~~bit) &&& bit = if c then bit else 0 := by
  split
  · ext i hi
    simp only [BitVec.getElem_and, BitVec.getElem_or]
    cases bit[i] <;> simp
  · rw [BitVec.and_assoc]
    simp

section Words

variable (priv : PrivLevel) (st : U64)

lemma machineTrapStatus_mpie :
    machineTrapStatus priv st &&& mstatusMpie =
      if st &&& mstatusMie ≠ 0 then mstatusMpie else 0 := by
  have hnew : (priv.val.setWidth 64 <<< mstatusMppShift) &&& mstatusMpie = 0 := by
    rcases priv.val_cases with h | h | h | h <;> rw [h] <;> decide
  unfold machineTrapStatus
  dsimp only
  rw [clear_or_and_of_disjoint (by decide) hnew, clear_and_of_disjoint (by decide), assign_bit]

lemma machineTrapStatus_mprv : machineTrapStatus priv st &&& mstatusMprv = st &&& mstatusMprv := by
  have hkept : keptStatus false &&& mstatusMprv = mstatusMprv := by decide
  exact and_of_subset (machineTrapStatus_kept priv st) hkept

lemma supervisorTrapStatus_spie :
    supervisorTrapStatus priv st &&& mstatusSpie =
      if st &&& mstatusSie ≠ 0 then mstatusSpie else 0 := by
  unfold supervisorTrapStatus
  dsimp only
  rw [assign_and_of_disjoint (by decide), clear_and_of_disjoint (by decide), assign_bit]

lemma supervisorTrapStatus_spp :
    supervisorTrapStatus priv st &&& mstatusSpp =
      if priv.val = privSupervisor then mstatusSpp else 0 := by
  unfold supervisorTrapStatus
  dsimp only
  rw [assign_bit]

lemma mretStatus_mie :
    mretStatus st &&& mstatusMie = if st &&& mstatusMpie ≠ 0 then mstatusMie else 0 := by
  rw [mretStatus_of_disjoint st (by decide), clear_and_of_disjoint (by decide),
    or_and_of_disjoint (by decide), assign_bit]

lemma mretStatus_mpie : mretStatus st &&& mstatusMpie = mstatusMpie := by
  rw [mretStatus_of_disjoint st (by decide), clear_and_of_disjoint (by decide)]
  simpa using assign_bit True _ mstatusMpie

lemma mretStatus_mpp : mretStatus st &&& mstatusMpp = 0 := by
  rw [mretStatus_of_disjoint st (by decide), BitVec.and_assoc]
  simp

/-- The level MRET returns to is read before the field is reset. -/
lemma ofMpp_mret : PrivLevel.ofMpp ((if st &&& mstatusMpie ≠ 0 then st ||| mstatusMie
    else st &&& ~~~mstatusMie) ||| mstatusMpie) = PrivLevel.ofMpp st := by
  have hmpp : ((if st &&& mstatusMpie ≠ 0 then st ||| mstatusMie
      else st &&& ~~~mstatusMie) ||| mstatusMpie) &&& mstatusMpp = st &&& mstatusMpp := by
    rw [or_and_of_disjoint (by decide), assign_and_of_disjoint (by decide)]
  unfold PrivLevel.ofMpp
  simp only [hmpp]

lemma mretStatus_mprv : mretStatus st &&& mstatusMprv =
    if (PrivLevel.ofMpp st).val ≠ privMachine then 0 else st &&& mstatusMprv := by
  have hleast : (privLeastSupported.setWidth 64 <<< mstatusMppShift : U64) &&& mstatusMprv = 0 := by
    decide
  unfold mretStatus
  dsimp only
  rw [ofMpp_mret]
  split
  · rw [BitVec.and_assoc]
    simp
  · rw [clear_or_and_of_disjoint (by decide) hleast, or_and_of_disjoint (by decide),
      assign_and_of_disjoint (by decide)]

lemma sretStatus_sie :
    sretStatus st &&& mstatusSie = if st &&& mstatusSpie ≠ 0 then mstatusSie else 0 := by
  unfold sretStatus
  dsimp only
  rw [clear_and_of_disjoint (by decide), clear_and_of_disjoint (by decide),
    or_and_of_disjoint (by decide), assign_bit]

lemma sretStatus_spie : sretStatus st &&& mstatusSpie = mstatusSpie := by
  unfold sretStatus
  dsimp only
  rw [clear_and_of_disjoint (by decide), clear_and_of_disjoint (by decide)]
  simpa using assign_bit True _ mstatusSpie

lemma sretStatus_spp : sretStatus st &&& mstatusSpp = 0 := by
  unfold sretStatus
  dsimp only
  rw [clear_and_of_disjoint (by decide), BitVec.and_assoc]
  simp

lemma sretStatus_mprv : sretStatus st &&& mstatusMprv = 0 := by
  unfold sretStatus
  dsimp only
  rw [BitVec.and_assoc]
  simp

end Words

/-! ## Entry -/

lemma mstatus_enterTrap_machine (c : CsrFile) (priv : PrivLevel) (cause tval epc : U64) {k : U64}
    (hk : mstatusMask &&& k = k) :
    (c.enterTrap false priv cause tval epc).mstatus &&& k =
      machineTrapStatus priv c.mstatus &&& k :=
  CsrFile.setMstatus_and _ _ hk

lemma mstatus_enterTrap_supervisor (c : CsrFile) (priv : PrivLevel) (cause tval epc : U64) {k : U64}
    (hk : mstatusMask &&& k = k) :
    (c.enterTrap true priv cause tval epc).mstatus &&& k =
      supervisorTrapStatus priv c.mstatus &&& k :=
  CsrFile.setMstatus_and _ _ hk

/-- Trap entry leaves the rest of the status word, as one reads it. -/
lemma mstatus_enterTrap_others (c : CsrFile) (x : Bool) (priv : PrivLevel) (cause tval epc : U64)
    {k : U64} (hfs : k &&& mstatusFs = mstatusFs) (hk : trapFields x &&& k = 0) :
    (c.enterTrap x priv cause tval epc).mstatus &&& k = c.mstatus &&& k := by
  refine CsrFile.mstatus_congr hfs ?_
  have hsub : ~~~trapFields x &&& (k &&& ~~~mstatusSd) = k &&& ~~~mstatusSd := by
    rw [← BitVec.and_assoc, not_and_of_disjoint hk]
  exact and_of_subset (enterTrap_delta c x priv cause tval epc).status hsub

lemma epc_enterTrap (c : CsrFile) (x : Bool) (priv : PrivLevel) (cause tval : U64) {pc : U64}
    (hpc : pc &&& 1 = 0) :
    (c.enterTrap x priv cause tval pc).read (if x then sepc else mepc) = pc := by
  have heven : pc &&& ~~~1 = pc := by
    rw [BitVec.and_comm] at hpc ⊢
    exact not_and_of_disjoint hpc
  obtain ⟨-, hepc, -⟩ := enterTrap_registers c x priv cause tval pc
  rw [heven] at hepc
  cases x <;> exact hepc

/-! ## Return -/

section Return

variable {inst : DecodedInst} {u : Hart}

lemma execute_mret (h : EncodesMret inst) (hp : u.cpu.priv = .machine) :
    execute inst u = .ok () { u with cpu := { u.cpu with
      csrs := u.cpu.csrs.setMstatus (mretStatus u.cpu.csrs.mstatus)
      priv := PrivLevel.ofMpp u.cpu.csrs.mstatus
      nextPc := (u.cpu.csrs.setMstatus (mretStatus u.cpu.csrs.mstatus)).read mepc } } := by
  have hlegal : ¬ (inst.rd ≠ 0 ∨ inst.rs1 ≠ 0 ∨ u.cpu.priv.val < privMachine) := by
    rw [h.rd, h.rs1, hp]
    decide
  rw [execute_system h.opcode, executeSystem, if_neg (not_not.mpr h.funct3), h.imm]
  show executeMret inst u = _
  unfold executeMret
  rw [bind_of_ok (get_apply u), if_neg hlegal]
  rfl

/-- SRET in supervisor mode, where TSR does not forbid it. -/
lemma execute_sret (h : EncodesSret inst) (hp : u.cpu.priv = .supervisor)
    (htsr : u.cpu.csrs.mstatus &&& mstatusTsr = 0) :
    execute inst u = .ok () { u with cpu := { u.cpu with
      csrs := u.cpu.csrs.setMstatus (sretStatus u.cpu.csrs.mstatus)
      priv := sretPriv u.cpu.csrs.mstatus
      nextPc := (u.cpu.csrs.setMstatus (sretStatus u.cpu.csrs.mstatus)).read sepc } } := by
  have hlegal : ¬ (inst.rd ≠ 0 ∨ inst.rs1 ≠ 0 ∨ u.cpu.priv.val < privSupervisor) := by
    rw [h.rd, h.rs1, hp]
    decide
  have hallowed : ¬ (u.cpu.priv.val = privSupervisor ∧ u.cpu.csrs.mstatus &&& mstatusTsr ≠ 0) :=
    fun hc => hc.2 htsr
  rw [execute_system h.opcode, executeSystem, if_neg (not_not.mpr h.funct3), h.imm]
  show executeSret inst u = _
  unfold executeSret
  rw [bind_of_ok (get_apply u), if_neg hlegal, if_neg hallowed]
  rfl

/-- An instruction that has retired has counted itself and nothing else. -/
lemma mstatus_retire (s : Hart) : s.retire.cpu.csrs.mstatus = s.cpu.csrs.mstatus := by
  have htick : s.cpu.csrs.tickCounters.mstatus = s.cpu.csrs.mstatus := by
    unfold CsrFile.mstatus CsrFile.tickCounters
    rw [CsrFile.setRaw_raw_ne _ _ (by decide), CsrFile.setRaw_raw_ne _ _ (by decide)]
  unfold Hart.retire
  dsimp only
  split
  · rfl
  · exact htick

end Return

/-- The interrupted program goes on: the program counter, the level and the interrupt enable `ie`
are back, and of the status word only the emptied stack (`pie` and `pp`) and MPRV may differ. -/
structure Resumed (ie pie pp : U64) (s v : Hart) : Prop where
  pc : v.cpu.pc = s.cpu.pc
  priv : v.cpu.priv = s.cpu.priv
  enable : v.cpu.csrs.mstatus &&& ie = s.cpu.csrs.mstatus &&& ie
  previous : v.cpu.csrs.mstatus &&& pie = pie
  level : v.cpu.csrs.mstatus &&& pp = 0
  mprv : v.cpu.csrs.mstatus &&& mstatusMprv =
    if s.cpu.priv.val < privMachine then 0 else s.cpu.csrs.mstatus &&& mstatusMprv
  others : v.cpu.csrs.mstatus &&& ~~~(ie ||| pie ||| pp ||| mstatusMprv) =
    s.cpu.csrs.mstatus &&& ~~~(ie ||| pie ||| pp ||| mstatusMprv)

lemma PrivLevel.ne_machine_iff (p : PrivLevel) : p.val ≠ privMachine ↔ p.val < privMachine := by
  rcases p.val_cases with h | h | h | h <;> rw [h] <;> decide

/-- A trap into machine mode is undone by MRET. -/
lemma resumed_mret {s u : Hart} {inst : DecodedInst} {cause tval : U64} (hinst : EncodesMret inst)
    (hpriv : u.cpu.priv = .machine)
    (hst : u.cpu.csrs.mstatus = (s.cpu.csrs.enterTrap false s.cpu.priv cause tval s.cpu.pc).mstatus)
    (hepc : u.cpu.csrs.read mepc = s.cpu.pc) :
    ∃ v, execute inst u = .ok () v ∧
      Resumed mstatusMie mstatusMpie mstatusMpp s v.retire := by
  refine ⟨_, execute_mret hinst hpriv, ?_⟩
  have hu {k : U64} (hk : mstatusMask &&& k = k) :
      u.cpu.csrs.mstatus &&& k = machineTrapStatus s.cpu.priv s.cpu.csrs.mstatus &&& k := by
    rw [hst]
    exact mstatus_enterTrap_machine _ _ _ _ _ hk
  have hlevel : PrivLevel.ofMpp u.cpu.csrs.mstatus = s.cpu.priv := by
    apply PrivLevel.ext
    rw [← ofMpp_machineTrapStatus s.cpu.priv s.cpu.csrs.mstatus]
    simp only [PrivLevel.ofMpp, hu (k := mstatusMpp) (by decide)]
  refine ⟨?_, hlevel, ?_, ?_, ?_, ?_, ?_⟩
  · show (u.cpu.csrs.setMstatus (mretStatus u.cpu.csrs.mstatus)).raw mepc = s.cpu.pc
    rw [CsrFile.setMstatus_raw_ne _ _ (by decide)]
    exact hepc
  · rw [mstatus_retire, CsrFile.setMstatus_and _ _ (by decide), mretStatus_mie, hu (by decide),
      machineTrapStatus_mpie]
    exact restore_bit (n := 3) (by decide) (by decide)
  · rw [mstatus_retire, CsrFile.setMstatus_and _ _ (by decide), mretStatus_mpie]
  · rw [mstatus_retire, CsrFile.setMstatus_and _ _ (by decide), mretStatus_mpp]
  · rw [mstatus_retire, CsrFile.setMstatus_and _ _ (by decide), mretStatus_mprv, hlevel,
      hu (by decide), machineTrapStatus_mprv]
    simp only [PrivLevel.ne_machine_iff]
  · rw [mstatus_retire, CsrFile.setMstatus_and_of_agree _ (by decide)
      (mretStatus_and (by decide) (by decide) (by decide) (by decide) _), hst]
    exact mstatus_enterTrap_others _ _ _ _ _ _ (by decide) (by decide)

/-- A trap into supervisor mode is undone by SRET. -/
lemma resumed_sret {s u : Hart} {inst : DecodedInst} {cause tval : U64} (hinst : EncodesSret inst)
    (hlow : s.cpu.priv.val ≤ privSupervisor) (hpriv : u.cpu.priv = .supervisor)
    (htsr : s.cpu.csrs.mstatus &&& mstatusTsr = 0)
    (hst : u.cpu.csrs.mstatus = (s.cpu.csrs.enterTrap true s.cpu.priv cause tval s.cpu.pc).mstatus)
    (hepc : u.cpu.csrs.read sepc = s.cpu.pc) :
    ∃ v, execute inst u = .ok () v ∧
      Resumed mstatusSie mstatusSpie mstatusSpp s v.retire := by
  have hu {k : U64} (hk : mstatusMask &&& k = k) :
      u.cpu.csrs.mstatus &&& k = supervisorTrapStatus s.cpu.priv s.cpu.csrs.mstatus &&& k := by
    rw [hst]
    exact mstatus_enterTrap_supervisor _ _ _ _ _ hk
  have hkept {k : U64} (hk : keptStatus true &&& k = k) (hm : mstatusMask &&& k = k) :
      u.cpu.csrs.mstatus &&& k = s.cpu.csrs.mstatus &&& k := by
    rw [hu hm]
    exact and_of_subset (supervisorTrapStatus_kept _ _) hk
  have hallowed : u.cpu.csrs.mstatus &&& mstatusTsr = 0 := by
    rw [hkept (by decide) (by decide), htsr]
  refine ⟨_, execute_sret hinst hpriv hallowed, ?_⟩
  have hlevel : sretPriv u.cpu.csrs.mstatus = s.cpu.priv := by
    apply PrivLevel.ext
    unfold sretPriv
    rw [hu (k := mstatusSpp) (by decide), supervisorTrapStatus_spp]
    rcases s.cpu.priv.val_cases with h | h | h | h <;> rw [h] at hlow ⊢
    · decide
    · decide
    · exact absurd hlow (by decide)
    · exact absurd hlow (by decide)
  have hbelow : s.cpu.priv.val < privMachine := by
    rw [privSupervisor] at hlow
    rw [privMachine]
    bv_omega
  refine ⟨?_, hlevel, ?_, ?_, ?_, ?_, ?_⟩
  · show (u.cpu.csrs.setMstatus (sretStatus u.cpu.csrs.mstatus)).raw sepc = s.cpu.pc
    rw [CsrFile.setMstatus_raw_ne _ _ (by decide)]
    exact hepc
  · rw [mstatus_retire, CsrFile.setMstatus_and _ _ (by decide), sretStatus_sie, hu (by decide),
      supervisorTrapStatus_spie]
    exact restore_bit (n := 1) (by decide) (by decide)
  · rw [mstatus_retire, CsrFile.setMstatus_and _ _ (by decide), sretStatus_spie]
  · rw [mstatus_retire, CsrFile.setMstatus_and _ _ (by decide), sretStatus_spp]
  · rw [mstatus_retire, CsrFile.setMstatus_and _ _ (by decide), sretStatus_mprv, if_pos hbelow]
  · rw [mstatus_retire, CsrFile.setMstatus_and_of_agree _ (by decide)
      (sretStatus_and (by decide) (by decide) (by decide) (by decide) _), hst]
    exact mstatus_enterTrap_others _ _ _ _ _ _ (by decide) (by decide)

/-- **Trap return undoes trap entry.**  `u` is the machine when the handler returns; of it only the
level, the status word and the saved program counter have to be as trap entry left them. -/
theorem trap_return_undoes_entry (s u : Hart) (cause tval : U64) (isInterrupt : Bool)
    (inst : DecodedInst) (hpc : s.cpu.pc &&& 1 = 0)
    (hpriv : u.cpu.priv = (s.enterTrap cause tval s.cpu.pc isInterrupt).cpu.priv)
    (hst : u.cpu.csrs.read mstatus =
      (s.enterTrap cause tval s.cpu.pc isInterrupt).cpu.csrs.read mstatus) :
    (s.cpu.trapToSupervisor cause isInterrupt = false → EncodesMret inst →
      u.cpu.csrs.read mepc = (s.enterTrap cause tval s.cpu.pc isInterrupt).cpu.csrs.read mepc →
      ∃ v, execute inst u = .ok () v ∧
        Resumed mstatusMie mstatusMpie mstatusMpp s v.retire) ∧
    (s.cpu.trapToSupervisor cause isInterrupt = true → EncodesSret inst →
      s.cpu.csrs.mstatus &&& mstatusTsr = 0 →
      u.cpu.csrs.read sepc = (s.enterTrap cause tval s.cpu.pc isInterrupt).cpu.csrs.read sepc →
      ∃ v, execute inst u = .ok () v ∧
        Resumed mstatusSie mstatusSpie mstatusSpp s v.retire) := by
  have hcsrs : (s.enterTrap cause tval s.cpu.pc isInterrupt).cpu.csrs =
      s.cpu.csrs.enterTrap (s.cpu.trapToSupervisor cause isInterrupt) s.cpu.priv cause tval
        s.cpu.pc := rfl
  have hmode : (s.enterTrap cause tval s.cpu.pc isInterrupt).cpu.priv =
      if s.cpu.trapToSupervisor cause isInterrupt then .supervisor else .machine := rfl
  rw [hcsrs] at hst
  rw [hmode] at hpriv
  refine ⟨fun hto hinst hepc => ?_, fun hto hinst htsr hepc => ?_⟩
  · rw [hto] at hst hpriv
    rw [hcsrs, hto] at hepc
    exact resumed_mret hinst hpriv hst (hepc.trans (epc_enterTrap _ false _ _ _ hpc))
  · have hlow : s.cpu.priv.val ≤ privSupervisor := (of_decide_eq_true hto).1
    rw [hto] at hst hpriv
    rw [hcsrs, hto] at hepc
    exact resumed_sret hinst hlow hpriv htsr hst (hepc.trans (epc_enterTrap _ true _ _ _ hpc))

/-- A hart in user mode whose exceptions are delegated. -/
def delegatedSample : Hart :=
  let s := (Machine.init (.plain 1 4096 page_fits)).hart 0
  { s with cpu := { s.cpu with priv := .user, csrs := s.cpu.csrs.write medeleg 0xffff } }

/-- An illegal instruction of a hart out of reset and one of the user, with handlers that return at
once. -/
theorem trap_return_undoes_entry_samples :
    (∃ v, execute (decode 0x30200073)
        (((Machine.init (.plain 1 4096 page_fits)).hart 0).enterTrap 2 0 dramBase false) =
          .ok () v ∧
      Resumed mstatusMie mstatusMpie mstatusMpp ((Machine.init (.plain 1 4096 page_fits)).hart 0)
        v.retire) ∧
    ∃ v, execute (decode 0x10200073) (delegatedSample.enterTrap 2 0 dramBase false) = .ok () v ∧
      Resumed mstatusSie mstatusSpie mstatusSpp delegatedSample v.retire := by
  have hmret : EncodesMret (decode 0x30200073) := by constructor <;> decide +kernel
  have hsret : EncodesSret (decode 0x10200073) := by constructor <;> decide +kernel
  constructor
  · exact (trap_return_undoes_entry _ _ 2 0 false _ (by decide +kernel) rfl rfl).1
      (by decide +kernel) hmret rfl
  · exact (trap_return_undoes_entry delegatedSample _ 2 0 false _ (by decide +kernel) rfl rfl).2
      (by decide +kernel) hsret (by decide +kernel) rfl

end RiscvEmu
