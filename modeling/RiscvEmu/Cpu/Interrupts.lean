import RiscvEmu.CsrMoves

/-!
# Interrupts

Which interrupt a hart takes is decided in `next_interrupt`, where it goes in `enter_trap`.  Both
follow one rule: an interrupt belongs to the mode that `mideleg` gives it to, it can be taken when
the hart is below that mode or in it with interrupts enabled, and the highest mode comes first.
-/

namespace RiscvEmu

open Exec BitField Csr

/-! ## The rule -/

namespace Interrupt

/-- The order in which interrupts of one mode are taken. -/
def priority : List Interrupt :=
  [machineExternal, machineSoftware, machineTimer, supervisorExternal, supervisorSoftware,
    supervisorTimer]

lemma mem_priority (i : Interrupt) : i ∈ priority := by
  cases i <;> decide

/-- `i` comes before `j`. -/
def Precedes (i j : Interrupt) : Prop := priority.idxOf i < priority.idxOf j

/-- The bit of an interrupt. -/
def bit (i : Interrupt) : U64 := 1 <<< i.number

lemma number_lt (i : Interrupt) : i.number < 64 := by
  cases i <;> decide

end Interrupt

namespace Cpu

variable (c : Cpu)

/-- The mode an interrupt belongs to. -/
def targetOf (i : Interrupt) : PrivLevel :=
  if (c.csrs.raw mideleg).getLsbD i.number then .supervisor else .machine

/-- The interrupt enable of a mode. -/
def enabledIn (p : PrivLevel) : Bool :=
  if p = .machine then c.csrs.mstatusMie else c.csrs.mstatusSie

/-- The interrupt is pending and enabled. -/
def Ready (i : Interrupt) : Prop :=
  (c.csrs.raw mip).getLsbD i.number ∧ (c.csrs.raw mie).getLsbD i.number

/-- The interrupt can be taken in the current mode. -/
def Takable (i : Interrupt) : Prop :=
  c.Ready i ∧ (c.priv.val < (c.targetOf i).val ∨
    (c.priv = c.targetOf i ∧ c.enabledIn (c.targetOf i)))

/-- The interrupt to take: of those that can be taken, the first in the order among those of the
highest mode. -/
def First (i : Interrupt) : Prop :=
  c.Takable i ∧ ∀ j, c.Takable j → (c.targetOf j).val ≤ (c.targetOf i).val ∧
    (c.targetOf j = c.targetOf i → ¬ j.Precedes i)

end Cpu

/-- The trap CSRs of a mode. -/
def causeCsr (p : PrivLevel) : CsrAddr := if p = .supervisor then scause else mcause
/-- Where a level finds the address it was trapped at. -/
def epcCsr (p : PrivLevel) : CsrAddr := if p = .supervisor then sepc else mepc
/-- Where a level finds its trap vector. -/
def tvecCsr (p : PrivLevel) : CsrAddr := if p = .supervisor then stvec else mtvec

/-- Where the vector register `tvec` sends an interrupt. -/
def vectorOf (tvec : U64) (i : Interrupt) : U64 :=
  if tvec &&& mtvecModeMask = mtvecModeVectored then
    (tvec &&& ~~~mtvecModeMask) + 4 * BitVec.ofNat 64 i.number
  else tvec &&& ~~~mtvecModeMask

/-- `t` is `s` after interrupt `i` was delivered to mode `p`. -/
structure Delivered (p : PrivLevel) (i : Interrupt) (s t : Hart) : Prop where
  priv : t.cpu.priv = p
  raised : s.cpu.priv.val ≤ p.val
  cause : t.cpu.csrs.read (causeCsr p) = (1 <<< 63) ||| BitVec.ofNat 64 i.number
  epc : t.cpu.csrs.read (epcCsr p) = s.cpu.pc &&& ~~~1
  pc : t.cpu.pc = vectorOf (s.cpu.csrs.read (tvecCsr p)) i
  others : TrapDelta (p = .supervisor) s.cpu.csrs t.cpu.csrs

/-! ## Selection -/

lemma and_bit_ne_zero (x : U64) (i : Interrupt) : x &&& i.bit ≠ 0 ↔ x.getLsbD i.number = true := by
  have hbit : i.bit = BitVec.twoPow 64 i.number := (BitVec.twoPow_eq 64 i.number).symm
  rw [hbit, BitVec.and_twoPow]
  by_cases hx : x.getLsbD i.number = true
  · simp only [hx, if_true, iff_true, ne_eq]
    cases i <;> decide
  · simp [hx]

/-- A word without bits of interrupts that do not exist is nonzero if it has one that does. -/
lemma ne_zero_iff_exists_bit {x : U64} (h : x &&& ~~~interruptMask = 0) :
    x ≠ 0 ↔ ∃ i : Interrupt, x.getLsbD i.number = true := by
  constructor
  · intro hx
    by_contra hnone
    have hzero : ∀ i : Interrupt, x &&& i.bit = 0 := fun i => by
      by_contra hne
      exact hnone ⟨i, (and_bit_ne_zero x i).mp hne⟩
    have hmask : x &&& interruptMask = 0 := by
      have hor : interruptMask = Interrupt.bit .machineSoftware |||
          Interrupt.bit .machineTimer ||| Interrupt.bit .machineExternal |||
          Interrupt.bit .supervisorSoftware ||| Interrupt.bit .supervisorTimer |||
          Interrupt.bit .supervisorExternal := by decide
      rw [hor]
      simp only [BitVec.and_or_distrib_left, hzero]
      rfl
    have hall : x = x &&& (interruptMask ||| ~~~interruptMask) := by
      rw [BitVec.or_not_self, BitVec.and_allOnes]
    rw [BitVec.and_or_distrib_left, hmask, h] at hall
    exact hx hall
  · rintro ⟨i, hi⟩ hx
    rw [hx] at hi
    simp at hi

/-- The chain of tests in `next_interrupt` is a search in the order of priority. -/
lemma nextInterrupt_eq (c : Cpu) : c.nextInterrupt =
    Interrupt.priority.find? fun i => c.interruptCandidates.getLsbD i.number := by
  have hfind : ∀ (p : Interrupt → Bool) (a : Interrupt) (l : List Interrupt),
      (a :: l).find? p = if p a then some a else l.find? p := by
    intro p a l
    cases h : p a <;> simp [h]
  have htest : ∀ i : Interrupt, (c.interruptCandidates &&& i.bit ≠ 0) =
      (c.interruptCandidates.getLsbD i.number = true) :=
    fun i => propext (and_bit_ne_zero _ i)
  simp only [Interrupt.priority, hfind, ← htest]
  rfl

section Selection

variable {c : Cpu} {i : Interrupt}

/-- Does `mideleg` give the interrupt to supervisor mode? -/
def Cpu.Delegated (c : Cpu) (i : Interrupt) : Prop := (c.csrs.raw mideleg).getLsbD i.number

lemma targetOf_delegated (h : c.Delegated i) : c.targetOf i = .supervisor := if_pos h

lemma targetOf_not_delegated (h : ¬ c.Delegated i) : c.targetOf i = .machine := if_neg h

lemma targetOf_le (c : Cpu) (i : Interrupt) : (c.targetOf i).val ≤ PrivLevel.machine.val := by
  by_cases h : c.Delegated i
  · rw [targetOf_delegated h]
    decide
  · rw [targetOf_not_delegated h]
    exact BitVec.le_refl _

/-- Machine mode lets its interrupts through. -/
def Cpu.machineOpen (c : Cpu) : Bool := c.priv.val < privMachine || c.csrs.mstatusMie

/-- Supervisor mode lets its interrupts through. -/
def Cpu.supervisorOpen (c : Cpu) : Bool :=
  c.priv.val < privSupervisor || (c.priv.val == privSupervisor && c.csrs.mstatusSie)

lemma takable_delegated (h : c.Delegated i) : c.Takable i ↔ c.Ready i ∧ c.supervisorOpen := by
  have hpriv : c.priv = .supervisor ↔ c.priv.val = privSupervisor :=
    ⟨fun heq => by rw [heq]; rfl, fun heq => PrivLevel.ext heq⟩
  have hen : c.enabledIn .supervisor = c.csrs.mstatusSie := if_neg (by decide)
  simp only [Cpu.Takable, targetOf_delegated h, hen, hpriv, Cpu.supervisorOpen, Bool.or_eq_true,
    Bool.and_eq_true, decide_eq_true_eq, beq_iff_eq]
  rfl

lemma takable_not_delegated (h : ¬ c.Delegated i) : c.Takable i ↔ c.Ready i ∧ c.machineOpen := by
  have hen : c.enabledIn .machine = c.csrs.mstatusMie := if_pos rfl
  have hpriv : c.priv = .machine ↔ ¬ c.priv.val < privMachine := by
    constructor
    · intro heq
      rw [heq]
      decide
    · intro hge
      apply PrivLevel.ext
      have hle := c.priv.le
      have hge' : ¬ c.priv.val < 3 := hge
      show c.priv.val = 3
      bv_omega
  simp only [Cpu.Takable, targetOf_not_delegated h, hen, hpriv, Cpu.machineOpen, Bool.or_eq_true,
    decide_eq_true_eq]
  show _ ∧ (c.priv.val < privMachine ∨ _) ↔ _
  tauto

lemma machineReady_iff : (c.csrs.pendingEnabled &&& ~~~c.csrs.read mideleg).getLsbD i.number =
    true ↔ c.Ready i ∧ ¬ c.Delegated i := by
  have hread : c.csrs.read mideleg = c.csrs.raw mideleg := rfl
  simp only [hread, CsrFile.pendingEnabled, BitVec.getLsbD_and, BitVec.getLsbD_not,
    i.number_lt, decide_true, Bool.true_and, Bool.and_eq_true, Bool.not_eq_true', Cpu.Ready,
    Cpu.Delegated, Bool.not_eq_true]

lemma supervisorReady_iff : (c.csrs.pendingEnabled &&& c.csrs.read mideleg).getLsbD i.number =
    true ↔ c.Ready i ∧ c.Delegated i := by
  have hread : c.csrs.read mideleg = c.csrs.raw mideleg := rfl
  simp only [hread, CsrFile.pendingEnabled, BitVec.getLsbD_and, Bool.and_eq_true, Cpu.Ready,
    Cpu.Delegated]

/-- A word under `mie` has no bits of interrupts that do not exist. -/
lemma ready_and_mask (hb : c.csrs.Built) (x : U64) :
    (c.csrs.pendingEnabled &&& x) &&& ~~~interruptMask = 0 := by
  have hcomm : (c.csrs.pendingEnabled &&& x) &&& ~~~interruptMask =
      c.csrs.raw mip &&& x &&& (c.csrs.raw mie &&& ~~~interruptMask) := by
    unfold CsrFile.pendingEnabled
    grind
  rw [hcomm, hb.mie]
  exact BitVec.and_zero

lemma machineReady_ne_zero (hb : c.csrs.Built) :
    c.csrs.pendingEnabled &&& ~~~c.csrs.read mideleg ≠ 0 ↔
      ∃ i, c.Ready i ∧ ¬ c.Delegated i := by
  rw [ne_zero_iff_exists_bit (ready_and_mask hb _)]
  exact exists_congr fun i => machineReady_iff

lemma supervisorReady_ne_zero (hb : c.csrs.Built) :
    c.csrs.pendingEnabled &&& c.csrs.read mideleg ≠ 0 ↔ ∃ i, c.Ready i ∧ c.Delegated i := by
  rw [ne_zero_iff_exists_bit (ready_and_mask hb _)]
  exact exists_congr fun i => supervisorReady_iff

/-- A candidate is an interrupt that can be taken and whose mode is the highest. -/
lemma mem_candidates_iff (hb : c.csrs.Built) (i : Interrupt) :
    c.interruptCandidates.getLsbD i.number = true ↔
      c.Takable i ∧ ∀ j, c.Takable j → (c.targetOf j).val ≤ (c.targetOf i).val := by
  have hcand : c.interruptCandidates =
      if c.machineOpen ∧ c.csrs.pendingEnabled &&& ~~~c.csrs.read mideleg ≠ 0 then
        c.csrs.pendingEnabled &&& ~~~c.csrs.read mideleg
      else if c.supervisorOpen ∧ c.csrs.pendingEnabled &&& c.csrs.read mideleg ≠ 0 then
        c.csrs.pendingEnabled &&& c.csrs.read mideleg
      else 0 := rfl
  rw [hcand]
  by_cases hm : c.machineOpen ∧ c.csrs.pendingEnabled &&& ~~~c.csrs.read mideleg ≠ 0
  · -- an interrupt of machine mode: the others have to wait
    rw [if_pos hm, machineReady_iff]
    rw [machineReady_ne_zero hb] at hm
    obtain ⟨hopen, k, hk, hkd⟩ := hm
    have hktak : c.Takable k := (takable_not_delegated hkd).mpr ⟨hk, hopen⟩
    constructor
    · rintro ⟨hi, hid⟩
      refine ⟨(takable_not_delegated hid).mpr ⟨hi, hopen⟩, fun j _ => ?_⟩
      rw [targetOf_not_delegated hid]
      exact targetOf_le c j
    · rintro ⟨htak, hmax⟩
      refine ⟨htak.1, fun hid => ?_⟩
      have hle := hmax k hktak
      rw [targetOf_delegated hid, targetOf_not_delegated hkd] at hle
      exact absurd hle (by decide)
  rw [if_neg hm]
  rw [machineReady_ne_zero hb] at hm
  -- from here on only delegated interrupts can be taken
  have hdel : ∀ j, c.Takable j → c.Delegated j ∧ c.Ready j ∧ c.supervisorOpen := by
    intro j hj
    by_cases hjd : c.Delegated j
    · exact ⟨hjd, (takable_delegated hjd).mp hj⟩
    · obtain ⟨hready, hopen⟩ := (takable_not_delegated hjd).mp hj
      exact absurd ⟨hopen, j, hready, hjd⟩ hm
  by_cases hs : c.supervisorOpen ∧ c.csrs.pendingEnabled &&& c.csrs.read mideleg ≠ 0
  · rw [if_pos hs, supervisorReady_iff]
    constructor
    · rintro ⟨hi, hid⟩
      refine ⟨(takable_delegated hid).mpr ⟨hi, hs.1⟩, fun j hj => ?_⟩
      rw [targetOf_delegated hid, targetOf_delegated (hdel j hj).1]
      exact BitVec.le_refl _
    · rintro ⟨htak, -⟩
      exact ⟨htak.1, (hdel i htak).1⟩
  · rw [if_neg hs]
    rw [supervisorReady_ne_zero hb] at hs
    constructor
    · intro hzero
      simp at hzero
    · rintro ⟨htak, -⟩
      obtain ⟨hid, hready, hopen⟩ := hdel i htak
      exact absurd ⟨hopen, i, hready, hid⟩ hs

end Selection

/-! ## Delivery -/

lemma delegatedInterrupt_iff (c : Cpu) (i : Interrupt) :
    c.csrs.delegatedInterrupt (i.causeCode &&& ~~~((1 : U64) <<< 63)) = true ↔ c.Delegated i := by
  have hraw : i.causeCode &&& ~~~((1 : U64) <<< 63) = BitVec.ofNat 64 i.number := by
    cases i <;> decide
  have hnum : (BitVec.ofNat 64 i.number).toNat = i.number := by
    cases i <;> decide
  have hlt : BitVec.ofNat 64 i.number < (64 : U64) := by
    cases i <;> decide
  rw [hraw, CsrFile.delegatedInterrupt, decide_eq_true_eq, hnum, Cpu.Delegated]
  simp only [hlt, true_and]
  exact shiftRight_and_one_ne_zero _ _

/-- `enter_trap` decides on the mode as the rule does. -/
lemma trapToSupervisor_eq {c : Cpu} {i : Interrupt} (h : c.Takable i) :
    c.trapToSupervisor i.causeCode true = decide (c.targetOf i = .supervisor) := by
  by_cases hd : c.Delegated i
  · have hopen := ((takable_delegated hd).mp h).2
    have hle : c.priv.val ≤ privSupervisor := by
      simp only [Cpu.supervisorOpen, Bool.or_eq_true, Bool.and_eq_true, decide_eq_true_eq,
        beq_iff_eq] at hopen
      exact hopen.elim BitVec.le_of_lt fun h => BitVec.le_of_eq h.1
    simp only [Cpu.trapToSupervisor, if_true, (delegatedInterrupt_iff c i).mpr hd,
      targetOf_delegated hd, hle, and_self, decide_true]
  · have hnot : c.csrs.delegatedInterrupt (i.causeCode &&& ~~~((1 : U64) <<< 63)) = false :=
      Bool.eq_false_iff.mpr fun hc => hd ((delegatedInterrupt_iff c i).mp hc)
    have hne : PrivLevel.machine ≠ .supervisor := by decide
    simp only [Cpu.trapToSupervisor, if_true, hnot, Bool.false_eq_true, and_false,
      targetOf_not_delegated hd, hne]

/-- The first two of the registers a trap writes keep what was written. -/
lemma trapWrites_raw (c : CsrFile) {a b d : CsrAddr} (u v w st : U64) (hab : a ≠ CsrFile.cell b)
    (had : a ≠ CsrFile.cell d) (hbd : b ≠ CsrFile.cell d) (ha : a ≠ mstatus) (hb : b ≠ mstatus) :
    let c' := (((c.write a u).write b v).write d w).setMstatus st
    c'.raw a = (c.write a u).raw a ∧ c'.raw b = ((c.write a u).write b v).raw b := by
  intro c'
  constructor
  · rw [CsrFile.setMstatus_raw_ne _ _ ha, CsrFile.write_raw_of_ne _ _ had,
      CsrFile.write_raw_of_ne _ _ hab]
  · rw [CsrFile.setMstatus_raw_ne _ _ hb, CsrFile.write_raw_of_ne _ _ hbd]

/-- What a trap leaves in the registers of the mode that takes it. -/
lemma enterTrap_registers (c : CsrFile) (x : Bool) (priv : PrivLevel) (cause tval epc : U64) :
    let p : PrivLevel := if x then .supervisor else .machine
    let c' := c.enterTrap x priv cause tval epc
    c'.read (causeCsr p) = cause ∧ c'.read (epcCsr p) = epc &&& ~~~1 ∧
      c'.read (tvecCsr p) = c.read (tvecCsr p) := by
  have htvec := (enterTrap_delta c x priv cause tval epc).others
  cases x with
  | true =>
    obtain ⟨hepc, hcause⟩ := trapWrites_raw c (a := sepc) (b := scause) (d := stval) epc cause tval
      (supervisorTrapStatus priv c.mstatus) (by decide) (by decide) (by decide) (by decide)
      (by decide)
    exact ⟨hcause.trans ((CsrFile.setRaw_raw_self ..).trans merge_not_zero),
      hepc.trans (CsrFile.setRaw_raw_self ..), htvec _ (by decide) (by decide)⟩
  | false =>
    obtain ⟨hepc, hcause⟩ := trapWrites_raw c (a := mepc) (b := mcause) (d := mtval) epc cause tval
      (machineTrapStatus priv c.mstatus) (by decide) (by decide) (by decide) (by decide) (by decide)
    exact ⟨hcause.trans ((CsrFile.setRaw_raw_self ..).trans merge_not_zero),
      hepc.trans (CsrFile.setRaw_raw_self ..), htvec _ (by decide) (by decide)⟩

/-- An interrupt that can be taken is delivered to its mode. -/
lemma delivered_takeInterrupt {s : Hart} {i : Interrupt} (h : s.cpu.Takable i) :
    Delivered (s.cpu.targetOf i) i s (s.takeInterrupt i) := by
  have hmode := trapToSupervisor_eq h
  have hraised : s.cpu.priv.val ≤ (s.cpu.targetOf i).val := by
    rcases h.2 with hlt | ⟨heq, -⟩
    · exact BitVec.le_of_lt hlt
    · rw [heq]
      exact BitVec.le_refl _
  have htarget : s.cpu.targetOf i =
      if s.cpu.trapToSupervisor i.causeCode true then .supervisor else .machine := by
    rw [hmode]
    by_cases hd : s.cpu.Delegated i
    · simp [targetOf_delegated hd]
    · have hne : PrivLevel.machine ≠ .supervisor := by decide
      simp [targetOf_not_delegated hd, hne]
  obtain ⟨x, hx⟩ : ∃ x, s.cpu.trapToSupervisor i.causeCode true = x := ⟨_, rfl⟩
  have hcsrs : (s.takeInterrupt i).cpu.csrs =
      s.cpu.csrs.enterTrap x s.cpu.priv i.causeCode 0 s.cpu.pc := by
    rw [← hx]
    rfl
  obtain ⟨hcause, hepc, htvec⟩ :=
    enterTrap_registers s.cpu.csrs x s.cpu.priv i.causeCode 0 s.cpu.pc
  rw [hx] at htarget
  rw [← hcsrs, ← htarget] at hcause hepc htvec
  refine ⟨?_, hraised, hcause, hepc, ?_, ?_⟩
  · rw [htarget, ← hx]
    rfl
  · rw [← htvec]
    have hnum : i.causeCode &&& 0x3f = BitVec.ofNat 64 i.number := by
      cases i <;> decide
    have htv : tvecCsr (s.cpu.targetOf i) = if x then stvec else mtvec := by
      rw [htarget]
      cases x <;> rfl
    have hpc : (s.takeInterrupt i).cpu.pc =
        trapVector ((s.takeInterrupt i).cpu.csrs.read (if x then stvec else mtvec))
          i.causeCode true := by
      rw [← hx]
      rfl
    rw [hpc, htv, trapVector, vectorOf, hnum]
    simp only [and_true]
  · rw [hcsrs, ← hmode, hx]
    exact enterTrap_delta _ _ _ _ _ _

/-! ## Both together -/

lemma nextInterrupt_eq_none {c : Cpu} (hb : c.csrs.Built) :
    c.nextInterrupt = none ↔ ∀ i, ¬ c.Takable i := by
  rw [nextInterrupt_eq, List.find?_eq_none]
  constructor
  · intro hnone i hi
    -- if something can be taken, something of the highest mode can
    obtain ⟨k, hk, hmax⟩ : ∃ k, c.Takable k ∧
        ∀ j, c.Takable j → (c.targetOf j).val ≤ (c.targetOf k).val := by
      by_cases hm : ∃ k, c.Takable k ∧ ¬ c.Delegated k
      · obtain ⟨k, hk, hkd⟩ := hm
        refine ⟨k, hk, fun j _ => ?_⟩
        rw [targetOf_not_delegated hkd]
        exact targetOf_le c j
      · refine ⟨i, hi, fun j hj => ?_⟩
        have hdel : ∀ k, c.Takable k → c.Delegated k := fun k hk => by
          by_contra hkd
          exact hm ⟨k, hk, hkd⟩
        rw [targetOf_delegated (hdel i hi), targetOf_delegated (hdel j hj)]
        exact BitVec.le_refl _
    exact hnone k k.mem_priority ((mem_candidates_iff hb k).mpr ⟨hk, hmax⟩)
  · intro hnone i _ hi
    exact hnone i ((mem_candidates_iff hb i).mp hi).1

lemma nextInterrupt_eq_some {c : Cpu} (hb : c.csrs.Built) {i : Interrupt}
    (h : c.nextInterrupt = some i) : c.First i := by
  rw [nextInterrupt_eq, List.find?_eq_some_iff_getElem] at h
  obtain ⟨hi, n, hn, heq, hbefore⟩ := h
  obtain ⟨htak, hmax⟩ := (mem_candidates_iff hb i).mp hi
  refine ⟨htak, fun j hj => ⟨hmax j hj, fun hsame hprec => ?_⟩⟩
  -- an interrupt of the same mode that comes first would have been found first
  have hj' : c.interruptCandidates.getLsbD j.number = true := by
    refine (mem_candidates_iff hb j).mpr ⟨hj, fun k hk => ?_⟩
    rw [hsame]
    exact hmax k hk
  have hidx : Interrupt.priority.idxOf i = n := by
    rw [← heq]
    exact List.Nodup.idxOf_getElem (by decide) n hn
  have hlt : Interrupt.priority.idxOf j < n := by
    rw [← hidx]
    exact hprec
  have hfalse := hbefore _ hlt
  rw [List.getElem_idxOf] at hfalse
  simp [hj'] at hfalse

/-- **Interrupts.**  A hart takes an interrupt exactly if one can be taken; it takes the first in
the order among those of the highest mode, and delivers it to that mode. -/
theorem interrupts_follow_rule (s : Hart) (hb : s.cpu.csrs.Built) :
    (s.cpu.nextInterrupt = none ↔ ∀ i, ¬ s.cpu.Takable i) ∧
    ∀ i, s.cpu.nextInterrupt = some i →
      s.cpu.First i ∧ Delivered (s.cpu.targetOf i) i s (s.takeInterrupt i) := by
  refine ⟨nextInterrupt_eq_none hb, fun i hi => ?_⟩
  have hfirst := nextInterrupt_eq_some hb hi
  exact ⟨hfirst, delivered_takeInterrupt hfirst.1⟩

/-- A hart in user mode with a delegated software and a machine timer interrupt ready. -/
def twoInterrupts : Hart :=
  let c := ((CsrFile.new.write mideleg 0x222).write mie 0x82).raiseInterrupt 0x82
  let s := (Machine.init (.plain 1 4096 page_fits)).hart 0
  { s with cpu := { s.cpu with priv := .user, csrs := c.write mtvec 0x80000001 } }

/-- The machine timer wins and goes to its vector. -/
theorem interrupts_follow_rule_sample :
    twoInterrupts.cpu.nextInterrupt = some .machineTimer ∧
      (twoInterrupts.takeInterrupt .machineTimer).cpu.pc = 0x8000001c ∧
      Delivered .machine .machineTimer twoInterrupts
        (twoInterrupts.takeInterrupt .machineTimer) := by
  have hbuilt : twoInterrupts.cpu.csrs.Built := by
    have henabled := ((CsrMoves.refl CsrFile.new).write mideleg 0x222).write mie 0x82
    exact (henabled.trans (CsrStep.raiseInterrupt _ 0x82).moves).write mtvec 0x80000001
  have hnext : twoInterrupts.cpu.nextInterrupt = some .machineTimer := by decide +kernel
  exact ⟨hnext, by decide +kernel,
    ((interrupts_follow_rule twoInterrupts hbuilt).2 _ hnext).2⟩

end RiscvEmu
