import RiscvEmu.CsrMoves

/-!
# Laws of the register file

Several registers are views of one element of the array, under different masks.  Whatever the order
of the calls, the views agree with the registers behind them, fields with few legal values have one
of them, and what is read-only stays.
-/

namespace RiscvEmu

open BitField Csr

/-! ## What a call does to one element -/

variable {addr b : CsrAddr} {c c' : CsrFile}

/-- An element is written by its register and by the views of it. -/
lemma CsrFile.cell_eq (h : CsrFile.cell addr = b) :
    addr = b ∨ (b = fcsr ∧ (addr = fflags ∨ addr = frm)) ∨ (b = Csr.mstatus ∧ addr = sstatus) ∨
      (b = mie ∧ addr = sie) ∨ (b = mip ∧ addr = sip) := by
  rcases CsrFile.cell_cases addr with ⟨hc, ha⟩ | ⟨hc, ha⟩ | ⟨hc, ha⟩ | ⟨hc, ha⟩ | hc
  · exact .inr (.inl ⟨h.symm.trans hc, ha⟩)
  · exact .inr (.inr (.inl ⟨h.symm.trans hc, ha⟩))
  · exact .inr (.inr (.inr (.inl ⟨h.symm.trans hc, ha⟩)))
  · exact .inr (.inr (.inr (.inr ⟨h.symm.trans hc, ha⟩)))
  · exact .inl (hc.symm.trans h)

/-- The elements that the harts and the devices count and signal in. -/
def drivenCells : List CsrAddr := [mip, minstret, mcycle, mhartid]

/-- A property of any other element is kept if the writes that go there keep it, and the two calls
of the floating-point unit. -/
lemma CsrStep.onCell {I : U64 → Prop} (hb : b ∉ drivenCells)
    (hw : ∀ (c : CsrFile) (addr : CsrAddr) (v : U64), CsrFile.cell addr = b → I (c.raw b) →
      I ((c.write addr v).raw b))
    (hd : b = mstatus → ∀ x, I x → I ((x &&& ~~~mstatusFs) ||| mstatusFsDirty))
    (hf : b = fcsr → ∀ x flags, I x → I (x ||| flags &&& fcsrFflagsMask))
    (h : CsrStep c c') (hc : I (c.raw b)) : I (c'.raw b) := by
  have hset {a : CsrAddr} (ha : a ∈ drivenCells) (c : CsrFile) (v : U64) :
      (c.setRaw a v).raw b = c.raw b :=
    c.setRaw_raw_ne v fun heq => hb (heq ▸ ha)
  cases h with
  | write addr v =>
    by_cases hcell : b = CsrFile.cell addr
    · exact hw c addr v hcell.symm hc
    · rwa [c.write_raw_of_ne v hcell]
  | markFpuDirty =>
    by_cases hcell : b = mstatus
    · subst hcell
      rw [CsrFile.markFpuDirty, CsrFile.setRaw_raw_self]
      exact hd rfl _ hc
    · rwa [CsrFile.markFpuDirty, CsrFile.setRaw_raw_ne _ _ hcell]
  | raiseFflags flags =>
    by_cases hcell : b = fcsr
    · subst hcell
      rw [CsrFile.raiseFflags, CsrFile.setRaw_raw_self]
      exact hf rfl _ flags hc
    · rwa [CsrFile.raiseFflags, CsrFile.setRaw_raw_ne _ _ hcell]
  | setHartid id => rwa [CsrFile.setHartid, hset (by decide)]
  | raiseInterrupt bit => rwa [CsrFile.raiseInterrupt, hset (by decide)]
  | clearInterrupt bit => rwa [CsrFile.clearInterrupt, hset (by decide)]
  | tickCounters => rwa [CsrFile.tickCounters, hset (by decide), hset (by decide)]

/-- For a register without views only its own write matters. -/
lemma CsrStep.plain {I : U64 → Prop}
    (hb : b ∉ drivenCells ++ [fcsr, mstatus, Csr.mie, mip])
    (hw : ∀ (c : CsrFile) (v : U64), I (c.raw b) → I ((c.write b v).raw b))
    (h : CsrStep c c') (hc : I (c.raw b)) : I (c'.raw b) := by
  simp only [List.mem_append, List.mem_cons, List.not_mem_nil, or_false, not_or] at hb
  obtain ⟨hdriven, hfcsr, hmstatus, hmie, hmip⟩ := hb
  refine h.onCell hdriven (fun c addr v hcell hI => ?_) (fun heq => absurd heq hmstatus)
    (fun heq => absurd heq hfcsr) hc
  rcases CsrFile.cell_eq hcell with rfl | ⟨heq, -⟩ | ⟨heq, -⟩ | ⟨heq, -⟩ | ⟨heq, -⟩
  · exact hw c v hI
  · exact absurd heq hfcsr
  · exact absurd heq hmstatus
  · exact absurd heq hmie
  · exact absurd heq hmip

/-! ## Fields with few legal values -/

/-- The widths of the less privileged modes: UXL and SXL. -/
def mstatusXl : U64 := mstatusUxl ||| (3 <<< 34)

/-- The fields of the array that have few legal values hold one of them. -/
structure CsrFile.Legal (c : CsrFile) : Prop where
  xl : c.raw Csr.mstatus &&& mstatusXl = (2 <<< 32) ||| (2 <<< 34)
  misa : c.raw misa = CsrFile.new.raw misa
  mtvec : c.raw mtvec &&& mtvecModeMask ≤ 1
  stvec : c.raw stvec &&& mtvecModeMask ≤ 1
  mepc : c.raw mepc &&& 1 = 0
  sepc : c.raw sepc &&& 1 = 0
  satp : c.satpMode = satpModeBare ∨ c.satpMode = satpModeSv39
  mie : c.raw mie &&& ~~~interruptMask = 0
  fcsr : c.raw fcsr &&& ~~~(fcsrFflagsMask ||| fcsrFrmMask) = 0

/-- A trap vector has one of the two modes. -/
lemma trapVector_mode (v : U64) :
    ((v &&& ~~~mtvecModeMask) ||| (if v &&& mtvecModeMask > mtvecModeVectored then mtvecModeDirect
      else v &&& mtvecModeMask)) &&& mtvecModeMask ≤ 1 := by
  rw [clear_or_and_self]
  split
  · decide
  · next h =>
      rw [BitVec.and_assoc, BitVec.and_self]
      exact BitVec.not_lt.mp h

/-! How the writes with a rule of their own read back. -/

section Writes

variable (c : CsrFile) (v : U64)

lemma write_mtvec : (c.write mtvec v).raw mtvec &&& mtvecModeMask ≤ 1 := by
  rw [show (c.write mtvec v).raw mtvec = _ from CsrFile.setRaw_raw_self ..]
  exact trapVector_mode v

lemma write_stvec : (c.write stvec v).raw stvec &&& mtvecModeMask ≤ 1 := by
  rw [show (c.write stvec v).raw stvec = _ from CsrFile.setRaw_raw_self ..]
  exact trapVector_mode v

lemma write_mepc : (c.write mepc v).raw mepc = v &&& ~~~1 := CsrFile.setRaw_raw_self ..

lemma write_sepc : (c.write sepc v).raw sepc = v &&& ~~~1 := CsrFile.setRaw_raw_self ..

lemma write_misa : (c.write misa v).raw misa = c.raw misa := by
  rw [show (c.write misa v).raw misa = merge 0 (c.raw misa) v from CsrFile.setRaw_raw_self ..,
    merge_zero]

lemma write_mstatus : (c.write mstatus v).raw mstatus = merge mstatusMask (c.raw mstatus) v :=
  c.setMstatus_raw v

lemma write_sstatus :
    (c.write sstatus v).raw mstatus = merge sstatusWriteMask (c.raw mstatus) v :=
  CsrFile.setRaw_raw_self ..

lemma write_sie : (c.write sie v).raw mie = merge sieSipMask (c.raw mie) v :=
  CsrFile.setRaw_raw_self ..

lemma write_mip : (c.write mip v).raw mip = merge mipSoftwareWritable (c.raw mip) v :=
  CsrFile.setRaw_raw_self ..

lemma write_sip : (c.write sip v).raw mip = merge mipSsip (c.raw mip) v :=
  CsrFile.setRaw_raw_self ..

lemma write_fcsr : (c.write fcsr v).raw fcsr = v &&& (fcsrFflagsMask ||| fcsrFrmMask) :=
  CsrFile.setRaw_raw_self ..

lemma write_fflags : (c.write fflags v).raw fcsr = merge fcsrFflagsMask (c.raw fcsr) v :=
  CsrFile.setRaw_raw_self ..

lemma write_frm :
    (c.write frm v).raw fcsr = merge fcsrFrmMask (c.raw fcsr) (v <<< fcsrFrmShift) :=
  CsrFile.setRaw_raw_self ..

/-- `satp` takes a value as a whole or not at all. -/
lemma write_satp : (c.write satp v).raw satp =
    if (v &&& satpModeMask) >>> satpModeShift ≠ satpModeBare ∧
      (v &&& satpModeMask) >>> satpModeShift ≠ satpModeSv39 then c.raw satp else v := by
  rw [show c.write satp v = if (v &&& satpModeMask) >>> satpModeShift ≠ satpModeBare ∧
    (v &&& satpModeMask) >>> satpModeShift ≠ satpModeSv39 then c else c.setRaw satp v from rfl]
  split
  · rfl
  · exact c.setRaw_raw_self _ v

end Writes

/-- The mode of a value of `satp`. -/
def IsSatpMode (x : U64) : Prop :=
  (x &&& satpModeMask) >>> satpModeShift = satpModeBare ∨
    (x &&& satpModeMask) >>> satpModeShift = satpModeSv39

lemma isSatpMode_write (c : CsrFile) (v : U64) (h : IsSatpMode (c.raw satp)) :
    IsSatpMode ((c.write satp v).raw satp) := by
  rw [write_satp]
  split
  · exact h
  · next hv => exact or_iff_not_and_not.mpr hv

lemma CsrStep.legal (h : CsrStep c c') (hc : c.Legal) : c'.Legal where
  xl := by
    refine h.onCell (b := mstatus)
      (I := fun x => x &&& mstatusXl = (2 <<< 32) ||| (2 <<< 34)) (by decide) ?_ ?_ ?_ hc.xl
    · intro c addr v hcell hI
      rcases CsrFile.cell_eq hcell with rfl | ⟨heq, -⟩ | ⟨-, rfl⟩ | ⟨heq, -⟩ | ⟨heq, -⟩
      · rwa [write_mstatus, merge_and_of_disjoint (by decide)]
      · exact absurd heq (by decide)
      · rwa [write_sstatus, merge_and_of_disjoint (by decide)]
      · exact absurd heq (by decide)
      · exact absurd heq (by decide)
    · intro _ x hI
      rwa [clear_or_and_of_disjoint (by decide) (by decide)]
    · exact fun heq => absurd heq (by decide)
  misa := h.plain (b := misa) (I := fun x => x = CsrFile.new.raw misa) (by decide)
    (fun c v hI => (write_misa c v).trans hI) hc.misa
  mtvec := h.plain (b := mtvec) (I := fun x => x &&& mtvecModeMask ≤ 1) (by decide)
    (fun c v _ => write_mtvec c v) hc.mtvec
  stvec := h.plain (b := stvec) (I := fun x => x &&& mtvecModeMask ≤ 1) (by decide)
    (fun c v _ => write_stvec c v) hc.stvec
  mepc := h.plain (b := mepc) (I := fun x => x &&& 1 = 0) (by decide)
    (fun c v _ => by rw [write_mepc, BitVec.and_assoc]; simp) hc.mepc
  sepc := h.plain (b := sepc) (I := fun x => x &&& 1 = 0) (by decide)
    (fun c v _ => by rw [write_sepc, BitVec.and_assoc]; simp) hc.sepc
  satp := h.plain (b := satp) (I := IsSatpMode) (by decide) isSatpMode_write hc.satp
  mie := h.mie hc.mie
  fcsr := by
    refine h.onCell (b := fcsr)
      (I := fun x => x &&& ~~~(fcsrFflagsMask ||| fcsrFrmMask) = 0) (by decide) ?_ ?_ ?_ hc.fcsr
    · intro c addr v hcell hI
      rcases CsrFile.cell_eq hcell with rfl | ⟨-, rfl | rfl⟩ | ⟨heq, -⟩ | ⟨heq, -⟩ | ⟨heq, -⟩
      · rw [write_fcsr, BitVec.and_assoc, show (fcsrFflagsMask ||| fcsrFrmMask) &&&
          ~~~(fcsrFflagsMask ||| fcsrFrmMask) = 0#64 by decide, BitVec.and_zero]
        rfl
      · rwa [write_fflags, merge_and_of_disjoint (by decide)]
      · rwa [write_frm, merge_and_of_disjoint (by decide)]
      · exact absurd heq (by decide)
      · exact absurd heq (by decide)
      · exact absurd heq (by decide)
    · exact fun heq => absurd heq (by decide)
    · intro _ x flags hI
      rwa [or_and_of_disjoint]
      rw [BitVec.and_assoc, show fcsrFflagsMask &&& ~~~(fcsrFflagsMask ||| fcsrFrmMask) =
        0#64 by decide, BitVec.and_zero]
      rfl

/-- The fields of every register file that can exist are legal. -/
lemma CsrFile.Built.legal (h : c.Built) : c.Legal := by
  induction h with
  | refl =>
    exact ⟨by decide, rfl, by decide, by decide, by decide, by decide, .inl (by decide),
      by decide, by decide⟩
  | tail _ hstep ih => exact hstep.legal ih

/-! ## Reading -/

/-- The element that a read looks at. -/
def CsrFile.source (addr : CsrAddr) : CsrAddr :=
  if addr = cycle then mcycle else if addr = instret then minstret else CsrFile.cell addr

lemma CsrFile.read_congr
    (h : c'.raw (CsrFile.source addr) = c.raw (CsrFile.source addr)) :
    c'.read addr = c.read addr := by
  by_cases hcycle : addr = cycle
  · subst hcycle
    exact h
  by_cases hinstret : addr = instret
  · subst hinstret
    exact h
  have hstatus (hm : c'.raw Csr.mstatus = c.raw Csr.mstatus) : c'.mstatus = c.mstatus := by
    unfold CsrFile.mstatus
    rw [hm]
  by_cases hss : addr = sstatus
  · subst hss
    exact congrArg (· &&& sstatusMask) (hstatus h)
  by_cases hm : addr = Csr.mstatus
  · subst hm
    exact hstatus h
  by_cases hff : addr = fflags
  · subst hff
    exact congrArg (· &&& fcsrFflagsMask) h
  by_cases hfr : addr = frm
  · subst hfr
    exact congrArg (fun x : U64 => (x &&& fcsrFrmMask) >>> fcsrFrmShift) h
  by_cases hsie : addr = sie
  · subst hsie
    exact congrArg (· &&& sieSipMask) h
  by_cases hsip : addr = sip
  · subst hsip
    exact congrArg (· &&& sieSipMask) h
  -- the others are read as they are stored
  have hread (c : CsrFile) : c.read addr = c.raw addr := by
    unfold CsrFile.read
    simp only [hcycle, hinstret, hss, hm, hff, hfr, hsie, hsip, if_false, ite_eq_right_iff]
    exact fun hf => by rw [hf]
  rw [hread, hread]
  simpa [CsrFile.source, CsrFile.cell, hcycle, hinstret, hss, hff, hfr, hsie, hsip] using h

/-- A write is seen by the reads of the element it goes to. -/
lemma CsrFile.read_write_of_ne (c : CsrFile) (v : U64)
    (h : CsrFile.source b ≠ CsrFile.cell addr) : (c.write addr v).read b = c.read b :=
  CsrFile.read_congr (c.write_raw_of_ne v h)

/-! ## The status word -/

namespace CsrFile

variable {c c' : CsrFile}

/-- A field that is stored reads as it was written. -/
lemma setMstatus_and (c : CsrFile) (v : U64) {k : U64} (hk : mstatusMask &&& k = k) :
    (c.setMstatus v).mstatus &&& k = v &&& k := by
  have hsd : mstatusSd &&& k = 0 := by
    rw [← hk, ← BitVec.and_assoc, show mstatusSd &&& mstatusMask = 0#64 by decide]
    exact BitVec.zero_and
  rw [CsrFile.mstatus_and _ hsd, setMstatus_raw, merge_and_of_subset hk]

/-- What one reads of the status word depends on what is stored there, apart from SD, and on FS. -/
lemma mstatus_congr {k : U64} (hfs : k &&& mstatusFs = mstatusFs)
    (h : c'.raw Csr.mstatus &&& (k &&& ~~~mstatusSd) = c.raw Csr.mstatus &&& (k &&& ~~~mstatusSd)) :
    c'.mstatus &&& k = c.mstatus &&& k := by
  have hfs' : (k &&& ~~~mstatusSd) &&& mstatusFs = mstatusFs := by
    rw [clear_and_of_disjoint (by decide), hfs]
  have heq := and_of_subset h hfs'
  unfold CsrFile.mstatus
  dsimp only
  rw [heq]
  split
  · ext i hi
    have hb := congrArg (fun x : U64 => x[i]) h
    simp only [BitVec.getElem_and, BitVec.getElem_or, BitVec.getElem_not] at hb ⊢
    revert hb
    cases mstatusSd[i] <;> cases k[i] <;> simp
  · ext i hi
    have hb := congrArg (fun x : U64 => x[i]) h
    simp only [BitVec.getElem_and, BitVec.getElem_not] at hb ⊢
    revert hb
    cases mstatusSd[i] <;> cases k[i] <;> simp

/-- Storing a status word that agrees with the old one on some fields leaves them, and SD. -/
lemma setMstatus_and_of_agree (c : CsrFile) {v k : U64} (hfs : k &&& mstatusFs = mstatusFs)
    (h : v &&& (k &&& mstatusMask) = c.mstatus &&& (k &&& mstatusMask)) :
    (c.setMstatus v).mstatus &&& k = c.mstatus &&& k := by
  refine mstatus_congr hfs ?_
  have hsd : mstatusSd &&& (k &&& mstatusMask) = 0 := by
    rw [BitVec.and_comm k, ← BitVec.and_assoc, show mstatusSd &&& mstatusMask = 0#64 by decide]
    exact BitVec.zero_and
  have hmask : (k &&& ~~~mstatusSd) &&& mstatusMask = k &&& mstatusMask := by
    rw [BitVec.and_assoc, show ~~~mstatusSd &&& mstatusMask = mstatusMask by decide]
  rw [setMstatus_raw]
  apply merge_and_of_agree
  rw [hmask, h, c.mstatus_and hsd]

end CsrFile

/-! ## Writing back what was read -/

lemma merge_eq_self {mask old new : U64} (h : new &&& mask = old &&& mask) :
    merge mask old new = old := by
  ext i hi
  have hb := congrArg (fun x : U64 => x[i]) h
  simp only [BitVec.getElem_and] at hb
  simp only [merge, BitVec.getElem_and, BitVec.getElem_or, BitVec.getElem_not]
  revert hb
  cases mask[i] <;> cases old[i] <;> cases new[i] <;> simp

lemma and_eq_self {x mask : U64} (h : x &&& ~~~mask = 0) : x &&& mask = x := by
  ext i hi
  have hb := congrArg (fun y : U64 => y[i]) h
  simp only [BitVec.getElem_and, BitVec.getElem_not] at hb ⊢
  revert hb
  cases mask[i] <;> cases x[i] <;> simp

lemma trapVector_eq_self {v : U64} (h : v &&& mtvecModeMask ≤ 1) :
    (v &&& ~~~mtvecModeMask) ||| (if v &&& mtvecModeMask > mtvecModeVectored then mtvecModeDirect
      else v &&& mtvecModeMask) = v := by
  have hmode : ¬ v &&& mtvecModeMask > mtvecModeVectored := BitVec.not_lt.mpr h
  rw [if_neg hmode]
  ext i hi
  simp only [BitVec.getElem_and, BitVec.getElem_or, BitVec.getElem_not]
  cases mtvecModeMask[i] <;> simp

namespace CsrFile

variable {c : CsrFile}

/-- Every register but `sstatus` is stored as it was when what it reads as is written to it. -/
lemma write_read_raw (h : c.Legal) {addr : CsrAddr} (hro : isReadOnly addr = false)
    (hss : addr ≠ sstatus) :
    (c.write addr (c.read addr)).raw (cell addr) = c.raw (cell addr) := by
  by_cases hmtvec : addr = mtvec
  · subst hmtvec
    exact (setRaw_raw_self ..).trans (trapVector_eq_self h.mtvec)
  by_cases hstvec : addr = stvec
  · subst hstvec
    exact (setRaw_raw_self ..).trans (trapVector_eq_self h.stvec)
  by_cases hfcsr : addr = fcsr
  · subst hfcsr
    exact (write_fcsr c _).trans (and_eq_self h.fcsr)
  by_cases hfflags : addr = fflags
  · subst hfflags
    refine (write_fflags c _).trans (merge_eq_self ?_)
    show (c.raw fcsr &&& fcsrFflagsMask) &&& fcsrFflagsMask = _
    rw [BitVec.and_assoc, BitVec.and_self]
  by_cases hfrm : addr = frm
  · subst hfrm
    refine (write_frm c _).trans (merge_eq_self ?_)
    show (((c.raw fcsr &&& fcsrFrmMask) >>> fcsrFrmShift) <<< fcsrFrmShift) &&& fcsrFrmMask = _
    rw [BitVec.shiftLeft_ushiftRight, BitVec.and_assoc, BitVec.and_assoc,
      show fcsrFrmMask &&& (BitVec.allOnes 64 <<< fcsrFrmShift &&& fcsrFrmMask) = fcsrFrmMask by
        decide]
  by_cases hsie : addr = sie
  · subst hsie
    refine (write_sie c _).trans (merge_eq_self ?_)
    show (c.raw mie &&& sieSipMask) &&& sieSipMask = _
    rw [BitVec.and_assoc, BitVec.and_self]
  by_cases hsip : addr = sip
  · subst hsip
    refine (write_sip c _).trans (merge_eq_self ?_)
    show (c.raw mip &&& sieSipMask) &&& mipSsip = _
    rw [BitVec.and_assoc, show sieSipMask &&& mipSsip = mipSsip by decide]
  by_cases hsatp : addr = Csr.satp
  · subst hsatp
    refine (write_satp c _).trans ?_
    split
    · rfl
    · rfl
  by_cases hmepc : addr = mepc
  · subst hmepc
    exact (write_mepc c _).trans (and_eq_self (by rw [BitVec.not_not]; exact h.mepc))
  by_cases hsepc : addr = sepc
  · subst hsepc
    exact (write_sepc c _).trans (and_eq_self (by rw [BitVec.not_not]; exact h.sepc))
  by_cases hmstatus : addr = Csr.mstatus
  · subst hmstatus
    exact (write_mstatus c _).trans (merge_eq_self (c.mstatus_and (by decide)))
  -- the others are stored under a mask and read as they are stored
  have hcycle : addr ≠ cycle := by
    rintro rfl
    exact absurd hro (by decide)
  have htime : addr ≠ time := by
    rintro rfl
    exact absurd hro (by decide)
  have hinstret : addr ≠ instret := by
    rintro rfl
    exact absurd hro (by decide)
  have hcell : cell addr = addr := by simp [cell, hfflags, hfrm, hss, hsie, hsip]
  have hread : c.read addr = c.raw addr := by
    simp [CsrFile.read, hcycle, hinstret, hss, hmstatus, hfcsr, hfflags, hfrm, hsie, hsip]
  have hwrite : c.write addr (c.raw addr) =
    c.setRaw addr (merge (writeMask addr) (c.raw addr) (c.raw addr)) := by
    simp [CsrFile.write, hmtvec, hstvec, hfcsr, hfflags, hfrm, hss, hsie, hsip, hsatp, hmepc, hsepc,
      hcycle, htime, hinstret]
  rw [hcell, hread, hwrite, setRaw_raw_self]
  exact merge_eq_self rfl

/-- A register that can be written reads the same after it is overwritten by what it reads as. -/
lemma write_read_self (h : c.Legal) {addr : CsrAddr} (hro : isReadOnly addr = false) :
    (c.write addr (c.read addr)).read addr = c.read addr := by
  by_cases hss : addr = sstatus
  · subst hss
    show (c.write sstatus (c.mstatus &&& sstatusMask)).mstatus &&& sstatusMask = c.mstatus &&& _
    refine mstatus_congr (by decide) ?_
    rw [write_sstatus]
    apply merge_and_of_agree
    rw [BitVec.and_assoc, show sstatusMask &&& (sstatusMask &&& ~~~mstatusSd &&& sstatusWriteMask) =
      sstatusMask &&& ~~~mstatusSd &&& sstatusWriteMask by decide, c.mstatus_and (by decide)]
  · have hcycle : addr ≠ cycle := by
      rintro rfl
      exact absurd hro (by decide)
    have hinstret : addr ≠ instret := by
      rintro rfl
      exact absurd hro (by decide)
    refine read_congr ?_
    rw [source, if_neg hcycle, if_neg hinstret]
    exact write_read_raw h hro hss

end CsrFile

/-! ## Views -/

/-- A register that is part of another one. -/
structure CsrView where
  addr : CsrAddr
  /-- The register behind the view. -/
  reg : CsrAddr
  /-- The bits of that register that the view writes. -/
  writable : U64

/-- The registers that are views of others. -/
def csrViews : List CsrView :=
  [⟨sstatus, mstatus, sstatusWriteMask⟩, ⟨sie, mie, sieSipMask⟩,
    ⟨sip, mip, mipSsip⟩, ⟨fflags, fcsr, fcsrFflagsMask⟩,
    ⟨frm, fcsr, fcsrFrmMask⟩]

/-- A write through a view stays inside it. -/
def CsrView.Contained (w : CsrView) (c : CsrFile) : Prop :=
  ∀ v, (c.write w.addr v).read w.reg &&& ~~~w.writable = c.read w.reg &&& ~~~w.writable ∧
    ∀ b, CsrFile.source b ≠ w.reg → (c.write w.addr v).read b = c.read b

lemma merge_and_not {mask old new : U64} : merge mask old new &&& ~~~mask = old &&& ~~~mask :=
  merge_and_of_disjoint (by simp)

lemma csrViews_contained (c : CsrFile) {w : CsrView} (hw : w ∈ csrViews) : w.Contained c := by
  simp only [csrViews, List.mem_cons, List.not_mem_nil, or_false] at hw
  intro v
  rcases hw with rfl | rfl | rfl | rfl | rfl
  · refine ⟨?_, fun b hb => c.read_write_of_ne v hb⟩
    have hsd : mstatusSd &&& ~~~sstatusWriteMask = 0 := by decide
    show (c.write sstatus v).mstatus &&& _ = c.mstatus &&& _
    rw [CsrFile.mstatus_and _ hsd, CsrFile.mstatus_and _ hsd, write_sstatus]
    exact merge_and_not
  · refine ⟨?_, fun b hb => c.read_write_of_ne v hb⟩
    show (c.write sie v).raw mie &&& _ = c.raw mie &&& _
    rw [write_sie]
    exact merge_and_not
  · refine ⟨?_, fun b hb => c.read_write_of_ne v hb⟩
    show (c.write sip v).raw mip &&& _ = c.raw mip &&& _
    rw [write_sip]
    exact merge_and_not
  · refine ⟨?_, fun b hb => c.read_write_of_ne v hb⟩
    show (c.write fflags v).raw fcsr &&& _ = c.raw fcsr &&& _
    rw [write_fflags]
    exact merge_and_not
  · refine ⟨?_, fun b hb => c.read_write_of_ne v hb⟩
    show (c.write frm v).raw fcsr &&& _ = c.raw fcsr &&& _
    rw [write_frm]
    exact merge_and_not

/-! ## Sequences of calls -/

/-- A call of the interface. -/
inductive CsrOp where
  | write (addr : CsrAddr) (value : U64)
  | setMstatus (v : U64)
  | raiseInterrupt (mipBit : U64)
  | clearInterrupt (mipBit : U64)
  | markFpuDirty
  | raiseFflags (flags : U64)
  | tickCounters

namespace CsrOp

/-- What an operation does. -/
def apply (c : CsrFile) : CsrOp → CsrFile
  | .write addr v => c.write addr v
  | .setMstatus v => c.setMstatus v
  | .raiseInterrupt bit => c.raiseInterrupt bit
  | .clearInterrupt bit => c.clearInterrupt bit
  | .markFpuDirty => c.markFpuDirty
  | .raiseFflags flags => c.raiseFflags flags
  | .tickCounters => c.tickCounters

/-- Only interrupts that exist are signalled. -/
def Implemented : CsrOp → Prop
  | .raiseInterrupt bit => bit &&& ~~~interruptMask = 0
  | .clearInterrupt bit => bit &&& ~~~interruptMask = 0
  | _ => True

lemma step (o : CsrOp) (c : CsrFile) : CsrStep c (o.apply c) := by
  cases o with
  | write addr v => exact .write c addr v
  | setMstatus v => exact .write c mstatus v
  | raiseInterrupt bit => exact .raiseInterrupt c bit
  | clearInterrupt bit => exact .clearInterrupt c bit
  | markFpuDirty => exact .markFpuDirty c
  | raiseFflags flags => exact .raiseFflags c flags
  | tickCounters => exact .tickCounters c

lemma write_mip_and (c : CsrFile) (addr : CsrAddr) (v : U64) {k : U64}
    (hk : mipSoftwareWritable &&& k = 0) :
    (c.write addr v).raw mip &&& k = c.raw mip &&& k := by
  by_cases hcell : mip = CsrFile.cell addr
  swap
  · rw [c.write_raw_of_ne v hcell]
  rcases CsrFile.cell_eq hcell.symm with rfl | ⟨heq, -⟩ | ⟨heq, -⟩ | ⟨heq, -⟩ | ⟨-, rfl⟩
  · rw [write_mip, merge_and_of_disjoint hk]
  · exact absurd heq (by decide)
  · exact absurd heq (by decide)
  · exact absurd heq (by decide)
  · have hssip : mipSsip &&& k = 0 := by
      rw [show mipSsip = mipSsip &&& mipSoftwareWritable by decide, BitVec.and_assoc, hk]
      exact BitVec.and_zero
    rw [write_sip, merge_and_of_disjoint hssip]

/-- No interrupt is pending that does not exist. -/
lemma mip_apply {o : CsrOp} (ho : o.Implemented) {c : CsrFile}
    (hc : c.raw mip &&& ~~~interruptMask = 0) : (o.apply c).raw mip &&& ~~~interruptMask = 0 := by
  have hne {a : CsrAddr} (ha : mip ≠ a) (c : CsrFile) (v : U64) :
      (c.setRaw a v).raw mip = c.raw mip :=
    c.setRaw_raw_ne v ha
  cases o with
  | write addr v => rwa [apply, write_mip_and c addr v (by decide)]
  | setMstatus v => rwa [apply, CsrFile.setMstatus, write_mip_and c mstatus v (by decide)]
  | raiseInterrupt bit =>
    rwa [apply, CsrFile.raiseInterrupt, CsrFile.setRaw_raw_self, or_and_of_disjoint ho]
  | clearInterrupt bit =>
    rwa [apply, CsrFile.clearInterrupt, CsrFile.setRaw_raw_self, clear_and_of_disjoint ho]
  | markFpuDirty => rwa [apply, CsrFile.markFpuDirty, hne (by decide)]
  | raiseFflags flags => rwa [apply, CsrFile.raiseFflags, hne (by decide)]
  | tickCounters => rwa [apply, CsrFile.tickCounters, hne (by decide), hne (by decide)]

end CsrOp

/-- The file after some calls. -/
def CsrFile.after (c : CsrFile) (ops : List CsrOp) : CsrFile := ops.foldl CsrOp.apply c

lemma CsrFile.moves_after (c : CsrFile) (ops : List CsrOp) : CsrMoves c (c.after ops) := by
  induction ops generalizing c with
  | nil => exact .refl c
  | cons o ops ih => exact (o.step c).moves.trans (ih (o.apply c))

lemma CsrFile.mip_after {ops : List CsrOp} (h : ∀ o ∈ ops, o.Implemented)
    (hc : c.raw mip &&& ~~~interruptMask = 0) : (c.after ops).raw mip &&& ~~~interruptMask = 0 := by
  induction ops generalizing c with
  | nil => exact hc
  | cons o ops ih =>
    have ho : o.Implemented := h o List.mem_cons_self
    exact ih (fun o' ho' => h o' (List.mem_cons_of_mem o ho')) (CsrOp.mip_apply ho hc)

/-- The laws of the register file. -/
structure CsrFile.Lawful (c : CsrFile) : Prop where
  sstatus : c.read sstatus = c.read Csr.mstatus &&& sstatusMask
  sie : c.read sie = c.read mie &&& sieSipMask
  sip : c.read sip = c.read mip &&& sieSipMask
  fflags : c.read fflags = c.read fcsr &&& fcsrFflagsMask
  frm : c.read frm = (c.read fcsr &&& fcsrFrmMask) >>> fcsrFrmShift
  views : ∀ w ∈ csrViews, w.Contained c
  sd : c.read Csr.mstatus &&& mstatusSd ≠ 0 ↔ c.read Csr.mstatus &&& mstatusFs = mstatusFsDirty
  uxl : (c.read Csr.mstatus >>> 32) &&& 3 = 2
  sxl : (c.read Csr.mstatus >>> 34) &&& 3 = 2
  misa : c.read misa = CsrFile.new.read misa
  mtvec : c.read mtvec &&& mtvecModeMask = 0 ∨ c.read mtvec &&& mtvecModeMask = 1
  stvec : c.read stvec &&& mtvecModeMask = 0 ∨ c.read stvec &&& mtvecModeMask = 1
  mepc : c.read mepc &&& 1 = 0
  sepc : c.read sepc &&& 1 = 0
  satp : IsSatpMode (c.read Csr.satp)
  mie : c.read mie &&& ~~~interruptMask = 0
  mip : c.read mip &&& ~~~interruptMask = 0
  /-- No write touches the pending bits of machine mode. -/
  mipWrite : ∀ addr v, (c.write addr v).read Csr.mip &&& (mipMsip ||| mipMtip ||| mipMeip) =
    c.read Csr.mip &&& (mipMsip ||| mipMtip ||| mipMeip)

lemma CsrFile.mstatus_sd (c : CsrFile) :
    c.mstatus &&& mstatusSd ≠ 0 ↔ c.mstatus &&& mstatusFs = mstatusFsDirty := by
  rw [c.mstatus_and (k := mstatusFs) (by decide)]
  unfold CsrFile.mstatus
  dsimp only
  split
  · next hd =>
      refine iff_of_true ?_ hd
      rw [show (c.raw Csr.mstatus ||| mstatusSd) &&& mstatusSd = mstatusSd by
        ext i hi
        simp only [BitVec.getElem_and, BitVec.getElem_or]
        cases mstatusSd[i] <;> simp]
      decide
  · next hd =>
      refine iff_of_false ?_ hd
      rw [BitVec.and_assoc, show ~~~mstatusSd &&& mstatusSd = 0#64 by decide, BitVec.and_zero]
      exact fun h => h rfl

lemma CsrFile.mstatus_xl (h : c.raw Csr.mstatus &&& mstatusXl = (2 <<< 32) ||| (2 <<< 34)) :
    (c.mstatus >>> 32) &&& 3 = 2 ∧ (c.mstatus >>> 34) &&& 3 = 2 := by
  rw [← c.mstatus_and (by decide)] at h
  generalize c.mstatus = x at h
  have hand (n : ℕ) (hn : (3 : U64) <<< n &&& mstatusXl = (3 : U64) <<< n)
    (hs : ((3 : U64) <<< n) >>> n = 3) :
      (x >>> n) &&& 3 = ((x &&& mstatusXl) &&& ((3 : U64) <<< n)) >>> n := by
    rw [BitVec.and_assoc, BitVec.and_comm mstatusXl, hn, BitVec.ushiftRight_and_distrib, hs]
  rw [hand 32 (by decide) (by decide), hand 34 (by decide) (by decide), h]
  decide

/-- The register file keeps its laws, whatever is called in whatever order. -/
theorem csr_file_lawful (ops : List CsrOp) (h : ∀ o ∈ ops, o.Implemented) :
    (CsrFile.new.after ops).Lawful := by
  have hlegal : (CsrFile.new.after ops).Legal :=
    CsrFile.Built.legal (CsrFile.moves_after CsrFile.new ops)
  have hmip := CsrFile.mip_after h (show CsrFile.new.raw mip &&& ~~~interruptMask = 0 by decide)
  have hmode {x : U64} (hx : x &&& mtvecModeMask ≤ 1) :
      x &&& mtvecModeMask = 0 ∨ x &&& mtvecModeMask = 1 := by
    bv_omega
  exact {
    sstatus := rfl
    sie := rfl
    sip := rfl
    fflags := rfl
    frm := rfl
    views := fun w hw => csrViews_contained _ hw
    sd := CsrFile.mstatus_sd _
    uxl := (CsrFile.mstatus_xl hlegal.xl).1
    sxl := (CsrFile.mstatus_xl hlegal.xl).2
    misa := hlegal.misa
    mtvec := hmode hlegal.mtvec
    stvec := hmode hlegal.stvec
    mepc := hlegal.mepc
    sepc := hlegal.sepc
    satp := hlegal.satp
    mie := hlegal.mie
    mip := hmip
    mipWrite := fun addr v => CsrOp.write_mip_and _ addr v (by decide) }

/-- Writes through a view and of a register with a legal field, and two signals. -/
theorem csr_file_lawful_some : (CsrFile.new.after
    [.write sstatus (~~~0), .raiseInterrupt mipMtip, .write stvec 7,
      .clearInterrupt mipMtip]).Lawful := by
  refine csr_file_lawful _ fun o ho => ?_
  simp only [List.mem_cons, List.not_mem_nil, or_false] at ho
  rcases ho with rfl | rfl | rfl | rfl
  · trivial
  · exact (by decide : mipMtip &&& ~~~interruptMask = 0)
  · trivial
  · exact (by decide : mipMtip &&& ~~~interruptMask = 0)

end RiscvEmu
