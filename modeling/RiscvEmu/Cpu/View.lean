import RiscvEmu.Cpu.Frame
import RiscvEmu.Lib.Mirror

/-!
# Looking at a hart through a view

A view replaces what a hart should be free to keep elsewhere or to ignore: the integer registers and
the backends they are kept in, the f registers, and `fcsr`.  This file is about the programs below
the instructions: what they do to the image of a hart is the image of what they do to the hart.

The registers behind a view are read and written through the programs for it (`View.Exact`).  The
f registers and `fcsr` are not; a view may change them only as long as the unit is off
(`View.Hidden`).
-/

namespace RiscvEmu

open Exec

/-- Replacements for parts of a hart.  Every CSR but `fcsr` stays. -/
structure View where
  regs : (ℕ → U64) → Option RegFileBackend → ℕ → U64
  regfile : Option RegFileBackend → Option RegFileBackend
  aluBackend : Option AluBackend → Option AluBackend
  fregs : (ℕ → U64) → ℕ → U64
  csrs : CsrFile → CsrFile
  csrs_raw : ∀ c {a}, a ≠ Csr.fcsr → (csrs c).raw a = c.raw a
  csrs_setRaw : ∀ c {a} x, a ≠ Csr.fcsr → (csrs c).setRaw a x = csrs (c.setRaw a x)

lemma View.raw_id (c : CsrFile) {a} (_ : a ≠ Csr.fcsr) : (id c).raw a = c.raw a := rfl
lemma View.setRaw_id (c : CsrFile) {a} (x) (_ : a ≠ Csr.fcsr) :
    (id c).setRaw a x = id (c.setRaw a x) := rfl

/-- What holds of the integer registers and the backends. -/
abbrev Backing := (ℕ → U64) → Option RegFileBackend → Option AluBackend → Prop

/-- The backends of a hart are allowed. -/
def Cpu.Backed (Ok : Backing) (c : Cpu) : Prop := Ok c.regs c.regfile c.aluBackend

/-- The same for a hart. -/
def Backed (Ok : Backing) (s : Hart) : Prop := s.cpu.Backed Ok

namespace View

variable (v : View)

/-- A hart's own state, seen through the view. -/
def cpu (c : Cpu) : Cpu :=
  { c with
    regs := v.regs c.regs c.regfile
    regfile := v.regfile c.regfile
    aluBackend := v.aluBackend c.aluBackend
    fregs := v.fregs c.fregs
    csrs := v.csrs c.csrs }

/-- A hart, seen through the view. -/
def hart (s : Hart) : Hart := ⟨v.cpu s.cpu, s.sys⟩

/-- Registers that are kept as `Ok` says have the same values in the image. -/
structure Exact (Ok : Backing) : Prop where
  getReg : ∀ c i, c.Backed Ok →
    (v.cpu c).getReg i = ((c.getReg i).1, v.cpu (c.getReg i).2) ∧ (c.getReg i).2.Backed Ok
  setReg : ∀ c i x, c.Backed Ok →
    (v.cpu c).setReg i x = v.cpu (c.setReg i x) ∧ (c.setReg i x).Backed Ok
  runAlu : ∀ c op a b, c.Backed Ok →
    (v.cpu c).runAlu op a b = ((c.runAlu op a b).1, v.cpu (c.runAlu op a b).2) ∧
      (c.runAlu op a b).2.Backed Ok

/-- A view that leaves the integer registers and the backends alone is exact. -/
lemma exact_of_plain {v : View} (hregs : v.regs = fun r _ => r) (hfile : v.regfile = id)
    (halu : v.aluBackend = id) :
    v.Exact fun _ _ _ => True := by
  obtain ⟨regs, regfile, aluBackend, fregs, csrs, hraw, hset⟩ := v
  dsimp only at hregs hfile halu
  subst hregs hfile halu
  refine ⟨fun c i _ => ⟨?_, trivial⟩, fun c i x _ => ⟨?_, trivial⟩, fun c op a b _ => ⟨?_, trivial⟩⟩
  · unfold Cpu.getReg
    split
    · rfl
    · rw [show (View.cpu _ c).regfile = c.regfile from rfl]
      cases c.regfile <;> rfl
  · unfold Cpu.setReg
    split
    · rfl
    · rw [show (View.cpu _ c).regfile = c.regfile from rfl]
      cases h : c.regfile <;> rfl
  · unfold Cpu.runAlu
    rw [show (View.cpu _ c).aluBackend = c.aluBackend from rfl]
    cases c.aluBackend <;> rfl

/-- The view shows the floating-point state as it is. -/
def ShowsFp : Prop := v.fregs = id ∧ v.csrs = id

/-- Floating-point state is replaced only while the unit is off. -/
def Hidden (Ok : Backing) (s : Hart) : Prop :=
  Backed Ok s ∧ (s.cpu.csrs.fpuEnabled → v.ShowsFp)

/-- What a program does to the image of a hart is the image of what it does to the hart. -/
abbrev Shows (Ok : Backing) {α : Type} (m : HartM α) : Prop :=
  Mirrors v.hart (Backed Ok) m m (Backed Ok)

/-! ## CSRs -/

section Csrs

variable (c : CsrFile)

lemma csrs_mstatus : (v.csrs c).mstatus = c.mstatus := by
  unfold CsrFile.mstatus
  rw [v.csrs_raw c (by decide)]

lemma csrs_fpuEnabled : (v.csrs c).fpuEnabled = c.fpuEnabled := by
  unfold CsrFile.fpuEnabled
  rw [v.csrs_raw c (by decide)]

lemma csrs_read {a : CsrAddr} (h : ¬ isFpCsr a) : (v.csrs c).read a = c.read a := by
  simp only [isFpCsr, decide_eq_true_eq, not_or] at h
  obtain ⟨hfcsr, hfflags, hfrm⟩ := h
  unfold CsrFile.read
  rw [v.csrs_mstatus]
  simp only [hfcsr, hfflags, hfrm, if_false]
  rw [v.csrs_raw c (a := Csr.mcycle) (by decide), v.csrs_raw c (a := Csr.minstret) (by decide),
    v.csrs_raw c (a := Csr.mie) (by decide), v.csrs_raw c (a := Csr.mip) (by decide),
    v.csrs_raw c hfcsr]

lemma csrs_write {a : CsrAddr} (x : U64) (h : ¬ isFpCsr a) :
    (v.csrs c).write a x = v.csrs (c.write a x) := by
  simp only [isFpCsr, decide_eq_true_eq, not_or] at h
  obtain ⟨hfcsr, hfflags, hfrm⟩ := h
  unfold CsrFile.write
  simp only [hfcsr, hfflags, hfrm, if_false]
  rw [v.csrs_raw c (a := Csr.mstatus) (by decide), v.csrs_raw c (a := Csr.mie) (by decide),
    v.csrs_raw c (a := Csr.mip) (by decide), v.csrs_raw c hfcsr]
  split_ifs
  all_goals first | rfl | exact v.csrs_setRaw c _ hfcsr | exact v.csrs_setRaw c _ (by decide)

lemma csrs_setMstatus (x : U64) : (v.csrs c).setMstatus x = v.csrs (c.setMstatus x) :=
  v.csrs_write c x (by decide)

lemma csrs_raiseInterrupt (b : U64) :
    (v.csrs c).raiseInterrupt b = v.csrs (c.raiseInterrupt b) := by
  unfold CsrFile.raiseInterrupt
  rw [v.csrs_raw c (by decide), v.csrs_setRaw c _ (by decide)]

lemma csrs_clearInterrupt (b : U64) :
    (v.csrs c).clearInterrupt b = v.csrs (c.clearInterrupt b) := by
  unfold CsrFile.clearInterrupt
  rw [v.csrs_raw c (by decide), v.csrs_setRaw c _ (by decide)]

lemma csrs_tickCounters : (v.csrs c).tickCounters = v.csrs c.tickCounters := by
  unfold CsrFile.tickCounters
  rw [v.csrs_raw c (by decide), v.csrs_raw c (by decide), v.csrs_setRaw c _ (by decide),
    v.csrs_setRaw _ _ (by decide)]

lemma csrs_counterEnabled (bit : ℕ) (p : U32) :
    (v.csrs c).counterEnabled bit p = c.counterEnabled bit p := by
  unfold CsrFile.counterEnabled
  rw [v.csrs_read c (by decide), v.csrs_read c (by decide)]

lemma csrs_pendingEnabled : (v.csrs c).pendingEnabled = c.pendingEnabled := by
  unfold CsrFile.pendingEnabled
  rw [v.csrs_raw c (by decide), v.csrs_raw c (by decide)]

lemma csrs_delegatedException (x : U64) :
    (v.csrs c).delegatedException x = c.delegatedException x := by
  unfold CsrFile.delegatedException
  rw [v.csrs_raw c (by decide)]

lemma csrs_delegatedInterrupt (x : U64) :
    (v.csrs c).delegatedInterrupt x = c.delegatedInterrupt x := by
  unfold CsrFile.delegatedInterrupt
  rw [v.csrs_raw c (by decide)]

lemma csrs_enterTrap (toS : Bool) (p : PrivLevel) (cause tval epc : U64) :
    (v.csrs c).enterTrap toS p cause tval epc = v.csrs (c.enterTrap toS p cause tval epc) := by
  unfold CsrFile.enterTrap
  rw [v.csrs_mstatus]
  split
  · rw [v.csrs_write _ _ (by decide), v.csrs_write _ _ (by decide), v.csrs_write _ _ (by decide),
      v.csrs_setMstatus]
  · rw [v.csrs_write _ _ (by decide), v.csrs_write _ _ (by decide), v.csrs_write _ _ (by decide),
      v.csrs_setMstatus]

lemma csrs_setTimer (clint : Clint) (deadline : U64) (hart : ℕ) :
    clint.setTimer deadline (v.csrs c) hart =
      (v.csrs (clint.setTimer deadline c hart).1, (clint.setTimer deadline c hart).2) := by
  unfold Clint.setTimer
  split
  · rfl
  · rw [v.csrs_clearInterrupt, v.csrs_clearInterrupt]

/-- Translation reads `satp`, SUM and MXR. -/
lemma csrs_translate (hart : ℕ) (vaddr : U64) (ty : AccessType) (p : U32) :
    translate hart (v.csrs c) vaddr ty p = translate hart c vaddr ty p := by
  have hsatp : (v.csrs c).satp = c.satp := v.csrs_raw c (by decide)
  have hsum : (v.csrs c).mstatusSum = c.mstatusSum := by
    unfold CsrFile.mstatusSum
    rw [v.csrs_raw c (by decide)]
  have hmxr : (v.csrs c).mstatusMxr = c.mstatusMxr := by
    unfold CsrFile.mstatusMxr
    rw [v.csrs_raw c (by decide)]
  have hpermitted : ∀ perms, permitted perms ty p (v.csrs c) = permitted perms ty p c := by
    intro perms
    unfold permitted
    rw [hsum, hmxr]
  have hkey : tlbKey (v.csrs c) vaddr = tlbKey c vaddr := by
    unfold tlbKey CsrFile.satpAsid
    rw [hsatp]
  unfold translate translatePaged tlbMiss tlbHit fillSlot
  simp only [hpermitted, hkey, CsrFile.satpMode, CsrFile.satpPpn, hsatp]

end Csrs

/-! ## Elementary programs -/

variable {v} {Ok : Backing}

lemma shows_readReg (hv : v.Exact Ok) (i : ℕ) :
    v.Shows Ok (readReg i) := by
  intro s hs
  obtain ⟨hget, hok⟩ := hv.getReg s.cpu i hs
  refine ⟨?_, hok⟩
  unfold readReg
  rw [show (v.hart s).cpu.getReg i = _ from hget]
  rfl

lemma shows_writeReg (hv : v.Exact Ok) (i : ℕ) (x : U64) : v.Shows Ok (writeReg i x) :=
  .modify fun s hs => ⟨congrArg (Hart.mk · s.sys) (hv.setReg s.cpu i x hs).1,
    (hv.setReg s.cpu i x hs).2⟩

lemma shows_alu (hv : v.Exact Ok) (op : AluOp) (a b : U64) : v.Shows Ok (alu op a b) := by
  intro s hs
  obtain ⟨hrun, hok⟩ := hv.runAlu s.cpu op a b hs
  refine ⟨?_, hok⟩
  unfold alu
  rw [show (v.hart s).cpu.runAlu op a b = _ from hrun]
  rfl

/-- A program that leaves the CSRs alone leaves the unit off. -/
lemma Shows.hidden {α : Type} {m : HartM α} {known : Prop} (h : v.Shows Ok m)
    (hcsrs : Keeps (Same Cpu.csrs) m) :
    Mirrors v.hart (fun s => Backed Ok s ∧ (s.cpu.csrs.fpuEnabled → known)) m m
      fun s => Backed Ok s ∧ (s.cpu.csrs.fpuEnabled → known) := by
  intro s hs
  obtain ⟨himage, hok⟩ := h s hs.1
  have hsame : (final m s).cpu.csrs = s.cpu.csrs := hcsrs s
  exact ⟨himage, hok, fun hon => hs.2 (hsame ▸ hon)⟩

/-- A change of the hart that has nothing to do with its registers. -/
lemma shows_modifyCpu {f : Cpu → Cpu} (hf : ∀ c, f (v.cpu c) = v.cpu (f c))
    (hregs : ∀ c, (f c).regs = c.regs ∧ (f c).regfile = c.regfile ∧
      (f c).aluBackend = c.aluBackend) : v.Shows Ok (modifyCpu f) := by
  refine .modify fun s hs => ⟨congrArg (Hart.mk · s.sys) (hf s.cpu), ?_⟩
  obtain ⟨hr, hf, ha⟩ := hregs s.cpu
  show Ok (f s.cpu).regs (f s.cpu).regfile (f s.cpu).aluBackend
  rw [hr, hf, ha]
  exact hs

lemma shows_modifySys (f : Sys → Sys) : v.Shows Ok (modifySys f) :=
  .modify fun _ hs => ⟨rfl, hs⟩

lemma shows_emit (e : Event) : v.Shows Ok (emit e) :=
  shows_modifySys _

lemma shows_liftSys {α : Type} (m : SysM α) : v.Shows Ok (liftSys m) :=
  .zoom m (fun _ => rfl) fun _ _ hs => ⟨rfl, hs⟩

/-! ## Memory -/

/-- Run a program on the TLB and the shared state. -/
def zoomMmu {α : Type} (m : MmuM α) : HartM α :=
  zoom (fun s : Hart => (⟨s.cpu.mmu, s.sys⟩ : MmuSys))
    (fun t s => { cpu := { s.cpu with mmu := t.mmu }, sys := t.sys }) m

lemma hart_dataPrivilege (s : Hart) : (v.hart s).cpu.dataPrivilege = s.cpu.dataPrivilege := by
  have hmpp : (v.csrs s.cpu.csrs).mstatusMpp = s.cpu.csrs.mstatusMpp := by
    unfold CsrFile.mstatusMpp
    rw [v.csrs_raw _ (by decide)]
  unfold Cpu.dataPrivilege
  rw [show (v.hart s).cpu.csrs = v.csrs s.cpu.csrs from rfl, v.csrs_mstatus, hmpp]
  rfl

/-- The program that `translateFor` is, for a fixed address space. -/
lemma shows_zoomMmu {α : Type} (m : MmuM α) : v.Shows Ok (zoomMmu m) :=
  .zoom m (fun _ => rfl) fun _ _ hs => ⟨rfl, hs⟩

lemma shows_translateFor (vaddr : U64) (ty : AccessType) (p : U32) :
    v.Shows Ok (translateFor vaddr ty p) := by
  intro s hs
  let m := translate s.cpu.hartid s.cpu.csrs vaddr ty p
  have hsame : translateFor vaddr ty p s = zoomMmu m s := rfl
  have himage : translateFor vaddr ty p (v.hart s) =
      zoomMmu (translate s.cpu.hartid (v.csrs s.cpu.csrs) vaddr ty p) (v.hart s) := rfl
  rw [v.csrs_translate] at himage
  have hzoom : v.Shows Ok (zoomMmu m) := shows_zoomMmu m
  obtain ⟨hrun, hok⟩ := hzoom s hs
  rw [final] at hok ⊢
  rw [himage, hrun, hsame]
  exact ⟨rfl, hok⟩

lemma shows_storeAt (paddr : U64) (size : ℕ) (value : U64) :
    v.Shows Ok (storeAt paddr size value) :=
  (shows_liftSys _).bind fun _ => .modify fun _ hs => ⟨rfl, hs⟩

lemma shows_loadBytes (vaddr : U64) (ty : AccessType) (p : U32) (is : List ℕ) (value : U64) :
    v.Shows Ok (loadBytes vaddr ty p is value) := by
  induction is generalizing value with
  | nil => exact .pure _
  | cons i is ih =>
    exact (shows_translateFor _ _ _).bind fun pa => (shows_liftSys _).bind fun b => ih _

lemma shows_translateBytes (vaddr : U64) (p : U32) (is : List ℕ) :
    v.Shows Ok (translateBytes vaddr p is) := by
  induction is with
  | nil => exact .pure _
  | cons i is ih => exact (shows_translateFor _ _ _).bind fun _ => ih

lemma shows_storeBytes (vaddr : U64) (p : U32) (value : U64) (is : List ℕ) :
    v.Shows Ok (storeBytes vaddr p value is) := by
  induction is with
  | nil => exact .pure _
  | cons i is ih =>
    exact (shows_translateFor _ _ _).bind fun pa => (shows_storeAt _ _ _).bind fun _ => ih

lemma shows_memLoad (vaddr : U64) (size : ℕ) (ty : AccessType) :
    v.Shows Ok (memLoad vaddr size ty) := by
  refine .ite Iff.rfl (fun _ => .get_bind fun s _ => ?_) fun _ => .get_bind fun s _ => ?_
  · rw [hart_dataPrivilege]
    exact shows_loadBytes _ _ _ _ _
  · rw [hart_dataPrivilege]
    exact (shows_translateFor _ _ _).bind fun _ => shows_liftSys _

lemma shows_memStore (vaddr : U64) (size : ℕ) (value : U64) :
    v.Shows Ok (memStore vaddr size value) := by
  refine .ite Iff.rfl (fun _ => .get_bind fun s _ => ?_) fun _ => .get_bind fun s _ => ?_
  · rw [hart_dataPrivilege]
    exact (shows_translateBytes _ _ _).bind fun _ => shows_storeBytes _ _ _ _
  · rw [hart_dataPrivilege]
    exact (shows_translateFor _ _ _).bind fun _ => shows_storeAt _ _ _

end View

end RiscvEmu
