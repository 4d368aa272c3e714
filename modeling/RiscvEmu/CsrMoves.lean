import RiscvEmu.Runs
import RiscvEmu.Cpu.Precise

/-!
# What the registers of a hart can hold

The register file is private to its interface, and everything a hart does to it is a sequence of
calls of that interface.  A property that each call keeps holds of every register file the
machine can have.
-/

namespace RiscvEmu

open Exec BitField

/-- One call of the interface that changes the file. -/
inductive CsrStep : CsrFile → CsrFile → Prop
  | setHartid (c : CsrFile) (id : U64) : CsrStep c (c.setHartid id)
  | write (c : CsrFile) (addr : CsrAddr) (v : U64) : CsrStep c (c.write addr v)
  | markFpuDirty (c : CsrFile) : CsrStep c c.markFpuDirty
  | raiseFflags (c : CsrFile) (flags : U64) : CsrStep c (c.raiseFflags flags)
  | raiseInterrupt (c : CsrFile) (mipBit : U64) : CsrStep c (c.raiseInterrupt mipBit)
  | clearInterrupt (c : CsrFile) (mipBit : U64) : CsrStep c (c.clearInterrupt mipBit)
  | tickCounters (c : CsrFile) : CsrStep c c.tickCounters

/-- Any number of calls. -/
def CsrMoves : CsrFile → CsrFile → Prop := Relation.ReflTransGen CsrStep

/-- A register file that can exist. -/
def CsrFile.Built (c : CsrFile) : Prop := CsrMoves CsrFile.new c

lemma CsrMoves.refl (c : CsrFile) : CsrMoves c c := Relation.ReflTransGen.refl

lemma CsrMoves.trans {a b c : CsrFile} (h : CsrMoves a b) (h' : CsrMoves b c) : CsrMoves a c :=
  Relation.ReflTransGen.trans h h'

lemma CsrMoves.write {a c : CsrFile} (h : CsrMoves a c) (addr : CsrAddr) (v : U64) :
    CsrMoves a (c.write addr v) := Relation.ReflTransGen.tail h (.write c addr v)

lemma CsrStep.moves {a b : CsrFile} (h : CsrStep a b) : CsrMoves a b :=
  Relation.ReflTransGen.single h

lemma csrMoves_drive (c : CsrFile) (bit : U64) (on : Bool) : CsrMoves c (Plic.drive c bit on) := by
  unfold Plic.drive
  split
  · exact (CsrStep.raiseInterrupt c bit).moves
  · exact (CsrStep.clearInterrupt c bit).moves

lemma csrMoves_clintUpdate (k : Clint) (c : CsrFile) (hart : ℕ) : CsrMoves c (k.update c hart) := by
  unfold Clint.update
  split
  · exact .refl c
  dsimp only
  have htwo := (csrMoves_drive c Csr.mipMtip (k.clock.mtime ≥ k.mtimecmp hart)).trans
    (csrMoves_drive _ Csr.mipMsip (k.msip hart &&& 1 != 0))
  split_ifs
  · exact htwo.trans (csrMoves_drive _ _ _)
  · exact htwo.trans (csrMoves_drive _ _ _)
  · exact htwo

lemma csrMoves_plicUpdate (p : Plic) (c : CsrFile) (hart : ℕ) :
    CsrMoves c (p.update c hart).1 :=
  (csrMoves_drive c _ _).trans (csrMoves_drive _ _ _)

lemma csrMoves_setTimer (k : Clint) (deadline : U64) (c : CsrFile) (hart : ℕ) :
    CsrMoves c (k.setTimer deadline c hart).1 := by
  unfold Clint.setTimer
  split
  · exact .refl c
  · exact (CsrStep.clearInterrupt c _).moves.trans (CsrStep.clearInterrupt _ _).moves

lemma csrMoves_enterTrap (c : CsrFile) (toSupervisor : Bool) (priv : PrivLevel)
    (cause tval epc : U64) : CsrMoves c (c.enterTrap toSupervisor priv cause tval epc) := by
  unfold CsrFile.enterTrap
  split <;> exact ((((CsrMoves.refl c).write _ _).write _ _).write _ _).write _ _

/-! ## Harts -/

/-- The registers moved through their interface. -/
def CsrsMove (s t : Hart) : Prop := CsrMoves s.cpu.csrs t.cpu.csrs

instance : IsPreorder Hart CsrsMove where
  refl s := .refl s.cpu.csrs
  trans _ _ _ h g := CsrMoves.trans h g

lemma CsrsMove.of_eq {s t : Hart} (h : t.cpu.csrs = s.cpu.csrs) : CsrsMove s t := by
  rw [CsrsMove, h]
  exact .refl _

lemma csrsMove_update {inst : DecodedInst} {f : Hart → Hart} (hf : Update inst f) (s : Hart) :
    CsrsMove s (f s) := by
  cases hf with
  | setReg i v => exact .of_eq (Cpu.setReg_csrs ..)
  | writeFreg i v => exact (CsrStep.markFpuDirty _).moves
  | putFp i v flags =>
    exact (CsrStep.raiseFflags _ flags).moves.trans (CsrStep.markFpuDirty _).moves
  | raiseFflags flags _ => exact (CsrStep.raiseFflags _ flags).moves
  | mret => exact (CsrMoves.refl s.cpu.csrs).write Csr.mstatus _
  | sret => exact (CsrMoves.refl s.cpu.csrs).write Csr.mstatus _
  | setTimer deadline => exact csrMoves_setTimer _ _ _ _
  | ipi => exact (CsrStep.raiseInterrupt _ _).moves
  | _ => exact .of_eq rfl

lemma csrsMove_csrCommit (addr : CsrAddr) (v : U64) : Keeps CsrsMove (csrCommit addr v) := by
  refine .modify fun s => ?_
  have hw : CsrMoves s.cpu.csrs (s.cpu.csrs.write addr v) := (CsrMoves.refl _).write _ _
  dsimp only
  split_ifs <;> exact hw

lemma csrsMove_move {f : Hart → Hart} (hf : Move f) (s : Hart) : CsrsMove s (f s) := by
  cases hf with
  | retire =>
    show CsrMoves _ (if s.cpu.counterWritten then s.cpu.csrs else s.cpu.csrs.tickCounters)
    split
    · exact .refl _
    · exact (CsrStep.tickCounters _).moves
  | enterTrap => exact csrMoves_enterTrap _ _ _ _ _ _
  | startAt addr arg =>
    rw [CsrsMove, Hart.startAt_csrs]
    exact ((CsrMoves.refl _).write _ _).write _ _
  | drive => exact (csrMoves_clintUpdate _ _ _).trans (csrMoves_plicUpdate _ _ _)
  | delegate =>
    have htwo := ((CsrMoves.refl s.cpu.csrs).write Csr.medeleg 0xffff).write Csr.mideleg 0xffff
    exact ((htwo.write Csr.mie _).write Csr.mcounteren _).write Csr.scounteren _
  | enterKernel entry dtbAddr => exact .of_eq (by simp [Hart.enterKernel])
  | _ => exact .of_eq rfl

lemma hartKeeps_csrsMove : HartKeeps CsrsMove where
  probe := probeKeeps_archSame.mono fun _ _ h => .of_eq h.csrs
  nextInst := nextInst_archSame.mono fun _ _ h => .of_eq h.csrs
  update _ _ hf s := csrsMove_update hf s
  csrWrite _ _ := keeps_csrWrite (fun _ => (CsrStep.markFpuDirty _).moves) csrsMove_csrCommit
  move _ hf s := csrsMove_move hf s

/-- The registers of every hart of a reachable machine were built through the interface. -/
theorem built_reachable {cfg : Config} {m : Machine} (hm : Reachable cfg m) (i : ℕ) :
    (m.harts i).csrs.Built := by
  have hinv : HartInv (fun _ s => s.cpu.csrs.Built) (fun _ _ _ => True) :=
    { keeps := fun _ f s hf _ h => CsrMoves.trans h (hartKeeps_csrsMove.op hf s)
      guarantees := fun _ _ _ _ _ _ => trivial
      stable := fun _ _ _ _ _ _ h _ => h
      outer := fun _ _ _ _ h _ => h }
  exact (hinv.reachable (fun j => (CsrStep.setHartid _ _).moves) hm i).2

/-! ## Implemented interrupts -/

/-- A call keeps the enable bits of interrupts that do not exist at 0. -/
lemma CsrStep.mie {c c' : CsrFile} (h : CsrStep c c')
    (hc : c.raw Csr.mie &&& ~~~Csr.interruptMask = 0) :
    c'.raw Csr.mie &&& ~~~Csr.interruptMask = 0 := by
  cases h with
  | write addr v =>
    by_cases hmie : addr = Csr.mie
    · subst hmie
      rw [show (c.write Csr.mie v).raw Csr.mie =
        merge Csr.interruptMask (c.raw Csr.mie) v from CsrFile.setRaw_raw_self ..,
        merge_and_of_disjoint (by decide), hc]
    by_cases hsie : addr = Csr.sie
    · subst hsie
      rw [show (c.write Csr.sie v).raw Csr.mie =
        merge Csr.sieSipMask (c.raw Csr.mie) v from CsrFile.setRaw_raw_self ..,
        merge_and_of_disjoint (by decide), hc]
    · rw [c.write_raw_of_ne v, hc]
      unfold CsrFile.cell
      split_ifs
      · decide
      · decide
      · decide
      · exact fun heq => hmie heq.symm
  | setHartid id => rwa [CsrFile.setHartid, CsrFile.setRaw_raw_ne _ _ (by decide)]
  | markFpuDirty => rwa [CsrFile.markFpuDirty, CsrFile.setRaw_raw_ne _ _ (by decide)]
  | raiseFflags flags => rwa [CsrFile.raiseFflags, CsrFile.setRaw_raw_ne _ _ (by decide)]
  | raiseInterrupt bit => rwa [CsrFile.raiseInterrupt, CsrFile.setRaw_raw_ne _ _ (by decide)]
  | clearInterrupt bit => rwa [CsrFile.clearInterrupt, CsrFile.setRaw_raw_ne _ _ (by decide)]
  | tickCounters =>
    rwa [CsrFile.tickCounters, CsrFile.setRaw_raw_ne _ _ (by decide),
      CsrFile.setRaw_raw_ne _ _ (by decide)]

/-- Only interrupts that exist can be enabled. -/
lemma CsrFile.Built.mie {c : CsrFile} (h : c.Built) :
    c.raw Csr.mie &&& ~~~Csr.interruptMask = 0 := by
  induction h with
  | refl => decide
  | tail _ hstep ih => exact hstep.mie ih

end RiscvEmu
