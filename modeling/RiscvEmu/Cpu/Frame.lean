import RiscvEmu.Cpu.Effects

/-!
# What memory accesses leave alone

A load or a store of a hart reaches the TLB and what the harts share, nothing else of the hart.
A relation between states is kept by every probe as soon as the three operations that memory
accesses are made of keep it, and the registers a probe may scratch do not matter to it.
-/

namespace RiscvEmu

open Exec

variable {R : Hart → Hart → Prop}

/-! ## Running a translation -/

lemma final_translateFor (va : U64) (ty : AccessType) (p : U32) (s : Hart) :
    final (translateFor va ty p) s =
      { cpu := { s.cpu with
          mmu := (final (translate s.cpu.hartid s.cpu.csrs va ty p) ⟨s.cpu.mmu, s.sys⟩).mmu }
        sys := (final (translate s.cpu.hartid s.cpu.csrs va ty p) ⟨s.cpu.mmu, s.sys⟩).sys } := by
  unfold translateFor zoom final
  dsimp only
  cases translate s.cpu.hartid s.cpu.csrs va ty p ⟨s.cpu.mmu, s.sys⟩ <;> rfl

lemma outcome_translateFor (s : Hart) (va : U64) (ty : AccessType) (p : U32) :
    outcome (translateFor va ty p) s =
      outcome (translate s.cpu.hartid s.cpu.csrs va ty p) ⟨s.cpu.mmu, s.sys⟩ := by
  unfold translateFor zoom outcome
  dsimp only
  cases translate s.cpu.hartid s.cpu.csrs va ty p ⟨s.cpu.mmu, s.sys⟩ <;> rfl

lemma final_liftSys {α : Type} (m : SysM α) (s : Hart) :
    final (liftSys m) s = { s with sys := final m s.sys } :=
  final_zoom _ _ _ s

/-- The state after a store the bus took. -/
def Hart.stored (s : Hart) (pa : U64) (size : ℕ) (t : Sys) : Hart :=
  let t' := t.emit (.store s.cpu.hartid pa size)
  { s with sys := if t'.numHarts > 1 then t'.noteStore s.cpu.hartid pa size else t' }

lemma stored_sys (s : Hart) (pa : U64) (size : ℕ) (t : Sys) :
    (s.stored pa size t).sys.ram = t.ram ∧ (s.stored pa size t).sys.ranges = t.ranges ∧
      (s.stored pa size t).sys.log = .store s.cpu.hartid pa size :: t.log := by
  unfold Hart.stored
  dsimp only
  split <;> exact ⟨rfl, rfl, rfl⟩

section StoreAt

variable {pa v : U64} {size : ℕ} {s t : Hart}

lemma storeAt_eq_ok : storeAt pa size v s = .ok () t ↔
    ∃ w, Bus.store pa size v s.sys = .ok () w ∧ t = s.stored pa size w := by
  rw [storeAt, bind_apply]
  unfold liftSys zoom
  cases Bus.store pa size v s.sys <;> simp [modify_apply, Hart.stored, eq_comm]

lemma storeAt_eq_error {e : Trap} : storeAt pa size v s = .error e t ↔
    ∃ w, Bus.store pa size v s.sys = .error e w ∧ t = { s with sys := w } := by
  rw [storeAt, bind_apply]
  unfold liftSys zoom
  cases Bus.store pa size v s.sys <;> simp [modify_apply, eq_comm]

end StoreAt

/-! ## Memory accesses -/

/-- A relation between states that memory accesses keep. -/
structure MemKeeps (R : Hart → Hart → Prop) : Prop where
  translate : ∀ va ty p, Keeps R (translateFor va ty p)
  load : ∀ pa size ty, Keeps R (liftSys (Bus.load pa size ty))
  store : ∀ pa size v, Keeps R (storeAt pa size v)

section Accesses

variable [IsPreorder Hart R]

lemma MemKeeps.loadBytes (h : MemKeeps R) (va : U64) (ty : AccessType) (p : U32) (is : List ℕ)
    (value : U64) : Keeps R (loadBytes va ty p is value) := by
  induction is generalizing value with
  | nil => exact .pure _
  | cons i is ih => exact .bind (h.translate _ _ _) fun pa => .bind (h.load _ _ _) fun b => ih _

lemma MemKeeps.translateBytes (h : MemKeeps R) (va : U64) (p : U32) (is : List ℕ) :
    Keeps R (translateBytes va p is) := by
  induction is with
  | nil => exact .pure _
  | cons i is ih => exact .bind (h.translate _ _ _) fun _ => ih

lemma MemKeeps.storeBytes (h : MemKeeps R) (va : U64) (p : U32) (v : U64) (is : List ℕ) :
    Keeps R (storeBytes va p v is) := by
  induction is with
  | nil => exact .pure _
  | cons i is ih => exact .bind (h.translate _ _ _) fun pa => .bind (h.store _ _ _) fun _ => ih

lemma MemKeeps.memLoad (h : MemKeeps R) (va : U64) (size : ℕ) (ty : AccessType) :
    Keeps R (memLoad va size ty) := by
  unfold RiscvEmu.memLoad
  split
  · exact .bind .get fun s => h.loadBytes _ _ _ _ _
  · exact .bind .get fun s => .bind (h.translate _ _ _) fun pa => h.load _ _ _

lemma MemKeeps.memStore (h : MemKeeps R) (va : U64) (size : ℕ) (v : U64) :
    Keeps R (memStore va size v) := by
  unfold RiscvEmu.memStore
  split
  · exact .bind .get fun s => .bind (h.translateBytes _ _ _) fun _ => h.storeBytes _ _ _ _
  · exact .bind .get fun s => .bind (h.translate _ _ _) fun pa => h.store _ _ _

end Accesses

/-! ## Scratch state -/

/-- A register file, up to the reads it has answered. -/
def RegFileBackend.forgetReads (b : RegFileBackend) : RegFileBackend :=
  { b with calls := b.calls.filter fun c => match c with
    | .write _ _ => true
    | .read _ => false }

@[simp] lemma RegFileBackend.forgetReads_read (b : RegFileBackend) (i : ℕ) :
    (b.read i).2.forgetReads = b.forgetReads := by
  simp [RegFileBackend.read, RegFileBackend.forgetReads]

/-- From `s` to `t` only scratch state changed: what backends have been asked, the next pc, and
the reservation, with the mailboxes and the history. -/
structure ScratchFrame (s t : Hart) : Prop where
  cpu : t.cpu = { s.cpu with
    regfile := t.cpu.regfile
    aluBackend := t.cpu.aluBackend
    nextPc := t.cpu.nextPc
    reservationValid := t.cpu.reservationValid
    reservationAddr := t.cpu.reservationAddr }
  sys : t.sys = { s.sys with mail := t.sys.mail, log := t.sys.log }
  regfile : t.cpu.regfile.map RegFileBackend.forgetReads =
    s.cpu.regfile.map RegFileBackend.forgetReads

lemma scratchFrame_readReg (i : ℕ) : Keeps ScratchFrame (readReg i) := by
  intro s
  change ScratchFrame s { s with cpu := (s.cpu.getReg i).2 }
  unfold Cpu.getReg
  split
  · exact ⟨rfl, rfl, rfl⟩
  · split
    · next rf hrf => exact ⟨rfl, rfl, by simp [hrf]⟩
    · exact ⟨rfl, rfl, rfl⟩

lemma scratchFrame_alu (op : AluOp) (a b : U64) : Keeps ScratchFrame (alu op a b) := by
  intro s
  change ScratchFrame s { s with cpu := (s.cpu.runAlu op a b).2 }
  unfold Cpu.runAlu
  split <;> exact ⟨rfl, rfl, rfl⟩

section Probes

variable [IsPreorder Hart R]

lemma MemKeeps.loadReserved (h : MemKeeps R) (hs : ∀ s t, ScratchFrame s t → R s t)
    (va : U64) (size : ℕ) : Keeps R (loadReserved va size) := by
  refine .bind (h.memLoad va size .load) fun v => .bind (.modify fun s => ?_) fun _ => ?_
  · exact hs _ _ ⟨rfl, rfl, rfl⟩
  refine .bind .get fun s => .bind (.attempt (h.translate _ _ _)) fun r => ?_
  exact .bind (.modify fun s => hs _ _ ⟨rfl, rfl, rfl⟩) fun _ => .pure _

lemma MemKeeps.storeConditional (h : MemKeeps R) (hs : ∀ s t, ScratchFrame s t → R s t)
    (va : U64) (size rs2 : ℕ) : Keeps R (storeConditional va size rs2) := by
  refine .bind .get fun s => .bind (.modify fun s => hs _ _ ⟨rfl, rfl, rfl⟩) fun _ => ?_
  refine .bind (.modify fun s => hs _ _ ⟨rfl, rfl, rfl⟩) fun _ => ?_
  refine .bind ((scratchFrame_readReg rs2).mono hs) fun src => ?_
  split
  · refine .bind (h.memStore _ _ _) fun _ => ?_
    exact .bind (.modify fun s => hs _ _ ⟨rfl, rfl, rfl⟩) fun _ => .pure _
  · exact .bind (.modify fun s => hs _ _ ⟨rfl, rfl, rfl⟩) fun _ => .pure _

/-- For a relation that does not look at scratch state, memory accesses are all there is to
check. -/
lemma MemKeeps.probeKeeps (h : MemKeeps R) (hs : ∀ s t, ScratchFrame s t → R s t) :
    ProbeKeeps R where
  readReg i := (scratchFrame_readReg i).mono hs
  alu op a b := (scratchFrame_alu op a b).mono hs
  nextPc _ _ := hs _ _ ⟨rfl, rfl, rfl⟩
  memLoad va size := h.memLoad va size .load
  memStore va size v := h.memStore va size v
  loadReserved va size := h.loadReserved hs va size
  storeConditional va size rs2 := h.storeConditional hs va size rs2

end Probes

lemma ProbeKeeps.mono {R' : Hart → Hart → Prop} (h : ProbeKeeps R)
    (hle : ∀ s t, R s t → R' s t) : ProbeKeeps R' where
  readReg i := (h.readReg i).mono hle
  alu op a b := (h.alu op a b).mono hle
  nextPc s pc := hle _ _ (h.nextPc s pc)
  memLoad va size := (h.memLoad va size).mono hle
  memStore va size v := (h.memStore va size v).mono hle
  loadReserved va size := (h.loadReserved va size).mono hle
  storeConditional va size rs2 := (h.storeConditional va size rs2).mono hle

lemma ProbeKeeps.and {R' : Hart → Hart → Prop} (h : ProbeKeeps R) (h' : ProbeKeeps R') :
    ProbeKeeps fun s t => R s t ∧ R' s t where
  readReg i s := ⟨h.readReg i s, h'.readReg i s⟩
  alu op a b s := ⟨h.alu op a b s, h'.alu op a b s⟩
  nextPc s pc := ⟨h.nextPc s pc, h'.nextPc s pc⟩
  memLoad va size s := ⟨h.memLoad va size s, h'.memLoad va size s⟩
  memStore va size v s := ⟨h.memStore va size v s, h'.memStore va size v s⟩
  loadReserved va size s := ⟨h.loadReserved va size s, h'.loadReserved va size s⟩
  storeConditional va size rs2 s :=
    ⟨h.storeConditional va size rs2 s, h'.storeConditional va size rs2 s⟩

/-! ## Fetching -/

lemma MemKeeps.fetchInst [IsPreorder Hart R] (h : MemKeeps R) : Keeps R fetchInst := by
  refine .bind .get fun s => ?_
  split
  · exact .throw _
  · refine .bind (h.memLoad _ _ _) fun low => ?_
    split
    · exact .pure _
    · exact .bind (h.memLoad _ _ _) fun _ => .pure _

lemma MemKeeps.cacheFill [IsPreorder Hart R] (h : MemKeeps R)
    (hfill : ∀ s pa inst, R s (Hart.fillEntry s pa inst)) (inst : DecodedInst) :
    Keeps R (cacheFill inst) := by
  refine .bind .get fun s => ?_
  split
  · exact .pure _
  · refine .bind (.attempt (h.translate _ _ _)) fun r => ?_
    split
    · exact .pure _
    · refine .modify fun t => ?_
      split
      · exact hfill _ _ _
      · exact refl_of R t

/-- A relation kept by memory accesses and by the handling of the cache is kept by a fetch. -/
lemma MemKeeps.nextInst [IsPreorder Hart R] (h : MemKeeps R)
    (hepoch : ∀ s, R s (Hart.checkEpoch s))
    (hfill : ∀ s pa inst, R s (Hart.fillEntry s pa inst)) : Keeps R nextInst := by
  refine .bind (.modify hepoch) fun _ => .bind .get fun s => ?_
  split
  · exact .pure _
  · exact .bind h.fetchInst fun inst => .bind (h.cacheFill hfill inst) fun _ => .pure _

/-! ## Parts of a hart -/

/-- A part of the hart's own state is the same. -/
def Same {α : Type} (part : Cpu → α) (s t : Hart) : Prop := part t.cpu = part s.cpu

instance {α : Type} (part : Cpu → α) : IsPreorder Hart (Same part) where
  refl _ := rfl
  trans _ _ _ h g := Eq.trans g h

/-- Memory accesses leave every part of a hart that does not depend on the TLB. -/
lemma memKeeps_same {α : Type} (part : Cpu → α)
    (hmmu : ∀ (c : Cpu) (mmu : Mmu), part { c with mmu := mmu } = part c) :
      MemKeeps (Same part) where
  translate va ty p s := by
    rw [Same, final_translateFor]
    exact hmmu _ _
  load pa size ty s := by
    rw [Same, final_liftSys]
  store pa size v := .bind (fun s => by rw [Same, final_liftSys]) fun _ => .modify fun _ => rfl

/-! ## One step -/

/-- The next step executes an instruction, and it succeeds. -/
def Hart.Retires (s : Hart) : Prop := s.cpu.nextInterrupt = none ∧ failure instruction s = none

/-- A relation that what a step does around its instruction keeps. -/
structure StepKeeps (R : Hart → Hart → Prop) : Prop where
  nextInst : Keeps R nextInst
  begin : ∀ s inst, R s (Hart.begin s inst)
  lastTrap : ∀ (s : Hart) t, R s { s with cpu := { s.cpu with lastTrap := some t } }
  enterTrap : ∀ s cause tval epc isInterrupt, R s (Hart.enterTrap s cause tval epc isInterrupt)

/-- How a step ended: no instruction retired, or one did. -/
inductive StepEnd (R : Hart → Hart → Prop) (s : Hart) : Prop
  | trapped (hno : ¬ s.Retires) (h : R s (final stepCore s))
  | retired {inst : DecodedInst} {s₁ t : Hart} (hi : s.cpu.nextInterrupt = none)
    (hn : nextInst s = .ok inst s₁)
      (he : execute inst (s₁.begin inst) = .ok () t) (hfetch : R s (s₁.begin inst))
      (hfinal : final stepCore s = t.retire)

theorem stepEnd [IsPreorder Hart R] (h : StepKeeps R) (s : Hart)
    (herr : ∀ inst s₁ e t, nextInst s = .ok inst s₁ → s.cpu.nextInterrupt = none →
      execute inst (s₁.begin inst) = .error e t → R (s₁.begin inst) t) : StepEnd R s := by
  cases hi : s.cpu.nextInterrupt with
  | some i =>
    refine .trapped (fun hr => by simp [hr.1] at hi) ?_
    rw [final_of_ok (stepCore_of_interrupt hi)]
    exact h.enterTrap s _ _ _ _
  | none =>
    have htrap : ∀ e t, R s t → instruction s = .error e t → StepEnd R s := by
      intro e t ht herror
      refine .trapped (fun hr => by simp [Hart.Retires, failure_of_error herror] at hr)
        (trans_of R ht ?_)
      rw [final, stepCore_of_error hi herror, handleTrapOrStop_apply]
      split_ifs
      · exact h.lastTrap t e
      · exact trans_of R (h.lastTrap t e) (h.enterTrap _ _ _ _ _)
    cases hn : nextInst s with
    | error e s₁ => exact htrap e s₁ (h.nextInst.of_error hn) (instruction_of_fetch hn)
    | ok inst s₁ =>
      have hfetch : R s (s₁.begin inst) := trans_of R (h.nextInst.of_ok hn) (h.begin s₁ inst)
      cases he : execute inst (s₁.begin inst) with
      | error e t =>
        exact htrap e t (trans_of R hfetch (herr inst s₁ e t hn hi he)) (instruction_of_error hn he)
      | ok _ t =>
        exact .retired hi hn he hfetch (final_of_ok (stepCore_of_ok hi (instruction_of_ok hn he)))

/-- A part that neither memory accesses nor the handling of the cache nor scratch state touch. -/
structure Untouched {α : Type} (part : Cpu → α) : Prop where
  mmu : ∀ (c : Cpu) (mmu : Mmu), part { c with mmu := mmu } = part c
  dcache : ∀ (c : Cpu) (dcache : ℕ → DecodeEntry) (epoch : ℕ),
    part { c with dcache := dcache, dcacheEpoch := epoch } = part c
  scratch : ∀ s t : Hart, ScratchFrame s t → part t.cpu = part s.cpu

section Untouched

variable {α : Type} {part : Cpu → α} (h : Untouched part)

include h

lemma Untouched.memKeeps : MemKeeps (Same part) := memKeeps_same part h.mmu

lemma Untouched.probeKeeps : ProbeKeeps (Same part) := h.memKeeps.probeKeeps h.scratch

lemma Untouched.nextInst : Keeps (Same part) nextInst := by
  refine h.memKeeps.nextInst (fun s => ?_) fun s pa inst => h.dcache s.cpu _ _
  unfold Hart.checkEpoch
  split
  · exact h.dcache s.cpu _ _
  · exact refl_of (Same part) s

end Untouched

lemma untouched_hartid : Untouched Cpu.hartid where
  mmu _ _ := rfl
  dcache _ _ _ := rfl
  scratch _ _ h := by rw [h.cpu]

lemma untouched_csrs : Untouched Cpu.csrs where
  mmu _ _ := rfl
  dcache _ _ _ := rfl
  scratch _ _ h := by rw [h.cpu]

lemma untouched_sbiEnabled : Untouched Cpu.sbiEnabled where
  mmu _ _ := rfl
  dcache _ _ _ := rfl
  scratch _ _ h := by rw [h.cpu]

lemma untouched_counterWritten : Untouched Cpu.counterWritten where
  mmu _ _ := rfl
  dcache _ _ _ := rfl
  scratch _ _ h := by rw [h.cpu]

end RiscvEmu
