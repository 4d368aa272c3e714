import RiscvEmu.Mmu
import RiscvEmu.BusEffects

/-!
# What a translation does

A translation is one of five: no translation at all, a refused address, a hit, a refused hit, or a
walk.  It changes the TLB, and RAM by writing back one page-table entry.
-/

namespace RiscvEmu

open Exec

/-! ## Walks -/

lemma keeps_walk {R : Sys → Sys → Prop} [IsPreorder Sys R]
    (hload : ∀ addr size ty, Keeps R (Bus.load addr size ty)) (vaddr : U64) (n : ℕ) (table : U64) :
    Keeps R (walk vaddr n table) := by
  induction n generalizing table with
  | zero => exact .pure _
  | succ n ih =>
    unfold walk
    refine .bind (.attempt (hload _ _ _)) fun r => ?_
    cases r with
    | error t => exact .pure _
    | ok entry =>
      dsimp only
      split_ifs
      · exact .pure _
      · exact .pure _
      · exact .pure _
      · exact ih _

lemma total_walk (vaddr : U64) (n : ℕ) (table : U64) : Total (walk vaddr n table) := by
  induction n generalizing table with
  | zero => exact .pure _
  | succ n ih =>
    unfold walk
    refine .bind (.attempt _) fun r => ?_
    cases r with
    | error t => exact .pure _
    | ok entry =>
      dsimp only
      split_ifs
      · exact .pure _
      · exact .pure _
      · exact .pure _
      · exact ih _

/-- A walk from the root of an address space: where it ends, and what it leaves. -/
def walkFrom (csrs : CsrFile) (vaddr : U64) (t : Sys) : Option Leaf × Sys :=
  match walk vaddr sv39Levels (csrs.satpPpn <<< pageShift) t with
  | .ok r t' => (r, t')
  | .error _ t' => (none, t')

lemma walk_eq (csrs : CsrFile) (vaddr : U64) (t : Sys) :
    walk vaddr sv39Levels (csrs.satpPpn <<< pageShift) t =
      .ok (walkFrom csrs vaddr t).1 (walkFrom csrs vaddr t).2 := by
  obtain ⟨r, t', h⟩ := total_walk vaddr sv39Levels (csrs.satpPpn <<< pageShift) t
  simp only [walkFrom, h]

lemma keeps_walkFrom {R : Sys → Sys → Prop} [IsPreorder Sys R]
    (hload : ∀ addr size ty, Keeps R (Bus.load addr size ty)) (csrs : CsrFile) (vaddr : U64)
    (t : Sys) : R t (walkFrom csrs vaddr t).2 :=
  (keeps_walk hload vaddr sv39Levels (csrs.satpPpn <<< pageShift)).of_ok (walk_eq csrs vaddr t)

lemma quiet_walkFrom (csrs : CsrFile) (vaddr : U64) (t : Sys) :
    SysQuiet t (walkFrom csrs vaddr t).2 :=
  keeps_walkFrom quiet_busLoad csrs vaddr t

/-! ## Writing back an entry -/

/-- The shared state after a page-table entry was written back. -/
def Sys.writeBack (t : Sys) (hart : ℕ) (pteAddr value : U64) : Sys :=
  match Bus.store pteAddr 8 value t with
  | .ok _ t' => t'.emit (.pteUpdate hart pteAddr)
  | .error _ t' => t'

lemma writePte_apply (hart : ℕ) (pteAddr value : U64) (s : MmuSys) :
    writePte hart pteAddr value s =
      .ok () { s with sys := s.sys.writeBack hart pteAddr value } := by
  cases h : Bus.store pteAddr 8 value s.sys with
  | ok a t =>
    have hbus : onBus (Bus.store pteAddr 8 value) s = .ok a { s with sys := t } :=
      zoom_eq_ok.mpr ⟨t, h, rfl⟩
    rw [writePte, bind_of_ok (attempt_of_ok hbus), Sys.writeBack, h]
    rfl
  | error e t =>
    have hbus : onBus (Bus.store pteAddr 8 value) s = .error e { s with sys := t } :=
      zoom_eq_error.mpr ⟨t, h, rfl⟩
    rw [writePte, bind_of_ok (attempt_of_error hbus), Sys.writeBack, h]
    rfl

/-- What a write-back does: nothing, or the entry is in RAM and is written. -/
lemma writeBack_cases (t : Sys) (hart : ℕ) (pteAddr value : U64) :
    (¬ InRam t.ram pteAddr 8 ∧ (t.writeBack hart pteAddr value).ram = t.ram) ∨
    (InRam t.ram pteAddr 8 ∧ ∃ ram, t.ram.store (pteAddr - dramBase).toNat 8 value = some ram ∧
      t.writeBack hart pteAddr value = { t with ram := ram }.emit (.pteUpdate hart pteAddr)) := by
  by_cases hin : InRam t.ram pteAddr 8
  · obtain ⟨ram, hram, hst⟩ := busStore_ram value hin
    refine Or.inr ⟨hin, ram, hram, ?_⟩
    simp only [Sys.writeBack, hst]
  · refine Or.inl ⟨hin, ?_⟩
    unfold Sys.writeBack
    split
    · next t' h =>
        rcases busStore_ok h with ⟨hin', -⟩ | ⟨-, -, hq⟩
        · exact absurd hin' hin
        · exact (hq (by decide)).ram
    · next h => exact (busStore_error h).2.ram

/-! ## The outcomes of a translation -/

section Outcomes

variable {hart : ℕ} {csrs : CsrFile} {va : U64} {ty : AccessType} {p : U32} {s : MmuSys}

/-- The privilege and the address space make a translation necessary. -/
def Paged (csrs : CsrFile) (p : U32) : Prop :=
  ¬ (p = privMachine ∨ csrs.satpMode = Csr.satpModeBare)

instance (csrs : CsrFile) (p : U32) : Decidable (Paged csrs p) := by
  unfold Paged
  infer_instance

/-- The slot of a page, when it holds that page. -/
def Hit (csrs : CsrFile) (va : U64) (m : Mmu) : Prop := (m.tlb (tlbIndex va)).tag = tlbKey csrs va

instance (csrs : CsrFile) (va : U64) (m : Mmu) : Decidable (Hit csrs va m) := by
  unfold Hit
  infer_instance

/-- Count a hit. -/
def MmuSys.countHit (s : MmuSys) : MmuSys := { s with mmu := { s.mmu with hits := s.mmu.hits + 1 } }

/-- Count a miss. -/
def MmuSys.countMiss (s : MmuSys) : MmuSys :=
  { s with mmu := { s.mmu with misses := s.mmu.misses + 1 } }

lemma translate_bare (h : ¬ Paged csrs p) : translate hart csrs va ty p s = .ok va s := by
  unfold translate
  rw [if_pos (not_not.mp h)]
  rfl

lemma translate_paged (h : Paged csrs p) :
    translate hart csrs va ty p s = translatePaged hart csrs va ty p s := by
  unfold translate
  rw [if_neg h]

lemma translate_refused (h : Paged csrs p) (hc : ¬ canonical va) :
    translate hart csrs va ty p s = .error ⟨pageFaultFor ty, va⟩ s := by
  rw [translate_paged h, translatePaged, bind_of_ok (get_apply s), if_neg hc]
  rfl

lemma translatePaged_hit (hc : canonical va) (ht : Hit csrs va s.mmu) :
    translatePaged hart csrs va ty p s =
      tlbHit hart csrs va ty p (s.mmu.tlb (tlbIndex va)) s := by
  unfold Hit at ht
  rw [translatePaged, bind_of_ok (get_apply s), if_pos hc, if_pos ht]

lemma translatePaged_miss (hc : canonical va) (ht : ¬ Hit csrs va s.mmu) :
    translatePaged hart csrs va ty p s = tlbMiss hart csrs va ty p s := by
  unfold Hit at ht
  rw [translatePaged, bind_of_ok (get_apply s), if_pos hc, if_neg ht]

lemma translate_hit_refused (h : Paged csrs p) (hc : canonical va) (ht : Hit csrs va s.mmu)
    (hp : ¬ permitted (s.mmu.tlb (tlbIndex va)).perms ty p csrs) :
    translate hart csrs va ty p s = .error ⟨pageFaultFor ty, va⟩ s := by
  rw [translate_paged h, translatePaged_hit hc ht, tlbHit, if_neg hp]
  rfl

lemma translate_hit_clean (h : Paged csrs p) (hc : canonical va) (ht : Hit csrs va s.mmu)
    (hp : permitted (s.mmu.tlb (tlbIndex va)).perms ty p csrs)
    (hd : ¬ (ty = .store ∧ (s.mmu.tlb (tlbIndex va)).perms &&& Pte.D = 0)) :
    translate hart csrs va ty p s =
      .ok (physAddr (s.mmu.tlb (tlbIndex va)).ppn va) s.countHit := by
  rw [translate_paged h, translatePaged_hit hc ht, tlbHit, if_pos hp, setDirty, if_neg hd]
  rfl

/-- The state after a hit that set the dirty bit. -/
def MmuSys.dirtied (s : MmuSys) (hart : ℕ) (va : U64) : MmuSys :=
  let slot := s.mmu.tlb (tlbIndex va)
  let t := s.setSlot (tlbIndex va) { slot with perms := slot.perms ||| Pte.D }
  { t with sys := t.sys.writeBack hart slot.pteAddr (slot.perms ||| Pte.D) }

lemma translate_hit_dirty (h : Paged csrs p) (hc : canonical va) (ht : Hit csrs va s.mmu)
    (hp : permitted (s.mmu.tlb (tlbIndex va)).perms ty p csrs)
    (hd : ty = .store ∧ (s.mmu.tlb (tlbIndex va)).perms &&& Pte.D = 0) :
    translate hart csrs va ty p s =
      .ok (physAddr (s.mmu.tlb (tlbIndex va)).ppn va) (s.dirtied hart va).countHit := by
  rw [translate_paged h, translatePaged_hit hc ht, tlbHit, if_pos hp, setDirty, if_pos hd]
  have hset : (do
      modify fun s : MmuSys => s.setSlot (tlbIndex va) { s.mmu.tlb (tlbIndex va) with
        perms := (s.mmu.tlb (tlbIndex va)).perms ||| Pte.D }
      writePte hart (s.mmu.tlb (tlbIndex va)).pteAddr
        ((s.mmu.tlb (tlbIndex va)).perms ||| Pte.D) : MmuM Unit) s =
      .ok () (s.dirtied hart va) := by
    rw [bind_of_ok (modify_apply _ s), writePte_apply]
    rfl
  exact bind_of_ok hset

/-- The state in which a walk ends. -/
def MmuSys.walked (s : MmuSys) (csrs : CsrFile) (va : U64) : MmuSys :=
  { s.countMiss with sys := (walkFrom csrs va s.sys).2 }

lemma translate_miss (hart : ℕ) (ty : AccessType) (h : Paged csrs p) (hc : canonical va)
    (ht : ¬ Hit csrs va s.mmu) :
    translate hart csrs va ty p s =
      match (walkFrom csrs va s.sys).1 with
      | none => .error ⟨pageFaultFor ty, va⟩ (s.walked csrs va)
      | some leaf =>
        if permitted leaf.entry ty p csrs ∧ !leaf.misaligned then
          fillSlot hart csrs va ty leaf (s.walked csrs va)
        else .error ⟨pageFaultFor ty, va⟩ (s.walked csrs va) := by
  rw [translate_paged h, translatePaged_miss hc ht, tlbMiss, bind_of_ok (modify_apply _ s)]
  have hwalk : onBus (walk va sv39Levels (csrs.satpPpn <<< pageShift)) s.countMiss =
      .ok (walkFrom csrs va s.sys).1 (s.walked csrs va) :=
    zoom_eq_ok.mpr ⟨_, walk_eq csrs va s.sys, rfl⟩
  rw [show ({ s with mmu := { s.mmu with misses := s.mmu.misses + 1 } } : MmuSys) = s.countMiss
    from rfl, bind_of_ok hwalk]
  cases (walkFrom csrs va s.sys).1 with
  | none => rfl
  | some leaf =>
    dsimp only
    split_ifs <;> rfl

/-- The state after a walk whose leaf was cached. -/
def MmuSys.filled (s : MmuSys) (hart : ℕ) (csrs : CsrFile) (va : U64) (ty : AccessType)
    (leaf : Leaf) : MmuSys :=
  let t := if updatedPte ty leaf.entry ≠ leaf.entry then
      { s with sys := s.sys.writeBack hart leaf.pteAddr (updatedPte ty leaf.entry) }
    else s
  t.setSlot (tlbIndex va)
    ⟨tlbKey csrs va, leaf.ppn (vpnOf va), updatedPte ty leaf.entry, leaf.pteAddr⟩

lemma fillSlot_apply (leaf : Leaf) :
    fillSlot hart csrs va ty leaf s =
      .ok (physAddr (leaf.ppn (vpnOf va)) va) (s.filled hart csrs va ty leaf) := by
  unfold fillSlot MmuSys.filled
  dsimp only
  split
  · rw [bind_of_ok (writePte_apply _ _ _ _)]
    rfl
  · rfl

end Outcomes

/-! ## Relations kept by translations -/

/-- A relation that the parts of a translation keep. -/
structure TranslateKeeps (hart : ℕ) (Q : MmuSys → MmuSys → Prop) : Prop where
  countHit : ∀ s : MmuSys, Q s s.countHit
  walked : ∀ (s : MmuSys) (csrs : CsrFile) (va : U64), Q s (s.walked csrs va)
  setSlot : ∀ (s : MmuSys) (idx : ℕ) (e : TlbEntry), Q s (s.setSlot idx e)
  writeBack : ∀ (s : MmuSys) (pteAddr value : U64),
    Q s { s with sys := s.sys.writeBack hart pteAddr value }

lemma TranslateKeeps.translate {hart : ℕ} {Q : MmuSys → MmuSys → Prop} [IsPreorder MmuSys Q]
    (h : TranslateKeeps hart Q) (csrs : CsrFile) (va : U64) (ty : AccessType) (p : U32) :
    Keeps Q (translate hart csrs va ty p) := by
  intro s
  by_cases hp : Paged csrs p
  swap
  · rw [final_of_ok (translate_bare hp)]
    exact refl_of Q s
  by_cases hc : canonical va
  swap
  · rw [final_of_error (translate_refused hp hc)]
    exact refl_of Q s
  by_cases ht : Hit csrs va s.mmu
  · by_cases hperm : permitted (s.mmu.tlb (tlbIndex va)).perms ty p csrs
    swap
    · rw [final_of_error (translate_hit_refused hp hc ht hperm)]
      exact refl_of Q s
    by_cases hd : ty = .store ∧ (s.mmu.tlb (tlbIndex va)).perms &&& Pte.D = 0
    · rw [final_of_ok (translate_hit_dirty hp hc ht hperm hd)]
      exact trans_of Q (trans_of Q (h.setSlot _ _ _) (h.writeBack _ _ _)) (h.countHit _)
    · rw [final_of_ok (translate_hit_clean hp hc ht hperm hd)]
      exact h.countHit s
  · have hmiss := translate_miss hart ty hp hc ht
    cases hw : (walkFrom csrs va s.sys).1 with
    | none =>
      rw [hw] at hmiss
      rw [final_of_error hmiss]
      exact h.walked s csrs va
    | some leaf =>
      rw [hw] at hmiss
      dsimp only at hmiss
      split at hmiss
      · rw [fillSlot_apply] at hmiss
        rw [final_of_ok hmiss, MmuSys.filled]
        split
        · exact trans_of Q (trans_of Q (h.walked s csrs va) (h.writeBack _ _ _)) (h.setSlot _ _ _)
        · exact trans_of Q (h.walked s csrs va) (h.setSlot _ _ _)
      · rw [final_of_error hmiss]
        exact h.walked s csrs va

end RiscvEmu
