import RiscvEmu.Mmu.Walk
import RiscvEmu.Runs

/-!
# What a translation writes to RAM

A walk sets bits of the entry it has just read.  A hit writes back the entry it has cached, which
is the one in memory with its bits set exactly if software has not changed the entry since.
-/

namespace RiscvEmu

open Exec

/-! ## Accessed and dirty bits in RAM -/

/-- At most one entry differs, by bits that were set. -/
def AdUpdate (d d' : Dram) : Prop :=
  d'.len = d.len ∧
    (d'.mem = d.mem ∨ ∃ off bits, off % 8 = 0 ∧ off + 8 ≤ d.len ∧ bits ||| Pte.AD = Pte.AD ∧
    d'.mem = Bytes.store d.mem off 8 (Bytes.load d.mem off 8 ||| bits))

lemma AdUpdate.of_eq {d d' : Dram} (hlen : d'.len = d.len) (hmem : d'.mem = d.mem) :
    AdUpdate d d' :=
  ⟨hlen, .inl hmem⟩

/-- Writing an entry sets bits exactly if the new entry is the old one with bits set. -/
lemma adUpdate_store_iff {d d' : Dram} {off : ℕ} {v : U64} (hoff : off % 8 = 0)
    (hin : off + 8 ≤ d.len) (hlen : d'.len = d.len) (hmem : d'.mem = Bytes.store d.mem off 8 v) :
    AdUpdate d d' ↔ ∃ bits, bits ||| Pte.AD = Pte.AD ∧ v = Bytes.load d.mem off 8 ||| bits := by
  have hload : Bytes.load d'.mem off 8 = v := by rw [hmem, Bytes.load_store_eight]
  constructor
  · rintro ⟨-, hsame | ⟨off', bits, hoff', -, hbits, hmem'⟩⟩
    · exact ⟨0, by decide, by rw [← hload, hsame, show (0 : U64) = 0#64 from rfl, BitVec.or_zero]⟩
    · by_cases heq : off' = off
      · subst heq
        refine ⟨bits, hbits, ?_⟩
        rw [← hload, hmem', Bytes.load_store_eight]
      · -- aligned entries do not overlap, so this one is as it was
        refine ⟨0, by decide, ?_⟩
        rw [← hload, hmem', Bytes.load_store_disjoint (by omega), show (0 : U64) =
          0#64 from rfl, BitVec.or_zero]
  · rintro ⟨bits, hbits, rfl⟩
    exact ⟨hlen, .inr ⟨off, bits, hoff, hin, hbits, hmem⟩⟩

lemma byte_load_sub {d : Dram} {off i : ℕ} (h : off ≤ i ∧ i < off + 8) :
    Bytes.byte (Bytes.load d.mem off 8) (i - off) = d.mem i := by
  rw [Bytes.byte_load (Nat.le_refl 8) (by omega), Nat.add_sub_cancel' h.1]

lemma AdUpdate.mem_of_mod {d d' : Dram} (h : AdUpdate d d') {i : ℕ} (hi : i % 8 ≠ 0) :
    d'.mem i = d.mem i := by
  obtain ⟨-, hsame | ⟨off, bits, hoff, -, hbits, hmem⟩⟩ := h
  · rw [hsame]
  rw [hmem]
  by_cases hin : off ≤ i ∧ i < off + 8
  · have hzero : ∀ k, 8 ≤ k → bits.getLsbD k = false := by
      intro k hk
      have hAD : Pte.AD.getLsbD k = false := by
        rw [← BitVec.testBit_toNat]
        exact Nat.testBit_lt_two_pow (Nat.lt_of_lt_of_le (by decide : Pte.AD.toNat < 2 ^ 8)
          (Nat.pow_le_pow_right (by decide) hk))
      have hbit := congrArg (fun x : U64 => x.getLsbD k) hbits
      simpa only [BitVec.getLsbD_or, hAD, Bool.or_false] using hbit
    rw [Bytes.store_of_mem hin, ← byte_load_sub hin]
    refine BitVec.eq_of_getLsbD_eq fun k hk => ?_
    simp only [Bytes.byte, BitVec.getLsbD_setWidth, BitVec.getLsbD_ushiftRight, BitVec.getLsbD_or,
      hzero (8 * (i - off) + k) (by omega), Bool.or_false]
  · exact Bytes.store_of_not_mem hin

/-! ## Writing back -/

variable {addr va : U64} {csrs : CsrFile} {ty : AccessType}

lemma inRam_iff {d : Dram} {size : ℕ} :
    InRam d addr size ↔ dramBase.toNat ≤ addr.toNat ∧ addr.toNat - dramBase.toNat < d.len ∧
      size ≤ d.len - (addr.toNat - dramBase.toNat) := by
  rw [InRam, Dram.inRange_iff, BitVec.le_def]
  refine and_congr_right fun hbase => ?_
  rw [BitVec.toNat_sub_of_le hbase]

lemma inRam_offset {d : Dram} (h : InRam d addr 8) : (addr - dramBase).toNat + 8 ≤ d.len := by
  have := (Dram.inRange_iff d).mp h.2
  omega

lemma offset_aligned (hbase : dramBase ≤ addr) (h : addr.toNat % 8 = 0) :
    (addr - dramBase).toNat % 8 = 0 := by
  rw [BitVec.toNat_sub_of_le hbase, show dramBase.toNat = 8 * 268435456 from rfl]
  omega

lemma writeBack_mem (t : Sys) (hart : ℕ) (pteAddr value : U64) :
    (t.writeBack hart pteAddr value).ram.len = t.ram.len ∧
    (t.writeBack hart pteAddr value).ram.mem =
      if InRam t.ram pteAddr 8 then Bytes.store t.ram.mem (pteAddr - dramBase).toNat 8 value
        else t.ram.mem := by
  rcases writeBack_cases t hart pteAddr value with ⟨hout, hram⟩ | ⟨hin, ram, hst, heq⟩
  · rw [hram, if_neg hout]
    exact ⟨rfl, rfl⟩
  · obtain ⟨-, hmem, hlen⟩ := Dram.store_eq_some hst
    rw [heq, if_pos hin]
    exact ⟨hlen, hmem⟩

lemma writeBack_ranges (t : Sys) (hart : ℕ) (pteAddr value : U64) :
    (t.writeBack hart pteAddr value).ranges = t.ranges := by
  unfold Sys.writeBack
  split
  · next h =>
      rcases busStore_ok h with ⟨-, ram, -, rfl⟩ | ⟨-, -, hq⟩
      · rfl
      · exact (hq (by decide)).ranges
  · next h => exact (busStore_error h).2.ranges

/-- A walk writes back the entry it read. -/
lemma adUpdate_filled {hart : ℕ} {s : MmuSys} {leaf : Leaf}
    (haligned : leaf.pteAddr.toNat % 8 = 0) (hentry : s.sys.entryAt leaf.pteAddr =
      some leaf.entry) :
    AdUpdate s.sys.ram (s.filled hart csrs va ty leaf).sys.ram := by
  unfold MmuSys.filled
  dsimp only [MmuSys.setSlot]
  split
  · obtain ⟨hlen, hmem⟩ := writeBack_mem s.sys hart leaf.pteAddr (updatedPte ty leaf.entry)
    by_cases hin : InRam s.sys.ram leaf.pteAddr 8
    · rw [if_pos hin] at hmem
      rw [entryAt_ram hin, Option.some.injEq] at hentry
      rw [adUpdate_store_iff (offset_aligned hin.1 haligned) (inRam_offset hin) hlen hmem, hentry,
        updatedPte]
      split
      · exact ⟨Pte.AD, by decide, by rw [BitVec.or_assoc]; rfl⟩
      · exact ⟨Pte.A, by decide, rfl⟩
    · rw [if_neg hin] at hmem
      exact .of_eq hlen hmem
  · exact .of_eq rfl rfl

/-! ## What the TLB holds -/

/-- Every slot is empty, or has a property. -/
def EverySlot (P : TlbEntry → Prop) (m : Mmu) : Prop :=
  ∀ i, (m.tlb i).tag = invalidTag ∨ P (m.tlb i)

/-- A property of the slots that the MMU fills, and that setting the dirty bit keeps. -/
structure SlotRule (P : TlbEntry → Prop) : Prop where
  filled : ∀ (t : Sys) (csrs : CsrFile) (va : U64) (ty : AccessType) (leaf : Leaf),
    t.leafOf csrs va = some leaf →
    P ⟨tlbKey csrs va, leaf.ppn (vpnOf va), updatedPte ty leaf.entry, leaf.pteAddr⟩
  dirtied : ∀ e : TlbEntry, P e → P { e with perms := e.perms ||| Pte.D }

/-- No page has the tag of an empty slot. -/
lemma tlbKey_ne_invalidTag (csrs : CsrFile) (va : U64) : tlbKey csrs va ≠ invalidTag := by
  intro h
  have hbit := congrArg (fun x : U64 => x.getLsbD 63) h
  have hout : va.getLsbD (12 + 63) = false := BitVec.getLsbD_of_ge _ _ (by decide)
  have hmask : Csr.satpAsidMask.getLsbD (44 + (63 - 44)) = false := by decide
  simp only [tlbKey, vpnOf, pageShift, CsrFile.satpAsid, BitVec.getLsbD_or,
    BitVec.getLsbD_shiftLeft, BitVec.getLsbD_ushiftRight, BitVec.getLsbD_and, hout, hmask,
      Bool.and_false, Bool.or_false] at hbit
  exact absurd hbit (by decide)

section EverySlot

variable {P : TlbEntry → Prop} {m : Mmu}

lemma EverySlot.of_hit {csrs : CsrFile} {va : U64} (h : EverySlot P m) (ht : Hit csrs va m) :
    P (m.tlb (tlbIndex va)) := by
  rcases h (tlbIndex va) with hinvalid | hslot
  · exact absurd (ht.symm.trans hinvalid) (tlbKey_ne_invalidTag csrs va)
  · exact hslot

lemma EverySlot.flush (m : Mmu) : EverySlot P m.flush := fun _ => .inl rfl

lemma EverySlot.update (h : EverySlot P m) {idx : ℕ} {e : TlbEntry}
    (he : e.tag = invalidTag ∨ P e) :
    EverySlot P { m with tlb := Function.update m.tlb idx e } := by
  intro i
  dsimp only
  by_cases hi : i = idx
  · subst hi
    rwa [Function.update_self]
  · rw [Function.update_of_ne hi]
    exact h i

lemma SlotRule.translate (hP : SlotRule P) {hart : ℕ} {csrs : CsrFile} {va : U64} {ty : AccessType}
    {p : U32} {s : MmuSys} (h : EverySlot P s.mmu) :
      EverySlot P (final (translate hart csrs va ty p) s).mmu := by
  obtain ⟨r, t, -, hfin, hcases⟩ := run_translate hart csrs va ty p s
  rw [hfin]
  cases hcases with
  | hitDirty _ _ ht => exact h.update (.inr (hP.dirtied _ (h.of_hit ht)))
  | missFilled _ _ _ leaf hw _ n =>
    have hfilled : ∀ u : MmuSys, u.mmu.tlb = s.mmu.tlb →
      EverySlot P (u.filled hart csrs va ty leaf).mmu := by
      intro u hu
      have hslot := hP.filled s.sys csrs va ty leaf hw
      unfold MmuSys.filled
      dsimp only
      split <;> exact EverySlot.update (fun i => by simpa only [hu] using h i) (.inr hslot)
    exact hfilled _ rfl
  | bare | noncanonical | hitRefused | hitClean | missRefused => exact h

end EverySlot

lemma leafOf_aligned {t : Sys} {leaf : Leaf} (h : t.leafOf csrs va = some leaf) :
    leaf.pteAddr.toNat % 8 = 0 := walkOn_aligned (isTable_shiftLeft _) h

lemma updatedPte_accessed (ty : AccessType) (entry : U64) :
    updatedPte ty entry ||| Pte.A = updatedPte ty entry := by
  unfold updatedPte
  split
  · rw [BitVec.or_assoc, BitVec.or_comm Pte.D, ← BitVec.or_assoc, BitVec.or_assoc entry,
      BitVec.or_self]
  · rw [BitVec.or_assoc, BitVec.or_self]

lemma updatedPte_adEq (ty : AccessType) (entry : U64) : AdEq (updatedPte ty entry) entry := by
  unfold updatedPte
  split
  · rw [BitVec.or_assoc]
    exact adEq_or (by decide) entry
  · exact adEq_or (by decide) entry

lemma or_and_ne_zero {x y k : U64} (h : x &&& k ≠ 0) : (x ||| y) &&& k ≠ 0 := by
  intro h0
  refine h (BitVec.eq_of_getLsbD_eq fun i hi => ?_)
  have hbit := congrArg (fun z : U64 => z.getLsbD i) h0
  simp only [BitVec.getLsbD_and, BitVec.getLsbD_or] at hbit ⊢
  revert hbit
  cases x.getLsbD i <;> cases k.getLsbD i <;> simp

lemma updatedPte_dirty (ty : AccessType) {entry : U64} (h : entry &&& Pte.D ≠ 0) :
    updatedPte ty entry &&& Pte.D ≠ 0 := by
  unfold updatedPte
  split
  · exact or_and_ne_zero (or_and_ne_zero h)
  · exact or_and_ne_zero h

lemma dirty_and (x : U64) : (x ||| Pte.D) &&& Pte.D ≠ 0 := by
  rw [BitVec.or_comm]
  exact or_and_ne_zero (by decide)

/-- The entry of a slot was accessed, and is aligned. -/
def SlotFilled (e : TlbEntry) : Prop := e.perms ||| Pte.A = e.perms ∧ e.pteAddr.toNat % 8 = 0

lemma slotRule_filled : SlotRule SlotFilled where
  filled _ _ _ ty leaf hw := ⟨updatedPte_accessed ty leaf.entry, leafOf_aligned hw⟩
  dirtied e h := by
    refine ⟨?_, h.2⟩
    dsimp only
    rw [BitVec.or_assoc, BitVec.or_comm Pte.D, ← BitVec.or_assoc, h.1]

/-! ## Runs -/

section Runs

variable {P : TlbEntry → Prop}

/-- The TLB stays filled by the MMU. -/
def KeepsSlots (P : TlbEntry → Prop) (s t : Hart) : Prop :=
  EverySlot P s.cpu.mmu → EverySlot P t.cpu.mmu

instance : IsPreorder Hart (KeepsSlots P) where
  refl _ := id
  trans _ _ _ h g := g ∘ h

lemma KeepsSlots.of_eq {s t : Hart} (h : t.cpu.mmu = s.cpu.mmu) : KeepsSlots P s t :=
  fun hs => h ▸ hs

lemma SlotRule.memKeeps (hP : SlotRule P) : MemKeeps (KeepsSlots P) where
  translate va ty p s hs := by
    rw [final_translateFor]
    exact hP.translate hs
  load pa size ty s := .of_eq (by rw [final_liftSys])
  store pa size v := .bind (fun s => .of_eq (by rw [final_liftSys])) fun _ =>
    .modify fun s => .of_eq rfl

lemma SlotRule.hartKeeps (hP : SlotRule P) : HartKeeps (KeepsSlots P) where
  probe := hP.memKeeps.probeKeeps fun s t h => .of_eq (by rw [h.cpu])
  nextInst := by
    refine hP.memKeeps.nextInst (fun s => .of_eq ?_) fun s pa inst => .of_eq rfl
    unfold Hart.checkEpoch
    split <;> rfl
  update inst f hf s := by
    cases hf with
    | setReg i v => exact .of_eq (Cpu.setReg_mmu ..)
    | fence => exact fun _ => EverySlot.flush _
    | _ => exact .of_eq rfl
  csrWrite addr v := keeps_csrWrite (fun _ => .of_eq rfl) fun addr v => .modify fun s => by
      dsimp only
      split_ifs
      · exact fun _ => EverySlot.flush _
      · exact fun _ => EverySlot.flush _
      · exact .of_eq rfl
      · exact .of_eq rfl
  move f hf s := by
    cases hf with
    | startAt addr arg => exact fun _ => EverySlot.flush _
    | enterKernel entry dtbAddr => exact .of_eq ((Cpu.setReg_mmu ..).trans (Cpu.setReg_mmu ..))
    | _ => exact .of_eq rfl

/-- What holds of the slots the MMU fills holds of every TLB in every reachable state. -/
theorem SlotRule.reachable (hP : SlotRule P) {cfg : Config} {m : Machine} (hm : Reachable cfg m)
    (i : ℕ) :
    EverySlot P (m.harts i).mmu := by
  have hinv : HartInv (fun _ s => EverySlot P s.cpu.mmu) (fun _ _ _ => True) :=
    ⟨fun _ _ s hf _ h => hP.hartKeeps.op hf s h, fun _ _ _ _ _ _ =>
      trivial, fun _ _ _ _ _ _ h _ => h, fun _ _ _ _ h _ => h⟩
  exact (hinv.reachable (fun _ _ => .inl rfl) hm i).2

end Runs

/-! ## The dirty bit of a cached entry -/

/-- A store through a cached entry whose dirty bit is clear, while the entry in memory has become
another one. -/
def StaleStore (csrs : CsrFile) (va : U64) (ty : AccessType) (p : U32) (s : MmuSys) : Prop :=
  let slot := s.mmu.tlb (tlbIndex va)
  Paged csrs p ∧ canonical va ∧ Hit csrs va s.mmu ∧ permitted slot.perms ty p csrs ∧
    (ty = .store ∧ slot.perms &&& Pte.D = 0) ∧ InRam s.sys.ram slot.pteAddr 8 ∧
    ¬AdEq slot.perms (Bytes.load s.sys.ram.mem (slot.pteAddr - dramBase).toNat 8)

instance (x y : U64) : Decidable (AdEq x y) := by
  unfold AdEq
  infer_instance

instance (csrs : CsrFile) (va : U64) (ty : AccessType) (p : U32) (s : MmuSys) :
    Decidable (StaleStore csrs va ty p s) := by
  unfold StaleStore
  infer_instance

/-- Writing back a cached entry sets bits exactly if it is still the one in memory. -/
lemma dirty_iff_adEq {perms entry : U64} (hA : perms ||| Pte.A = perms) :
    (∃ bits, bits ||| Pte.AD = Pte.AD ∧ perms ||| Pte.D = entry ||| bits) ↔ AdEq perms entry := by
  have hD : Pte.D ||| Pte.AD = Pte.AD := by decide
  constructor
  · rintro ⟨bits, hbits, heq⟩
    rw [AdEq, ← hD, ← BitVec.or_assoc, heq, BitVec.or_assoc, hD, hbits]
  · intro heq
    refine ⟨Pte.AD, by decide, ?_⟩
    rw [← heq, Pte.AD, ← BitVec.or_assoc, hA]

/-- For one translation, from any TLB whose slot for the page the MMU has filled. -/
lemma translate_adUpdate_iff {hart : ℕ} {p : U32} {s : MmuSys}
    (hok : Hit csrs va s.mmu → (s.mmu.tlb (tlbIndex va)).perms ||| Pte.A =
      (s.mmu.tlb (tlbIndex va)).perms ∧ (s.mmu.tlb (tlbIndex va)).pteAddr.toNat % 8 = 0) :
    AdUpdate s.sys.ram (final (translate hart csrs va ty p) s).sys.ram ↔
      ¬StaleStore csrs va ty p s := by
  obtain ⟨r, t, -, hfin, hcases⟩ := run_translate hart csrs va ty p s
  rw [hfin]
  have hsame : AdUpdate s.sys.ram s.sys.ram := .of_eq rfl rfl
  cases hcases with
  | bare h => exact iff_of_true hsame fun hs => h hs.1
  | noncanonical _ hc => exact iff_of_true hsame fun hs => hc hs.2.1
  | hitRefused _ _ _ hp => exact iff_of_true hsame fun hs => hp hs.2.2.2.1
  | hitClean _ _ _ _ hd => exact iff_of_true hsame fun hs => hd hs.2.2.2.2.1
  | missRefused _ _ ht => exact iff_of_true hsame fun hs => ht hs.2.2.1
  | missFilled _ _ ht leaf hw _ n =>
    refine iff_of_true (adUpdate_filled (s := s.countMiss.withEpoch n) (leafOf_aligned hw) ?_)
      fun hs => ht hs.2.2.1
    exact (congrFun (entryAt_withEpoch s.sys n) _).trans (walkOn_entry hw).1
  | hitDirty h hc ht hp hd =>
    obtain ⟨hA, haligned⟩ := hok ht
    obtain ⟨hlen, hmem⟩ := writeBack_mem s.sys hart (s.mmu.tlb (tlbIndex va)).pteAddr
      ((s.mmu.tlb (tlbIndex va)).perms ||| Pte.D)
    have hram : (s.dirtied hart va).countHit.sys.ram =
      (s.sys.writeBack hart (s.mmu.tlb (tlbIndex va)).pteAddr
      ((s.mmu.tlb (tlbIndex va)).perms ||| Pte.D)).ram := rfl
    rw [hram]
    by_cases hin : InRam s.sys.ram (s.mmu.tlb (tlbIndex va)).pteAddr 8
    · rw [if_pos hin] at hmem
      rw [adUpdate_store_iff (offset_aligned hin.1 haligned) (inRam_offset hin) hlen hmem,
        dirty_iff_adEq hA]
      constructor
      · exact fun heq hs => hs.2.2.2.2.2.2 heq
      · exact fun hs => not_not.mp fun hne => hs ⟨h, hc, ht, hp, hd, hin, hne⟩
    · rw [if_neg hin] at hmem
      exact iff_of_true (.of_eq hlen hmem) fun hs => hin hs.2.2.2.2.2.1

lemma StaleStore.not_adUpdate {cfg : Config} {m : Machine} (hm : Reachable cfg m) {i : ℕ}
    {p : U32} (h : StaleStore (m.harts i).csrs va ty p ⟨(m.harts i).mmu, m.sys⟩) :
    ¬AdUpdate m.sys.ram
      (final (translate i (m.harts i).csrs va ty p) ⟨(m.harts i).mmu, m.sys⟩).sys.ram :=
  fun had => (translate_adUpdate_iff (s := ⟨(m.harts i).mmu, m.sys⟩)
    (slotRule_filled.reachable hm i).of_hit).mp had h

/-- In every reachable state, a translation only sets accessed and dirty bits of one entry, exactly
if it is not a store through a stale entry. -/
theorem translate_sets_ad_iff {cfg : Config} {m : Machine} (hm : Reachable cfg m) (i : ℕ) (va : U64)
    (ty : AccessType) (p : U32) :
    AdUpdate m.sys.ram
      (final (translate i (m.harts i).csrs va ty p) ⟨(m.harts i).mmu, m.sys⟩).sys.ram ↔
      ¬StaleStore (m.harts i).csrs va ty p ⟨(m.harts i).mmu, m.sys⟩ :=
  translate_adUpdate_iff (s := ⟨(m.harts i).mmu, m.sys⟩) (slotRule_filled.reachable hm i).of_hit

/-- A program that turns on translation for data, reads through a page, and clears the entry of that
page through another page of the same gigapage. -/
def clearEntryCode : List U32 :=
  [0x00000297, -- auipc x5, 0
    0x0402b083, -- ld x1, 64(x5)
    0x18009073, -- csrw satp, x1
    0x0482b103, -- ld x2, 72(x5)
    0x30011073, -- csrw mstatus, x2
    0x00003183, -- ld x3, 0(x0)
    0x00001337, -- lui x6, 1
    0x00033023] -- sd x0, 0(x6)

/-- The values the program loads: Sv39 with the root table at `0x80001000`; MPRV with supervisor
mode in MPP. -/
def clearEntryData : List U8 :=
  [0x01, 0x00, 0x08, 0x00, 0x00, 0x00, 0x00, 0x80, 0x00, 0x08, 0x02, 0x00, 0x00, 0x00, 0x00, 0x00]

/-- The gigapage at zero is mapped to RAM, for reading, writing and execution. -/
def gigapageEntry : List U8 := [0x0f, 0x00, 0x00, 0x20, 0x00, 0x00, 0x00, 0x00]

/-- The machine after some instructions of the program. -/
def clearEntryRun (steps : ℕ) : Machine :=
  (Machine.init (Config.plain 1 8192 twoPages_fits)).run
    ([.loadImage dramBase (codeBytes clearEntryCode), .writeBytes (dramBase + 64) clearEntryData,
      .writeBytes (dramBase + 0x1000) gigapageEntry] ++ List.replicate steps (.step 0))

lemma clearEntryRun_reachable (steps : ℕ) :
    Reachable (Config.plain 1 8192 twoPages_fits) (clearEntryRun steps) :=
  ⟨_, rfl⟩

/-- The entry has been cleared, and a store brings the cached copy back. -/
theorem stale_entry_written_back :
    let m := clearEntryRun 8
    let t := final (translate 0 (m.harts 0).csrs 8 .store privSupervisor) ⟨(m.harts 0).mmu, m.sys⟩
    Bytes.load m.sys.ram.mem 0x1000 8 = 0 ∧ Bytes.load t.sys.ram.mem 0x1000 8 = 0x200000cf ∧
      ¬AdUpdate m.sys.ram t.sys.ram := by
  have hbefore : Bytes.load (clearEntryRun 8).sys.ram.mem 0x1000 8 = 0 := by decide +kernel
  have hafter :
    Bytes.load (final (translate 0 ((clearEntryRun 8).harts 0).csrs 8 .store privSupervisor)
      ⟨((clearEntryRun 8).harts 0).mmu, (clearEntryRun 8).sys⟩).sys.ram.mem 0x1000 8 =
        0x200000cf := by decide +kernel
  have hstale : StaleStore ((clearEntryRun 8).harts 0).csrs 8 .store privSupervisor
      ⟨((clearEntryRun 8).harts 0).mmu, (clearEntryRun 8).sys⟩ := by decide +kernel
  exact ⟨hbefore, hafter, hstale.not_adUpdate (clearEntryRun_reachable 8)⟩

/-- Two instructions earlier the entry is still there, and the same store sets its dirty bit. -/
theorem translate_sets_ad_sample :
    let m := clearEntryRun 6
    ¬StaleStore (m.harts 0).csrs 8 .store privSupervisor ⟨(m.harts 0).mmu, m.sys⟩ ∧
      AdUpdate m.sys.ram
        (final (translate 0 (m.harts 0).csrs 8 .store privSupervisor)
          ⟨(m.harts 0).mmu, m.sys⟩).sys.ram := by
  have hfresh : ¬StaleStore ((clearEntryRun 6).harts 0).csrs 8 .store privSupervisor
      ⟨((clearEntryRun 6).harts 0).mmu, (clearEntryRun 6).sys⟩ := by decide +kernel
  exact ⟨hfresh,
    (translate_sets_ad_iff (clearEntryRun_reachable 6) 0 8 .store privSupervisor).mpr hfresh⟩

end RiscvEmu
