import RiscvEmu.Virtio.Requests

/-!
# What lies ahead of a queue

The chains that wait in a queue, as guest memory has them before a doorbell: where each of them is
read, which buffers it leaves for the device, and where its completion is written.  A turn of the
device that spares what the later ones read leaves the same chains ahead, one fewer.
-/

namespace RiscvEmu

namespace Virtio

/-- The descriptors that `walkChain` reads, by their numbers. -/
def walked (e : Dma) (q : Queue) : ℕ → ℕ → List ℕ
  | 0, _ => []
  | turns + 1, index =>
    if index ≥ q.num then []
    else
      let d := q.desc + BitVec.ofNat 64 (index * 16)
      let flags : U16 := (e.readGuest (d + 12) 2).setWidth 16
      if flags &&& descNext = 0 then [index]
      else index :: walked e q turns ((e.readGuest (d + 14) 2).setWidth 16).toNat

namespace Dma

variable (e : Dma) (queue : ℕ)

/-- Byte `i` is one of the index of the available ring. -/
def IndexByte (i : ℕ) : Prop := e.ram.Covers ((e.core.queues queue).avail + 2) 2 i

/-- Byte `i` is one of the index of the used ring. -/
def CountByte (i : ℕ) : Prop := e.ram.Covers ((e.core.queues queue).used + 2) 2 i

/-- The number under which the chain that has `k` others before it will be published.  The index of
the used ring is read for every chain, and reads as zero if it is not in RAM. -/
def number (k : ℕ) : U16 :=
  if e.ram.HasBlock ((e.core.queues queue).used + 2) 2 then e.usedIdx queue + BitVec.ofNat 16 k
    else 0

/-- Publishing a chain under number `u` writes byte `i`. -/
def PublishByte (u : U16) (i : ℕ) : Prop :=
  e.ram.Covers ((e.core.queues queue).usedSlot u) 4 i ∨
    e.ram.Covers ((e.core.queues queue).usedSlot u + 4) 4 i ∨ e.CountByte queue i

/-- The head of the chain that has `k` others before it. -/
def headAhead (k : ℕ) : U16 :=
  e.availHead queue ((e.core.queues queue).lastAvail + BitVec.ofNat 16 k)

/-- The buffers of the chain that has `k` others before it. -/
def chainAhead (k : ℕ) : List Segment :=
  walkChain e (e.core.queues queue) maxChain (e.headAhead queue k).toNat

/-- Byte `i` is in a buffer that this chain leaves for the device. -/
def BufferByte (k i : ℕ) : Prop :=
  ∃ s ∈ e.chainAhead queue k, s.deviceWrites = true ∧ e.ram.Covers s.addr s.len i

/-- Byte `i` is in the entry of the available ring or in a descriptor that this chain is read
from. -/
def ChainByte (k i : ℕ) : Prop :=
  Holds ((e.core.queues queue).availSlot
      ((e.core.queues queue).lastAvail + BitVec.ofNat 16 k)) 2 i ∨
    ∃ j ∈ walked e (e.core.queues queue) maxChain (e.headAhead queue k).toNat,
      Holds ((e.core.queues queue).desc + BitVec.ofNat 64 (j * 16)) 16 i

/-- Completing the chain that has `k` others before it does not write to the index that says how
many chains there are. -/
def IndexSpared (k : ℕ) : Prop :=
  ∀ i, e.IndexByte queue i → ¬ e.PublishByte queue (e.number queue k) i

/-- Completing this chain writes neither to that index nor to what the chains after it are read
from. -/
structure CompletionSpared (k : ℕ) : Prop where
  index : e.IndexSpared queue k
  later : ∀ k', k < k' → k' < e.outstanding queue → ∀ i, e.ChainByte queue k' i →
    ¬ e.PublishByte queue (e.number queue k) i

/-- Filling the buffers of this chain and completing it writes neither to that index nor to what the
chains after it are read from, and filling them does not write to the index of the used ring. -/
structure QueueSpared (k : ℕ) : Prop where
  index : ∀ i, e.IndexByte queue i →
    ¬ (e.PublishByte queue (e.number queue k) i ∨ e.BufferByte queue k i)
  count : ∀ i, e.CountByte queue i → ¬ e.BufferByte queue k i
  later : ∀ k', k < k' → k' < e.outstanding queue → ∀ i, e.ChainByte queue k' i →
    ¬ (e.PublishByte queue (e.number queue k) i ∨ e.BufferByte queue k i)

end Dma

/-! ## Chains that are not written to -/

section Walks

variable (e e' : Dma) {q q' : Queue}

lemma walk_congr (hq : q.SameRings q') (turns index : ℕ)
    (hread : ∀ j ∈ walked e q turns index, ∀ k n, k + n ≤ 16 →
      e'.readGuest (q.desc + BitVec.ofNat 64 (j * 16) + BitVec.ofNat 64 k) n =
        e.readGuest (q.desc + BitVec.ofNat 64 (j * 16) + BitVec.ofNat 64 k) n) :
    walkChain e' q' turns index = walkChain e q turns index ∧
      walked e' q' turns index = walked e q turns index := by
  induction turns generalizing index with
  | zero => exact ⟨rfl, rfl⟩
  | succ turns ih =>
    simp only [walkChain, walked, hq.num, hq.desc] at hread ⊢
    by_cases hout : index ≥ q.num
    · rw [if_pos hout, if_pos hout, if_pos hout, if_pos hout]
      exact ⟨rfl, rfl⟩
    · rw [if_neg hout] at hread
      -- the four fields of the descriptor at `index`
      have hfield : ∀ k n, k + n ≤ 16 →
          e'.readGuest (q.desc + BitVec.ofNat 64 (index * 16) + BitVec.ofNat 64 k) n =
            e.readGuest (q.desc + BitVec.ofNat 64 (index * 16) + BitVec.ofNat 64 k) n := by
        refine hread index ?_
        split
        · exact List.mem_singleton_self _
        · exact List.mem_cons_self
      have haddr := hfield 0 8 (by omega)
      rw [BitVec.add_zero] at haddr
      have hlen : e'.readGuest (q.desc + BitVec.ofNat 64 (index * 16) + 8) 4 =
          e.readGuest (q.desc + BitVec.ofNat 64 (index * 16) + 8) 4 := hfield 8 4 (by omega)
      have hflags : e'.readGuest (q.desc + BitVec.ofNat 64 (index * 16) + 12) 2 =
          e.readGuest (q.desc + BitVec.ofNat 64 (index * 16) + 12) 2 := hfield 12 2 (by omega)
      have hnext : e'.readGuest (q.desc + BitVec.ofNat 64 (index * 16) + 14) 2 =
          e.readGuest (q.desc + BitVec.ofNat 64 (index * 16) + 14) 2 := hfield 14 2 (by omega)
      simp only [if_neg hout]
      rw [haddr, hlen, hflags, hnext]
      split
      · exact ⟨rfl, rfl⟩
      · next hmore =>
        rw [if_neg hmore] at hread
        obtain ⟨hchain, hwalked⟩ := ih _ fun j hj => hread j (List.mem_cons_of_mem index hj)
        rw [hchain, hwalked]
        exact ⟨rfl, rfl⟩

end Walks

/-! ## One turn -/

namespace Dma

variable {e e' : Dma} {queue : ℕ}

lemma walkChain_taken (e : Dma) (queue : ℕ) (q : Queue) (turns index : ℕ) :
    walkChain (e.taken queue) q turns index = walkChain e q turns index := by
  have hq : q.SameRings q := ⟨rfl, rfl, rfl, rfl, rfl⟩
  exact (walk_congr e (e.taken queue) hq turns index fun _ _ _ _ _ => rfl).1

/-- The chain that is taken is the first one ahead. -/
lemma chainAhead_zero {e₁ : Dma} {head : U16} {segs : List Segment}
    (hpop : e.popChain queue = (some (head, segs), e₁)) : segs = e.chainAhead queue 0 := by
  have hhead := (popChain_eq_some hpop).2.2.1
  rw [popChain_segs hpop, walkChain_taken, chainAhead, headAhead, BitVec.add_zero, hhead]

/-- A completion writes where it is published. -/
lemma pushUsed_publishByte (e : Dma) (queue : ℕ) (head : U16) (written : ℕ) :
    e.ram.Outside (e.PublishByte queue (e.usedIdx queue)) (e.pushUsed queue head written).ram := by
  rcases hready : e.queueReady queue with _ | _
  · rw [pushUsed, hready]
    exact .refl _ _
  rw [pushUsed_eq hready]
  dsimp only
  have h₁ := e.writeGuest_covers ((e.core.queues queue).usedSlot (e.usedIdx queue)) 4
    (head.setWidth 64)
  have h₂ := (e.writeGuest ((e.core.queues queue).usedSlot (e.usedIdx queue)) 4
    (head.setWidth 64)).writeGuest_covers
      ((e.core.queues queue).usedSlot (e.usedIdx queue) + 4) 4 (BitVec.ofNat 64 written)
  refine ((h₁.mono fun i => .inl).trans (h₂.mono fun i hi => ?_)).trans
    ((writeGuest_covers _ _ _ _).mono fun i hi => ?_)
  · exact .inr (.inl ((Dram.covers_of_len h₁.1).mp hi))
  · exact .inr (.inr ((Dram.covers_of_len (h₂.1.trans h₁.1)).mp hi))

lemma usedIdx_of_not_hasBlock (h : ¬ e.ram.HasBlock ((e.core.queues queue).used + 2) 2) :
    e.usedIdx queue = 0 := by
  rw [usedIdx, readGuest_of_not_hasBlock h (by omega)]
  rfl

lemma number_zero (e : Dma) (queue : ℕ) : e.number queue 0 = e.usedIdx queue := by
  rw [number]
  split
  · exact BitVec.add_zero _
  · next hblock => exact (usedIdx_of_not_hasBlock hblock).symm

/-- A completion counts one on. -/
lemma pushUsed_number (hready : e.queueReady queue = true) (head : U16) (written k : ℕ) :
    (e.pushUsed queue head written).number queue k = e.number queue (k + 1) := by
  have hlen := (e.pushUsed_publishByte queue head written).1
  have hcore := e.pushUsed_core queue head written
  rw [number, number, hcore]
  by_cases hblock : e.ram.HasBlock ((e.core.queues queue).used + 2) 2
  · have hidx : (e.pushUsed queue head written).usedIdx queue = e.usedIdx queue + 1 := by
      rw [usedIdx, hcore, pushUsed_eq hready]
      dsimp only
      -- the index is written last
      ext j hj
      rw [← BitVec.getLsbD_eq_getElem, ← BitVec.getLsbD_eq_getElem, BitVec.getLsbD_setWidth,
        getLsbD_readGuest_writeGuest _
          (hblock.of_len (by rw [writeGuest_len, writeGuest_len])) (by omega) (by omega),
        BitVec.getLsbD_setWidth]
      have hj' : j < 64 := by omega
      simp [hj, hj']
    rw [if_pos hblock, if_pos (hblock.of_len hlen), hidx, Nat.add_comm k 1, BitVec.ofNat_add,
      BitVec.add_assoc]
    rfl
  · rw [if_neg hblock, if_neg fun h => hblock (h.of_len hlen.symm)]

end Dma

/-- `e'` is `e` with one chain fewer, as far as the rings are concerned. -/
structure Follows (queue : ℕ) (e e' : Dma) : Prop where
  same : SameQueues e e'
  lastAvail : (e'.core.queues queue).lastAvail = (e.core.queues queue).lastAvail + 1
  outstanding : e'.outstanding queue + 1 = e.outstanding queue
  number : ∀ k, e'.number queue k = e.number queue (k + 1)

namespace Follows

variable {e e' : Dma} {queue : ℕ} (h : Follows queue e e')

include h

lemma indexByte (i : ℕ) : e'.IndexByte queue i ↔ e.IndexByte queue i := by
  rw [Dma.IndexByte, (h.same.rings queue).avail, Dram.covers_of_len h.same.len, Dma.IndexByte]

lemma countByte (i : ℕ) : e'.CountByte queue i ↔ e.CountByte queue i := by
  rw [Dma.CountByte, (h.same.rings queue).used, Dram.covers_of_len h.same.len, Dma.CountByte]

lemma publishByte (u : U16) (i : ℕ) : e'.PublishByte queue u i ↔ e.PublishByte queue u i := by
  rw [Dma.PublishByte, (h.same.rings queue).usedSlot, Dram.covers_of_len h.same.len,
    Dram.covers_of_len h.same.len, h.countByte, Dma.PublishByte]

/-- What is spared by the completions is the same one turn later. -/
lemma indexSpared (k : ℕ) : e'.IndexSpared queue k ↔ e.IndexSpared queue (k + 1) := by
  simp only [Dma.IndexSpared, h.indexByte, h.publishByte, h.number]

lemma next (k : ℕ) : (e'.core.queues queue).lastAvail + BitVec.ofNat 16 k =
    (e.core.queues queue).lastAvail + BitVec.ofNat 16 (k + 1) := by
  rw [h.lastAvail, Nat.add_comm k 1, BitVec.ofNat_add, BitVec.add_assoc]
  rfl

/-- If what changed is not what the chains behind are read from, they are read as before. -/
lemma chains {P : ℕ → Prop} (hwrites : e.ram.Outside P e'.ram) {k : ℕ}
    (hkept : ∀ i, e.ChainByte queue (k + 1) i → ¬ P i) :
    e'.chainAhead queue k = e.chainAhead queue (k + 1) ∧
      ∀ i, e'.ChainByte queue k i ↔ e.ChainByte queue (k + 1) i := by
  have hrings := h.same.rings queue
  have hslot : ∀ u, (e'.core.queues queue).availSlot u = (e.core.queues queue).availSlot u := by
    intro u
    rw [Queue.availSlot, hrings.avail, hrings.num, Queue.availSlot]
  have hhead : e'.headAhead queue k = e.headAhead queue (k + 1) := by
    rw [Dma.headAhead, h.next, Dma.availHead, hslot,
      Dma.readGuest_of_outside hwrites fun i hi => hkept i (.inl hi)]
    rfl
  have hwalk := walk_congr e e' hrings maxChain (e.headAhead queue (k + 1)).toNat
    fun j hj a n ha =>
      Dma.readGuest_of_outside hwrites fun i hi => hkept i (.inr ⟨j, hj, hi.sub ha⟩)
  refine ⟨?_, fun i => ?_⟩
  · rw [Dma.chainAhead, hhead, hwalk.1, Dma.chainAhead]
  · rw [Dma.ChainByte, h.next, hslot, hhead, hwalk.2, hrings.desc, Dma.ChainByte]

end Follows

section Turns

variable {e e₁ filled : Dma} {queue : ℕ} {head : U16} {segs : List Segment}

/-- A turn whose buffers and completion spare the two indices. -/
lemma follows_of_turn (hpop : e.popChain queue = (some (head, segs), e₁))
    (hcore : filled.core = e₁.core) {P : ℕ → Prop} (hfill : e₁.ram.Outside P filled.ram)
    (hindex : ∀ i, e.IndexByte queue i → ¬ (e.PublishByte queue (e.number queue 0) i ∨ P i))
    (hcount : ∀ i, e.CountByte queue i → ¬ P i) (written : ℕ) :
    Follows queue e (filled.pushUsed queue head written) ∧
      e.ram.Outside (fun i => e.PublishByte queue (e.number queue 0) i ∨ P i)
        (filled.pushUsed queue head written).ram := by
  obtain ⟨hready, hne, -, rfl⟩ := Dma.popChain_eq_some hpop
  have htaken := e.taken_sameQueues queue
  have hout : e.ram.Outside P filled.ram := hfill
  have hsame : SameQueues e filled := by
    refine ⟨?_, fun q => ?_, hout.1⟩
    · rw [hcore, htaken.numQueues]
    · rw [hcore]
      exact htaken.rings q
  have hrings := hsame.rings queue
  -- the index of the used ring is still the same when the chain is published
  have hused : filled.usedIdx queue = e.usedIdx queue := by
    rw [Dma.usedIdx, hrings.used, Dma.readGuest_of_covers hout (by omega) hcount, Dma.usedIdx]
  have hnumber : ∀ k, filled.number queue k = e.number queue k := by
    intro k
    have hblock : filled.ram.HasBlock ((e.core.queues queue).used + 2) 2 ↔
        e.ram.HasBlock ((e.core.queues queue).used + 2) 2 :=
      ⟨fun h => h.of_len hout.1.symm, fun h => h.of_len hout.1⟩
    rw [Dma.number, Dma.number, hrings.used, hused]
    exact if_congr hblock rfl rfl
  have hpublish := filled.pushUsed_publishByte queue head written
  have hwrites : e.ram.Outside (fun i => e.PublishByte queue (e.number queue 0) i ∨ P i)
      (filled.pushUsed queue head written).ram := by
    refine (hout.mono fun i => .inr).trans (hpublish.mono fun i hi => .inl ?_)
    rw [Dma.number_zero, ← hused]
    rw [Dma.PublishByte, hrings.usedSlot, Dma.CountByte, hrings.used,
      Dram.covers_of_len hout.1, Dram.covers_of_len hout.1, Dram.covers_of_len hout.1] at hi
    exact hi
  have hcore' := filled.pushUsed_core queue head written
  have hlast : ((filled.pushUsed queue head written).core.queues queue).lastAvail =
      (e.core.queues queue).lastAvail + 1 := by
    rw [hcore', hcore, Dma.taken_queues, Function.update_self]
  have hsame' : SameQueues e (filled.pushUsed queue head written) := by
    refine ⟨?_, fun q => ?_, hwrites.1⟩
    · rw [hcore', hsame.numQueues]
    · rw [hcore']
      exact hsame.rings q
  refine ⟨⟨hsame', hlast, ?_, fun k => ?_⟩, hwrites⟩
  · have hidx : (filled.pushUsed queue head written).availIdx queue = e.availIdx queue := by
      rw [Dma.availIdx, (hsame'.rings queue).avail,
        Dma.readGuest_of_covers hwrites (by omega) hindex, Dma.availIdx]
    rw [Dma.outstanding, hidx, hlast, Dma.outstanding]
    bv_omega
  · rw [Dma.pushUsed_number (by rwa [hsame.queueReady]), hnumber]

/-- A turn on a queue none of whose buffers are written to. -/
lemma follows_push (hpop : e.popChain queue = (some (head, segs), e₁))
    (hspared : e.IndexSpared queue 0) (written : ℕ) :
    Follows queue e (e₁.pushUsed queue head written) ∧
      e.ram.Outside (e.PublishByte queue (e.number queue 0))
        (e₁.pushUsed queue head written).ram := by
  obtain ⟨hnext, hwrites⟩ := follows_of_turn hpop rfl (P := fun _ => False) (.refl _ _)
    (fun i hi hP => hspared i hi (hP.resolve_right not_false)) (fun _ _ => not_false) written
  exact ⟨hnext, hwrites.mono fun i hi => hi.resolve_right not_false⟩

/-- Such a turn leaves the chains behind as they are if it spares them. -/
lemma follows_completion (hpop : e.popChain queue = (some (head, segs), e₁))
    (hspared : e.CompletionSpared queue 0) (written : ℕ) :
    Follows queue e (e₁.pushUsed queue head written) ∧
      ∀ k, k + 1 < e.outstanding queue →
        (e₁.pushUsed queue head written).chainAhead queue k = e.chainAhead queue (k + 1) ∧
        (e.CompletionSpared queue (k + 1) →
          (e₁.pushUsed queue head written).CompletionSpared queue k) := by
  obtain ⟨hnext, hwrites⟩ := follows_push hpop hspared.index written
  generalize e₁.pushUsed queue head written = e' at hnext hwrites
  have hout := hnext.outstanding
  have hchain : ∀ k, k + 1 < e.outstanding queue → _ := fun k hk =>
    hnext.chains hwrites (hspared.later (k + 1) (Nat.succ_pos k) hk)
  refine ⟨hnext, fun k hk => ⟨(hchain k hk).1, fun hk1 => ⟨?_, fun k' hk' hlt i hi => ?_⟩⟩⟩
  · exact (hnext.indexSpared k).mpr hk1.index
  · rw [hnext.publishByte, hnext.number]
    exact hk1.later (k' + 1) (by omega) (by omega) i (((hchain k' (by omega)).2 i).mp hi)

/-- A turn that fills the buffers of the chain. -/
lemma follows_fill (hpop : e.popChain queue = (some (head, segs), e₁))
    (hcore : filled.core = e₁.core) (hfill : e₁.ram.Outside (e.BufferByte queue 0) filled.ram)
    (hspared : e.QueueSpared queue 0) (written : ℕ) :
    Follows queue e (filled.pushUsed queue head written) ∧
      ∀ k, k + 1 < e.outstanding queue →
        ((filled.pushUsed queue head written).QueueSpared queue k ↔
          e.QueueSpared queue (k + 1)) := by
  obtain ⟨hnext, hwrites⟩ :=
    follows_of_turn hpop hcore hfill hspared.index hspared.count written
  generalize filled.pushUsed queue head written = e' at hnext hwrites
  -- the chains behind it are read as before
  have hchain : ∀ k, k + 1 < e.outstanding queue → _ := fun k hk =>
    hnext.chains hwrites (hspared.later (k + 1) (Nat.succ_pos k) hk)
  have hbuffer : ∀ k, k + 1 < e.outstanding queue → ∀ i,
      e'.BufferByte queue k i ↔ e.BufferByte queue (k + 1) i := by
    intro k hk i
    simp only [Dma.BufferByte, (hchain k hk).1, Dram.covers_of_len hnext.same.len]
  refine ⟨hnext, fun k hk => ?_⟩
  have hout := hnext.outstanding
  constructor
  · rintro ⟨hindex, hcount, hlater⟩
    simp only [hnext.indexByte, hnext.countByte, hnext.publishByte, hnext.number,
      hbuffer k hk] at hindex hcount hlater
    refine ⟨hindex, hcount, fun k' hk' hlt i hi => ?_⟩
    obtain ⟨j, rfl⟩ : ∃ j, k' = j + 1 := ⟨k' - 1, by omega⟩
    exact hlater j (by omega) (by omega) i (((hchain j hlt).2 i).mpr hi)
  · rintro ⟨hindex, hcount, hlater⟩
    refine ⟨?_, ?_, fun k' hk' hlt i hi => ?_⟩
    · simpa only [hnext.indexByte, hnext.publishByte, hnext.number, hbuffer k hk] using hindex
    · simpa only [hnext.countByte, hbuffer k hk] using hcount
    · rw [hnext.publishByte, hnext.number, hbuffer k hk]
      exact hlater (k' + 1) (by omega) (by omega) i (((hchain k' (by omega)).2 i).mp hi)

end Turns

end Virtio

end RiscvEmu
