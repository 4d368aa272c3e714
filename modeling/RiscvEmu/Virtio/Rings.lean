import RiscvEmu.Virtio.Granted

/-!
# The rings of a queue

Where the rings lie in RAM and no write of a device strays into them, a round advances the indices
of its own queue by one and leaves those of every other queue alone.
-/

namespace RiscvEmu

namespace Virtio

/-- The block of the available ring: flags, index and `num` heads. -/
def Queue.availLen (q : Queue) : ℕ := 4 + 2 * q.num

/-- The block of the used ring: flags, index and `num` entries. -/
def Queue.usedLen (q : Queue) : ℕ := 4 + 8 * q.num

/-- The rings of the queues in use lie in RAM, and no used ring meets another ring. -/
structure Layout (e : Dma) : Prop where
  avail : ∀ q, e.queueReady q = true →
    e.ram.HasBlock (e.core.queues q).avail (e.core.queues q).availLen
  used : ∀ q, e.queueReady q = true →
    e.ram.HasBlock (e.core.queues q).used (e.core.queues q).usedLen
  usedAvail : ∀ q q', e.queueReady q = true → e.queueReady q' = true →
    BlocksApart (e.core.queues q).used (e.core.queues q).usedLen (e.core.queues q').avail
      (e.core.queues q').availLen
  usedUsed : ∀ q q', e.queueReady q = true → e.queueReady q' = true → q ≠ q' →
    BlocksApart (e.core.queues q).used (e.core.queues q).usedLen (e.core.queues q').used
      (e.core.queues q').usedLen

/-- The buffers that a chain leaves for the device meet no ring. -/
def Round.BuffersApart (r : Round) : Prop :=
  ∀ s ∈ r.segs, s.deviceWrites = true → ∀ q, r.before.queueReady q = true →
    BlocksApart s.addr s.len (r.before.core.queues q).avail (r.before.core.queues q).availLen ∧
    BlocksApart s.addr s.len (r.before.core.queues q).used (r.before.core.queues q).usedLen

/-- The registers of all queues agree but for how many chains were taken. -/
structure SameQueues (e e' : Dma) : Prop where
  numQueues : e'.core.numQueues = e.core.numQueues
  rings : ∀ q, (e.core.queues q).SameRings (e'.core.queues q)
  len : e'.ram.len = e.ram.len

namespace SameQueues

variable {e e' : Dma} (h : SameQueues e e')

include h

lemma queueReady (q : ℕ) : e'.queueReady q = e.queueReady q := by
  rw [Dma.queueReady, Dma.queueReady, h.numQueues, (h.rings q).ready, (h.rings q).num]

lemma availLen (q : ℕ) : (e'.core.queues q).availLen = (e.core.queues q).availLen := by
  rw [Queue.availLen, (h.rings q).num, Queue.availLen]

lemma usedLen (q : ℕ) : (e'.core.queues q).usedLen = (e.core.queues q).usedLen := by
  rw [Queue.usedLen, (h.rings q).num, Queue.usedLen]

lemma layout (hl : Layout e) : Layout e' := by
  refine ⟨fun q hq => ?_, fun q hq => ?_, fun q q' hq hq' => ?_, fun q q' hq hq' hne => ?_⟩
  all_goals rw [h.queueReady] at hq
  · rw [(h.rings q).avail, h.availLen]
    exact (hl.avail q hq).of_len h.len
  · rw [(h.rings q).used, h.usedLen]
    exact (hl.used q hq).of_len h.len
  · rw [h.queueReady] at hq'
    rw [(h.rings q).used, h.usedLen, (h.rings q').avail, h.availLen]
    exact hl.usedAvail q q' hq hq'
  · rw [h.queueReady] at hq'
    rw [(h.rings q).used, h.usedLen, (h.rings q').used, h.usedLen]
    exact hl.usedUsed q q' hq hq' hne

end SameQueues

namespace Dma

variable {e e' : Dma} {queue : ℕ}

lemma queueReady_num (h : e.queueReady queue = true) : 0 < (e.core.queues queue).num := by
  simp only [queueReady, decide_eq_true_eq] at h
  omega

/-- The entries of a ring lie in its block. -/
lemma usedSlot_holds {q : Queue} (h0 : 0 < q.num) {i : U16} {j : ℕ} (h : Holds (q.usedSlot i) 8 j) :
    Holds q.used q.usedLen j := by
  have hmod : i.toNat % q.num < q.num := Nat.mod_lt _ h0
  rw [Queue.usedSlot, BitVec.add_assoc, show (4 : U64) = BitVec.ofNat 64 4 from rfl,
    ← BitVec.ofNat_add] at h
  refine h.sub ?_
  rw [Queue.usedLen]
  omega

lemma usedIdx_holds {q : Queue} {j : ℕ} (h : Holds (q.used + 2) 2 j) :
    Holds q.used q.usedLen j := by
  refine Holds.sub (k := 2) h ?_
  rw [Queue.usedLen]
  omega

lemma availIdx_holds {q : Queue} {j : ℕ} (h : Holds (q.avail + 2) 2 j) :
    Holds q.avail q.availLen j := by
  refine Holds.sub (k := 2) h ?_
  rw [Queue.availLen]
  omega

lemma writeGuest_len (e : Dma) (addr : U64) (size : ℕ) (v : U64) :
    (e.writeGuest addr size v).ram.len = e.ram.len := (e.writeGuest_outside addr size v).1

lemma readGuest_writeGuest_apart {addr addr' : U64} {size size' : ℕ} (v : U64)
    (h : BlocksApart addr' size' addr size) :
    (e.writeGuest addr' size' v).readGuest addr size = e.readGuest addr size :=
  readGuest_of_outside (e.writeGuest_outside addr' size' v) fun i hi hi' => h i hi'.1 hi

/-- A completion publishes the head under the next number. -/
lemma pushUsed_publishes (head : U16) (written : ℕ) (hready : e.queueReady queue = true)
    (hblock : e.ram.HasBlock (e.core.queues queue).used (e.core.queues queue).usedLen) :
    (e.pushUsed queue head written).usedIdx queue = e.usedIdx queue + 1 ∧
      (e.pushUsed queue head written).readGuest
        ((e.core.queues queue).usedSlot (e.usedIdx queue)) 4 = head.setWidth 64 := by
  obtain ⟨q, hq⟩ : ∃ q, e.core.queues queue = q := ⟨_, rfl⟩
  obtain ⟨k, hk⟩ : ∃ k, k = 4 + (e.usedIdx queue).toNat % q.num * 8 := ⟨_, rfl⟩
  have hmod : (e.usedIdx queue).toNat % q.num < q.num := Nat.mod_lt _ (hq ▸ queueReady_num hready)
  have hlen : q.usedLen = 4 + 8 * q.num := rfl
  have hslot : q.usedSlot (e.usedIdx queue) = q.used + BitVec.ofNat 64 k := by
    rw [hk, Queue.usedSlot, BitVec.add_assoc, BitVec.ofNat_add]
    rfl
  have hslot' : q.used + BitVec.ofNat 64 k + 4 = q.used + BitVec.ofNat 64 (k + 4) := by
    rw [BitVec.ofNat_add, BitVec.add_assoc]
    rfl
  rw [hq] at hblock
  have hcore := e.pushUsed_core queue head written
  rw [usedIdx, hcore, pushUsed_eq hready, hq]
  dsimp only
  rw [hslot, hslot']
  have hidx : (2 : U64) = BitVec.ofNat 64 2 := rfl
  rw [hidx]
  constructor
  · -- the index is written last
    ext j hj
    rw [← BitVec.getLsbD_eq_getElem, ← BitVec.getLsbD_eq_getElem, BitVec.getLsbD_setWidth,
      getLsbD_readGuest_writeGuest _
        ((hblock.sub (by omega)).1.of_len (by simp only [writeGuest_len]))
        (by omega) (by omega), BitVec.getLsbD_setWidth]
    have hj' : j < 64 := by omega
    simp [hj, hj']
  · -- the entry is written first, the other two writes are elsewhere
    rw [readGuest_writeGuest_apart _ (hblock.apart (by omega) (by omega)),
      readGuest_writeGuest_apart _ (hblock.apart (by omega) (by omega)).symm]
    ext j hj
    rw [← BitVec.getLsbD_eq_getElem, ← BitVec.getLsbD_eq_getElem,
      getLsbD_readGuest_writeGuest _ (hblock.sub (by omega)).1 (by omega) (by omega)]
    rcases Nat.lt_or_ge j 32 with h32 | h32
    · simp [h32]
    · have h16 : 16 ≤ j := by omega
      simp [BitVec.getLsbD_setWidth, BitVec.getLsbD_of_ge _ _ h16]

end Dma

/-! ## Rounds -/

section Rounds

variable {queue : ℕ} {r : Round}

/-- Taking a chain changes one register of its queue. -/
lemma Dma.taken_sameQueues (e : Dma) (queue : ℕ) : SameQueues e (e.taken queue) := by
  refine ⟨rfl, fun q => ?_, rfl⟩
  rw [taken_queues]
  rcases eq_or_ne q queue with rfl | hne
  · rw [Function.update_self]
    exact ⟨rfl, rfl, rfl, rfl, rfl⟩
  · rw [Function.update_of_ne hne]
    exact ⟨rfl, rfl, rfl, rfl, rfl⟩

lemma Round.Valid.core (h : r.Valid queue) : r.after.core = (r.before.taken queue).core := by
  obtain ⟨filled, written, -, hfill, -, hafter⟩ := h
  rw [hafter, Dma.pushUsed_core, hfill.core]

lemma Round.Valid.sameQueues (h : r.Valid queue) : SameQueues r.before r.after := by
  have hsame := r.before.taken_sameQueues queue
  refine ⟨?_, fun q => ?_, h.outside.1⟩
  · rw [h.core, hsame.numQueues]
  · rw [h.core]
    exact hsame.rings q

lemma Round.Valid.lastAvail (h : r.Valid queue) :
    (r.after.core.queues queue).lastAvail = (r.before.core.queues queue).lastAvail + 1 := by
  rw [h.core, Dma.taken_queues, Function.update_self]

lemma Round.Valid.lastAvail_ne (h : r.Valid queue) {q : ℕ} (hq : q ≠ queue) :
    (r.after.core.queues q).lastAvail = (r.before.core.queues q).lastAvail := by
  rw [h.core, Dma.taken_queues, Function.update_of_ne hq]

lemma Dma.usedIdx_of_outside {e e' : Dma} {P : ℕ → Prop} {q : ℕ}
    (hrings : (e.core.queues q).SameRings (e'.core.queues q)) (hout : e.ram.Outside P e'.ram)
    (hP : ∀ i, Holds (e.core.queues q).used (e.core.queues q).usedLen i → ¬ P i) :
    e'.usedIdx q = e.usedIdx q := by
  rw [usedIdx, hrings.used, readGuest_of_outside hout fun i hi => hP i (usedIdx_holds hi), usedIdx]

lemma Dma.availIdx_of_outside {e e' : Dma} {P : ℕ → Prop} {q : ℕ}
    (hrings : (e.core.queues q).SameRings (e'.core.queues q)) (hout : e.ram.Outside P e'.ram)
    (hP : ∀ i, Holds (e.core.queues q).avail (e.core.queues q).availLen i → ¬ P i) :
    e'.availIdx q = e.availIdx q := by
  rw [availIdx, hrings.avail, readGuest_of_outside hout fun i hi =>
    hP i (availIdx_holds hi), availIdx]

lemma Round.Valid.ready (h : r.Valid queue) : r.before.queueReady queue = true := by
  obtain ⟨filled, written, hpop, -⟩ := h
  exact (Dma.popChain_eq_some hpop).1

/-- The head of a round is the one that the available ring had next. -/
lemma Round.Valid.head_eq (h : r.Valid queue) :
    r.head = r.before.availHead queue (r.before.core.queues queue).lastAvail := by
  obtain ⟨filled, written, hpop, -⟩ := h
  exact (Dma.popChain_eq_some hpop).2.2.1

/-- A round leaves the index of every available ring alone. -/
lemma Round.Valid.availIdx (h : r.Valid queue) (hl : Layout r.before) (hb : r.BuffersApart) {q : ℕ}
    (hq : r.before.queueReady q = true) : r.after.availIdx q = r.before.availIdx q := by
  refine Dma.availIdx_of_outside (h.sameQueues.rings q) h.outside fun i hi hP => ?_
  rcases hP.1 with ⟨s, hs, hw, hin⟩ | hin | hin
  · exact (hb s hs hw q hq).1 i hin hi
  · exact hl.usedAvail queue q h.ready hq i
      (Dma.usedSlot_holds (Dma.queueReady_num h.ready) hin) hi
  · exact hl.usedAvail queue q h.ready hq i (Dma.usedIdx_holds hin) hi

/-- A round leaves the index of every other used ring alone. -/
lemma Round.Valid.usedIdx_ne (h : r.Valid queue) (hl : Layout r.before) (hb : r.BuffersApart)
    {q : ℕ} (hq : r.before.queueReady q = true) (hne : q ≠ queue) :
    r.after.usedIdx q = r.before.usedIdx q := by
  refine Dma.usedIdx_of_outside (h.sameQueues.rings q) h.outside fun i hi hP => ?_
  rcases hP.1 with ⟨s, hs, hw, hin⟩ | hin | hin
  · exact (hb s hs hw q hq).2 i hin hi
  · exact hl.usedUsed queue q h.ready hq hne.symm i
      (Dma.usedSlot_holds (Dma.queueReady_num h.ready) hin) hi
  · exact hl.usedUsed queue q h.ready hq hne.symm i (Dma.usedIdx_holds hin) hi

/-- A round publishes its head under the number that was next in the used ring. -/
lemma Round.Valid.publishes (h : r.Valid queue) (hl : Layout r.before) (hb : r.BuffersApart) :
    r.after.usedIdx queue = r.before.usedIdx queue + 1 ∧
      r.after.readGuest ((r.after.core.queues queue).usedSlot (r.before.usedIdx queue)) 4 =
        r.head.setWidth 64 := by
  have hready := h.ready
  have hrings := h.sameQueues.rings queue
  obtain ⟨filled, written, -, hfill, -, hafter⟩ := h
  have hsame := r.before.taken_sameQueues queue
  have hqueues : SameQueues r.before filled := by
    refine ⟨?_, fun q => ?_, hfill.outside.1⟩
    · rw [hfill.core, hsame.numQueues]
    · rw [hfill.core]
      exact hsame.rings q
  -- the buffers do not meet the ring, so its index is still the same when it is read
  have hused : filled.usedIdx queue = r.before.usedIdx queue := by
    refine Dma.usedIdx_of_outside (hqueues.rings queue) hfill.outside fun i hi hP => ?_
    obtain ⟨⟨s, hs, hw, hin⟩, -⟩ := hP
    exact (hb s hs hw queue hready).2 i hin hi
  have hpush := Dma.pushUsed_publishes r.head written (by rwa [hqueues.queueReady])
    ((hqueues.layout hl).used queue (by rwa [hqueues.queueReady]))
  rwa [← hafter, hused, (hqueues.rings queue).usedSlot, ← hrings.usedSlot] at hpush

end Rounds

end Virtio

end RiscvEmu
