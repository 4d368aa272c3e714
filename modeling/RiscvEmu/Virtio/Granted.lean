import RiscvEmu.Virtio.Regions
import RiscvEmu.Virtio.Service

/-!
# What the driver granted

The bytes of RAM that a doorbell or a poll can change lie in buffers that a chain of the call
leaves for the device, or are where the chain is published.  What lies beyond RAM is neither
changed nor read: whatever is there, the call does the same.
-/

namespace RiscvEmu

namespace Virtio

/-! ## The footprint of a call -/

/-- Byte `i` is in a buffer that the chain leaves for the device. -/
def Round.Granted (r : Round) (i : ℕ) : Prop :=
  ∃ s ∈ r.segs, s.deviceWrites = true ∧ Holds s.addr s.len i

/-- Byte `i` is in the entry of the used ring where the chain is published, or in its index. -/
def Round.Publishes (q : Queue) (r : Round) (i : ℕ) : Prop :=
  Holds (q.usedSlot r.used) 8 i ∨ Holds (q.used + 2) 2 i

/-- Two settings of the registers of a queue agree but for how many chains were taken. -/
structure Queue.SameRings (q q' : Queue) : Prop where
  num : q'.num = q.num
  ready : q'.ready = q.ready
  desc : q'.desc = q.desc
  avail : q'.avail = q.avail
  used : q'.used = q.used

lemma Queue.SameRings.usedSlot {q q' : Queue} (h : q.SameRings q') (i : U16) :
    q'.usedSlot i = q.usedSlot i := by
  rw [Queue.usedSlot, Queue.usedSlot, h.used, h.num]

section Footprint

variable {queue : ℕ} {segs : List Segment} {e e' : Dma}

lemma Grants.core (h : Grants segs e e') : e'.core = e.core := by
  induction h with
  | refl => rfl
  | tail _ hlast ih =>
    cases hlast
    rw [Dma.writeGuestBytes_core, ih]

lemma Grants.outside (h : Grants segs e e') :
    e.ram.Outside (fun i => (∃ s ∈ segs, s.deviceWrites = true ∧ Holds s.addr s.len i) ∧
      i < e.ram.len) e'.ram := by
  induction h with
  | refl => exact .refl _ _
  | @tail e₁ _ _ hlast ih =>
    refine ih.trans ?_
    rw [← ih.1]
    cases hlast with
    | write hs hw hk =>
      refine (e₁.writeGuestBytes_outside _ _).mono ?_
      rintro i ⟨hi, hlt⟩
      exact ⟨⟨_, hs, hw, hi.sub hk⟩, hlt⟩

namespace Dma

lemma pushUsed_core (e : Dma) (queue : ℕ) (head : U16) (written : ℕ) :
    (e.pushUsed queue head written).core = e.core := by
  unfold pushUsed
  dsimp only
  split
  · rfl
  · simp only [writeGuest_core]

/-- The three writes of a completion. -/
lemma pushUsed_eq (hready : e.queueReady queue = true) (head : U16) (written : ℕ) :
    e.pushUsed queue head written =
      let q := e.core.queues queue
      let slot := q.usedSlot (e.usedIdx queue)
      ((e.writeGuest slot 4 (head.setWidth 64)).writeGuest (slot + 4) 4
        (BitVec.ofNat 64 written)).writeGuest (q.used + 2) 2
          ((e.usedIdx queue + 1).setWidth 64) := by
  rw [pushUsed, hready]
  rfl

lemma pushUsed_outside (e : Dma) (queue : ℕ) (head : U16) (written : ℕ) :
    e.ram.Outside (fun i => (Holds ((e.core.queues queue).usedSlot (e.usedIdx queue)) 8 i ∨
        Holds ((e.core.queues queue).used + 2) 2 i) ∧ i < e.ram.len)
      (e.pushUsed queue head written).ram := by
  rcases hready : e.queueReady queue with _ | _
  · rw [pushUsed, hready]
    exact .refl _ _
  rw [pushUsed_eq hready]
  dsimp only
  have h₁ := e.writeGuest_outside ((e.core.queues queue).usedSlot (e.usedIdx queue)) 4
    (head.setWidth 64)
  have h₂ := (e.writeGuest ((e.core.queues queue).usedSlot (e.usedIdx queue)) 4
    (head.setWidth 64)).writeGuest_outside
      ((e.core.queues queue).usedSlot (e.usedIdx queue) + 4) 4 (BitVec.ofNat 64 written)
  refine ((h₁.mono ?_).trans (h₂.mono ?_)).trans ((writeGuest_outside _ _ _ _).mono ?_)
  · rintro i ⟨hi, hlt⟩
    exact ⟨.inl (hi.mono (by omega)), hlt⟩
  · rintro i ⟨hi, hlt⟩
    rw [h₁.1] at hlt
    exact ⟨.inl (hi.sub (k := 4) (by omega)), hlt⟩
  · rintro i ⟨hi, hlt⟩
    rw [h₂.1, h₁.1] at hlt
    exact ⟨.inr hi, hlt⟩

lemma taken_core_self (e : Dma) (queue : ℕ) :
    (e.core.queues queue).SameRings ((e.taken queue).core.queues queue) := by
  rw [taken_queues, Function.update_self]
  exact ⟨rfl, rfl, rfl, rfl, rfl⟩

end Dma

lemma Round.Valid.sameRings {r : Round} (h : r.Valid queue) :
    (r.before.core.queues queue).SameRings (r.after.core.queues queue) := by
  obtain ⟨filled, written, -, hfill, -, hafter⟩ := h
  rw [hafter, Dma.pushUsed_core, hfill.core]
  exact r.before.taken_core_self queue

/-- A round changes what its chain grants and where it is published. -/
lemma Round.Valid.outside {r : Round} (h : r.Valid queue) :
    r.before.ram.Outside (fun i => (r.Granted i ∨ r.Publishes (r.before.core.queues queue) i) ∧
      i < r.before.ram.len) r.after.ram := by
  obtain ⟨filled, written, -, hfill, hused, hafter⟩ := h
  have hrings := r.before.taken_core_self queue
  have hpush := filled.pushUsed_outside queue r.head written
  rw [← hafter, ← hused, hfill.core, hrings.usedSlot, hrings.used, hfill.outside.1] at hpush
  refine (hfill.outside.mono ?_).trans (hpush.mono ?_)
  · rintro i ⟨hi, hlt⟩
    exact ⟨.inl hi, hlt⟩
  · rintro i ⟨hi, hlt⟩
    exact ⟨.inr hi, hlt⟩

/-- The bytes that a sequence of rounds may change. -/
def Footprint (q : Queue) (rs : List Round) (i : ℕ) : Prop :=
  ∃ r ∈ rs, r.Granted i ∨ r.Publishes q i

lemma Pass.outside {rs : List Round} (h : Pass queue e rs e') :
    e.ram.Outside (fun i => Footprint (e.core.queues queue) rs i ∧ i < e.ram.len) e'.ram := by
  induction h with
  | nil => exact .refl _ _
  | @cons r rs e hr _ ih =>
    refine (hr.outside.mono ?_).trans (ih.mono ?_)
    · rintro i ⟨hi, hlt⟩
      exact ⟨⟨r, List.mem_cons_self, hi⟩, hlt⟩
    · rintro i ⟨⟨t, ht, hi⟩, hlt⟩
      rw [hr.outside.1] at hlt
      refine ⟨⟨t, List.mem_cons_of_mem r ht, ?_⟩, hlt⟩
      rwa [Round.Publishes, hr.sameRings.usedSlot, hr.sameRings.used] at hi

lemma Dma.signalUsed_ram (e : Dma) (queue : ℕ) : (e.signalUsed queue).ram = e.ram := by
  unfold signalUsed raiseInterrupt setLine
  dsimp only
  split_ifs
  · rfl
  · rfl
  · split <;> rfl

lemma Serves.outside {rs : List Round} (h : Serves queue e rs e') :
    e.ram.Outside (fun i => Footprint (e.core.queues queue) rs i ∧ i < e.ram.len) e'.ram := by
  obtain ⟨mid, hpass, rfl | rfl⟩ := h
  · exact hpass.outside
  · rw [Dma.signalUsed_ram]
    exact hpass.outside

end Footprint

end Virtio

/-! ## What lies beyond RAM -/

namespace Dram

variable (g : ℕ → U8)

/-- The same RAM, with `g` in the bytes past its end. -/
def beyond (d : Dram) : Dram := { d with mem := fun i => if i < d.len then d.mem i else g i }

variable {g} {d : Dram}

lemma beyond_mem {i : ℕ} (h : i < d.len) : (d.beyond g).mem i = d.mem i := if_pos h

lemma beyond_readBytes (addr : U64) (n : ℕ) : (d.beyond g).readBytes addr n = d.readBytes addr n :=
  readBytes_congr rfl fun _ hi _ => beyond_mem hi

lemma beyond_noteWrite (offset size : ℕ) :
    (d.beyond g).noteWrite offset size = (d.noteWrite offset size).beyond g := by
  unfold noteWrite
  show (if !d.anyMarked ∨ size = 0 then _ else if d.touchesCode offset size then _ else _) = _
  split_ifs <;> rfl

lemma beyond_storeBytes {o : ℕ} {src : List U8} (h : o + src.length ≤ d.len) :
    { d.beyond g with mem := Bytes.storeBytes (d.beyond g).mem o src } =
      { d with mem := Bytes.storeBytes d.mem o src }.beyond g := by
  have hmem : Bytes.storeBytes (d.beyond g).mem o src =
      fun i => if i < d.len then Bytes.storeBytes d.mem o src i else g i := by
    funext i
    unfold Bytes.storeBytes
    split_ifs with hin hlt hlt
    · rfl
    · omega
    · exact beyond_mem hlt
    · exact if_neg hlt
  rw [hmem]
  rfl

lemma beyond_writeBytes (addr : U64) (src : List U8) :
    (d.beyond g).writeBytes addr src = (d.writeBytes addr src).map (beyond g) := by
  unfold writeBytes
  split
  · rfl
  · next o _ =>
      show (if src = [] then (if o ≤ d.len then _ else _) else if d.inRange o src.length then _
        else _) = _
      split
      · split <;> rfl
      split
      · next hr =>
          rw [inRange_iff] at hr
          rw [beyond_noteWrite]
          dsimp only
          rw [beyond_storeBytes (by rw [noteWrite_len]; omega)]
          rfl
      · rfl

end Dram

namespace Virtio

namespace Dma

variable (g : ℕ → U8) (e : Dma)

/-- The same device, with `g` in the bytes past the end of RAM. -/
def beyond : Dma := { e with ram := e.ram.beyond g }

variable {g} {e}

lemma beyond_readGuest (addr : U64) (size : ℕ) :
    (e.beyond g).readGuest addr size = e.readGuest addr size := by
  rw [readGuest, beyond, Dram.beyond_readBytes]
  rfl

lemma beyond_readGuestBytes (addr : U64) (n : ℕ) :
    (e.beyond g).readGuestBytes addr n = e.readGuestBytes addr n := Dram.beyond_readBytes _ _

lemma beyond_writeGuestBytes (addr : U64) (src : List U8) :
    (e.beyond g).writeGuestBytes addr src =
      ((e.writeGuestBytes addr src).1, (e.writeGuestBytes addr src).2.beyond g) := by
  unfold writeGuestBytes
  rw [beyond, Dram.beyond_writeBytes]
  rcases e.ram.writeBytes addr src with _ | ram <;> rfl

lemma beyond_writeGuest (addr : U64) (size : ℕ) (v : U64) :
    (e.beyond g).writeGuest addr size v = (e.writeGuest addr size v).beyond g := by
  rw [writeGuest, beyond_writeGuestBytes]
  rfl

end Dma

lemma beyond_walkChain (g : ℕ → U8) (e : Dma) (q : Queue) (turns index : ℕ) :
    walkChain (e.beyond g) q turns index = walkChain e q turns index := by
  induction turns generalizing index with
  | zero => rfl
  | succ turns ih => simp only [walkChain, Dma.beyond_readGuest, ih]

lemma beyond_readFromSegments (g : ℕ → U8) (e : Dma) (len : ℕ) (segs : List Segment) (skip : ℕ)
    (acc : List U8) :
    readFromSegments (e.beyond g) len segs skip acc = readFromSegments e len segs skip acc := by
  induction segs generalizing skip acc with
  | nil => rfl
  | cons s segs ih => simp only [readFromSegments, Dma.beyond_readGuestBytes, ih]

lemma beyond_writeToSegments (g : ℕ → U8) (e : Dma) (segs : List Segment) (skip : ℕ)
    (src : List U8) :
    writeToSegments (e.beyond g) segs skip src = (writeToSegments e segs skip src).beyond g := by
  induction segs generalizing e skip src with
  | nil => rfl
  | cons s segs ih =>
    rw [writeToSegments, writeToSegments]
    split
    · exact ih _ _ _
    split
    · exact ih _ _ _
    dsimp only
    rw [Dma.beyond_writeGuestBytes]
    rcases e.writeGuestBytes (s.addr + BitVec.ofNat 64 skip)
      (src.take (min src.length (s.len - skip))) with ⟨_ | _, e'⟩
    · rfl
    · dsimp only
      split
      · rfl
      · exact ih _ _ _

namespace Dma

variable {g : ℕ → U8} {e : Dma}

lemma beyond_availIdx (queue : ℕ) : (e.beyond g).availIdx queue = e.availIdx queue := by
  rw [availIdx, beyond_readGuest]
  rfl

lemma beyond_availHead (queue : ℕ) (i : U16) :
    (e.beyond g).availHead queue i = e.availHead queue i := by
  rw [availHead, beyond_readGuest]
  rfl

lemma beyond_popChain (queue : ℕ) :
    (e.beyond g).popChain queue = ((e.popChain queue).1, (e.popChain queue).2.beyond g) := by
  have hcore : (e.beyond g).core = e.core := rfl
  have hready : (e.beyond g).queueReady queue = e.queueReady queue := rfl
  have htaken : (e.beyond g).taken queue = (e.taken queue).beyond g := rfl
  rw [popChain_eq, popChain_eq, beyond_availIdx, beyond_availHead, hcore, hready, htaken,
    beyond_walkChain]
  split_ifs <;> rfl

lemma beyond_pushUsed (queue : ℕ) (head : U16) (written : ℕ) :
    (e.beyond g).pushUsed queue head written = (e.pushUsed queue head written).beyond g := by
  unfold pushUsed
  dsimp only
  rw [beyond_readGuest, beyond_writeGuest, beyond_writeGuest, beyond_writeGuest]
  show (if !e.queueReady queue then _ else _) = _
  split <;> rfl

lemma beyond_setLine (on : Bool) : (e.beyond g).setLine on = (e.setLine on).beyond g := by
  unfold setLine
  rw [show (e.beyond g).core = e.core from rfl]
  split <;> rfl

lemma beyond_signalUsed (queue : ℕ) :
    (e.beyond g).signalUsed queue = (e.signalUsed queue).beyond g := by
  have hcore : (e.beyond g).core = e.core := rfl
  have hready : (e.beyond g).queueReady queue = e.queueReady queue := rfl
  have hraise : (e.beyond g).raiseInterrupt = e.raiseInterrupt.beyond g :=
    beyond_setLine (e := { e with core :=
      { e.core with interruptStatus := e.core.interruptStatus ||| 1 } }) true
  unfold signalUsed
  rw [hcore, hready, hraise, beyond_readGuest]
  dsimp only
  split_ifs <;> rfl

lemma beyond_ite_signalUsed {c : Prop} [Decidable c] (queue : ℕ) :
    (if c then (e.beyond g).signalUsed queue else e.beyond g) =
      (if c then e.signalUsed queue else e).beyond g := by
  rw [beyond_signalUsed]
  split <;> rfl

end Dma

section Devices

variable (g : ℕ → U8)

namespace Blk

lemma beyond_moveSegment (isRead : Bool) (s : Segment) (turns done diskOffset : ℕ) (b : Blk)
    (e : Dma) :
    moveSegment isRead s turns done diskOffset b (e.beyond g) =
      let (ok, b', e') := moveSegment isRead s turns done diskOffset b e
      (ok, b', e'.beyond g) := by
  induction turns generalizing done diskOffset b e with
  | zero => rfl
  | succ turns ih =>
    rw [moveSegment, moveSegment]
    split
    · rfl
    dsimp only
    rw [Dma.beyond_readGuestBytes]
    cases isRead with
    | true =>
      simp only [if_true]
      rcases b.diskRead diskOffset (min chunkBytes (s.len - done)) with ⟨_ | bytes, b'⟩
      · rfl
      · dsimp only
        rw [Dma.beyond_writeGuestBytes]
        rcases e.writeGuestBytes (s.addr + BitVec.ofNat 64 done) bytes with ⟨_ | _, e'⟩
        · rfl
        · exact ih _ _ _ _
    | false =>
      simp only [Bool.false_eq_true, if_false]
      rcases e.readGuestBytes (s.addr + BitVec.ofNat 64 done) (min chunkBytes (s.len - done))
        with _ | bytes
      · rfl
      · dsimp only
        rcases b.diskWrite diskOffset bytes with ⟨_ | _, b'⟩
        · rfl
        · exact ih _ _ _ _

lemma beyond_moveSegments (isRead : Bool) (segs : List Segment) (diskOffset written : ℕ) (b : Blk)
    (e : Dma) :
    moveSegments isRead segs diskOffset written b (e.beyond g) =
      let (status, written', b', e') := moveSegments isRead segs diskOffset written b e
      (status, written', b', e'.beyond g) := by
  induction segs generalizing diskOffset written b e with
  | nil => rfl
  | cons s segs ih =>
    rw [moveSegments, moveSegments, beyond_moveSegment]
    rcases moveSegment isRead s s.len 0 diskOffset b e with ⟨_ | _, b', e'⟩
    · rfl
    · exact ih _ _ _ _

lemma beyond_perform (kind sector : ℕ) (data : List Segment) (b : Blk) (e : Dma) :
    perform kind sector data b (e.beyond g) =
      let (status, written, b', e') := perform kind sector data b e
      (status, written, b', e'.beyond g) := by
  unfold perform
  dsimp only
  split
  · split
    · rfl
    split
    · exact beyond_moveSegments g _ _ _ _ _ _
    · rfl
  split
  · rfl
  split
  · split
    · next d _ =>
        split
        · rw [Dma.beyond_writeGuestBytes]
          rcases e.writeGuestBytes d.addr (idString.take (min d.len idString.length))
            with ⟨_ | _, e'⟩ <;> rfl
        · rfl
    · rfl
  · rfl

lemma beyond_processRequest (queue : ℕ) (head : U16) (segs : List Segment) (b : Blk) (e : Dma) :
    processRequest queue head segs b (e.beyond g) =
      let (b', e') := processRequest queue head segs b e
      (b', e'.beyond g) := by
  unfold processRequest
  rw [Dma.beyond_pushUsed]
  split
  · next first last _ _ =>
      split
      · rfl
      split
      · rfl
      rw [Dma.beyond_readGuestBytes]
      rcases e.readGuestBytes first.addr headerBytes with _ | header
      · rfl
      · dsimp only
        rw [beyond_perform]
        rcases perform (readLe (header.take 4)).toNat (readLe (header.drop 8)).toNat
          (segs.drop 1).dropLast b e with ⟨status, written, b', e'⟩
        dsimp only
        rw [Dma.beyond_writeGuestBytes, Dma.beyond_pushUsed]
  · rfl

lemma beyond_serviceLoop (queue turns done bytes : ℕ) (b : Blk) (e : Dma) :
    serviceLoop queue turns done bytes b (e.beyond g) =
      let (done', b', e') := serviceLoop queue turns done bytes b e
      (done', b', e'.beyond g) := by
  induction turns generalizing done bytes b e with
  | zero => rfl
  | succ turns ih =>
    rw [serviceLoop, serviceLoop, Dma.beyond_popChain]
    rcases e.popChain queue with ⟨_ | ⟨head, segs⟩, e₁⟩
    · rfl
    · dsimp only
      rw [beyond_processRequest]
      rcases processRequest queue head segs b e₁ with ⟨b', e₂⟩
      dsimp only
      split
      · rfl
      · exact ih _ _ _ _

lemma beyond_service (b : Blk) (e : Dma) (queue : ℕ) :
    b.service (e.beyond g) queue = ((b.service e queue).1, (b.service e queue).2.beyond g) := by
  unfold service
  rw [beyond_serviceLoop]
  generalize serviceLoop queue maxRequestsPerPass 0 0 { b with backlog := false } e = r
  obtain ⟨done, b', e'⟩ := r
  dsimp only
  rw [Dma.beyond_ite_signalUsed]

end Blk

namespace Net

lemma beyond_transmitLoop (fuel : ℕ) (n : Net) (e : Dma) (any : Bool) :
    transmitLoop fuel n (e.beyond g) any =
      let (n', e', any') := transmitLoop fuel n e any
      (n', e'.beyond g, any') := by
  induction fuel generalizing n e any with
  | zero => rfl
  | succ fuel ih =>
    rw [transmitLoop, transmitLoop, Dma.beyond_popChain]
    rcases e.popChain txQueue with ⟨_ | ⟨head, segs⟩, e₁⟩
    · rfl
    · dsimp only
      rw [beyond_readFromSegments, Dma.beyond_pushUsed]
      exact ih _ _ _

lemma beyond_deliverLoop (frames : List (List U8)) (n : Net) (e : Dma) (any : Bool) :
    deliverLoop frames n (e.beyond g) any =
      let (n', e', any') := deliverLoop frames n e any
      (n', e'.beyond g, any') := by
  induction frames generalizing n e any with
  | nil => rfl
  | cons f rest ih =>
    rw [deliverLoop, deliverLoop, Dma.beyond_popChain]
    rcases e.popChain rxQueue with ⟨_ | ⟨head, segs⟩, e₁⟩
    · rfl
    · dsimp only
      rw [beyond_writeToSegments, beyond_writeToSegments, Dma.beyond_pushUsed, Dma.beyond_pushUsed,
        ih, ih]
      split <;> rfl

lemma beyond_transmit (n : Net) (e : Dma) :
    n.transmit (e.beyond g) = ((n.transmit e).1, (n.transmit e).2.beyond g) := by
  unfold transmit
  rw [show (e.beyond g).fuel = e.fuel from rfl, beyond_transmitLoop]
  dsimp only
  rw [Dma.beyond_ite_signalUsed]

lemma beyond_deliver (n : Net) (e : Dma) :
    n.deliver (e.beyond g) = ((n.deliver e).1, (n.deliver e).2.beyond g) := by
  unfold deliver
  rw [show (e.beyond g).queueReady rxQueue = e.queueReady rxQueue from rfl]
  split
  · rfl
  · generalize fetchFrames maxPending n = m
    dsimp only
    rw [beyond_deliverLoop]
    dsimp only
    rw [Dma.beyond_ite_signalUsed]

end Net

namespace Rng

lemma beyond_fill (segs : List Segment) (r : Rng) (e : Dma) (written : ℕ) :
    fill segs r (e.beyond g) written =
      let (r', e', written') := fill segs r e written
      (r', e'.beyond g, written') := by
  induction segs generalizing r e written with
  | nil => rfl
  | cons s segs ih =>
    rw [fill, fill]
    split
    · dsimp only
      rw [Dma.beyond_writeGuestBytes]
      rcases e.writeGuestBytes s.addr (randomBytes s.len r).1 with ⟨_ | _, e'⟩
      · exact ih _ _ _
      · exact ih _ _ _
    · exact ih _ _ _

lemma beyond_notifyLoop (queue fuel : ℕ) (r : Rng) (e : Dma) (any : Bool) :
    notifyLoop queue fuel r (e.beyond g) any =
      let (r', e', any') := notifyLoop queue fuel r e any
      (r', e'.beyond g, any') := by
  induction fuel generalizing r e any with
  | zero => rfl
  | succ fuel ih =>
    rw [notifyLoop, notifyLoop, Dma.beyond_popChain]
    rcases e.popChain queue with ⟨_ | ⟨head, segs⟩, e₁⟩
    · rfl
    · dsimp only
      rw [beyond_fill]
      dsimp only
      rw [Dma.beyond_pushUsed]
      exact ih _ _ _

end Rng

end Devices

/-! ## The result -/

/-- From `e` to `e'` the only bytes that changed are bytes of RAM that a chain taken off the queue
leaves for the device, or the entries and the index of the used ring that publish these chains. -/
def StaysGranted (queue : ℕ) (e e' : Dma) : Prop :=
  ∃ rs, Serves queue e rs e' ∧ ∀ i, e'.ram.mem i ≠ e.ram.mem i → i < e.ram.len ∧
    ∃ r ∈ rs, r.Granted i ∨ r.Publishes (e.core.queues queue) i

/-- The device keeps to what the driver granted, and whatever lies beyond RAM makes no difference
to it and is still there. -/
def DmaGranted (D : Type) [VirtioDevice D] : Prop :=
  ∀ (d : D) (e : Dma),
    (∀ queue, StaysGranted queue e (VirtioDevice.notify d e queue).2 ∧
      ∀ g, VirtioDevice.notify d (e.beyond g) queue =
        ((VirtioDevice.notify d e queue).1, (VirtioDevice.notify d e queue).2.beyond g)) ∧
    StaysGranted 0 e (VirtioDevice.poll d e).2 ∧
      ∀ g, VirtioDevice.poll d (e.beyond g) =
        ((VirtioDevice.poll d e).1, (VirtioDevice.poll d e).2.beyond g)

lemma Serves.staysGranted {queue : ℕ} {e e' : Dma} {rs : List Round} (h : Serves queue e rs e') :
    StaysGranted queue e e' := by
  refine ⟨rs, h, fun i hi => ?_⟩
  by_contra hout
  exact hi (h.outside.2 i fun hin => hout ⟨hin.2, hin.1⟩)

lemma dmaGranted_of {D : Type} [VirtioDevice D] [QueueDevice D]
    (hnotify : ∀ (d : D) (e : Dma) (queue : ℕ) (g : ℕ → U8),
      VirtioDevice.notify d (e.beyond g) queue =
        ((VirtioDevice.notify d e queue).1, (VirtioDevice.notify d e queue).2.beyond g))
    (hpoll : ∀ (d : D) (e : Dma) (g : ℕ → U8), VirtioDevice.poll d (e.beyond g) =
        ((VirtioDevice.poll d e).1, (VirtioDevice.poll d e).2.beyond g)) : DmaGranted D := by
  intro d e
  refine ⟨fun queue => ⟨?_, hnotify d e queue⟩, ?_, hpoll d e⟩
  · obtain ⟨rs, hrs⟩ := QueueDevice.notify d e queue
    exact hrs.staysGranted
  · obtain ⟨rs, hrs⟩ := QueueDevice.poll d e
    exact hrs.staysGranted

/-- Whatever guest memory and the queue registers hold, a doorbell or a poll of a device changes no
byte that the driver did not grant, and makes no access outside RAM. -/
theorem dma_stays_granted : DmaGranted Blk ∧ DmaGranted Net ∧ DmaGranted Rng := by
  refine ⟨dmaGranted_of (fun b e queue g => b.beyond_service g e queue) fun b e g => ?_,
    dmaGranted_of (fun n e queue g => ?_) fun n e g => n.beyond_deliver g e,
    dmaGranted_of (fun r e queue g => ?_) fun _ _ _ => rfl⟩
  · show (if b.backlog then b.service (e.beyond g) 0 else (b, e.beyond g)) =
      ((if b.backlog then b.service e 0 else (b, e)).1,
        (if b.backlog then b.service e 0 else (b, e)).2.beyond g)
    split
    · exact b.beyond_service g e 0
    · rfl
  · show (if queue = Net.txQueue then n.transmit (e.beyond g)
        else if queue = Net.rxQueue then n.deliver (e.beyond g) else (n, e.beyond g)) =
      ((if queue = Net.txQueue then n.transmit e
          else if queue = Net.rxQueue then n.deliver e else (n, e)).1,
        (if queue = Net.txQueue then n.transmit e
          else if queue = Net.rxQueue then n.deliver e else (n, e)).2.beyond g)
    split_ifs
    · exact n.beyond_transmit g e
    · exact n.beyond_deliver g e
    · rfl
  · have hloop := Rng.beyond_notifyLoop g queue e.fuel r e false
    show ((Rng.notifyLoop queue e.fuel r (e.beyond g) false).1,
      if (Rng.notifyLoop queue e.fuel r (e.beyond g) false).2.2 then
        (Rng.notifyLoop queue e.fuel r (e.beyond g) false).2.1.signalUsed queue
      else (Rng.notifyLoop queue e.fuel r (e.beyond g) false).2.1) = _
    rw [hloop]
    dsimp only
    rw [Dma.beyond_ite_signalUsed]
    rfl

end Virtio

end RiscvEmu
