import Mathlib.Logic.Relation
import RiscvEmu.Virtio.NetRng
import RiscvEmu.Virtio.Snapshot

/-!
# How a queue is served

Every call of a device is a sequence of rounds on one queue, at most followed by a signal to the
driver.  A round takes a chain off the available ring, writes into buffers that the chain leaves
for the device, and publishes the chain's head in the used ring.  What a doorbell or a poll does
to guest memory, and that it loses no request, is derived from this description.
-/

namespace RiscvEmu

namespace Virtio

/-! ## The rings -/

/-- Where the available ring has the chain published as number `i`. -/
def Queue.availSlot (q : Queue) (i : U16) : U64 :=
  q.avail + 4 + BitVec.ofNat 64 (i.toNat % q.num * 2)

/-- Where the used ring has the chain completed as number `i`. -/
def Queue.usedSlot (q : Queue) (i : U16) : U64 := q.used + 4 + BitVec.ofNat 64 (i.toNat % q.num * 8)

namespace Dma

variable (e : Dma)

/-- How many chains the driver has published. -/
def availIdx (queue : ℕ) : U16 := (e.readGuest ((e.core.queues queue).avail + 2) 2).setWidth 16

/-- How many chains have been completed. -/
def usedIdx (queue : ℕ) : U16 := (e.readGuest ((e.core.queues queue).used + 2) 2).setWidth 16

/-- The head published as number `i`. -/
def availHead (queue : ℕ) (i : U16) : U16 :=
  (e.readGuest ((e.core.queues queue).availSlot i) 2).setWidth 16

/-- The state in which one more chain of a queue has been taken. -/
def taken (queue : ℕ) : Dma :=
  e.setQueue queue { e.core.queues queue with lastAvail := (e.core.queues queue).lastAvail + 1 }

lemma taken_queues (queue : ℕ) : (e.taken queue).core.queues = Function.update e.core.queues queue
    { e.core.queues queue with lastAvail := (e.core.queues queue).lastAvail + 1 } := rfl

lemma popChain_eq (queue : ℕ) : e.popChain queue =
    if !e.queueReady queue then (none, e)
    else if (e.core.queues queue).lastAvail = e.availIdx queue then (none, e)
    else
      (some (e.availHead queue (e.core.queues queue).lastAvail,
        walkChain (e.taken queue) (e.core.queues queue) maxChain
          (e.availHead queue (e.core.queues queue).lastAvail).toNat), e.taken queue) := rfl

variable {e} {queue : ℕ}

lemma popChain_eq_none {e' : Dma} (h : e.popChain queue = (none, e')) :
    e' = e ∧ (e.queueReady queue = true → (e.core.queues queue).lastAvail = e.availIdx queue) := by
  rw [popChain_eq] at h
  split at h
  · next hready =>
      cases h
      exact ⟨rfl, fun hr => by simp [hr] at hready⟩
  · split at h
    · next hidx =>
        cases h
        exact ⟨rfl, fun _ => hidx⟩
    · cases h

lemma popChain_eq_some {e' : Dma} {head : U16} {segs : List Segment}
    (h : e.popChain queue = (some (head, segs), e')) :
    e.queueReady queue = true ∧ (e.core.queues queue).lastAvail ≠ e.availIdx queue ∧
      head = e.availHead queue (e.core.queues queue).lastAvail ∧ e' = e.taken queue := by
  rw [popChain_eq] at h
  split at h
  · cases h
  · next hready =>
      split at h
      · cases h
      · next hidx =>
          cases h
          exact ⟨by simpa using hready, hidx, rfl, rfl⟩

lemma popChain_segs {e' : Dma} {head : U16} {segs : List Segment}
    (h : e.popChain queue = (some (head, segs), e')) :
    segs = walkChain (e.taken queue) (e.core.queues queue) maxChain head.toNat := by
  rw [popChain_eq] at h
  split at h
  · cases h
  · split at h
    · cases h
    · cases h
      rfl

end Dma

/-! ## Rounds -/

/-- One write of a device into a buffer that a chain leaves for it. -/
inductive Grant (segs : List Segment) : Dma → Dma → Prop
  | write {e : Dma} {s : Segment} {k : ℕ} {src : List U8} (hs : s ∈ segs)
      (hw : s.deviceWrites = true) (hk : k + src.length ≤ s.len) :
      Grant segs e (e.writeGuestBytes (s.addr + BitVec.ofNat 64 k) src).2

/-- Any number of such writes. -/
abbrev Grants (segs : List Segment) : Dma → Dma → Prop := Relation.ReflTransGen (Grant segs)

/-- A chain on its way through the device. -/
structure Round where
  before : Dma
  head : U16
  segs : List Segment
  /-- The number under which it is published. -/
  used : U16
  after : Dma

/-- The chain is taken off a queue, its buffers are written to, and it is published. -/
def Round.Valid (queue : ℕ) (r : Round) : Prop :=
  ∃ filled written, r.before.popChain queue = (some (r.head, r.segs), r.before.taken queue) ∧
    Grants r.segs (r.before.taken queue) filled ∧ r.used = filled.usedIdx queue ∧
    r.after = filled.pushUsed queue r.head written

/-- The round of a chain whose buffers have been written to. -/
def Round.finish (queue : ℕ) (before : Dma) (head : U16) (segs : List Segment) (filled : Dma)
    (written : ℕ) : Round :=
  ⟨before, head, segs, filled.usedIdx queue, filled.pushUsed queue head written⟩

/-- Rounds, one after the other. -/
inductive Pass (queue : ℕ) : Dma → List Round → Dma → Prop
  | nil (e : Dma) : Pass queue e [] e
  | cons {r : Round} {rs : List Round} {e : Dma} (hr : r.Valid queue)
    (hrs : Pass queue r.after rs e) :
      Pass queue r.before (r :: rs) e

/-- A call of a device: rounds, and perhaps a signal to the driver. -/
def Serves (queue : ℕ) (e : Dma) (rs : List Round) (e' : Dma) : Prop :=
  ∃ mid, Pass queue e rs mid ∧ (e' = mid ∨ e' = mid.signalUsed queue)

section Rounds

variable {queue : ℕ} {segs all : List Segment} {e e' e'' : Dma}

lemma Grants.write_start {s : Segment} {src : List U8} (hs : s ∈ segs) (hw : s.deviceWrites = true)
    (hlen : src.length ≤ s.len) : Grants segs e (e.writeGuestBytes s.addr src).2 := by
  have h : Grant segs e (e.writeGuestBytes (s.addr + BitVec.ofNat 64 0) src).2 :=
    .write hs hw (by omega)
  rw [BitVec.add_zero] at h
  exact .single h

lemma Serves.of_pass {rs : List Round} (h : Pass queue e rs e') : Serves queue e rs e' :=
  ⟨e', h, .inl rfl⟩

/-- A call signals the driver only if it did something. -/
lemma Serves.of_ite {rs : List Round} {c : Prop} [Decidable c] (h : Pass queue e rs e') :
    Serves queue e rs (if c then e'.signalUsed queue else e') := by
  refine ⟨e', h, ?_⟩
  split
  · exact .inr rfl
  · exact .inl rfl

lemma Serves.refl (queue : ℕ) (e : Dma) : Serves queue e [] e := .of_pass (.nil e)

lemma Round.valid_finish {head : U16} {taken filled : Dma} (written : ℕ)
    (hpop : e.popChain queue = (some (head, segs), taken)) (hfill : Grants segs taken filled) :
    (Round.finish queue e head segs filled written).Valid queue := by
  obtain ⟨-, -, -, rfl⟩ := Dma.popChain_eq_some hpop
  exact ⟨filled, written, hpop, hfill, rfl, rfl⟩

/-- A round put in front of a pass. -/
lemma Pass.round {head : U16} {taken filled : Dma} {written : ℕ} {rs : List Round}
    (hpop : e.popChain queue = (some (head, segs), taken)) (hfill : Grants segs taken filled)
    (hrs : Pass queue (filled.pushUsed queue head written) rs e') :
    Pass queue e (Round.finish queue e head segs filled written :: rs) e' :=
  .cons (Round.valid_finish written hpop hfill) hrs

lemma grants_writeToSegments (hsegs : ∀ s ∈ segs, s ∈ all) (skip : ℕ) (src : List U8) :
    Grants all e (writeToSegments e segs skip src) := by
  induction segs generalizing e skip src with
  | nil => exact .refl
  | cons s segs ih =>
    have hrest : ∀ t ∈ segs, t ∈ all := fun t ht => hsegs t (List.mem_cons_of_mem s ht)
    rw [writeToSegments]
    split
    · exact ih hrest _ _
    next hw =>
    split
    · exact ih hrest _ _
    next hskip =>
    have hwrite : Grant all e (e.writeGuestBytes (s.addr + BitVec.ofNat 64 skip)
        (src.take (min src.length (s.len - skip)))).2 := by
      refine .write (hsegs s List.mem_cons_self) (by simpa using hw) ?_
      rw [List.length_take]
      omega
    dsimp only
    split
    · next e₁ heq =>
        rw [heq] at hwrite
        exact .single hwrite
    · next e₁ heq =>
        rw [heq] at hwrite
        split
        · exact .single hwrite
        · exact .head hwrite (ih hrest _ _)

end Rounds

/-! ## The block device -/

namespace Blk

/-! ### The backing store -/

variable (b : Blk)

lemma diskRead_backlog (offset n : ℕ) : (b.diskRead offset n).2.backlog = b.backlog := by
  unfold diskRead
  split
  · rfl
  · dsimp only
    split_ifs <;> rfl

lemma seedSector_backlog (s n : ℕ) : (b.seedSector s n).2.backlog = b.backlog := by
  unfold seedSector
  split
  · rfl
  split
  · rfl
  split
  · rfl
  · dsimp only
    split
    · next heq => exact (congrArg (·.2.backlog) heq).symm.trans (b.diskRead_backlog _ _)
    · next heq => exact (congrArg (·.2.backlog) heq).symm.trans (b.diskRead_backlog _ _)

lemma setSector_backlog (s : ℕ) (sector : ℕ → U8) : (b.setSector s sector).backlog = b.backlog := by
  unfold setSector
  split <;> rfl

lemma writeOverlay_backlog (turns offset : ℕ) (src : List U8) :
    (writeOverlay turns offset src b).2.backlog = b.backlog := by
  induction turns generalizing offset src b with
  | zero => rfl
  | succ turns ih =>
    rw [writeOverlay]
    split
    · rfl
    · dsimp only
      split
      · next heq => exact (congrArg (·.2.backlog) heq).symm.trans (b.seedSector_backlog _ _)
      · next heq =>
          rw [ih, setSector_backlog]
          exact (congrArg (·.2.backlog) heq).symm.trans (b.seedSector_backlog _ _)

lemma diskWrite_backlog (offset : ℕ) (src : List U8) :
    (b.diskWrite offset src).2.backlog = b.backlog := by
  unfold diskWrite
  split
  · split <;> rfl
  · split
    · exact b.writeOverlay_backlog _ _ _
    · rfl

lemma diskFlush_backlog : b.diskFlush.2.backlog = b.backlog := by
  unfold diskFlush
  split <;> rfl

/-! ### Requests -/

variable {b} {all : List Segment} {e : Dma}

/-- What one piece of a transfer does. -/
lemma movePiece {isRead : Bool} {s : Segment} (hs : s ∈ all) (hw : s.deviceWrites = isRead)
    (done n diskOffset : ℕ) (hn : done + n ≤ s.len) (b : Blk) (e : Dma) :
    let moved : Bool × Blk × Dma :=
      if isRead then
        match b.diskRead diskOffset n with
        | (none, b') => (false, b', e)
        | (some bytes, b') =>
          let (ok, e') := e.writeGuestBytes (s.addr + BitVec.ofNat 64 done) bytes
          (ok, b', e')
      else
        match e.readGuestBytes (s.addr + BitVec.ofNat 64 done) n with
        | none => (false, b, e)
        | some bytes =>
          let (ok, b') := b.diskWrite diskOffset bytes
          (ok, b', e)
    Grants all e moved.2.2 ∧ moved.2.1.backlog = b.backlog := by
  have hread := b.diskRead_backlog diskOffset n
  dsimp only
  split
  · next hisRead =>
      split
      · next heq =>
          rw [heq] at hread
          exact ⟨.refl, hread⟩
      · next bytes b' heq =>
          have hlen := diskRead_length (congrArg Prod.fst heq)
          rw [heq] at hread
          refine ⟨.single (.write hs (by rw [hw, hisRead]) ?_), hread⟩
          omega
  · split
    · exact ⟨.refl, rfl⟩
    · exact ⟨.refl, b.diskWrite_backlog _ _⟩

lemma grants_moveSegment {isRead : Bool} {s : Segment} (hs : s ∈ all) (hw : s.deviceWrites = isRead)
    (turns done diskOffset : ℕ) (b : Blk) (e : Dma) :
    Grants all e (moveSegment isRead s turns done diskOffset b e).2.2 ∧
      (moveSegment isRead s turns done diskOffset b e).2.1.backlog = b.backlog := by
  induction turns generalizing done diskOffset b e with
  | zero => exact ⟨.refl, rfl⟩
  | succ turns ih =>
    rw [moveSegment]
    split
    · exact ⟨.refl, rfl⟩
    · next hdone =>
        have hpiece := movePiece hs hw done (min chunkBytes (s.len - done)) diskOffset
          (by omega) b e
        dsimp only at hpiece ⊢
        generalize (if isRead = true then _ else _ : Bool × Blk × Dma) = moved at hpiece ⊢
        obtain ⟨ok, b', e'⟩ := moved
        cases ok with
        | false => exact hpiece
        | true =>
          obtain ⟨hrest, hback⟩ := ih (done + min chunkBytes (s.len - done))
            (diskOffset + min chunkBytes (s.len - done)) b' e'
          exact ⟨hpiece.1.trans hrest, hback.trans hpiece.2⟩

lemma grants_moveSegments {isRead : Bool} {segs : List Segment}
    (hsegs : ∀ s ∈ segs, s ∈ all ∧ s.deviceWrites = isRead) (diskOffset written : ℕ) (b : Blk)
    (e : Dma) :
    Grants all e (moveSegments isRead segs diskOffset written b e).2.2.2 ∧
      (moveSegments isRead segs diskOffset written b e).2.2.1.backlog = b.backlog := by
  induction segs generalizing diskOffset written b e with
  | nil => exact ⟨.refl, rfl⟩
  | cons s segs ih =>
    obtain ⟨hs, hw⟩ := hsegs s List.mem_cons_self
    have hmove := grants_moveSegment hs hw s.len 0 diskOffset b e
    rw [moveSegments]
    generalize moveSegment isRead s s.len 0 diskOffset b e = moved at hmove ⊢
    obtain ⟨ok, b', e'⟩ := moved
    cases ok with
    | false => exact hmove
    | true =>
      obtain ⟨hrest, hback⟩ := ih (fun t ht => hsegs t (List.mem_cons_of_mem s ht))
        (diskOffset + s.len) (if isRead then written + s.len else written) b' e'
      exact ⟨hmove.1.trans hrest, hback.trans hmove.2⟩

lemma grants_perform (kind sector : ℕ) {data : List Segment} (hdata : ∀ s ∈ data, s ∈ all)
    (b : Blk) (e : Dma) :
    Grants all e (perform kind sector data b e).2.2.2 ∧
      (perform kind sector data b e).2.2.1.backlog = b.backlog := by
  unfold perform
  dsimp only
  split
  · split
    · exact ⟨.refl, rfl⟩
    next hok =>
    split
    · refine grants_moveSegments (fun s hs => ⟨hdata s hs, ?_⟩) _ _ _ _
      simp only [Bool.not_eq_true', not_or, Bool.not_eq_false, List.all_eq_true, beq_iff_eq] at hok
      exact hok.1 s hs
    · exact ⟨.refl, rfl⟩
  split
  · exact ⟨.refl, b.diskFlush_backlog⟩
  split
  · split
    · next d hd =>
        split
        · next hw =>
            have hwrite : Grants all e
                (e.writeGuestBytes d.addr (idString.take (min d.len idString.length))).2 := by
              refine .write_start (hdata d (List.mem_of_head? hd)) hw ?_
              rw [List.length_take]
              omega
            split
            · next e' heq =>
                rw [heq] at hwrite
                exact ⟨hwrite, rfl⟩
            · next e' heq =>
                rw [heq] at hwrite
                exact ⟨hwrite, rfl⟩
        · exact ⟨.refl, rfl⟩
    · exact ⟨.refl, rfl⟩
  · exact ⟨.refl, rfl⟩

/-- Whatever is wrong with a request, its chain is published once and last. -/
lemma processRequest_published (queue : ℕ) (head : U16) (segs : List Segment) (b : Blk) (e : Dma) :
    ∃ filled written, Grants segs e filled ∧
      (processRequest queue head segs b e).2 = filled.pushUsed queue head written ∧
      (processRequest queue head segs b e).1.backlog = b.backlog := by
  unfold processRequest
  split
  · next first last hfirst hlast =>
      split
      · exact ⟨e, 0, .refl, rfl, rfl⟩
      split
      · exact ⟨e, 0, .refl, rfl, rfl⟩
      next hshape =>
      split
      · exact ⟨e, 0, .refl, rfl, rfl⟩
      · next header _ =>
          have hmem : ∀ s ∈ (segs.drop 1).dropLast, s ∈ segs := fun s hs =>
            List.mem_of_mem_drop ((List.dropLast_sublist _).subset hs)
          obtain ⟨hdata, hback⟩ := grants_perform (readLe (header.take 4)).toNat
            (readLe (header.drop 8)).toNat hmem b e
          refine ⟨_, _, hdata.trans (Grants.write_start (List.mem_of_getLast? hlast) ?_ ?_),
            rfl, hback⟩
          · simp only [not_or, Bool.not_eq_true, Bool.not_eq_false'] at hshape
            exact hshape.2.2.1
          · rw [List.length_singleton]
            omega
  · exact ⟨e, 0, .refl, rfl, rfl⟩

/-- A pass over a queue: how many rounds it makes, and why it stops. -/
lemma serviceLoop_pass (queue turns done bytes : ℕ) (b : Blk) (e : Dma) :
    ∃ rs, Pass queue e rs (serviceLoop queue turns done bytes b e).2.2 ∧ rs.length ≤ turns ∧
      (serviceLoop queue turns done bytes b e).1 = done + rs.length ∧
      ((serviceLoop queue turns done bytes b e).2.1.backlog = b.backlog ∧
          ((serviceLoop queue turns done bytes b e).2.2.popChain queue).1 = none ∨
        (serviceLoop queue turns done bytes b e).2.1.backlog = true ∧ (turns ≠ 0 → rs ≠ [])) := by
  induction turns generalizing done bytes b e with
  | zero => exact ⟨[], .nil e, Nat.le_refl 0, rfl, .inr ⟨rfl, fun h => absurd rfl h⟩⟩
  | succ turns ih =>
    rw [serviceLoop]
    rcases hpop : e.popChain queue with ⟨_ | ⟨head, segs⟩, e₁⟩
    · obtain ⟨rfl, -⟩ := Dma.popChain_eq_none hpop
      exact ⟨[], .nil _, Nat.zero_le _, rfl, .inl ⟨rfl, by rw [hpop]⟩⟩
    · obtain ⟨filled, written, hfill, hpush, hback⟩ :=
        processRequest_published queue head segs b e₁
      dsimp only
      generalize processRequest queue head segs b e₁ = answer at hpush hback ⊢
      obtain ⟨b', e₂⟩ := answer
      obtain rfl : e₂ = filled.pushUsed queue head written := hpush
      dsimp only
      split
      · exact ⟨_, .round hpop hfill (.nil _), Nat.succ_le_succ (Nat.zero_le _), rfl,
          .inr ⟨rfl, fun _ => List.cons_ne_nil _ _⟩⟩
      · obtain ⟨rs, hrs, hlen, hdone, hend⟩ := ih (done + 1)
          (bytes + (segs.map (·.len)).sum) b' (filled.pushUsed queue head written)
        refine ⟨_, .round hpop hfill hrs, Nat.succ_le_succ hlen, ?_, ?_⟩
        · rw [hdone, List.length_cons]
          omega
        · rcases hend with ⟨hb, hnone⟩ | ⟨hb, -⟩
          · exact .inl ⟨hb.trans hback, hnone⟩
          · exact .inr ⟨hb, fun _ => List.cons_ne_nil _ _⟩

/-- A pass ends because nothing is left, or sets the backlog after doing something. -/
lemma service_serves (b : Blk) (e : Dma) (queue : ℕ) :
    ∃ rs mid, Pass queue e rs mid ∧
      ((b.service e queue).2 = mid ∨ (b.service e queue).2 = mid.signalUsed queue) ∧
      rs.length ≤ maxRequestsPerPass ∧
      ((b.service e queue).1.backlog = false ∧ (mid.popChain queue).1 = none ∨
        (b.service e queue).1.backlog = true ∧ rs ≠ []) := by
  obtain ⟨rs, hrs, hlen, -, hend⟩ :=
    serviceLoop_pass queue maxRequestsPerPass 0 0 { b with backlog := false } e
  unfold service
  -- the bound is a numeral: keep the loop from being run
  generalize serviceLoop queue maxRequestsPerPass 0 0 { b with backlog := false } e = r at *
  obtain ⟨done, b', e'⟩ := r
  refine ⟨rs, e', hrs, ?_, hlen, ?_⟩
  · dsimp only
    split
    · exact .inr rfl
    · exact .inl rfl
  · rcases hend with h | ⟨hb, hne⟩
    · exact .inl h
    · exact .inr ⟨hb, hne (by decide)⟩

end Blk

/-! ## The network card -/

namespace Net

lemma transmitLoop_pass (fuel : ℕ) (n : Net) (e : Dma) (any : Bool) :
    ∃ rs, Pass txQueue e rs (transmitLoop fuel n e any).2.1 := by
  induction fuel generalizing n e any with
  | zero => exact ⟨[], .nil e⟩
  | succ fuel ih =>
    rw [transmitLoop]
    rcases hpop : e.popChain txQueue with ⟨_ | ⟨head, segs⟩, e₁⟩
    · obtain ⟨rfl, -⟩ := Dma.popChain_eq_none hpop
      exact ⟨[], .nil _⟩
    · obtain ⟨rs, hrs⟩ := ih _ (e₁.pushUsed txQueue head 0) true
      exact ⟨_, .round hpop .refl hrs⟩

lemma transmit_serves (n : Net) (e : Dma) : ∃ rs, Serves txQueue e rs (n.transmit e).2 := by
  obtain ⟨rs, hrs⟩ := transmitLoop_pass e.fuel n e false
  exact ⟨rs, .of_ite hrs⟩

lemma deliverLoop_pass (frames : List (List U8)) (n : Net) (e : Dma) (any : Bool) :
    ∃ rs, Pass rxQueue e rs (deliverLoop frames n e any).2.1 ∧ rs.length ≤ frames.length := by
  induction frames generalizing n e any with
  | nil => exact ⟨[], .nil e, Nat.le_refl 0⟩
  | cons f rest ih =>
    rw [deliverLoop]
    rcases hpop : e.popChain rxQueue with ⟨_ | ⟨head, segs⟩, e₁⟩
    · obtain ⟨rfl, -⟩ := Dma.popChain_eq_none hpop
      exact ⟨[], .nil _, Nat.zero_le _⟩
    · have hself : ∀ s ∈ segs, s ∈ segs := fun _ hs => hs
      dsimp only
      split
      · obtain ⟨rs, hrs, hlen⟩ := ih n _ true
        exact ⟨_, .round hpop ((grants_writeToSegments hself _ _).trans
          (grants_writeToSegments hself _ _)) hrs, Nat.succ_le_succ hlen⟩
      · obtain ⟨rs, hrs, hlen⟩ := ih { n with dropped := n.dropped + 1 } _ any
        exact ⟨_, .round hpop .refl hrs, Nat.succ_le_succ hlen⟩

/-- At most `maxPending` frames wait, unless more did already. -/
lemma fetchFrames_pending (turns : ℕ) (n : Net) :
    (fetchFrames turns n).pending.length ≤ max n.pending.length maxPending := by
  induction turns generalizing n with
  | zero => exact Nat.le_max_left _ _
  | succ turns ih =>
    rw [fetchFrames]
    split
    · next hlt =>
        dsimp only
        split
        · refine Nat.le_trans (ih _) ?_
          rw [List.length_append, List.length_singleton]
          omega
        · exact Nat.le_max_left _ _
    · exact Nat.le_max_left _ _

lemma deliver_serves (n : Net) (e : Dma) :
    ∃ rs, Serves rxQueue e rs (n.deliver e).2 ∧ rs.length ≤ max n.pending.length maxPending := by
  unfold deliver
  split
  · exact ⟨[], .refl _ _, Nat.zero_le _⟩
  · have hpending := fetchFrames_pending maxPending n
    generalize fetchFrames maxPending n = m at hpending ⊢
    obtain ⟨rs, hrs, hlen⟩ := deliverLoop_pass m.pending m e false
    exact ⟨rs, .of_ite hrs, Nat.le_trans hlen hpending⟩

end Net

/-! ## The entropy source -/

namespace Rng

lemma words_length (turns : ℕ) (r : Rng) : (words turns r).1.length = 8 * turns := by
  induction turns generalizing r with
  | zero => rfl
  | succ turns ih =>
    rw [words]
    simp only [List.length_append, List.length_map, List.length_range, ih]
    omega

lemma randomBytes_length (n : ℕ) (r : Rng) : (randomBytes n r).1.length = n := by
  rw [randomBytes]
  simp only [List.length_take, words_length]
  omega

lemma grants_fill {segs all : List Segment} (hsegs : ∀ s ∈ segs, s ∈ all) (r : Rng) (e : Dma)
    (written : ℕ) : Grants all e (fill segs r e written).2.1 := by
  induction segs generalizing r e written with
  | nil => exact .refl
  | cons s segs ih =>
    have hrest : ∀ t ∈ segs, t ∈ all := fun t ht => hsegs t (List.mem_cons_of_mem s ht)
    rw [fill]
    split
    · next hw =>
        have hwrite : Grants all e (e.writeGuestBytes s.addr (randomBytes s.len r).1).2 :=
          .write_start (hsegs s List.mem_cons_self) hw (Nat.le_of_eq (randomBytes_length _ _))
        dsimp only
        split
        · next e₁ heq =>
            rw [heq] at hwrite
            exact hwrite.trans (ih hrest _ _ _)
        · next e₁ heq =>
            rw [heq] at hwrite
            exact hwrite.trans (ih hrest _ _ _)
    · exact ih hrest _ _ _

lemma notifyLoop_pass (queue fuel : ℕ) (r : Rng) (e : Dma) (any : Bool) :
    ∃ rs, Pass queue e rs (notifyLoop queue fuel r e any).2.1 := by
  induction fuel generalizing r e any with
  | zero => exact ⟨[], .nil e⟩
  | succ fuel ih =>
    rw [notifyLoop]
    rcases hpop : e.popChain queue with ⟨_ | ⟨head, segs⟩, e₁⟩
    · obtain ⟨rfl, -⟩ := Dma.popChain_eq_none hpop
      exact ⟨[], .nil _⟩
    · obtain ⟨rs, hrs⟩ := ih _ _ true
      exact ⟨_, .round hpop (grants_fill (fun _ hs => hs) r e₁ 0) hrs⟩

end Rng

/-! ## All devices -/

/-- A device whose calls serve a queue: the one whose doorbell rang, the first one on a poll. -/
class QueueDevice (D : Type) [VirtioDevice D] : Prop where
  notify : ∀ (d : D) (e : Dma) (queue : ℕ), ∃ rs,
    Serves queue e rs (VirtioDevice.notify d e queue).2
  poll : ∀ (d : D) (e : Dma), ∃ rs, Serves 0 e rs (VirtioDevice.poll d e).2

lemma Blk.serves (b : Blk) (e : Dma) (queue : ℕ) :
    ∃ rs, Serves queue e rs (b.service e queue).2 := by
  obtain ⟨rs, mid, hrs, hend, -⟩ := b.service_serves e queue
  exact ⟨rs, mid, hrs, hend⟩

instance : QueueDevice Blk where
  notify b e queue := b.serves e queue
  poll b e := by
    show ∃ rs, Serves 0 e rs (if b.backlog then b.service e 0 else (b, e)).2
    split
    · exact b.serves e 0
    · exact ⟨[], .refl _ _⟩

instance : QueueDevice Net where
  notify n e queue := by
    show ∃ rs, Serves queue e rs (if queue = Net.txQueue then n.transmit e
      else if queue = Net.rxQueue then n.deliver e else (n, e)).2
    split_ifs with htx hrx
    · exact htx ▸ n.transmit_serves e
    · obtain ⟨rs, hrs, -⟩ := n.deliver_serves e
      exact ⟨rs, hrx ▸ hrs⟩
    · exact ⟨[], .refl _ _⟩
  poll n e := by
    obtain ⟨rs, hrs, -⟩ := n.deliver_serves e
    exact ⟨rs, hrs⟩

instance : QueueDevice Rng where
  notify r e queue := by
    obtain ⟨rs, hrs⟩ := Rng.notifyLoop_pass queue e.fuel r e false
    exact ⟨rs, .of_ite hrs⟩
  poll _ e := ⟨[], .refl _ e⟩

end Virtio

end RiscvEmu
