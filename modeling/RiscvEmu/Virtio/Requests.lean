import RiscvEmu.Virtio.Rings

/-!
# No request is lost or made twice

A driver publishes chains, rings doorbells and acknowledges interrupts; the machine polls the
device.  However these interleave, each queue's chains are completed in the order in which they
were published, each of them once.  The disk does only part of the work of a doorbell at once and
then has `backlog` set; every poll takes it further.
-/

namespace RiscvEmu

namespace Virtio

/-! ## Runs of a device and its driver -/

/-- What can happen to a slot, short of a reset or a new setting of its queues. -/
inductive QueueEvent where
  | driver
  | doorbell (v : U32)
  | acknowledge (v : U32)
  | poll

/-- The queue whose chains an event may complete. -/
def QueueEvent.queue : QueueEvent → ℕ
  | .doorbell v => v.toNat
  | _ => 0

section Runs

variable {D : Type} [VirtioDevice D]

/-- One event, with the rounds that the device makes on it.  The driver writes where it likes in
RAM but for the used rings. -/
inductive QueueStep : Slot D → QueueEvent → List Round → Slot D → Prop
  | driver {s : Slot D} {env : Dma} (hcore : env.core = s.env.core)
      (hram : s.env.ram.Outside (fun i => ∀ q, s.env.queueReady q = true →
        ¬ Holds (s.env.core.queues q).used (s.env.core.queues q).usedLen i) env.ram) :
      QueueStep s .driver [] { s with env := env }
  | doorbell {s : Slot D} {v : U32} {rs : List Round}
      (hrs : Serves v.toNat s.env rs (s.writeReg 0x50 v).env) :
      QueueStep s (.doorbell v) rs (s.writeReg 0x50 v)
  | acknowledge {s : Slot D} (v : U32) : QueueStep s (.acknowledge v) [] (s.writeReg 0x64 v)
  | poll {s : Slot D} {rs : List Round} (hrs : Serves 0 s.env rs s.poll.env) :
      QueueStep s .poll rs s.poll

/-- A sequence of events with their rounds. -/
inductive QueueRun : Slot D → List (QueueEvent × List Round) → Slot D → Prop
  | refl (s : Slot D) : QueueRun s [] s
  | tail {s t u : Slot D} {labels : List (QueueEvent × List Round)} {event : QueueEvent}
      {rs : List Round} (hrun : QueueRun s labels t) (hstep : QueueStep t event rs u) :
      QueueRun s (labels ++ [(event, rs)]) u

lemma QueueStep.serves {s t : Slot D} {v : U32} {rs : List Round}
    (h : QueueStep s (.doorbell v) rs t) : Serves v.toNat s.env rs t.env := by
  cases h with
  | doorbell hrs => exact hrs

/-- The rounds on one queue, in order. -/
def roundsOn (q : ℕ) (labels : List (QueueEvent × List Round)) : List Round :=
  labels.flatMap fun l => if l.1.queue = q then l.2 else []

end Runs

/-! ## What is taken and what is published -/

/-- From `e` to `e'` the rounds on queue `q` took chains off the available ring one after the
other, and published the heads they took in the used ring, one after the other. -/
structure InOrder (q : ℕ) (e : Dma) (rs : List Round) (e' : Dma) : Prop where
  /-- The heads that the used ring has under the numbers published are the heads that the
  available ring had under the numbers taken. -/
  heads : rs.map (fun r => r.after.readGuest
      ((r.after.core.queues q).usedSlot (r.after.usedIdx q - 1)) 4) =
    rs.map fun r => (r.before.availHead q (r.before.core.queues q).lastAvail).setWidth 64
  taken : rs.map (fun r => (r.before.core.queues q).lastAvail) =
    (List.range rs.length).map fun k => (e.core.queues q).lastAvail + BitVec.ofNat 16 k
  published : rs.map (fun r => r.after.usedIdx q - 1) =
    (List.range rs.length).map fun k => e.usedIdx q + BitVec.ofNat 16 k
  lastAvail : (e'.core.queues q).lastAvail = (e.core.queues q).lastAvail + BitVec.ofNat 16 rs.length
  usedIdx : e'.usedIdx q = e.usedIdx q + BitVec.ofNat 16 rs.length

namespace InOrder

variable {q : ℕ} {e e' e'' : Dma} {rs rs' : List Round}

lemma of_same (hlast : (e'.core.queues q).lastAvail = (e.core.queues q).lastAvail)
    (hused : e'.usedIdx q = e.usedIdx q) : InOrder q e [] e' where
  heads := rfl
  taken := rfl
  published := rfl
  lastAvail := by simpa using hlast
  usedIdx := by simpa using hused

lemma append_range (a : U16) (n m : ℕ) :
    ((List.range n).map fun k => a + BitVec.ofNat 16 k) ++
        ((List.range m).map fun k => a + BitVec.ofNat 16 n + BitVec.ofNat 16 k) =
      (List.range (n + m)).map fun k => a + BitVec.ofNat 16 k := by
  rw [List.range_add, List.map_append, List.map_map]
  congr 2
  funext k
  rw [Function.comp_apply, BitVec.ofNat_add, BitVec.add_assoc]

lemma trans (h : InOrder q e rs e') (h' : InOrder q e' rs' e'') : InOrder q e (rs ++ rs') e'' where
  heads := by rw [List.map_append, List.map_append, h.heads, h'.heads]
  taken := by
    rw [List.map_append, h.taken, h'.taken, h.lastAvail, List.length_append, append_range]
  published := by
    rw [List.map_append, h.published, h'.published, h.usedIdx, List.length_append, append_range]
  lastAvail := by
    rw [h'.lastAvail, h.lastAvail, List.length_append, BitVec.ofNat_add, BitVec.add_assoc]
  usedIdx := by
    rw [h'.usedIdx, h.usedIdx, List.length_append, BitVec.ofNat_add, BitVec.add_assoc]

end InOrder

section Rounds

variable {queue : ℕ} {r : Round} {rs : List Round} {e e' : Dma}

/-- One round, on its own queue. -/
lemma Round.Valid.inOrder (h : r.Valid queue) (hl : Layout r.before) (hb : r.BuffersApart) :
    InOrder queue r.before [r] r.after := by
  obtain ⟨hidx, hentry⟩ := h.publishes hl hb
  have hsub : r.after.usedIdx queue - 1 = r.before.usedIdx queue := by
    rw [hidx, BitVec.add_sub_cancel]
  refine ⟨?_, by simp, ?_, ?_, ?_⟩
  · simp only [List.map_cons, List.map_nil]
    rw [hsub, hentry, h.head_eq]
  · simpa using hsub
  · rw [h.lastAvail]
    rfl
  · rw [hidx]
    rfl

/-- The number of chains that the driver has published and the device has not taken. -/
def Dma.outstanding (e : Dma) (q : ℕ) : ℕ := (e.availIdx q - (e.core.queues q).lastAvail).toNat

/-- A round has a chain to take. -/
lemma Round.Valid.outstanding_ne_zero (h : r.Valid queue) : r.before.outstanding queue ≠ 0 := by
  obtain ⟨filled, written, hpop, -⟩ := h
  intro hzero
  refine (Dma.popChain_eq_some hpop).2.1 ?_
  unfold Dma.outstanding at hzero
  bv_omega

lemma Round.Valid.outstanding (h : r.Valid queue) (hl : Layout r.before) (hb : r.BuffersApart) :
    r.after.outstanding queue + 1 = r.before.outstanding queue := by
  have hne := h.outstanding_ne_zero
  rw [Dma.outstanding, h.availIdx hl hb h.ready, h.lastAvail]
  unfold Dma.outstanding at hne ⊢
  bv_omega

/-- What rounds on `queue` do to the queues in use. -/
structure PassEffect (queue : ℕ) (e : Dma) (rs : List Round) (e' : Dma) : Prop where
  same : SameQueues e e'
  inOrder : ∀ q, e.queueReady q = true → InOrder q e (if queue = q then rs else []) e'
  availIdx : ∀ q, e.queueReady q = true → e'.availIdx q = e.availIdx q
  outstanding : e'.outstanding queue + rs.length = e.outstanding queue

lemma SameQueues.refl (e : Dma) : SameQueues e e := ⟨rfl, fun _ => ⟨rfl, rfl, rfl, rfl, rfl⟩, rfl⟩

lemma SameQueues.trans {e e' e'' : Dma} (h : SameQueues e e') (h' : SameQueues e' e'') :
    SameQueues e e'' where
  numQueues := h'.numQueues.trans h.numQueues
  rings q :=
    let a := h.rings q
    let b := h'.rings q
    ⟨b.num.trans a.num, b.ready.trans a.ready, b.desc.trans a.desc, b.avail.trans a.avail,
      b.used.trans a.used⟩
  len := h'.len.trans h.len

lemma Round.Valid.passEffect (h : r.Valid queue) (hl : Layout r.before) (hb : r.BuffersApart) :
    PassEffect queue r.before [r] r.after where
  same := h.sameQueues
  inOrder q hq := by
    split
    · next heq =>
        subst heq
        exact h.inOrder hl hb
    · next hne =>
        exact .of_same (h.lastAvail_ne (Ne.symm hne)) (h.usedIdx_ne hl hb hq (Ne.symm hne))
  availIdx q hq := h.availIdx hl hb hq
  outstanding := h.outstanding hl hb

lemma PassEffect.trans {e'' : Dma} {rs' : List Round} (h : PassEffect queue e rs e')
    (h' : PassEffect queue e' rs' e'') : PassEffect queue e (rs ++ rs') e'' where
  same := h.same.trans h'.same
  inOrder q hq := by
    have hpass := (h.inOrder q hq).trans (h'.inOrder q (by rwa [h.same.queueReady]))
    split
    · next heq => simpa [heq] using hpass
    · next hne => simpa [hne] using hpass
  availIdx q hq := by rw [h'.availIdx q (by rwa [h.same.queueReady]), h.availIdx q hq]
  outstanding := by
    have := h.outstanding
    have := h'.outstanding
    rw [List.length_append]
    omega

/-- Nothing that the rings depend on has changed. -/
lemma PassEffect.of_same (queue : ℕ) (hqueues : e'.core.queues = e.core.queues)
    (hnum : e'.core.numQueues = e.core.numQueues) (hram : e'.ram = e.ram) :
    PassEffect queue e [] e' where
  same := ⟨hnum, fun q => by rw [hqueues]; exact ⟨rfl, rfl, rfl, rfl, rfl⟩, by rw [hram]⟩
  inOrder q _ := by
    rw [ite_self]
    refine .of_same (by rw [hqueues]) ?_
    rw [Dma.usedIdx, Dma.usedIdx, hqueues, Dma.readGuest, Dma.readGuest, hram]
  availIdx q _ := by
    rw [Dma.availIdx, Dma.availIdx, hqueues, Dma.readGuest, Dma.readGuest, hram]
  outstanding := by
    rw [Dma.outstanding, Dma.outstanding, Dma.availIdx, Dma.availIdx, hqueues, Dma.readGuest,
      Dma.readGuest, hram]
    rfl

lemma Pass.effect (h : Pass queue e rs e') (hl : Layout e) (hb : ∀ r ∈ rs, r.BuffersApart) :
    PassEffect queue e rs e' := by
  induction h with
  | nil => exact .of_same queue rfl rfl rfl
  | @cons r rs e hr _ ih =>
    have hround := hr.passEffect hl (hb r List.mem_cons_self)
    exact hround.trans (ih (hround.same.layout hl) fun t ht => hb t (List.mem_cons_of_mem r ht))

lemma Dma.signalUsed_core (e : Dma) (queue : ℕ) :
    (e.signalUsed queue).core.queues = e.core.queues ∧
      (e.signalUsed queue).core.numQueues = e.core.numQueues := by
  unfold signalUsed raiseInterrupt setLine
  dsimp only
  split_ifs
  · exact ⟨rfl, rfl⟩
  · exact ⟨rfl, rfl⟩
  · split <;> exact ⟨rfl, rfl⟩

lemma Serves.effect (h : Serves queue e rs e') (hl : Layout e) (hb : ∀ r ∈ rs, r.BuffersApart) :
    PassEffect queue e rs e' := by
  obtain ⟨mid, hpass, rfl | rfl⟩ := h
  · exact hpass.effect hl hb
  · obtain ⟨hqueues, hnum⟩ := mid.signalUsed_core queue
    have hsignal := (hpass.effect hl hb).trans
      (.of_same queue hqueues hnum (mid.signalUsed_ram queue))
    rwa [List.append_nil] at hsignal

end Rounds

/-! ## Runs -/

section Runs

variable {D : Type} [VirtioDevice D] {s t : Slot D} {event : QueueEvent} {rs : List Round}

lemma Slot.writeReg_doorbell (s : Slot D) (v : U32) : s.writeReg 0x50 v =
    if v.toNat < s.env.core.numQueues then
      ⟨(VirtioDevice.notify s.dev s.env v.toNat).1, (VirtioDevice.notify s.dev s.env v.toNat).2⟩
    else s := rfl

lemma Slot.writeReg_acknowledge (s : Slot D) (v : U32) : s.writeReg 0x64 v =
    let t := s.mapCore fun c => { c with interruptStatus := c.interruptStatus &&& ~~~v }
    if t.env.core.interruptStatus = 0 then { t with env := t.env.setLine false } else t := rfl

lemma Slot.acknowledge_env (s : Slot D) (v : U32) :
    (s.writeReg 0x64 v).env.core.queues = s.env.core.queues ∧
      (s.writeReg 0x64 v).env.core.numQueues = s.env.core.numQueues ∧
      (s.writeReg 0x64 v).env.ram = s.env.ram := by
  rw [writeReg_acknowledge]
  dsimp only
  split
  · unfold Dma.setLine
    split <;> exact ⟨rfl, rfl, rfl⟩
  · exact ⟨rfl, rfl, rfl⟩

/-- What one event does to the queues in use, but for what the driver publishes. -/
lemma QueueStep.effect (h : QueueStep s event rs t) (hl : Layout s.env)
    (hb : ∀ r ∈ rs, r.BuffersApart) : SameQueues s.env t.env ∧
      ∀ q, s.env.queueReady q = true →
        InOrder q s.env (if event.queue = q then rs else []) t.env := by
  cases h with
  | @driver env hcore hram =>
    have hsame : SameQueues s.env env := by
      refine ⟨by rw [hcore], fun q => ?_, hram.1⟩
      rw [hcore]
      exact ⟨rfl, rfl, rfl, rfl, rfl⟩
    refine ⟨hsame, fun q hq => ?_⟩
    rw [ite_self]
    refine .of_same (by rw [hcore]) (Dma.usedIdx_of_outside (hsame.rings q) hram fun i hi hP => ?_)
    exact hP q hq hi
  | doorbell hrs => exact ⟨(hrs.effect hl hb).same, (hrs.effect hl hb).inOrder⟩
  | acknowledge v =>
    obtain ⟨hqueues, hnum, hram⟩ := s.acknowledge_env v
    have heffect := PassEffect.of_same 0 hqueues hnum hram
    exact ⟨heffect.same, heffect.inOrder⟩
  | poll hrs => exact ⟨(hrs.effect hl hb).same, (hrs.effect hl hb).inOrder⟩

/-- Over a whole run, each queue's chains are completed in order. -/
lemma QueueRun.inOrder {labels : List (QueueEvent × List Round)} (h : QueueRun s labels t)
    (hl : Layout s.env) (hb : ∀ l ∈ labels, ∀ r ∈ l.2, r.BuffersApart) :
    SameQueues s.env t.env ∧
      ∀ q, s.env.queueReady q = true → InOrder q s.env (roundsOn q labels) t.env := by
  induction h with
  | refl => exact ⟨.refl _, fun q _ => .of_same rfl rfl⟩
  | @tail t u labels event rs _ hstep ih =>
    obtain ⟨hsame, horder⟩ := ih fun l hl' => hb l (List.mem_append_left _ hl')
    obtain ⟨hsame', horder'⟩ := hstep.effect (hsame.layout hl)
      (hb (event, rs) (List.mem_append_right _ (List.mem_singleton_self _)))
    refine ⟨hsame.trans hsame', fun q hq => ?_⟩
    have hboth := (horder q hq).trans (horder' q (by rwa [hsame.queueReady]))
    rwa [roundsOn, List.flatMap_append, List.flatMap_singleton]

end Runs

/-! ## The disk catches up -/

/-- Counts of the chains of the disk's queue: published, completed, and published before the most
recent doorbell. -/
structure Tally where
  published : ℕ
  completed : ℕ
  mark : ℕ

/-- The counts after an event from `s` to `t`. -/
def Tally.next (τ : Tally) (event : QueueEvent) (rs : List Round) (s t : Slot Blk) : Tally :=
  match event with
  | .driver => { τ with published := τ.published + (t.env.availIdx 0 - s.env.availIdx 0).toNat }
  | .doorbell v =>
    if v = 0 then { τ with completed := τ.completed + rs.length, mark := τ.published } else τ
  | .acknowledge _ => τ
  | .poll => { τ with completed := τ.completed + rs.length }

/-- The polls in an event. -/
def QueueEvent.polls : QueueEvent → ℕ
  | .poll => 1
  | _ => 0

/-- A run of the disk with its counts and the number of polls in it.  The driver never has `2 ^ 16`
chains outstanding, more than which the index of its ring cannot tell. -/
inductive Tallied : Slot Blk × Tally → ℕ → Slot Blk × Tally → Prop
  | refl (x : Slot Blk × Tally) : Tallied x 0 x
  | tail {x y : Slot Blk × Tally} {n : ℕ} {event : QueueEvent} {rs : List Round} {t : Slot Blk}
      (hrun : Tallied x n y) (hstep : QueueStep y.1 event rs t) (hb : ∀ r ∈ rs, r.BuffersApart)
      (hroom : (y.2.next event rs y.1 t).published - (y.2.next event rs y.1 t).completed < 2 ^ 16) :
      Tallied x (n + event.polls) (t, y.2.next event rs y.1 t)

/-- What holds throughout such a run. -/
structure Tally.Inv (x : Slot Blk × Tally) : Prop where
  numQueues : x.1.env.core.numQueues = 1
  ready : x.1.env.queueReady 0 = true
  layout : Layout x.1.env
  count : x.2.completed + x.1.env.outstanding 0 = x.2.published
  mark : x.2.mark ≤ x.2.published
  done : x.2.mark ≤ x.2.completed ∨ x.1.dev.backlog = true

lemma Pass.lastAvail {queue : ℕ} {rs : List Round} {e e' : Dma} (h : Pass queue e rs e') :
    (e'.core.queues queue).lastAvail =
      (e.core.queues queue).lastAvail + BitVec.ofNat 16 rs.length := by
  induction h with
  | nil => simp
  | @cons r rs e hr _ ih =>
    rw [ih, hr.lastAvail, List.length_cons, Nat.add_comm, BitVec.ofNat_add, ← BitVec.add_assoc]
    rfl

/-- A pass over the disk's queue finishes it, or does something and sets the backlog. -/
lemma Blk.service_end {b : Blk} {e : Dma} {rs : List Round} (hready : e.queueReady 0 = true)
    (hl : Layout e) (hrs : Serves 0 e rs (b.service e 0).2) (hb : ∀ r ∈ rs, r.BuffersApart) :
    (b.service e 0).2.outstanding 0 = 0 ∨ (b.service e 0).1.backlog = true ∧ rs ≠ [] := by
  obtain ⟨rs', mid, hpass, hend, hlen, ⟨-, hnone⟩ | ⟨hback, hne⟩⟩ := b.service_serves e 0
  · -- nothing was left when the pass ended, and a signal changes nothing of that
    have hsame := hrs.effect hl hb
    left
    have hmid : (b.service e 0).2.outstanding 0 = mid.outstanding 0 := by
      rcases hend with hend | hend
      · rw [hend]
      · obtain ⟨hqueues, hnum⟩ := mid.signalUsed_core 0
        rw [hend]
        exact (PassEffect.of_same 0 hqueues hnum (mid.signalUsed_ram 0)).outstanding
    have hmidReady : mid.queueReady 0 = true := by
      have hready' := hsame.same.queueReady 0
      rcases hend with hend | hend
      · rw [hend] at hready'
        rwa [hready']
      · obtain ⟨hqueues, hnum⟩ := mid.signalUsed_core 0
        rw [hend, Dma.queueReady, hqueues, hnum, ← Dma.queueReady] at hready'
        rwa [hready']
    rcases hpop : mid.popChain 0 with ⟨answer, e'⟩
    rw [hpop] at hnone
    dsimp only at hnone
    subst hnone
    rw [hmid, Dma.outstanding, (Dma.popChain_eq_none hpop).2 hmidReady, BitVec.sub_self]
    rfl
  · refine .inr ⟨hback, ?_⟩
    rintro rfl
    -- the index of what was taken has moved, and with no rounds it cannot have
    have hmoved : ((b.service e 0).2.core.queues 0).lastAvail =
        (e.core.queues 0).lastAvail + BitVec.ofNat 16 rs'.length := by
      rw [← hpass.lastAvail]
      rcases hend with hend | hend
      · rw [hend]
      · rw [hend, (mid.signalUsed_core 0).1]
    have hstill := ((hrs.effect hl hb).inOrder 0 hready).lastAvail
    have hpos : 0 < rs'.length := List.length_pos_iff.mpr hne
    have h8 : rs'.length ≤ 8 := hlen
    rw [hstill, ite_self, List.length_nil] at hmoved
    have hnat := congrArg BitVec.toNat hmoved
    simp only [BitVec.toNat_add, BitVec.toNat_ofNat] at hnat
    omega

section Tally

variable {x y : Slot Blk × Tally} {event : QueueEvent} {rs : List Round} {t : Slot Blk}

/-- A doorbell or a poll that serves the disk's queue. -/
lemma Tally.Inv.service (h : Tally.Inv x) {mark : ℕ} (hmark : mark ≤ x.2.published)
    (hrs : Serves 0 x.1.env rs (x.1.dev.service x.1.env 0).2) (hb : ∀ r ∈ rs, r.BuffersApart) :
    Tally.Inv (⟨(x.1.dev.service x.1.env 0).1, (x.1.dev.service x.1.env 0).2⟩,
        ⟨x.2.published, x.2.completed + rs.length, mark⟩) ∧
      (mark ≤ x.2.completed + rs.length ∨ rs ≠ []) := by
  have heffect := hrs.effect h.layout hb
  have hcount := h.count
  have hout := heffect.outstanding
  have hend : mark ≤ x.2.completed + rs.length ∨
      (x.1.dev.service x.1.env 0).1.backlog = true ∧ rs ≠ [] := by
    rcases Blk.service_end h.ready h.layout hrs hb with hzero | hmore
    · left
      omega
    · exact .inr hmore
  refine ⟨⟨?_, ?_, heffect.same.layout h.layout, ?_, hmark, ?_⟩, ?_⟩
  · exact heffect.same.numQueues.trans h.numQueues
  · exact (heffect.same.queueReady 0).trans h.ready
  · show x.2.completed + rs.length + (x.1.dev.service x.1.env 0).2.outstanding 0 = x.2.published
    omega
  · exact hend.imp_right (·.1)
  · exact hend.imp_right (·.2)

/-- An event on which the device does nothing. -/
lemma Tally.Inv.quiet (h : Tally.Inv x) (hdev : t.dev = x.1.dev)
    (hqueues : t.env.core.queues = x.1.env.core.queues)
    (hnum : t.env.core.numQueues = x.1.env.core.numQueues) (hram : t.env.ram = x.1.env.ram) :
    Tally.Inv (t, x.2) := by
  have heffect := PassEffect.of_same 0 hqueues hnum hram
  refine ⟨hnum.trans h.numQueues, (heffect.same.queueReady 0).trans h.ready,
    heffect.same.layout h.layout, ?_, h.mark, ?_⟩
  · rw [← h.count, ← heffect.outstanding]
    rfl
  · rw [hdev]
    exact h.done

lemma Tally.Inv.step (h : Tally.Inv x) (hstep : QueueStep x.1 event rs t)
    (hb : ∀ r ∈ rs, r.BuffersApart)
    (hroom : (x.2.next event rs x.1 t).published - (x.2.next event rs x.1 t).completed < 2 ^ 16) :
    Tally.Inv (t, x.2.next event rs x.1 t) ∧ x.2.mark ≤ (x.2.next event rs x.1 t).mark ∧
      (x.2.mark ≤ (x.2.next event rs x.1 t).completed ∨
        x.2.completed + event.polls ≤ (x.2.next event rs x.1 t).completed) := by
  cases hstep with
  | @driver env hcore hram =>
    have hsame := (QueueStep.driver hcore hram).effect h.layout (by simp)
    have hcount := h.count
    have hlast : (env.core.queues 0).lastAvail = (x.1.env.core.queues 0).lastAvail := by rw [hcore]
    refine ⟨⟨hsame.1.numQueues.trans h.numQueues, (hsame.1.queueReady 0).trans h.ready,
      hsame.1.layout h.layout, ?_, ?_, h.done⟩, Nat.le_refl _, .inr (Nat.le_refl _)⟩
    · simp only [next] at hroom ⊢
      rw [Dma.outstanding] at hcount ⊢
      rw [hlast]
      bv_omega
    · exact Nat.le_add_right_of_le h.mark
  | @doorbell v rs hrs =>
    rw [Slot.writeReg_doorbell, h.numQueues] at hrs ⊢
    by_cases hv : v = 0
    · subst hv
      obtain ⟨hinv, hprogress⟩ := h.service (Nat.le_refl x.2.published) hrs hb
      exact ⟨hinv, h.mark, .inr (Nat.le_add_right _ _)⟩
    · have hnot : ¬ v.toNat < 1 := by bv_omega
      rw [if_neg hnot, next, if_neg hv]
      exact ⟨h, Nat.le_refl _, .inr (Nat.le_refl _)⟩
  | acknowledge v =>
    obtain ⟨hqueues, hnum, hram⟩ := x.1.acknowledge_env v
    have hdev : (x.1.writeReg 0x64 v).dev = x.1.dev := by
      rw [Slot.writeReg_acknowledge]
      dsimp only
      split <;> rfl
    exact ⟨h.quiet hdev hqueues hnum hram, Nat.le_refl _, .inr (Nat.le_refl _)⟩
  | @poll rs hrs =>
    have hpoll : x.1.poll = if x.1.dev.backlog then
        ⟨(x.1.dev.service x.1.env 0).1, (x.1.dev.service x.1.env 0).2⟩ else x.1 := by
      show (⟨(if x.1.dev.backlog then x.1.dev.service x.1.env 0 else (x.1.dev, x.1.env)).1,
        (if x.1.dev.backlog then x.1.dev.service x.1.env 0 else (x.1.dev, x.1.env)).2⟩ :
          Slot Blk) = _
      split <;> rfl
    rw [hpoll] at hrs ⊢
    split at hrs
    · next hback =>
        rw [if_pos hback]
        obtain ⟨hinv, hprogress⟩ := h.service h.mark hrs hb
        refine ⟨hinv, Nat.le_refl _, ?_⟩
        rcases hprogress with hdone | hne
        · exact .inl hdone
        · have hpos : 0 < rs.length := List.length_pos_iff.mpr hne
          right
          show x.2.completed + 1 ≤ x.2.completed + rs.length
          omega
    · next hback =>
        rw [if_neg hback]
        have hout := (hrs.effect h.layout hb).outstanding
        have hnil : rs.length = 0 := by omega
        have hdone : x.2.mark ≤ x.2.completed := h.done.resolve_right hback
        rw [next, hnil]
        exact ⟨h, Nat.le_refl _, .inl hdone⟩

/-- Every poll takes the disk further, until everything is done that a doorbell was rung for. -/
lemma Tallied.progress {n : ℕ} (hrun : Tallied x n y) (h : Tally.Inv x) :
    Tally.Inv y ∧ x.2.mark ≤ y.2.mark ∧
      (x.2.mark ≤ y.2.completed ∨ x.2.completed + n ≤ y.2.completed) := by
  induction hrun with
  | refl => exact ⟨h, Nat.le_refl _, .inr (Nat.le_refl _)⟩
  | @tail y n event rs t _ hstep hb hroom ih =>
    obtain ⟨hinv, hmark, hdone⟩ := ih
    obtain ⟨hinv', hmark', hdone'⟩ := hinv.step hstep hb hroom
    refine ⟨hinv', Nat.le_trans hmark hmark', ?_⟩
    dsimp only
    omega

end Tally

/-! ## The result -/

/-- Every doorbell and every poll of the device is a sequence of rounds, and in every run, if the
rings lie in RAM and the buffers meet none of them, each queue's chains are completed in order. -/
def KeepsRequests (D : Type) [VirtioDevice D] : Prop :=
  (∀ (s : Slot D) (v : U32), ∃ rs, QueueStep s (.doorbell v) rs (s.writeReg 0x50 v)) ∧
  (∀ s : Slot D, ∃ rs, QueueStep s .poll rs s.poll) ∧
  ∀ (s t : Slot D) (labels : List (QueueEvent × List Round)), QueueRun s labels t →
    Layout s.env → (∀ l ∈ labels, ∀ r ∈ l.2, r.BuffersApart) →
    ∀ q, s.env.queueReady q = true → InOrder q s.env (roundsOn q labels) t.env

/-- In every state of a run of the disk, what was published before the most recent doorbell is
completed or the backlog is set; what is left of it is bounded, and as many polls complete it. -/
def CatchesUp : Prop :=
  ∀ (s : Slot Blk) (n : ℕ) (y : Slot Blk × Tally), s.env.core.numQueues = 1 →
    s.env.queueReady 0 = true → Layout s.env → Tallied (s, ⟨s.env.outstanding 0, 0, 0⟩) n y →
    (y.2.mark ≤ y.2.completed ∨ y.1.dev.backlog = true) ∧ y.2.mark - y.2.completed < 2 ^ 16 ∧
      ∀ (m : ℕ) (z : Slot Blk × Tally), Tallied y m z → y.2.mark - y.2.completed ≤ m →
        y.2.mark ≤ z.2.completed

lemma keepsRequests (D : Type) [VirtioDevice D] [QueueDevice D] : KeepsRequests D := by
  refine ⟨fun s v => ?_, fun s => ?_, fun s t labels hrun hl hb => (hrun.inOrder hl hb).2⟩
  · by_cases hv : v.toNat < s.env.core.numQueues
    · obtain ⟨rs, hrs⟩ := QueueDevice.notify s.dev s.env v.toNat
      refine ⟨rs, .doorbell ?_⟩
      rwa [Slot.writeReg_doorbell, if_pos hv]
    · refine ⟨[], .doorbell ?_⟩
      rw [Slot.writeReg_doorbell, if_neg hv]
      exact .refl _ _
  · obtain ⟨rs, hrs⟩ := QueueDevice.poll s.dev s.env
    exact ⟨rs, .poll hrs⟩

/-- No queue of a device loses or repeats a request, and the disk completes every request that a
doorbell was rung for. -/
theorem queues_keep_requests :
    KeepsRequests Blk ∧ KeepsRequests Net ∧ KeepsRequests Rng ∧ CatchesUp := by
  refine ⟨keepsRequests Blk, keepsRequests Net, keepsRequests Rng, ?_⟩
  intro s n y hnum hready hl hrun
  have hstart : Tally.Inv (s, ⟨s.env.outstanding 0, 0, 0⟩) :=
    ⟨hnum, hready, hl, Nat.zero_add _, Nat.zero_le _, .inl (Nat.le_refl 0)⟩
  obtain ⟨hinv, -, -⟩ := hrun.progress hstart
  have hlt : y.1.env.outstanding 0 < 2 ^ 16 := BitVec.isLt _
  have hcount := hinv.count
  have hmark := hinv.mark
  refine ⟨hinv.done, by omega, fun m z hmore hm => ?_⟩
  obtain ⟨-, -, hdone | hdone⟩ := hmore.progress hinv
  · exact hdone
  · omega

/-! ## A request for the name of the disk -/

/-- A disk with one request: the header, a buffer of twenty bytes for the name, and the status. -/
def nameRequest : Dma where
  core := { Core.new virtioBase 2 1 with
    queues := fun _ => ⟨4, true, dramBase + 1024, dramBase + 0, dramBase + 512, 0⟩ }
  ram :=
    let table : List U8 :=
      [0, 8, 0, 0x80, 0, 0, 0, 0, 16, 0, 0, 0, 1, 0, 1, 0] ++
      [0x40, 8, 0, 0x80, 0, 0, 0, 0, 20, 0, 0, 0, 3, 0, 2, 0] ++
      [0x80, 8, 0, 0x80, 0, 0, 0, 0, 1, 0, 0, 0, 2, 0, 0, 0]
    ⟨Bytes.storeBytes (Bytes.storeBytes (Bytes.storeBytes (fun _ => 0) 0 [0, 0, 1, 0]) 1024 table)
      2048 [8], 4096, 1, fun _ => false, [], false, page_fits⟩
  plic := Plic.new 1
  log := []
  fuel := 0

lemma nameRequest_ready {q : ℕ} (h : nameRequest.queueReady q = true) : q = 0 := by
  have hlt : q < 1 := (of_decide_eq_true h).1
  omega

lemma nameRequest_block : nameRequest.ram.HasBlock dramBase 4096 := by decide

lemma nameRequest_layout : Layout nameRequest := by
  have hblock := nameRequest_block
  refine ⟨fun q _ => ?_, fun q _ => ?_, fun q q' _ _ => ?_, fun q q' hq hq' hne => ?_⟩
  · show nameRequest.ram.HasBlock (dramBase + 0) 12
    decide
  · show nameRequest.ram.HasBlock (dramBase + 512) 36
    decide
  · exact (hblock.apart (show 0 + 12 ≤ 512 by omega) (show 512 + 36 ≤ 4096 by omega)).symm
  · exact absurd ((nameRequest_ready hq).trans (nameRequest_ready hq').symm) hne

/-- A buffer in the second half of the page meets no ring. -/
lemma nameRequest_apart {k n : ℕ} (hk : 2048 ≤ k) (hn : k + n ≤ 4096) :
    BlocksApart (dramBase + BitVec.ofNat 64 k) n (dramBase + 0) 12 ∧
      BlocksApart (dramBase + BitVec.ofNat 64 k) n (dramBase + 512) 36 := by
  have hblock := nameRequest_block
  constructor
  · exact (hblock.apart (k := 0) (m := 12) (by omega) hn).symm
  · exact (hblock.apart (k := 512) (m := 36) (by omega) hn).symm

/-- The one chain leaves the rings alone, and after it no chain is left. -/
lemma nameRequest_buffersApart {rs : List Round} {e : Dma} (h : Serves 0 nameRequest rs e) :
    ∀ r ∈ rs, r.BuffersApart := by
  have hfirst : ∀ r : Round, r.Valid 0 → r.before = nameRequest → r.BuffersApart := by
    rintro r ⟨filled, written, hpop, -⟩ hbefore s hs hw q -
    rw [hbefore] at hpop ⊢
    have hsegs : (nameRequest.popChain 0).1.map (fun c => c.2.map fun s => (s.addr, s.len)) =
        some [(dramBase + 2048, 16), (dramBase + 2112, 20), (dramBase + 2176, 1)] := by
      decide +kernel
    rw [hpop, Option.map_some, Option.some_inj] at hsegs
    have hmem := List.mem_map_of_mem (f := fun s : Segment => (s.addr, s.len)) hs
    rw [hsegs] at hmem
    simp only [List.mem_cons, Prod.mk.injEq, List.not_mem_nil, or_false] at hmem
    rcases hmem with ⟨haddr, hlen⟩ | ⟨haddr, hlen⟩ | ⟨haddr, hlen⟩
    · rw [haddr, hlen]
      exact nameRequest_apart (k := 2048) (by omega) (by omega)
    · rw [haddr, hlen]
      exact nameRequest_apart (k := 2112) (by omega) (by omega)
    · rw [haddr, hlen]
      exact nameRequest_apart (k := 2176) (by omega) (by omega)
  obtain ⟨mid, hpass, -⟩ := h
  generalize hstart : nameRequest = start at hpass
  cases hpass with
  | nil => exact fun r hr => absurd hr List.not_mem_nil
  | @cons r rs _ hr hrs =>
    have hb := hfirst r hr hstart.symm
    have hone : nameRequest.outstanding 0 = 1 := by decide
    have hleft := hr.outstanding (hstart ▸ nameRequest_layout) hb
    rw [← hstart, hone] at hleft
    generalize r.after = after at hrs hleft
    cases hrs with
    | nil => simpa using hb
    | cons hr' _ => exact absurd (Nat.succ.inj hleft) hr'.outstanding_ne_zero

/-- The disk with this request. -/
def nameSlot : Slot Blk := ⟨.new, nameRequest⟩

/-- The disk after the doorbell. -/
def nameRung : Slot Blk := nameSlot.writeReg 0x50 0

/-- The doorbell takes the request, publishes it and leaves nothing; the driver acknowledges the
interrupt.  The request stays completed whatever happens then. -/
theorem queues_keep_requests_name :
    ∃ rs, QueueRun nameSlot [(.doorbell 0, rs), (.acknowledge 1, [])] (nameRung.writeReg 0x64 1) ∧
      InOrder 0 nameSlot.env rs (nameRung.writeReg 0x64 1).env ∧ rs.length = 1 ∧
      ∀ m z, Tallied (nameRung, ⟨1, 1, 1⟩) m z → 1 ≤ z.2.completed := by
  obtain ⟨⟨hring, -, hkeeps⟩, -, -, hcatch⟩ := queues_keep_requests
  obtain ⟨rs, hstep⟩ := hring nameSlot 0
  rw [← nameRung] at hstep
  have hready : nameSlot.env.queueReady 0 = true := by decide
  have hb := nameRequest_buffersApart hstep.serves
  have hlen : rs.length = 1 := by
    have hout := (hstep.serves.effect nameRequest_layout hb).outstanding
    have hnone : nameRung.env.outstanding 0 = 0 := by decide +kernel
    have hone : nameRequest.outstanding 0 = 1 := by decide
    have hsum : nameRung.env.outstanding 0 + rs.length = nameRequest.outstanding 0 := hout
    omega
  have hrun : QueueRun nameSlot [(.doorbell 0, rs), (.acknowledge 1, [])]
      (nameRung.writeReg 0x64 1) := .tail (.tail (.refl _) hstep) (.acknowledge 1)
  have horder := hkeeps _ _ _ hrun nameRequest_layout ?_ 0 hready
  · refine ⟨rs, hrun, ?_, hlen, fun m z hmore => ?_⟩
    · have hrounds : roundsOn 0 [(.doorbell 0, rs), (.acknowledge 1, [])] = rs := by
        simp [roundsOn, QueueEvent.queue]
      rwa [hrounds] at horder
    · have htally : Tallied (nameSlot, ⟨nameSlot.env.outstanding 0, 0, 0⟩) 0
          (nameRung, ⟨1, 1, 1⟩) := by
        have hone : nameSlot.env.outstanding 0 = 1 := by decide
        rw [hone]
        have hnext : Tally.next ⟨1, 0, 0⟩ (.doorbell 0) rs nameSlot nameRung = ⟨1, 1, 1⟩ := by
          rw [Tally.next, if_pos rfl, hlen]
        have hroom : (Tally.next ⟨1, 0, 0⟩ (.doorbell 0) rs nameSlot nameRung).published -
            (Tally.next ⟨1, 0, 0⟩ (.doorbell 0) rs nameSlot nameRung).completed < 2 ^ 16 := by
          rw [hnext]
          decide
        rw [← hnext]
        exact .tail (.refl (nameSlot, ⟨1, 0, 0⟩)) hstep hb hroom
      exact (hcatch nameSlot 0 _ rfl hready nameRequest_layout htally).2.2 m z hmore (Nat.zero_le m)
  · intro l hl r hr
    rcases List.mem_cons.mp hl with rfl | hl
    · exact hb r hr
    · rw [List.mem_singleton.mp hl] at hr
      exact absurd hr List.not_mem_nil

end Virtio

end RiscvEmu
