import RiscvEmu.Virtio.Ahead
import RiscvEmu.Virtio.Lines

/-!
# Announcing completions

A call that hands a chain back tells the driver, unless the driver asked not to be told.  The disk,
the entropy source and the transmit side of the network card signal at the end of a pass in which
they completed anything.  The receive side does not count the frames it drops: a pass that only
drops hands its chains back in silence.
-/

namespace RiscvEmu

namespace Virtio

namespace Dma

variable (e : Dma)

/-- The driver wants to be told about completions. -/
def WantsInterrupt (queue : ℕ) : Prop :=
  ((e.readGuest (e.core.queues queue).avail 2).setWidth 16 : U16) &&& availFNoInterrupt = 0

instance (queue : ℕ) : Decidable (e.WantsInterrupt queue) :=
  inferInstanceAs (Decidable (_ = _))

lemma readGuest_signalUsed (queue : ℕ) (addr : U64) (size : ℕ) :
    (e.signalUsed queue).readGuest addr size = e.readGuest addr size := by
  rw [readGuest, readGuest, signalUsed_ram]

lemma usedIdx_signalUsed (queue : ℕ) : (e.signalUsed queue).usedIdx queue = e.usedIdx queue := by
  rw [usedIdx, usedIdx, (e.signalUsed_core queue).1, readGuest_signalUsed]

lemma wantsInterrupt_signalUsed (queue : ℕ) :
    (e.signalUsed queue).WantsInterrupt queue ↔ e.WantsInterrupt queue := by
  rw [WantsInterrupt, WantsInterrupt, (e.signalUsed_core queue).1, readGuest_signalUsed]

lemma raiseInterrupt_status :
    e.raiseInterrupt.core.interruptStatus = e.core.interruptStatus ||| 1 := by
  unfold raiseInterrupt setLine
  split <;> rfl

end Dma

/-- From `e` to `e'` the used index of a queue moved, and the driver wants to be told. -/
structure Completes (queue : ℕ) (e e' : Dma) : Prop where
  moved : e'.usedIdx queue ≠ e.usedIdx queue
  wanted : e'.WantsInterrupt queue

/-- Completions are announced. -/
def Announces (queue : ℕ) (e e' : Dma) : Prop := Completes queue e e' → e'.core.interruptStatus ≠ 0

section Pass

variable {queue : ℕ} {rs : List Round} {e mid : Dma}

lemma Pass.ready (h : Pass queue e rs mid) (hrs : rs ≠ []) : mid.queueReady queue = true := by
  cases h with
  | nil => exact absurd rfl hrs
  | cons hr hrest =>
    have hrounds : ∀ {e rs e'}, Pass queue e rs e' → e'.queueReady queue = e.queueReady queue := by
      intro e rs e' h
      induction h with
      | nil => rfl
      | cons hr _ ih => exact ih.trans (hr.sameQueues.queueReady queue)
    rw [hrounds hrest, hr.sameQueues.queueReady]
    exact hr.ready

lemma Pass.status (h : Pass queue e rs mid) :
    mid.core.interruptStatus = e.core.interruptStatus := by
  induction h with
  | nil => rfl
  | cons hr _ ih =>
    rw [ih, hr.core]
    rfl

/-- A signal after a pass with a round in it reaches a driver that wants it. -/
lemma Pass.signalled (h : Pass queue e rs mid) (hrs : rs ≠ []) (hwant : mid.WantsInterrupt queue) :
    (mid.signalUsed queue).core.interruptStatus ≠ 0 := by
  have hready := h.ready hrs
  have hsignal : mid.signalUsed queue = mid.raiseInterrupt := by
    unfold Dma.signalUsed
    rw [hready, if_neg (by simp)]
    exact if_neg (not_not.mpr hwant)
  rw [hsignal, Dma.raiseInterrupt_status]
  exact or_one_ne_zero _

/-- A device that signals whenever its pass had a round announces its completions. -/
lemma Pass.announces (h : Pass queue e rs mid) {c : Prop} [Decidable c] (hc : rs ≠ [] → c) :
    Announces queue e (if c then mid.signalUsed queue else mid) := by
  intro hdone
  have hrs : rs ≠ [] := by
    rintro rfl
    cases h
    apply hdone.moved
    split
    · exact Dma.usedIdx_signalUsed _ _
    · rfl
  rw [if_pos (hc hrs)] at hdone ⊢
  exact h.signalled hrs ((mid.wantsInterrupt_signalUsed queue).mp hdone.wanted)

end Pass

/-! ## The devices -/

lemma Blk.service_announces (b : Blk) (e : Dma) (queue : ℕ) :
    Announces queue e (b.service e queue).2 := by
  obtain ⟨rs, hrs, -, hdone, -⟩ :=
    serviceLoop_pass queue maxRequestsPerPass 0 0 { b with backlog := false } e
  unfold service
  generalize serviceLoop queue maxRequestsPerPass 0 0 { b with backlog := false } e = r at *
  obtain ⟨done, b', e'⟩ := r
  dsimp only at hrs hdone ⊢
  refine hrs.announces fun hne => ?_
  rw [hdone, Nat.zero_add]
  exact List.length_pos_iff.mpr hne

namespace Net

/-- The flag of the loop says whether there was a round. -/
lemma transmitLoop_any (fuel : ℕ) (n : Net) (e : Dma) (any : Bool) :
    ∃ rs, Pass txQueue e rs (transmitLoop fuel n e any).2.1 ∧
      (any = true ∨ rs ≠ [] → (transmitLoop fuel n e any).2.2 = true) := by
  induction fuel generalizing n e any with
  | zero => exact ⟨[], .nil e, fun h => h.resolve_right fun hne => hne rfl⟩
  | succ fuel ih =>
    rw [transmitLoop]
    rcases hpop : e.popChain txQueue with ⟨_ | ⟨head, segs⟩, e₁⟩
    · obtain ⟨rfl, -⟩ := Dma.popChain_eq_none hpop
      exact ⟨[], .nil _, fun h => h.resolve_right fun hne => hne rfl⟩
    · obtain ⟨rs, hrs, hany⟩ := ih _ (e₁.pushUsed txQueue head 0) true
      exact ⟨_, .round hpop .refl hrs, fun _ => hany (.inl rfl)⟩

lemma transmit_announces (n : Net) (e : Dma) : Announces txQueue e (n.transmit e).2 := by
  obtain ⟨rs, hrs, hany⟩ := transmitLoop_any e.fuel n e false
  exact hrs.announces fun hne => hany (.inr hne)

/-- Among frames that are dropped one after the other, one comes to a chain with room for it. -/
def someFits : List (List U8) → Dma → Bool
  | [], _ => false
  | f :: rest, e =>
    match e.popChain rxQueue with
    | (none, _) => false
    | (some (head, segs), e') =>
      decide (segmentsLength segs true ≥ headerBytes + f.length) ||
        someFits rest (e'.pushUsed rxQueue head 0)

lemma deliverLoop_any (frames : List (List U8)) (n : Net) (e : Dma) (any : Bool) :
    (deliverLoop frames n e any).2.2 = (any || someFits frames e) := by
  have hstays : ∀ (frames : List (List U8)) (n : Net) (e : Dma),
      (deliverLoop frames n e true).2.2 = true := by
    intro frames
    induction frames with
    | nil => exact fun _ _ => rfl
    | cons f rest ih =>
      intro n e
      rw [deliverLoop]
      split
      · rfl
      · dsimp only
        split
        · exact ih _ _
        · exact ih _ _
  induction frames generalizing n e with
  | nil => exact (Bool.or_false any).symm
  | cons f rest ih =>
    rw [deliverLoop, someFits]
    rcases hpop : e.popChain rxQueue with ⟨_ | ⟨head, segs⟩, e₁⟩
    · exact (Bool.or_false any).symm
    · dsimp only
      split
      · next hroom => rw [hstays, decide_eq_true hroom, Bool.true_or, Bool.or_true]
      · next hroom => rw [ih, decide_eq_false hroom, Bool.false_or]

/-- Completing the chains that wait in the receive queue changes neither their number nor the
chains. -/
def RingsSpared (e : Dma) : Prop :=
  ∀ k < e.outstanding rxQueue, e.CompletionSpared rxQueue k

/-- Some frame fits the chain that has as many others before it as the frame has. -/
def FrameFits (frames : List (List U8)) (e : Dma) : Prop :=
  ∃ k < e.outstanding rxQueue, ∃ f, frames[k]? = some f ∧
    headerBytes + f.length ≤ segmentsLength (e.chainAhead rxQueue k) true

/-- Where completions spare the chains, each frame meets the chain that waits for it. -/
lemma someFits_iff (frames : List (List U8)) {e : Dma} (hready : e.queueReady rxQueue = true)
    (h : RingsSpared e) : someFits frames e = true ↔ FrameFits frames e := by
  induction frames generalizing e with
  | nil =>
    refine iff_of_false Bool.false_ne_true ?_
    rintro ⟨k, -, f, hf, -⟩
    cases hf
  | cons f rest ih =>
    rw [someFits]
    rcases hpop : e.popChain rxQueue with ⟨_ | ⟨head, segs⟩, e₁⟩
    · -- no chain waits
      refine iff_of_false Bool.false_ne_true ?_
      rintro ⟨k, hk, -⟩
      have hidx := (Dma.popChain_eq_none hpop).2 hready
      rw [Dma.outstanding] at hk
      bv_omega
    · have hpos : 0 < e.outstanding rxQueue := by
        have hne := (Dma.popChain_eq_some hpop).2.1
        rw [Dma.outstanding]
        bv_omega
      obtain ⟨hnext, hbehind⟩ := follows_completion hpop (h 0 hpos) 0
      have hout := hnext.outstanding
      have hrest := ih (e := e₁.pushUsed rxQueue head 0)
        (by rwa [hnext.same.queueReady]) fun k hk =>
          (hbehind k (by omega)).2 (h (k + 1) (by omega))
      rw [Bool.or_eq_true, decide_eq_true_eq, hrest, Dma.chainAhead_zero hpop]
      constructor
      · rintro (hfits | ⟨k, hk, f', hf', hfits⟩)
        · exact ⟨0, hpos, f, rfl, hfits⟩
        · rw [(hbehind k (by omega)).1] at hfits
          exact ⟨k + 1, by omega, f', hf', hfits⟩
      · rintro ⟨k, hk, f', hf', hfits⟩
        cases k with
        | zero =>
          cases hf'
          exact .inl hfits
        | succ k =>
          refine .inr ⟨k, by omega, f', hf', ?_⟩
          rwa [(hbehind k hk).1]

/-- A pass over the receive queue in which a frame was delivered. -/
def delivers (n : Net) (e : Dma) : Bool := someFits (fetchFrames maxPending n).pending e

/-- The receive side tells the driver only if it delivered something. -/
lemma deliver_announces_iff (n : Net) (e : Dma) (h : Completes rxQueue e (n.deliver e).2) :
    (n.deliver e).2.core.interruptStatus ≠ 0 ↔
      e.core.interruptStatus ≠ 0 ∨ n.delivers e = true := by
  unfold deliver delivers at *
  split at h
  · exact absurd rfl h.moved
  next hready =>
  rw [if_neg hready]
  dsimp only at h ⊢
  obtain ⟨rs, hrs, -⟩ :=
    deliverLoop_pass (fetchFrames maxPending n).pending (fetchFrames maxPending n) e false
  have hany := deliverLoop_any (fetchFrames maxPending n).pending (fetchFrames maxPending n) e false
  rw [Bool.false_or] at hany
  rw [← hany]
  generalize deliverLoop (fetchFrames maxPending n).pending (fetchFrames maxPending n) e
    false = r at *
  obtain ⟨n', e', any⟩ := r
  dsimp only at hrs h ⊢
  cases any with
  | true => exact iff_of_true (hrs.announces (c := True) (fun _ => trivial) h) (.inr rfl)
  | false =>
    rw [if_neg Bool.false_ne_true, hrs.status]
    exact ⟨.inl, fun h => h.resolve_right Bool.false_ne_true⟩

end Net

namespace Rng

lemma notifyLoop_any (queue fuel : ℕ) (r : Rng) (e : Dma) (any : Bool) :
    ∃ rs, Pass queue e rs (notifyLoop queue fuel r e any).2.1 ∧
      (any = true ∨ rs ≠ [] → (notifyLoop queue fuel r e any).2.2 = true) := by
  induction fuel generalizing r e any with
  | zero => exact ⟨[], .nil e, fun h => h.resolve_right fun hne => hne rfl⟩
  | succ fuel ih =>
    rw [notifyLoop]
    rcases hpop : e.popChain queue with ⟨_ | ⟨head, segs⟩, e₁⟩
    · obtain ⟨rfl, -⟩ := Dma.popChain_eq_none hpop
      exact ⟨[], .nil _, fun h => h.resolve_right fun hne => hne rfl⟩
    · obtain ⟨rs, hrs, hany⟩ := ih _ _ true
      exact ⟨_, .round hpop (grants_fill (fun _ hs => hs) r e₁ 0) hrs, fun _ => hany (.inl rfl)⟩

lemma notify_announces (r : Rng) (e : Dma) (queue : ℕ) :
    Announces queue e (VirtioDevice.notify r e queue).2 := by
  obtain ⟨rs, hrs, hany⟩ := notifyLoop_any queue e.fuel r e false
  exact hrs.announces fun hne => hany (.inr hne)

end Rng

lemma Announces.refl (queue : ℕ) (e : Dma) : Announces queue e e := fun h => absurd rfl h.moved

/-- Doorbells and polls announce what they completed, but for a pass over the receive queue: it does
so if the interrupt status was set before or some frame met a chain with room for it.  Where
completions spare the rings, these are the frame and the chain with the same number of others before
them. -/
theorem completions_announced (b : Blk) (n : Net) (r : Rng) (e : Dma) (queue : ℕ) :
    Announces queue e (VirtioDevice.notify b e queue).2 ∧
    Announces 0 e (VirtioDevice.poll b e).2 ∧
    Announces queue e (VirtioDevice.notify r e queue).2 ∧
    Announces 0 e (VirtioDevice.poll r e).2 ∧
    (queue ≠ Net.rxQueue → Announces queue e (VirtioDevice.notify n e queue).2) ∧
    (Completes Net.rxQueue e (VirtioDevice.notify n e Net.rxQueue).2 →
      ((VirtioDevice.notify n e Net.rxQueue).2.core.interruptStatus ≠ 0 ↔
        e.core.interruptStatus ≠ 0 ∨ n.delivers e = true)) ∧
    (Completes Net.rxQueue e (VirtioDevice.poll n e).2 →
      ((VirtioDevice.poll n e).2.core.interruptStatus ≠ 0 ↔
        e.core.interruptStatus ≠ 0 ∨ n.delivers e = true)) ∧
    (e.queueReady Net.rxQueue = true → Net.RingsSpared e →
      (n.delivers e = true ↔ Net.FrameFits (Net.fetchFrames Net.maxPending n).pending e)) := by
  refine ⟨b.service_announces e queue, ?_, r.notify_announces e queue, .refl 0 e, fun hrx => ?_,
    n.deliver_announces_iff e, n.deliver_announces_iff e, Net.someFits_iff _⟩
  · change Announces 0 e (if b.backlog then b.service e 0 else (b, e)).2
    split
    · exact b.service_announces e 0
    · exact .refl 0 e
  · change Announces queue e (if queue = Net.txQueue then n.transmit e
      else if queue = Net.rxQueue then n.deliver e else (n, e)).2
    split
    · next htx => exact htx ▸ n.transmit_announces e
    · exact .refl queue e

/-- A receive queue with one chain, whose buffer takes `len` bytes. -/
def receiveBuffer (len : U8) : Dma where
  core := { Core.new 0x10002000 1 2 with
    queues := fun _ => ⟨1, true, dramBase + 1024, dramBase, dramBase + 512, 0⟩ }
  ram := ⟨fun i => if i = 2 then 1 else if i = 1025 then 8 else if i = 1027 then 0x80
      else if i = 1032 then len else if i = 1036 then 2 else 0, 4096, 1, fun _ => false, [],
    false, page_fits⟩
  plic := Plic.new 1
  log := []
  fuel := 0

/-- A card with one frame of one byte waiting. -/
def oneFrame : Net := ⟨⟨[], fun _ => none, fun _ => false⟩, [], [[0]], 0⟩

/-- A frame that is dropped takes its chain with it, and the driver is not told. -/
theorem drop_unannounced :
    Completes Net.rxQueue (receiveBuffer 1) (VirtioDevice.poll oneFrame (receiveBuffer 1)).2 ∧
      (VirtioDevice.poll oneFrame (receiveBuffer 1)).2.core.interruptStatus = 0 :=
  ⟨⟨by decide, by decide⟩, by decide⟩

/-- The rings are apart, and there is only one chain. -/
lemma receiveBuffer_spared {len : U8} (hone : (receiveBuffer len).outstanding Net.rxQueue = 1) :
    Net.RingsSpared (receiveBuffer len) := by
  have hblock : (receiveBuffer len).ram.HasBlock dramBase 4096 :=
    ⟨by decide, Nat.le_refl 4096⟩
  have hslot : ∀ u, ((receiveBuffer len).core.queues Net.rxQueue).usedSlot u =
      dramBase + BitVec.ofNat 64 514 + BitVec.ofNat 64 2 := by
    intro u
    show dramBase + 512 + 4 + BitVec.ofNat 64 (u.toNat % 1 * 8) = _
    rw [Nat.mod_one]
    decide
  intro k hk
  refine ⟨fun i hi hP => ?_, fun k' hk' hlt => ?_⟩
  · have hindex : Holds (dramBase + BitVec.ofNat 64 2) 2 i := hi.2
    have hring : Holds (dramBase + BitVec.ofNat 64 514) 10 i := by
      rw [Dma.PublishByte, hslot] at hP
      rcases hP with hP | hP | hP
      · exact hP.2.sub (by omega)
      · have hfour : dramBase + BitVec.ofNat 64 514 + BitVec.ofNat 64 2 + 4 =
            dramBase + BitVec.ofNat 64 514 + BitVec.ofNat 64 6 := by decide
        rw [hfour] at hP
        exact hP.2.sub (by omega)
      · have hcount : Holds (dramBase + BitVec.ofNat 64 514) 2 i := hP.2
        exact hcount.mono (by omega)
    exact hblock.apart (by omega) (by omega) i hindex hring
  · omega

/-- A frame for which there is no room is not announced, and with room for the header and the frame
the driver is told. -/
theorem completions_announced_short :
    (¬ Net.FrameFits [[0]] (receiveBuffer 1) ∧
      ¬ (VirtioDevice.poll oneFrame (receiveBuffer 1)).2.core.interruptStatus ≠ 0) ∧
    Net.FrameFits [[0]] (receiveBuffer 64) ∧
      (VirtioDevice.poll oneFrame (receiveBuffer 64)).2.core.interruptStatus ≠ 0 := by
  have hpending : (Net.fetchFrames Net.maxPending oneFrame).pending = [[0]] := by decide +kernel
  have hone : (receiveBuffer 1).outstanding Net.rxQueue = 1 := by decide
  obtain ⟨hshort, hshortFits⟩ :=
    (completions_announced Blk.new oneFrame (Rng.new 0) (receiveBuffer 1) 0).2.2.2.2.2.2
  obtain ⟨hwide, hwideFits⟩ :=
    (completions_announced Blk.new oneFrame (Rng.new 0) (receiveBuffer 64) 0).2.2.2.2.2.2
  rw [hpending] at hshortFits hwideFits
  have hnofit : ¬ Net.FrameFits [[0]] (receiveBuffer 1) := by
    rintro ⟨k, hk, f, hf, hfits⟩
    obtain rfl : k = 0 := by omega
    cases hf
    exact absurd hfits (by decide)
  have hfit : Net.FrameFits [[0]] (receiveBuffer 64) := ⟨0, by decide, [0], rfl, by decide⟩
  refine ⟨⟨hnofit, fun htold => ?_⟩, hfit, ?_⟩
  · rcases (hshort ⟨by decide, by decide⟩).mp htold with hset | hdelivers
    · exact hset rfl
    · exact hnofit ((hshortFits (by decide) (receiveBuffer_spared hone)).mp hdelivers)
  · refine (hwide ⟨by decide +kernel, by decide +kernel⟩).mpr (.inr ?_)
    exact (hwideFits (by decide) (receiveBuffer_spared (by decide))).mpr hfit

end Virtio

end RiscvEmu
