import RiscvEmu.Virtio.Ahead

/-!
# Doorbells that return

The disk does a bounded number of requests for a doorbell, and the network card delivers no more
frames than wait for the guest.  The loops over the transmit queue and over the queue of the
entropy source only end when the available ring has nothing left, and they read its index again on
every turn.  They end if the chains that wait can be completed without writing to that index; if
they cannot, the loop comes to a turn that does, and where the two rings are one it never ends.
-/

namespace RiscvEmu

namespace Virtio

/-- From some number of turns up to `bound` on, the loop over a queue ends because nothing is left
in it, and more turns make no difference. -/
def Ends {α : Type} (queue bound : ℕ) (loop : ℕ → α × Dma × Bool) : Prop :=
  ∃ k ≤ bound, ∀ fuel ≥ k, loop fuel = loop k ∧ ((loop fuel).2.1.popChain queue).1 = none

/-- After fewer than `bound` turns the loop over a queue is in a state with `P`, and takes another
chain. -/
def Reaches {α : Type} (queue bound : ℕ) (P : Dma → Prop) (loop : ℕ → α × Dma × Bool) : Prop :=
  ∃ k < bound, P (loop k).2.1 ∧ ((loop k).2.1.popChain queue).1 ≠ none

/-- Completing the chains that wait in a queue writes to none of the bytes that say how many they
are. -/
def Dma.IndexKept (e : Dma) (queue : ℕ) : Prop :=
  e.queueReady queue = true → ∀ k < e.outstanding queue, e.IndexSpared queue k

/-- Filling the buffers of the chains that wait in a queue and completing them writes to none of the
bytes that are still to be read for them. -/
def Dma.QueueKept (e : Dma) (queue : ℕ) : Prop :=
  e.queueReady queue = true → ∀ k < e.outstanding queue, e.QueueSpared queue k

/-! ## Loops -/

section Loops

variable {α : Type} {queue bound : ℕ} {loop rest : ℕ → α × Dma × Bool} {e : Dma}

lemma Ends.mono {bound' : ℕ} (h : Ends queue bound loop) (hle : bound ≤ bound') :
    Ends queue bound' loop := by
  obtain ⟨k, hk, hloop⟩ := h
  exact ⟨k, Nat.le_trans hk hle, hloop⟩

/-- A loop that makes no turn. -/
lemma Ends.stop {x : α × Dma × Bool} (hloop : ∀ fuel, loop fuel = x)
    (hx : (x.2.1.popChain queue).1 = none) : Ends queue bound loop := by
  refine ⟨0, Nat.zero_le _, fun fuel _ => ?_⟩
  rw [hloop, hloop]
  exact ⟨rfl, hx⟩

/-- A loop that makes a turn and goes on. -/
lemma Ends.turn (h : Ends queue bound rest) (hloop : ∀ fuel, loop (fuel + 1) = rest fuel) :
    Ends queue (bound + 1) loop := by
  obtain ⟨k, hk, hrest⟩ := h
  refine ⟨k + 1, Nat.succ_le_succ hk, fun fuel hfuel => ?_⟩
  obtain ⟨m, rfl⟩ : ∃ m, fuel = m + 1 := ⟨fuel - 1, by omega⟩
  rw [hloop, hloop]
  exact hrest m (by omega)

@[inherit_doc Ends.turn]
lemma Reaches.turn {P : Dma → Prop} (h : Reaches queue bound P rest)
    (hloop : ∀ fuel, loop (fuel + 1) = rest fuel) : Reaches queue (bound + 1) P loop := by
  obtain ⟨k, hk, hrest⟩ := h
  refine ⟨k + 1, Nat.succ_lt_succ hk, ?_⟩
  rw [hloop]
  exact hrest

lemma Dma.popChain_of_outstanding (h : e.outstanding queue = 0) :
    e.popChain queue = (none, e) := by
  rw [popChain_eq]
  split
  · rfl
  · rw [if_pos]
    rw [outstanding] at h
    bv_omega

lemma Dma.popChain_cases (e : Dma) (queue : ℕ) : e.popChain queue = (none, e) ∨
    ∃ head segs e₁, e.popChain queue = (some (head, segs), e₁) := by
  rcases h : e.popChain queue with ⟨_ | ⟨head, segs⟩, e₁⟩
  · rw [(popChain_eq_none h).1]
    exact .inl rfl
  · exact .inr ⟨head, segs, e₁, rfl⟩

/-- A loop over a queue, and what its turns are to spare: `Spared e k` is about the turn for the
chain that has `k` others before it in state `e`.  A turn that spares it leaves one chain fewer, and
the same for the others. -/
structure QueueLoop (queue : ℕ) (Spared : Dma → ℕ → Prop)
    (loop : ℕ → α → Dma → Bool → α × Dma × Bool) : Prop where
  zero : ∀ x e any, loop 0 x e any = (x, e, any)
  stop : ∀ {e}, e.popChain queue = (none, e) → ∀ fuel x any, loop fuel x e any = (x, e, any)
  turn : ∀ {e head segs e₁}, e.popChain queue = (some (head, segs), e₁) → ∀ x any, ∃ x' e',
    (∀ fuel, loop (fuel + 1) x e any = loop fuel x' e' true) ∧
    (Spared e 0 → Follows queue e e' ∧
      ∀ k, k + 1 < e.outstanding queue → (Spared e' k ↔ Spared e (k + 1)))

namespace QueueLoop

variable {Spared : Dma → ℕ → Prop} {loop : ℕ → α → Dma → Bool → α × Dma × Bool}

/-- If every turn spares it, the loop makes no more turns than there are chains. -/
lemma ends (h : QueueLoop queue Spared loop)
    (hspared : e.queueReady queue = true → ∀ k < e.outstanding queue, Spared e k) (x : α)
    (any : Bool) : Ends queue (e.outstanding queue) fun fuel => loop fuel x e any := by
  induction hk : e.outstanding queue generalizing x e any with
  | zero =>
    have hpop := Dma.popChain_of_outstanding hk
    exact .stop (fun fuel => h.stop hpop fuel x any) (by rw [hpop])
  | succ k ih =>
    rcases e.popChain_cases queue with hpop | ⟨head, segs, e₁, hpop⟩
    · exact .stop (fun fuel => h.stop hpop fuel x any) (by rw [hpop])
    · obtain ⟨x', e', hturn, hnext⟩ := h.turn hpop x any
      have hall := hspared (Dma.popChain_eq_some hpop).1
      obtain ⟨hfollows, hiff⟩ := hnext (hall 0 (by omega))
      have hout := hfollows.outstanding
      refine .turn (ih ?_ x' true (by omega)) hturn
      intro _ j hj
      exact (hiff j (by omega)).mpr (hall (j + 1) (by omega))

/-- If not every turn does, the loop comes to the first one that does not. -/
lemma reaches (h : QueueLoop queue Spared loop)
    (hspared : ¬ (e.queueReady queue = true → ∀ k < e.outstanding queue, Spared e k)) (x : α)
    (any : Bool) :
    Reaches queue (e.outstanding queue) (fun e => ¬ Spared e 0) fun fuel => loop fuel x e any := by
  induction hk : e.outstanding queue generalizing x e any with
  | zero =>
    refine absurd (fun _ j hj => ?_) hspared
    omega
  | succ n ih =>
    push Not at hspared
    obtain ⟨hready, j, hj, hnot⟩ := hspared
    rcases e.popChain_cases queue with hpop | ⟨head, segs, e₁, hpop⟩
    · have hidx := (Dma.popChain_eq_none hpop).2 hready
      rw [Dma.outstanding] at hk
      bv_omega
    · by_cases hfirst : Spared e 0
      · obtain ⟨x', e', hturn, hnext⟩ := h.turn hpop x any
        obtain ⟨hfollows, hiff⟩ := hnext hfirst
        have hout := hfollows.outstanding
        refine .turn (ih (fun hall => ?_) x' true (by omega)) hturn
        obtain ⟨i, rfl⟩ : ∃ i, j = i + 1 := by
          cases j with
          | zero => exact absurd hfirst hnot
          | succ i => exact ⟨i, rfl⟩
        exact hnot ((hiff i hj).mp (hall (by rwa [hfollows.same.queueReady]) i (by omega)))
      · refine ⟨0, by omega, ?_⟩
        dsimp only
        rw [h.zero, hpop]
        exact ⟨hfirst, by simp⟩

end QueueLoop

end Loops

namespace Net

/-- The transmit loop is to spare the index of the available ring. -/
lemma queueLoop_transmitLoop :
    QueueLoop txQueue (fun e k => e.IndexSpared txQueue k) transmitLoop where
  zero _ _ _ := rfl
  stop hpop fuel n any := by
    cases fuel with
    | zero => rfl
    | succ fuel => rw [transmitLoop, hpop]
  turn hpop n any := by
    refine ⟨_, _, fun fuel => by rw [transmitLoop, hpop], fun hspared => ?_⟩
    have hnext := (follows_push hpop hspared 0).1
    exact ⟨hnext, fun k _ => hnext.indexSpared k⟩

end Net

namespace Rng

/-- The buffers that are filled are in RAM. -/
lemma fill_outside (segs : List Segment) (r : Rng) (e : Dma) (written : ℕ) :
    e.ram.Outside (fun i => ∃ s ∈ segs, s.deviceWrites = true ∧ e.ram.Covers s.addr s.len i)
      (fill segs r e written).2.1.ram := by
  induction segs generalizing r e written with
  | nil => exact .refl _ _
  | cons s segs ih =>
    rw [fill]
    split
    · next hw =>
      have hwrite := e.writeGuestBytes_covers s.addr (randomBytes s.len r).1
      rw [randomBytes_length] at hwrite
      have hrest : ∀ r' written', e.ram.Outside
          (fun i => ∃ t ∈ s :: segs, t.deviceWrites = true ∧ e.ram.Covers t.addr t.len i)
          (fill segs r' (e.writeGuestBytes s.addr (randomBytes s.len r).1).2 written').2.1.ram := by
        intro r' written'
        refine (hwrite.mono fun i hi => ?_).trans ((ih r' _ written').mono fun i hi => ?_)
        · exact ⟨s, List.mem_cons_self, hw, hi⟩
        · obtain ⟨t, ht, htw, hcovers⟩ := hi
          exact ⟨t, List.mem_cons_of_mem s ht, htw, (Dram.covers_of_len hwrite.1).mp hcovers⟩
      dsimp only
      split
      · next heq =>
        rw [heq] at hrest
        exact hrest _ _
      · next heq =>
        rw [heq] at hrest
        exact hrest _ _
    · refine (ih r e written).mono fun i hi => ?_
      obtain ⟨t, ht, htw, hcovers⟩ := hi
      exact ⟨t, List.mem_cons_of_mem s ht, htw, hcovers⟩

/-- The loop of the entropy source is to spare what it still has to read. -/
lemma queueLoop_notifyLoop (queue : ℕ) :
    QueueLoop queue (fun e k => e.QueueSpared queue k) (notifyLoop queue) where
  zero _ _ _ := rfl
  stop hpop fuel r any := by
    cases fuel with
    | zero => rfl
    | succ fuel => rw [notifyLoop, hpop]
  turn := by
    intro e head segs e₁ hpop r any
    refine ⟨_, _, fun fuel => by rw [notifyLoop, hpop], fun hspared => ?_⟩
    have hfill := fill_outside segs r e₁ 0
    refine follows_fill hpop (grants_fill (fun _ hs => hs) r e₁ 0).core (hfill.mono ?_) hspared _
    rintro i ⟨s, hs, hw, hcovers⟩
    rw [Dma.chainAhead_zero hpop] at hs
    obtain ⟨-, -, -, rfl⟩ := Dma.popChain_eq_some hpop
    exact ⟨s, hs, hw, hcovers⟩

end Rng

/-! ## A ring that feeds itself -/

/-- The two rings of the queue are one, in which a chain waits: completing it publishes the next. -/
structure Chasing (e : Dma) (queue : ℕ) : Prop where
  ready : e.queueReady queue = true
  ring : (e.core.queues queue).avail = (e.core.queues queue).used
  block : e.ram.HasBlock ((e.core.queues queue).used + 2) 2
  waiting : e.outstanding queue ≠ 0

lemma Chasing.popChain {e : Dma} {queue : ℕ} (h : Chasing e queue) :
    ∃ head segs, e.popChain queue = (some (head, segs), e.taken queue) := by
  have hne : ¬ (e.core.queues queue).lastAvail = e.availIdx queue := by
    intro heq
    refine h.waiting ?_
    rw [Dma.outstanding, heq, BitVec.sub_self]
    rfl
  rw [Dma.popChain_eq, h.ready, if_neg (by simp), if_neg hne]
  exact ⟨_, _, rfl⟩

lemma Chasing.push {e : Dma} {queue : ℕ} (h : Chasing e queue) (head : U16) (written : ℕ) :
    Chasing ((e.taken queue).pushUsed queue head written) queue := by
  have hsame := e.taken_sameQueues queue
  have hrings := hsame.rings queue
  have hcore := (e.taken queue).pushUsed_core queue head written
  have hready : (e.taken queue).queueReady queue = true := (hsame.queueReady queue).trans h.ready
  have hlen := ((e.taken queue).pushUsed_outside queue head written).1
  have hblock : ((e.taken queue).pushUsed queue head written).ram.HasBlock
      ((e.core.queues queue).used + 2) 2 := h.block.of_len hlen
  refine ⟨?_, ?_, ?_, ?_⟩
  · rw [Dma.queueReady, hcore]
    exact hready
  · rw [hcore, hrings.avail, hrings.used]
    exact h.ring
  · rw [hcore, hrings.used]
    exact hblock
  · -- both indices have gone on by one
    have hidx : ((e.taken queue).pushUsed queue head written).availIdx queue =
        e.availIdx queue + 1 := by
      have hnumber := Dma.pushUsed_number hready head written 0
      have hblock' : (e.taken queue).ram.HasBlock ((e.core.queues queue).used + 2) 2 := h.block
      rw [Dma.number_zero, Dma.number, hrings.used, if_pos hblock'] at hnumber
      rw [Dma.availIdx, hcore, hrings.avail, h.ring, ← hrings.used, ← hcore, ← Dma.usedIdx, hnumber,
        Dma.availIdx, h.ring, Dma.usedIdx, hrings.used]
      rfl
    have hwaiting := h.waiting
    rw [Dma.outstanding] at hwaiting ⊢
    rw [hidx, hcore, Dma.taken_queues, Function.update_self]
    dsimp only
    bv_omega

lemma Chasing.transmitLoop {e : Dma} (h : Chasing e Net.txQueue) (fuel : ℕ) (n : Net) (any : Bool) :
    Chasing (Net.transmitLoop fuel n e any).2.1 Net.txQueue := by
  induction fuel generalizing n e any with
  | zero => exact h
  | succ fuel ih =>
    obtain ⟨head, segs, hpop⟩ := h.popChain
    rw [Net.transmitLoop, hpop]
    exact ih (h.push head 0) _ true

/-- With one ring for both, the card finds another chain to transmit after every one that it
completes. -/
lemma Chasing.not_ends {e : Dma} (h : Chasing e Net.txQueue) (n : Net) (bound : ℕ) :
    ¬ Ends Net.txQueue bound fun fuel => Net.transmitLoop fuel n e false := by
  rintro ⟨k, -, hk⟩
  have hnone := (hk k (Nat.le_refl k)).2
  obtain ⟨head, segs, hpop⟩ := (h.transmitLoop k n false).popChain
  rw [hpop] at hnone
  cases hnone

/-! ## The result -/

lemma Dma.outstanding_le (e : Dma) (queue : ℕ) : e.outstanding queue ≤ 2 ^ 16 - 1 :=
  Nat.le_pred_of_lt (BitVec.isLt _)

/-- A queue with one descriptor and its rings where they are given. -/
def ringsAt (avail used : U64) (mem : ℕ → U8) : Dma where
  core := { Core.new 0x10002000 1 2 with
    queues := fun _ => ⟨1, true, dramBase + 1024, avail, used, 0⟩ }
  ram := ⟨mem, 4096, 1, fun _ => false, [], false, page_fits⟩
  plic := Plic.new 1
  log := []
  fuel := 0

/-- Both rings of the queue are at the start of RAM, and a chain waits. -/
def aliasedRings : Dma := ringsAt dramBase dramBase fun i => if i = 2 then 1 else 0

lemma aliasedRings_chasing : Chasing aliasedRings Net.txQueue :=
  ⟨by decide, rfl, by decide, by decide⟩

/-- Rings apart from each other, and a chain with a buffer of sixteen bytes at half of the page. -/
def separateRings : Dma := ringsAt dramBase (dramBase + 512) fun i =>
  if i = 2 then 1 else if i = 1025 then 8 else if i = 1027 then 0x80 else if i = 1032 then 16
  else if i = 1036 then 2 else 0

lemma separateRings_block : separateRings.ram.HasBlock dramBase 4096 := by decide

/-- What the device writes there for the chain. -/
lemma separateRings_writes {queue i : ℕ} (hq : queue < 2) :
    (separateRings.PublishByte queue (separateRings.number queue 0) i →
      Holds (dramBase + BitVec.ofNat 64 514) 10 i) ∧
    (separateRings.BufferByte queue 0 i → Holds (dramBase + BitVec.ofNat 64 2048) 16 i) := by
  have hslot : ∀ q < 2, (separateRings.core.queues q).usedSlot (separateRings.number q 0) =
      dramBase + BitVec.ofNat 64 514 + BitVec.ofNat 64 2 := by decide +kernel
  have hchain : ∀ q < 2, (separateRings.chainAhead q 0).map
      (fun s => (s.addr, s.len)) = [(dramBase + BitVec.ofNat 64 2048, 16)] := by decide +kernel
  constructor
  · intro h
    rw [Dma.PublishByte, hslot queue hq] at h
    rcases h with h | h | h
    · exact h.2.sub (by omega)
    · rw [BitVec.add_assoc] at h
      exact h.2.sub (k := 6) (by omega)
    · exact h.2.mono (by omega)
  · rintro ⟨s, hs, -, hcovers⟩
    have hmem := List.mem_map_of_mem (f := fun s : Segment => (s.addr, s.len)) hs
    rw [hchain queue hq, List.mem_singleton] at hmem
    obtain ⟨haddr, hlen⟩ := Prod.mk.inj hmem
    rw [haddr, hlen] at hcovers
    exact hcovers.2

lemma separateRings_queueKept {queue : ℕ} (hq : queue < 2) : separateRings.QueueKept queue := by
  have hone : ∀ q < 2, separateRings.outstanding q = 1 := by decide
  have hblock := separateRings_block
  intro _ k hk
  rw [hone queue hq] at hk
  obtain rfl : k = 0 := by omega
  refine ⟨fun i hi hP => ?_, fun i hi hP => ?_, fun k' hk' hlt => ?_⟩
  · have hindex : Holds (dramBase + BitVec.ofNat 64 2) 2 i := hi.2
    rcases hP with hP | hP
    · exact hblock.apart (by omega) (by omega) i hindex ((separateRings_writes hq).1 hP)
    · exact hblock.apart (by omega) (by omega) i hindex ((separateRings_writes hq).2 hP)
  · have hcount : Holds (dramBase + BitVec.ofNat 64 514) 2 i := hi.2
    exact hblock.apart (by omega) (by omega) i hcount ((separateRings_writes hq).2 hP)
  · rw [hone queue hq] at hlt
    omega

end Virtio

end RiscvEmu
