import RiscvEmu.Virtio.Core

/-!
# Blocks of guest memory

A block is a guest address and a length; the bytes of RAM it holds are found by adding up
addresses as the devices do, modulo the width of an address.  A write changes the bytes of its
block, a read depends on the bytes of its block, and both need the block to lie in RAM.
-/

namespace RiscvEmu

/-- The block of `n` bytes at guest address `addr` holds byte `i` of RAM. -/
def Holds (addr : U64) (n i : ℕ) : Prop :=
  ∃ k < n, addr + BitVec.ofNat 64 k = dramBase + BitVec.ofNat 64 i

lemma Holds.sub {addr : U64} {k n m i : ℕ} (h : Holds (addr + BitVec.ofNat 64 k) n i)
    (hm : k + n ≤ m) : Holds addr m i := by
  obtain ⟨j, hj, heq⟩ := h
  refine ⟨k + j, by omega, ?_⟩
  rw [← heq, BitVec.ofNat_add, BitVec.add_assoc]

lemma Holds.mono {addr : U64} {n m i : ℕ} (h : Holds addr n i) (hm : n ≤ m) : Holds addr m i := by
  obtain ⟨j, hj, heq⟩ := h
  exact ⟨j, by omega, heq⟩

/-- Two blocks have no byte of RAM in common. -/
def BlocksApart (addr : U64) (n : ℕ) (addr' : U64) (n' : ℕ) : Prop :=
  ∀ i, Holds addr n i → ¬ Holds addr' n' i

lemma BlocksApart.symm {addr addr' : U64} {n n' : ℕ} (h : BlocksApart addr n addr' n') :
    BlocksApart addr' n' addr n := fun i hi hi' => h i hi' hi

namespace Dram

/-- From `d` to `d'` only bytes in `P` changed. -/
def Outside (P : ℕ → Prop) (d d' : Dram) : Prop := d'.len = d.len ∧ ∀ i, ¬ P i → d'.mem i = d.mem i

section Outside

variable {P Q : ℕ → Prop} {d d' d'' : Dram}

lemma Outside.refl (P : ℕ → Prop) (d : Dram) : Outside P d d := ⟨rfl, fun _ _ => rfl⟩

lemma Outside.trans (h : Outside P d d') (h' : Outside P d' d'') : Outside P d d'' :=
  ⟨h'.1.trans h.1, fun i hi => (h'.2 i hi).trans (h.2 i hi)⟩

lemma Outside.mono (h : Outside P d d') (hPQ : ∀ i, P i → Q i) : Outside Q d d' :=
  ⟨h.1, fun i hi => h.2 i fun hp => hi (hPQ i hp)⟩

end Outside

/-! ## Writes -/

variable {d d' : Dram} {addr : U64} {src : List U8} {n : ℕ}

lemma offsetOf_eq_some {o : ℕ} (h : offsetOf addr = some o) :
    addr = dramBase + BitVec.ofNat 64 o := by
  unfold offsetOf at h
  split at h
  · cases h
    rw [BitVec.ofNat_toNat, BitVec.setWidth_eq, BitVec.add_comm, BitVec.sub_add_cancel]
  · cases h

lemma writeBytes_eq_some (h : d.writeBytes addr src = some d') :
    ∃ o, addr = dramBase + BitVec.ofNat 64 o ∧ o + src.length ≤ d.len ∧ d'.len = d.len ∧
      d'.mem = Bytes.storeBytes d.mem o src := by
  unfold writeBytes at h
  split at h
  · cases h
  · next o ho =>
      refine ⟨o, offsetOf_eq_some ho, ?_⟩
      split at h
      · next hnil =>
          subst hnil
          split at h
          · next hle =>
              cases h
              refine ⟨by simpa using hle, rfl, ?_⟩
              funext i
              rw [Bytes.storeBytes_of_not_mem (by simp)]
          · cases h
      · split at h
        · next hr =>
            cases h
            rw [inRange_iff] at hr
            exact ⟨by omega, by simp, by simp⟩
        · cases h

/-- A write changes the bytes of its block, none of them outside RAM. -/
lemma writeBytes_outside (h : d.writeBytes addr src = some d') :
    Outside (fun i => Holds addr src.length i ∧ i < d.len) d d' := by
  obtain ⟨o, haddr, hle, hlen, hmem⟩ := writeBytes_eq_some h
  refine ⟨hlen, fun i hi => ?_⟩
  rw [hmem, Bytes.storeBytes_of_not_mem]
  rintro ⟨hlo, hhi⟩
  refine hi ⟨⟨i - o, by omega, ?_⟩, by omega⟩
  rw [haddr, BitVec.add_assoc, ← BitVec.ofNat_add, Nat.add_sub_cancel' hlo]

/-! ## Reads -/

/-- A block that lies in RAM. -/
def HasBlock (d : Dram) (addr : U64) (n : ℕ) : Prop :=
  dramBase ≤ addr ∧ (addr - dramBase).toNat + n ≤ d.len

instance : Decidable (d.HasBlock addr n) := inferInstanceAs (Decidable (_ ∧ _))

lemma HasBlock.of_len (h : d.HasBlock addr n) (hlen : d'.len = d.len) : d'.HasBlock addr n :=
  ⟨h.1, by rw [hlen]; exact h.2⟩

lemma HasBlock.sub (h : d.HasBlock addr n) {k m : ℕ} (hkm : k + m ≤ n) :
    d.HasBlock (addr + BitVec.ofNat 64 k) m ∧
      (addr + BitVec.ofNat 64 k - dramBase).toNat = (addr - dramBase).toNat + k := by
  have hfits := d.fits
  obtain ⟨hbase, hle⟩ := h
  have hoff : (addr + BitVec.ofNat 64 k - dramBase).toNat = (addr - dramBase).toNat + k := by
    rw [show addr + BitVec.ofNat 64 k - dramBase =
      (addr - dramBase) + BitVec.ofNat 64 k by bv_omega,
      BitVec.toNat_add, BitVec.toNat_ofNat, Nat.mod_eq_of_lt (a := k) (by omega),
      Nat.mod_eq_of_lt (by omega)]
  refine ⟨⟨?_, by omega⟩, hoff⟩
  rw [BitVec.le_def] at hbase ⊢
  rw [BitVec.toNat_sub_of_le (BitVec.le_def.mpr hbase)] at hle
  rw [BitVec.toNat_add, BitVec.toNat_ofNat, Nat.mod_eq_of_lt (a := k) (by omega),
    Nat.mod_eq_of_lt (by omega)]
  omega

lemma HasBlock.apart (h : d.HasBlock addr n) {k m k' m' : ℕ} (hkm : k + m ≤ k') (hn : k' + m' ≤ n) :
    BlocksApart (addr + BitVec.ofNat 64 k) m (addr + BitVec.ofNat 64 k') m' := by
  have hfits := d.fits
  have hle := h.2
  rintro i ⟨j, hj, heq⟩ ⟨j', hj', heq'⟩
  have hsum : addr + BitVec.ofNat 64 k + BitVec.ofNat 64 j =
      addr + BitVec.ofNat 64 k' + BitVec.ofNat 64 j' := heq.trans heq'.symm
  rw [BitVec.add_assoc, BitVec.add_assoc, ← BitVec.ofNat_add, ← BitVec.ofNat_add,
    BitVec.add_right_inj] at hsum
  have hnat := congrArg BitVec.toNat hsum
  rw [BitVec.toNat_ofNat, BitVec.toNat_ofNat, Nat.mod_eq_of_lt (by omega),
    Nat.mod_eq_of_lt (by omega)] at hnat
  omega

lemma HasBlock.offsetOf (h : d.HasBlock addr n) : offsetOf addr = some (addr - dramBase).toNat :=
  if_pos h.1

lemma HasBlock.inRange (h : d.HasBlock addr n) (h0 : 0 < n) :
    d.inRange (addr - dramBase).toNat n = true := by
  rw [inRange_iff]
  have := h.2
  omega

lemma HasBlock.readBytes (h : d.HasBlock addr n) (h0 : 0 < n) : d.readBytes addr n =
    some ((List.range n).map fun i => d.mem ((addr - dramBase).toNat + i)) := by
  rw [Dram.readBytes, h.offsetOf]
  dsimp only
  rw [if_neg (by omega), if_pos (h.inRange h0)]

lemma HasBlock.writeBytes (h : d.HasBlock addr src.length) (h0 : 0 < src.length) :
    ∃ d', d.writeBytes addr src = some d' ∧ d'.len = d.len ∧
      d'.mem = Bytes.storeBytes d.mem (addr - dramBase).toNat src := by
  rw [Dram.writeBytes, h.offsetOf]
  dsimp only
  rw [if_neg (List.ne_nil_of_length_pos h0), if_pos (h.inRange h0)]
  exact ⟨_, rfl, by simp, by simp⟩

lemma readBytes_congr (hlen : d'.len = d.len)
    (hmem : ∀ i, i < d.len → Holds addr n i → d'.mem i = d.mem i) :
    d'.readBytes addr n = d.readBytes addr n := by
  unfold readBytes
  split
  · rfl
  · next o ho =>
      have hr : d'.inRange o n = d.inRange o n := by simp only [inRange, hlen]
      rw [hlen, hr]
      split
      · rfl
      split
      · next hin =>
          rw [inRange_iff] at hin
          congr 1
          refine List.map_congr_left fun k hk => ?_
          rw [List.mem_range] at hk
          refine hmem _ (by omega) ⟨k, hk, ?_⟩
          rw [offsetOf_eq_some ho, BitVec.add_assoc, ← BitVec.ofNat_add]
      · rfl

/-! ## Bytes that can be accessed -/

/-- Byte `i` of RAM is in a block that lies in RAM as a whole, so that a device can access it. -/
def Covers (d : Dram) (addr : U64) (n i : ℕ) : Prop := d.HasBlock addr n ∧ Holds addr n i

lemma covers_of_len (hlen : d'.len = d.len) {i : ℕ} : d'.Covers addr n i ↔ d.Covers addr n i := by
  rw [Covers, Covers, HasBlock, HasBlock, hlen]

/-- A write changes bytes that it can access. -/
lemma writeBytes_covers (h : d.writeBytes addr src = some d') :
    Outside (d.Covers addr src.length) d d' := by
  have hfits := d.fits
  obtain ⟨o, haddr, hle, -, -⟩ := writeBytes_eq_some h
  have hoff : addr - dramBase = BitVec.ofNat 64 o := by
    rw [haddr, BitVec.add_comm, BitVec.add_sub_cancel]
  have hblock : d.HasBlock addr src.length := by
    refine ⟨?_, ?_⟩
    · rw [haddr, BitVec.le_def, BitVec.toNat_add, BitVec.toNat_ofNat,
        Nat.mod_eq_of_lt (a := o) (by omega), Nat.mod_eq_of_lt (by omega)]
      omega
    · rw [hoff, BitVec.toNat_ofNat, Nat.mod_eq_of_lt (by omega)]
      exact hle
  exact (writeBytes_outside h).mono fun i hi => ⟨hblock, hi.1⟩

/-- A block that does not lie in RAM cannot be read. -/
lemma readBytes_of_not_hasBlock (h : ¬ d.HasBlock addr n) (h0 : 0 < n) :
    d.readBytes addr n = none := by
  rw [readBytes]
  by_cases hbase : dramBase ≤ addr
  · have hnot : ¬ d.inRange (addr - dramBase).toNat n = true := by
      rw [inRange_iff]
      intro hr
      exact h ⟨hbase, by omega⟩
    rw [offsetOf, if_pos hbase]
    dsimp only
    rw [if_neg (by omega), if_neg hnot]
  · rw [offsetOf, if_neg hbase]

end Dram

lemma readLe_map (mem : Bytes.Mem) (off : ℕ) {n : ℕ} (hn : n ≤ 8) :
    readLe ((List.range n).map fun i => mem (off + i)) = Bytes.load mem off n := by
  rw [readLe, List.take_of_length_le (by simpa using hn)]
  clear hn
  induction n generalizing off with
  | zero => rfl
  | succ n ih =>
    rw [List.range_succ_eq_map, List.map_cons, List.foldr_cons, List.map_map, Bytes.load, ← ih]
    congr 4
    funext i
    rw [Function.comp_apply]
    congr 1
    omega

namespace Virtio

namespace Dma

variable (e : Dma)

lemma writeGuestBytes_eq (addr : U64) (src : List U8) :
    (e.writeGuestBytes addr src).2 = { e with
      ram := (e.writeGuestBytes addr src).2.ram, log := (e.writeGuestBytes addr src).2.log } := by
  unfold writeGuestBytes
  split <;> rfl

@[simp] lemma writeGuestBytes_core (addr : U64) (src : List U8) :
    (e.writeGuestBytes addr src).2.core = e.core := by
  rw [writeGuestBytes_eq]

@[simp] lemma writeGuest_core (addr : U64) (size : ℕ) (v : U64) :
    (e.writeGuest addr size v).core = e.core := e.writeGuestBytes_core _ _

/-- A device writes to its block, in RAM, or not at all. -/
lemma writeGuestBytes_outside (addr : U64) (src : List U8) :
    e.ram.Outside (fun i => Holds addr src.length i ∧ i < e.ram.len)
      (e.writeGuestBytes addr src).2.ram := by
  unfold writeGuestBytes
  split
  · next ram h => exact Dram.writeBytes_outside h
  · exact .refl _ _

lemma writeGuest_outside (addr : U64) (size : ℕ) (v : U64) :
    e.ram.Outside (fun i => Holds addr size i ∧ i < e.ram.len) (e.writeGuest addr size v).ram := by
  have h := e.writeGuestBytes_outside addr ((List.range size).map (Bytes.byte v))
  rwa [List.length_map, List.length_range] at h

lemma writeGuestBytes_covers (addr : U64) (src : List U8) :
    e.ram.Outside (e.ram.Covers addr src.length) (e.writeGuestBytes addr src).2.ram := by
  unfold writeGuestBytes
  split
  · next ram h => exact Dram.writeBytes_covers h
  · exact .refl _ _

lemma writeGuest_covers (addr : U64) (size : ℕ) (v : U64) :
    e.ram.Outside (e.ram.Covers addr size) (e.writeGuest addr size v).ram := by
  have h := e.writeGuestBytes_covers addr ((List.range size).map (Bytes.byte v))
  rwa [List.length_map, List.length_range] at h

variable {e} {e' : Dma}

variable {addr : U64} {size : ℕ}

lemma readGuest_congr (hlen : e'.ram.len = e.ram.len)
    (hmem : ∀ i, i < e.ram.len → Holds addr size i → e'.ram.mem i = e.ram.mem i) :
    e'.readGuest addr size = e.readGuest addr size := by
  unfold readGuest
  rw [Dram.readBytes_congr hlen hmem]

/-- What a write apart from a block leaves to be read there. -/
lemma readGuest_of_outside {P : ℕ → Prop} (h : e.ram.Outside P e'.ram)
    (hP : ∀ i, Holds addr size i → ¬ P i) : e'.readGuest addr size = e.readGuest addr size :=
  readGuest_congr h.1 fun i _ hi => h.2 i (hP i hi)

lemma readGuest_of_not_hasBlock (h : ¬ e.ram.HasBlock addr size) (h0 : 0 < size) :
    e.readGuest addr size = 0 := by
  rw [readGuest, Dram.readBytes_of_not_hasBlock h h0]

/-- What is read depends on the bytes that can be accessed. -/
lemma readGuest_of_covers {P : ℕ → Prop} (h : e.ram.Outside P e'.ram) (h0 : 0 < size)
    (hP : ∀ i, e.ram.Covers addr size i → ¬ P i) :
    e'.readGuest addr size = e.readGuest addr size := by
  by_cases hblock : e.ram.HasBlock addr size
  · exact readGuest_of_outside h fun i hi => hP i ⟨hblock, hi⟩
  · have hblock' : ¬ e'.ram.HasBlock addr size := fun h' => hblock (h'.of_len h.1.symm)
    rw [readGuest_of_not_hasBlock hblock h0, readGuest_of_not_hasBlock hblock' h0]

lemma readGuest_eq_load (h : e.ram.HasBlock addr size) (h0 : 0 < size)
    (h8 : size ≤ 8) :
    e.readGuest addr size = Bytes.load e.ram.mem (addr - dramBase).toNat size := by
  rw [readGuest, h.readBytes h0]
  exact readLe_map _ _ h8

lemma getLsbD_readGuest_writeGuest (v : U64)
    (h : e.ram.HasBlock addr size) (h0 : 0 < size) (h8 : size ≤ 8) (j : ℕ) :
    ((e.writeGuest addr size v).readGuest addr size).getLsbD j =
      (decide (j < 8 * size) && v.getLsbD j) := by
  have hlen : ((List.range size).map (Bytes.byte v)).length = size := by simp
  have hblock : e.ram.HasBlock addr ((List.range size).map (Bytes.byte v)).length := by rwa [hlen]
  obtain ⟨ram, hwrite, hram, hmem⟩ := hblock.writeBytes (by rwa [hlen])
  have he : e.writeGuest addr size v =
      { e with ram := ram, log := .dma addr ((List.range size).map (Bytes.byte v)).length ::
        e.log } := by
    rw [writeGuest, writeGuestBytes, hwrite]
  rw [he, readGuest_eq_load (h.of_len hram) h0 h8]
  dsimp only
  rw [hmem, Bytes.getLsbD_load _ h8]
  rcases Nat.lt_or_ge j (8 * size) with hj | hj
  · rw [Bytes.storeBytes, if_pos (by rw [hlen]; omega), Nat.add_sub_cancel_left,
      List.getD_eq_getElem?_getD, List.getElem?_map, List.getElem?_range (by omega)]
    simp only [Option.map_some, Option.getD_some, Bytes.byte, BitVec.getLsbD_setWidth,
      BitVec.getLsbD_ushiftRight]
    rw [show 8 * (j / 8) + j % 8 = j by omega]
    simp [hj, Nat.mod_lt]
  · simp [Nat.not_lt.mpr hj]

end Dma

end Virtio

end RiscvEmu
