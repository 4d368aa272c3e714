import Mathlib.Data.Nat.Notation
import Mathlib.Tactic.TypeStar
import Mathlib.Algebra.GroupWithZero.Nat

/-!
# Byte memories

A memory is a function from offsets to bytes.  `load` and `store` move a little-endian number of
at most eight bytes, `storeBytes` a block.
-/

namespace Bytes

/-- A byte memory. -/
abbrev Mem := ℕ → BitVec 8

/-- The little-endian number in the `n` bytes from `off`. -/
def load (mem : Mem) (off : ℕ) : ℕ → BitVec 64
  | 0 => 0
  | n + 1 => (mem off).setWidth 64 ||| load mem (off + 1) n <<< 8

/-- Byte `i` of a number. -/
def byte (value : BitVec 64) (i : ℕ) : BitVec 8 := (value >>> (8 * i)).setWidth 8

/-- Write the low `n` bytes of `value` from `off` on. -/
def store (mem : Mem) (off n : ℕ) (value : BitVec 64) : Mem := fun i =>
  if off ≤ i ∧ i < off + n then byte value (i - off) else mem i

/-- Write the block `bs` from `off` on. -/
def storeBytes (mem : Mem) (off : ℕ) (bs : List (BitVec 8)) : Mem := fun i =>
  if off ≤ i ∧ i < off + bs.length then bs.getD (i - off) 0 else mem i

variable {mem mem' : Mem} {off n i : ℕ} {value : BitVec 64}

/-! ## Stores, byte by byte -/

lemma store_of_mem (h : off ≤ i ∧ i < off + n) :
    store mem off n value i = byte value (i - off) := if_pos h

lemma store_of_not_mem (h : ¬ (off ≤ i ∧ i < off + n)) : store mem off n value i = mem i :=
  if_neg h

lemma storeBytes_of_not_mem {bs : List (BitVec 8)} (h : ¬ (off ≤ i ∧ i < off + bs.length)) :
    storeBytes mem off bs i = mem i := if_neg h

/-! ## Loads -/

lemma load_congr (h : ∀ i, off ≤ i → i < off + n → mem i = mem' i) :
    load mem off n = load mem' off n := by
  induction n generalizing off with
  | zero => rfl
  | succ n ih =>
    have hhead : mem off = mem' off := h off (Nat.le_refl off) (by omega)
    have htail : load mem (off + 1) n = load mem' (off + 1) n :=
      ih fun i hi hlt => h i (by omega) (by omega)
    simp only [load, hhead, htail]

lemma getLsbD_load (j : ℕ) (hn : n ≤ 8) :
    (load mem off n).getLsbD j = (decide (j < 8 * n) && (mem (off + j / 8)).getLsbD (j % 8)) := by
  induction n generalizing off j with
  | zero => simp [load]
  | succ n ih =>
    simp only [load, BitVec.getLsbD_or, BitVec.getLsbD_setWidth, BitVec.getLsbD_shiftLeft]
    rcases Nat.lt_or_ge j 8 with hj | hj
    · have h0 : j / 8 = 0 := by omega
      have h1 : j % 8 = j := by omega
      have h2 : j < 8 * (n + 1) := by omega
      have h3 : j < 64 := by omega
      simp [h0, h1, h2, h3, hj]
    · have hdiv : off + 1 + (j - 8) / 8 = off + j / 8 := by omega
      have hmod : (j - 8) % 8 = j % 8 := by omega
      have hbyte : (mem off).getLsbD j = false := BitVec.getLsbD_of_ge _ _ hj
      rw [ih (j - 8) (by omega), hdiv, hmod, hbyte]
      rcases Nat.lt_or_ge j (8 * (n + 1)) with hlt | hge
      · have hj' : ¬ j < 8 := by omega
        have h64 : j < 64 := by omega
        have hsub : j - 8 < 8 * n := by omega
        simp [hj', h64, hsub, hlt]
      · have hsub : ¬ j - 8 < 8 * n := by omega
        have hnlt : ¬ j < 8 * (n + 1) := by omega
        simp [hsub, hnlt]

lemma byte_load (hn : n ≤ 8) (hi : i < n) : byte (load mem off n) i = mem (off + i) := by
  ext k hk
  have hdiv : off + (8 * i + k) / 8 = off + i := by omega
  have hmod : (8 * i + k) % 8 = k := by omega
  have hlt : 8 * i + k < 8 * n := by omega
  rw [← BitVec.getLsbD_eq_getElem, ← BitVec.getLsbD_eq_getElem, byte, BitVec.getLsbD_setWidth,
    BitVec.getLsbD_ushiftRight, getLsbD_load _ hn, hdiv, hmod]
  simp [hk, hlt]

/-- A doubleword is loaded as it was stored. -/
lemma load_store_eight : load (store mem off 8 value) off 8 = value := by
  ext j hj
  have hdiv : off + j / 8 - off = j / 8 := by omega
  have hsum : 8 * (j / 8) + j % 8 = j := by omega
  have hmod : j % 8 < 8 := by omega
  rw [← BitVec.getLsbD_eq_getElem, getLsbD_load _ (Nat.le_refl 8), store_of_mem (by omega),
    hdiv, byte, BitVec.getLsbD_setWidth, BitVec.getLsbD_ushiftRight, hsum]
  simp [hj, hmod]

/-- Storing what is there changes nothing. -/
lemma store_load_eight : store mem off 8 (load mem off 8) = mem := by
  funext i
  by_cases h : off ≤ i ∧ i < off + 8
  · rw [store_of_mem h, byte_load (Nat.le_refl 8) (by omega), Nat.add_sub_cancel' h.1]
  · exact store_of_not_mem h

lemma load_store_disjoint {off' n' : ℕ} (h : off' + n' ≤ off ∨ off + n ≤ off') :
    load (store mem off n value) off' n' = load mem off' n' :=
  load_congr fun _ hi hlt => store_of_not_mem (by omega)

/-! ## Numbers made of bytes -/

/-- The little-endian number of `n` bytes. -/
def join (f : ℕ → BitVec 8) : ℕ → BitVec 64
  | 0 => 0
  | n + 1 => join f n ||| (f n).setWidth 64 <<< (8 * n)

variable {f g : ℕ → BitVec 8}

lemma join_congr (h : ∀ i < n, f i = g i) : join f n = join g n := by
  induction n with
  | zero => rfl
  | succ n ih => rw [join, join, ih fun i hi => h i (by omega), h n (by omega)]

lemma getLsbD_join (j : ℕ) (hn : n ≤ 8) :
    (join f n).getLsbD j = (decide (j < 8 * n) && (f (j / 8)).getLsbD (j % 8)) := by
  induction n with
  | zero => simp [join]
  | succ n ih =>
    rw [join, BitVec.getLsbD_or, ih (by omega), BitVec.getLsbD_shiftLeft, BitVec.getLsbD_setWidth]
    rcases Nat.lt_trichotomy (j / 8) n with hlt | heq | hgt
    · have h₁ : j < 8 * n := by omega
      have h₂ : j < 8 * (n + 1) := by omega
      simp [h₁, h₂]
    · have h₁ : ¬ j < 8 * n := by omega
      have h₂ : j < 8 * (n + 1) := by omega
      have h₃ : j < 64 := by omega
      have h₄ : j - 8 * n = j % 8 := by omega
      simp [h₁, h₂, h₃, h₄, heq]
      omega
    · have h₁ : ¬ j < 8 * n := by omega
      have h₂ : ¬ j < 8 * (n + 1) := by omega
      have hout : (f n).getLsbD (j - 8 * n) = false := BitVec.getLsbD_of_ge _ _ (by omega)
      simp [h₁, h₂, hout]

lemma load_eq_join (hn : n ≤ 8) : load mem off n = join (fun i => mem (off + i)) n := by
  ext j hj
  rw [← BitVec.getLsbD_eq_getElem, ← BitVec.getLsbD_eq_getElem, getLsbD_load _ hn,
    getLsbD_join _ hn]

/-- Joining the low bytes of a number cuts it off. -/
lemma join_byte (hn : n ≤ 8) :
    join (byte value) n = BitVec.ofNat 64 (value.toNat % 2 ^ (8 * n)) := by
  ext j hj
  have hsum : 8 * (j / 8) + j % 8 = j := by omega
  have hmod : j % 8 < 8 := by omega
  rw [← BitVec.getLsbD_eq_getElem, ← BitVec.getLsbD_eq_getElem, getLsbD_join _ hn, byte,
    BitVec.getLsbD_setWidth, BitVec.getLsbD_ushiftRight, hsum, BitVec.getLsbD_ofNat,
      Nat.testBit_mod_two_pow, ← BitVec.testBit_toNat]
  simp [hj, hmod]

lemma byte_join (hn : n ≤ 8) (hi : i < n) : byte (join f n) i = f i := by
  ext k hk
  have hdiv : (8 * i + k) / 8 = i := by omega
  have hmod : (8 * i + k) % 8 = k := by omega
  have hlt : 8 * i + k < 8 * n := by omega
  rw [← BitVec.getLsbD_eq_getElem, ← BitVec.getLsbD_eq_getElem, byte, BitVec.getLsbD_setWidth,
    BitVec.getLsbD_ushiftRight, getLsbD_join _ hn, hdiv, hmod]
  simp [hk, hlt]

end Bytes
