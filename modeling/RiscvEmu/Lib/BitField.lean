import Mathlib.Tactic.Tauto
import Mathlib.Data.Nat.Notation
import Mathlib.Algebra.GroupWithZero.Nat

/-!
# Fields of a machine word

A field of a word is a mask.  `merge mask old new` replaces the field `mask` of `old` by that of
`new`; the lemmas say how the result reads through another mask.
-/

namespace BitField

variable {w : ℕ} {mask k old new : BitVec w}

/-- The bits of `new` under `mask`, those of `old` elsewhere. -/
def merge (mask old new : BitVec w) : BitVec w := (old &&& ~~~mask) ||| (new &&& mask)

/-- What is disjoint from a field lies in its complement. -/
lemma not_and_of_disjoint (h : mask &&& k = 0) : ~~~mask &&& k = k := by
  ext i hi
  have hb : (mask[i] && k[i]) = false := by
    simpa using congrArg (fun x : BitVec w => x[i]) h
  rw [BitVec.getElem_and, BitVec.getElem_not]
  revert hb
  cases mask[i] <;> cases k[i] <;> simp

lemma or_and_of_disjoint (h : new &&& k = 0) : (old ||| new) &&& k = old &&& k := by
  rw [BitVec.and_or_distrib_right, h]
  exact BitVec.or_zero

lemma clear_and_of_disjoint (h : mask &&& k = 0) : (old &&& ~~~mask) &&& k = old &&& k := by
  rw [BitVec.and_assoc, not_and_of_disjoint h]

lemma assign_and_of_disjoint {c : Prop} [Decidable c] (h : mask &&& k = 0) :
    (if c then old ||| mask else old &&& ~~~mask) &&& k = old &&& k := by
  split
  · exact or_and_of_disjoint h
  · exact clear_and_of_disjoint h

lemma clear_or_and_of_disjoint (hm : mask &&& k = 0) (hn : new &&& k = 0) :
    ((old &&& ~~~mask) ||| new) &&& k = old &&& k := by
  rw [or_and_of_disjoint hn, clear_and_of_disjoint hm]

/-- A field that was cleared and written reads as what was written. -/
lemma clear_or_and_self : ((old &&& ~~~mask) ||| new) &&& mask = new &&& mask := by
  rw [BitVec.and_or_distrib_right, BitVec.and_assoc]
  simp

/-- Words that agree under a mask agree under every part of it. -/
lemma and_of_subset (h : old &&& mask = new &&& mask) (hk : mask &&& k = k) :
    old &&& k = new &&& k := by
  rw [← hk, ← BitVec.and_assoc, ← BitVec.and_assoc, h]

/-- Bits outside the field are not touched. -/
lemma merge_and_of_disjoint (h : mask &&& k = 0) : merge mask old new &&& k = old &&& k := by
  refine clear_or_and_of_disjoint h ?_
  rw [BitVec.and_assoc, h]
  exact BitVec.and_zero

lemma merge_not_zero : merge (~~~0) old new = new := by
  ext i hi
  simp [merge]

lemma merge_zero : merge 0 old new = old := by
  ext i hi
  simp [merge]

/-- Inside the field one reads the new bits. -/
lemma merge_and_of_subset (h : mask &&& k = k) : merge mask old new &&& k = new &&& k := by
  refine and_of_subset (clear_or_and_self.trans ?_) h
  rw [BitVec.and_assoc, BitVec.and_self]

/-- A word that agrees with the old one under `k` leaves the bits under `k` as they were. -/
lemma merge_and_of_agree (h : new &&& (k &&& mask) = old &&& (k &&& mask)) :
    merge mask old new &&& k = old &&& k := by
  have hold : old &&& k = (old &&& ~~~mask ||| old &&& mask) &&& k := by
    rw [← BitVec.and_or_distrib_left, BitVec.or_comm]
    simp
  rw [hold, merge, BitVec.and_or_distrib_right, BitVec.and_or_distrib_right, BitVec.and_assoc new,
    BitVec.and_comm mask, h, ← BitVec.and_comm mask, ← BitVec.and_assoc old]

/-- What is outside a union is outside its parts. -/
lemma not_and_not_or : ~~~old &&& ~~~(old ||| new) = ~~~(old ||| new) := by
  rw [BitVec.not_or, ← BitVec.and_assoc, BitVec.and_self]

lemma and_not_or : old &&& ~~~(old ||| new) = 0 := by
  simp [BitVec.not_or, ← BitVec.and_assoc]

/-- A union adds nothing exactly if it has no bit outside. -/
lemma or_eq_left_iff : old ||| new = old ↔ new &&& ~~~old = 0 := by
  constructor
  · intro h
    rw [← h]
    grind
  · intro h
    ext i hi
    have hb : (new[i] && !old[i]) = false := by
      simpa using congrArg (fun x : BitVec w => x[i]) h
    rw [BitVec.getElem_or]
    revert hb
    cases old[i] <;> cases new[i] <;> simp

/-! ## Bits that are only added -/

/-- Every bit of `f` is one of `g`, place by place. -/
def Within {ι : Type} (f g : ι → BitVec w) : Prop := ∀ i, f i ||| g i = g i

section Within

variable {ι : Type} {f g h : ι → BitVec w}

lemma Within.refl (f : ι → BitVec w) : Within f f := fun _ => BitVec.or_self

lemma Within.trans (hfg : Within f g) (hgh : Within g h) : Within f h := fun i => by
  rw [← hgh i, ← BitVec.or_assoc, hfg i]

/-- What lies between two equal families is equal to them. -/
lemma Within.squeeze (hfg : Within f g) (hgh : Within g h) (heq : h = f) : g = f := by
  funext i
  have hgf : g i ||| f i = f i := heq ▸ hgh i
  rw [← hgf, BitVec.or_comm, hfg i]

end Within

/-- A bit tested by shifting it to the bottom. -/
lemma shiftRight_and_one_ne_zero (x : BitVec 64) (n : ℕ) :
    (x >>> n) &&& 1 ≠ 0 ↔ x.getLsbD n = true := by
  have h := BitVec.and_one_eq_setWidth_ofBool_getLsbD (x := x >>> n)
  rw [BitVec.getLsbD_ushiftRight, Nat.add_zero] at h
  rw [show (1 : BitVec 64) = 1#64 from rfl, h]
  cases x.getLsbD n <;> decide

/-- A field of `k` bits from bit `n` on is zero. -/
lemma and_field_eq_zero {x mask : BitVec w} {n k : ℕ} (h : mask.toNat = (2 ^ k - 1) <<< n) :
    x &&& mask = 0#w ↔ x.toNat / 2 ^ n % 2 ^ k = 0 := by
  have hand : (x &&& mask).toNat = (x.toNat / 2 ^ n % 2 ^ k) <<< n := by
    rw [BitVec.toNat_and, h, ← Nat.and_two_pow_sub_one_eq_mod, ← Nat.shiftRight_eq_div_pow]
    apply Nat.eq_of_testBit_eq
    intro i
    simp only [Nat.testBit_and, Nat.testBit_shiftLeft, Nat.testBit_shiftRight]
    by_cases hi : n ≤ i <;> simp [hi]
  rw [← BitVec.toNat_inj, hand, BitVec.toNat_zero, Nat.shiftLeft_eq]
  simp

/-- Parts that do not overlap are put together by addition. -/
lemma or_eq_add {a b n : ℕ} (ha : a % 2 ^ n = 0) (hb : b < 2 ^ n) : a ||| b = a + b := by
  obtain ⟨k, rfl⟩ := Nat.dvd_of_mod_eq_zero ha
  exact (Nat.two_pow_add_eq_or_of_lt hb k).symm

/-- A bit tested by masking it. -/
lemma and_bit_ne_zero {x bit : BitVec w} {n : ℕ} (h : bit = BitVec.twoPow w n) :
    x &&& bit ≠ 0#w ↔ x.getLsbD n = true := by
  rw [h, BitVec.and_twoPow]
  by_cases hn : n < w
  · have hpow : BitVec.twoPow w n ≠ 0#w := by
      intro h0
      have := congrArg (fun y : BitVec w => y.getLsbD n) h0
      simp [hn] at this
    split <;> simp_all
  · simp [BitVec.getLsbD_of_ge x n (by omega)]

end BitField
