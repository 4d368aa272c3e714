import Mathlib

/-!
# Words as polynomials

A word stands for the polynomial over the field of two elements whose coefficients are its bits.
Sums are exclusive ors, and a shift that loses no bit is a product with a power of the variable.
-/

namespace BitPolynomial

open Polynomial

variable {w v : ℕ} {a b : BitVec w}

/-- The first `n` bits of a word. -/
noncomputable def firstBits (a : BitVec w) (n : ℕ) : (ZMod 2)[X] :=
  ∑ i ∈ Finset.range n, if a.getLsbD i then X ^ i else 0

/-- The polynomial of a word. -/
noncomputable def poly (a : BitVec w) : (ZMod 2)[X] := firstBits a w

lemma coeff_poly (a : BitVec w) (i : ℕ) : (poly a).coeff i = if a.getLsbD i then 1 else 0 := by
  have hbit : ∀ j, (if a.getLsbD j then X ^ j else 0 : (ZMod 2)[X]).coeff i =
      if i = j then if a.getLsbD i then 1 else 0 else 0 := by
    intro j
    split_ifs <;> simp_all [coeff_X_pow]
  rw [poly, firstBits, finsetSum_coeff, Finset.sum_congr rfl fun j _ => hbit j, Finset.sum_ite_eq]
  split_ifs with hi hbit <;> simp_all [BitVec.getLsbD_of_ge]

lemma poly_injective : Function.Injective (poly (w := w)) := by
  intro a b h
  refine BitVec.eq_of_getLsbD_eq fun i _ => ?_
  have hi := congrArg (coeff · i) h
  simp only [coeff_poly] at hi
  cases ha : a.getLsbD i <;> cases hb : b.getLsbD i <;> simp_all

lemma poly_zero : poly (0 : BitVec w) = 0 := by
  ext i
  simp [coeff_poly]

lemma poly_xor : poly (a ^^^ b) = poly a + poly b := by
  ext i
  rw [coeff_add, coeff_poly, coeff_poly, coeff_poly, BitVec.getLsbD_xor]
  cases a.getLsbD i <;> cases b.getLsbD i <;> decide

lemma poly_shiftLeft {n : ℕ} (a : BitVec w) (h : w + n ≤ v) :
    poly (a.setWidth v <<< n) = poly a * X ^ n := by
  ext i
  rw [coeff_mul_X_pow', coeff_poly, coeff_poly, BitVec.getLsbD_shiftLeft, BitVec.getLsbD_setWidth]
  rcases Nat.lt_or_ge i n with hi | hi
  · simp [hi, hi.not_ge]
  rcases Nat.lt_or_ge (i - n) w with hw | hw
  · simp [hi, hi.not_gt, show i < v by omega, show i - n < v by omega]
  · simp [BitVec.getLsbD_of_ge a _ hw]

lemma natDegree_poly_le (a : BitVec w) : (poly a).natDegree ≤ w - 1 := by
  refine natDegree_le_iff_coeff_eq_zero.mpr fun i hi => ?_
  rw [coeff_poly, BitVec.getLsbD_of_ge a i (by omega)]
  rfl

lemma poly_reverse (a : BitVec w) : poly a.reverse = reflect (w - 1) (poly a) := by
  ext i
  rw [coeff_reflect, coeff_poly, coeff_poly, BitVec.getLsbD_reverse, BitVec.getMsbD_eq_getLsbD]
  rcases Nat.lt_or_ge i w with hi | hi
  · rw [revAt_le (by omega), decide_eq_true hi, Bool.true_and]
  · rcases Nat.eq_zero_or_pos w with rfl | hw
    · simp
    · rw [revAt_eq_self_of_lt (by omega), decide_eq_false hi.not_gt, BitVec.getLsbD_of_ge a i hi]
      rfl

/-- Reversed factors have the reversed product. -/
lemma poly_reverse_mul (a b : BitVec w) :
    poly a.reverse * poly b.reverse = reflect (w - 1 + (w - 1)) (poly a * poly b) := by
  rw [poly_reverse, poly_reverse, reflect_mul _ _ (natDegree_poly_le a) (natDegree_poly_le b)]

end BitPolynomial
