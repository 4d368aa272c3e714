import RiscvEmu.Cpu.Integer
import RiscvEmu.Lib.BitPolynomial

/-!
# Carry-less multiplication

The two words a carry-less multiplication accumulates are the coefficients of the product of its
operands as polynomials.
-/

namespace RiscvEmu

open Bitmanip BitPolynomial

/-- The words of an accumulator put together. -/
def wide (acc : U64 × U64) : BitVec 128 := acc.2 ++ acc.1

/-- One turn adds the first factor, shifted, if the second has the bit. -/
lemma wide_clmulStep (a b : U64) (acc : U64 × U64) {i : ℕ} (hi : i < 64) :
    wide (clmulStep a b acc i) = wide acc ^^^ if b.getLsbD i then a.setWidth 128 <<< i else 0 := by
  have hshift : (a.setWidth 128 <<< i : BitVec 128) = (a >>> (64 - i)) ++ (a <<< i) := by
    ext j hj
    simp only [BitVec.getElem_shiftLeft, BitVec.getElem_setWidth]
    grind
  have hzero : a >>> (64 - 0) = 0 := BitVec.ushiftRight_eq_zero (Nat.le_refl 64)
  unfold clmulStep wide
  simp only [BitField.shiftRight_and_one_ne_zero]
  split_ifs with hb h0
  · rw [hshift, BitVec.xor_append]
  · rw [hshift, BitVec.xor_append, not_not.mp h0, hzero, BitVec.ofNat_eq_ofNat, BitVec.xor_zero]
  · exact (BitVec.xor_zero).symm

/-- After `n` turns the first `n` bits of the second factor are dealt with. -/
lemma poly_turns (a b : U64) {n : ℕ} (hn : n ≤ 64) :
    poly (wide ((List.range n).foldl (clmulStep a b) (0, 0))) = poly a * firstBits b n := by
  induction n with
  | zero =>
    have hwide : wide (0, 0) = 0 := by decide
    rw [List.range_zero, List.foldl_nil, hwide, poly_zero, firstBits,
      Finset.sum_range_zero, mul_zero]
  | succ n ih =>
    rw [List.range_succ, List.foldl_append, List.foldl_cons, List.foldl_nil,
      wide_clmulStep a b _ hn, poly_xor, ih (Nat.le_of_succ_le hn), firstBits, firstBits,
        Finset.sum_range_succ, mul_add, add_right_inj]
    split
    · exact poly_shiftLeft a (Nat.add_le_add_left (Nat.le_of_succ_le hn) 64)
    · rw [mul_zero, poly_zero]

lemma poly_clmul128 (a b : U64) : poly (wide (clmul128 a b)) = poly a * poly b :=
  poly_turns a b (Nat.le_refl 64)

lemma extract_clmulr (a b : U64) : clmulr a b = (wide (clmul128 a b)).extractLsb' 63 64 := by
  unfold clmulr wide
  ext i hi
  simp only [BitVec.getElem_or, BitVec.getElem_shiftLeft, BitVec.getElem_ushiftRight,
    BitVec.getElem_extractLsb', BitVec.getLsbD_append]
  grind

lemma clmulr_reverse (a b : U64) : clmulr a b = (clmul a.reverse b.reverse).reverse := by
  refine BitVec.eq_of_getLsbD_eq fun i hi => ?_
  have hcoeff : (poly a.reverse * poly b.reverse).coeff (63 - i) =
    (poly a * poly b).coeff (63 + i) := by
    rw [poly_reverse_mul, Polynomial.coeff_reflect, Polynomial.revAt_le (by omega)]
    congr 1
    omega
  rw [← poly_clmul128, ← poly_clmul128, coeff_poly, coeff_poly] at hcoeff
  have hlow : (wide (clmul128 a.reverse b.reverse)).getLsbD (63 - i) =
      (clmul a.reverse b.reverse).getLsbD (63 - i) := by
    rw [wide, BitVec.getLsbD_append, if_pos (by omega), clmul]
  rw [extract_clmulr, BitVec.getLsbD_extractLsb', decide_eq_true hi, Bool.true_and,
    BitVec.getLsbD_reverse, BitVec.getMsbD_eq_getLsbD, decide_eq_true hi, Bool.true_and, ← hlow]
  split_ifs at hcoeff <;> simp_all

end RiscvEmu
