import Mathlib.Data.Nat.Notation
import Mathlib.Tactic.Common
import Mathlib.Algebra.GroupWithZero.Nat
import Mathlib.Algebra.Ring.Int.Defs
import Mathlib.Order.Lattice

/-!
# Checked arithmetic and slices

Arithmetic on machine words and accesses to arrays that stop the program when the result does not
fit or the index is out of range.
-/

namespace Checked

/-- Why a program stops. -/
inductive Panic where
  | overflow
  | outOfRange
  | divideByZero
deriving DecidableEq, Repr

variable {w : ℕ} {α β : Type}

/-- Unsigned `x + y`. -/
def add (x y : BitVec w) : Except Panic (BitVec w) :=
  if x.toNat + y.toNat < 2 ^ w then .ok (x + y) else .error .overflow

/-- Unsigned `x - y`. -/
def sub (x y : BitVec w) : Except Panic (BitVec w) :=
  if y ≤ x then .ok (x - y) else .error .overflow

/-- Unsigned `x * y`. -/
def mul (x y : BitVec w) : Except Panic (BitVec w) :=
  if x.umulOverflow y then .error .overflow else .ok (x * y)

/-- Signed `x * y`. -/
def smul (x y : BitVec w) : Except Panic (BitVec w) :=
  if x.smulOverflow y then .error .overflow else .ok (x * y)

/-- Unsigned `x / y`. -/
def div (x y : BitVec w) : Except Panic (BitVec w) :=
  if y = 0 then .error .divideByZero else .ok (x / y)

/-- Unsigned `x % y`. -/
def rem (x y : BitVec w) : Except Panic (BitVec w) :=
  if y = 0 then .error .divideByZero else .ok (x % y)

/-- Signed `x / y`, rounded towards zero: the least number has no quotient by -1. -/
def sdiv (x y : BitVec w) : Except Panic (BitVec w) :=
  if y = 0 then .error .divideByZero
  else if x = BitVec.intMin w ∧ y = ~~~0 then .error .overflow
  else .ok (x.sdiv y)

/-- Signed `x % y`, which stops where the quotient does not fit. -/
def srem (x y : BitVec w) : Except Panic (BitVec w) :=
  if y = 0 then .error .divideByZero
  else if x = BitVec.intMin w ∧ y = ~~~0 then .error .overflow
  else .ok (x.srem y)

/-- `l[lo..hi]`. -/
def slice (l : List α) (lo hi : ℕ) : Except Panic (List α) :=
  if lo ≤ hi ∧ hi ≤ l.length then .ok ((l.take hi).drop lo) else .error .outOfRange

/-- `l[i]`. -/
def index (l : List α) (i : ℕ) : Except Panic α :=
  match l[i]? with
  | some a => .ok a
  | none => .error .outOfRange

lemma add_of_lt {x y : BitVec w} (h : x.toNat + y.toNat < 2 ^ w) : add x y = .ok (x + y) := if_pos h

lemma toNat_of_add {x y z : BitVec w} (h : add x y = .ok z) : z.toNat = x.toNat + y.toNat := by
  unfold add at h
  split at h
  · next hlt =>
      cases h
      rw [BitVec.toNat_add]
      exact Nat.mod_eq_of_lt hlt
  · cases h

lemma sub_of_le {x y : BitVec w} (h : y ≤ x) : sub x y = .ok (x - y) := if_pos h

lemma smul_of_fits {x y : BitVec w} (hlo : -2 ^ (w - 1) ≤ x.toInt * y.toInt)
    (hhi : x.toInt * y.toInt < 2 ^ (w - 1)) :
    smul x y = .ok (x * y) ∧ (x * y).toInt = x.toInt * y.toInt := by
  have hno : ¬ x.smulOverflow y := by
    simp only [BitVec.smulOverflow, Bool.or_eq_true, decide_eq_true_eq, not_or, not_le, not_lt]
    exact ⟨hhi, hlo⟩
  exact ⟨if_neg hno, BitVec.toInt_mul_of_not_smulOverflow hno⟩

lemma mul_of_lt {x y : BitVec w} (h : x.toNat * y.toNat < 2 ^ w) :
    mul x y = .ok (x * y) ∧ (x * y).toNat = x.toNat * y.toNat := by
  have hno : ¬ x.umulOverflow y := by
    simpa only [BitVec.umulOverflow, decide_eq_true_eq, not_le] using h
  exact ⟨if_neg hno, BitVec.toNat_mul_of_not_umulOverflow hno⟩

lemma slice_of_le {l : List α} {lo hi : ℕ} (hlo : lo ≤ hi) (hhi : hi ≤ l.length) :
    slice l lo hi = .ok ((l.take hi).drop lo) := if_pos ⟨hlo, hhi⟩

lemma index_of_lt {l : List α} {i : ℕ} (h : i < l.length) : index l i = .ok l[i] := by
  rw [index, List.getElem?_eq_getElem h]

/-- The program does not stop early. -/
def Returns (x : Except Panic α) : Prop := ∃ a, x = .ok a

lemma Returns.pure (a : α) : Returns (pure a : Except Panic α) := ⟨a, rfl⟩

lemma Returns.bind {x : Except Panic α} {f : α → Except Panic β} (hx : Returns x)
    (hf : ∀ a, x = .ok a → Returns (f a)) : Returns (x >>= f) := by
  obtain ⟨a, rfl⟩ := hx
  exact hf a rfl

lemma bind_ok {x : Except Panic α} {f : α → Except Panic β} {a : α} (h : x = .ok a) :
    (x >>= f) = f a := by
  rw [h]
  rfl

end Checked
