import Mathlib.Order.Defs.LinearOrder
import Mathlib.Order.Basic
import Mathlib.Order.Lattice

/-!
# Scanning for a maximum

A loop over a list that remembers the eligible element of greatest weight seen so far, and
replaces it only by one of strictly greater weight.  Over an increasing list it ends with the
least of the eligible elements of greatest weight.
-/

namespace Scan

variable {α β : Type} [LinearOrder α] [LinearOrder β] (elig : α → Prop) [DecidablePred elig]
  (weight : α → β)

/-- One turn of the loop: the best element so far and its weight. -/
def step (acc : α × β) (x : α) : α × β :=
  if elig x ∧ acc.2 < weight x then (x, weight x) else acc

/-- `r` is an eligible element of `l` that no other beats; a tie goes to the smaller one. -/
def Wins (l : List α) (r : α) : Prop :=
  r ∈ l ∧ elig r ∧ ∀ x ∈ l, elig x → weight x < weight r ∨ (weight x = weight r ∧ r ≤ x)

/-- The loop ends with the winner among those above the initial weight, or as it began. -/
theorem foldl_step (l : List α) (hl : l.Pairwise (· < ·)) (d : α) (w : β) :
    (l.foldl (step elig weight) (d, w) = (d, w) ∧ ∀ x ∈ l, elig x → weight x ≤ w) ∨
      ∃ r, l.foldl (step elig weight) (d, w) = (r, weight r) ∧ w < weight r ∧
        Wins elig weight l r := by
  induction l generalizing d w with
  | nil => exact Or.inl ⟨rfl, fun x hx => absurd hx List.not_mem_nil⟩
  | cons y l ih =>
    have hy : ∀ x ∈ l, y < x := fun x hx => List.rel_of_pairwise_cons hl hx
    have hl' := hl.of_cons
    rw [List.foldl_cons]
    by_cases htake : elig y ∧ w < weight y
    · -- the head becomes the best so far, and later elements tie with it at most
      rw [step, if_pos htake]
      refine Or.inr ?_
      rcases ih hl' y (weight y) with ⟨heq, hle⟩ | ⟨r, heq, hlt, hmem, hr, hmax⟩
      · refine ⟨y, heq, htake.2, List.mem_cons_self, htake.1, fun x hx hex => ?_⟩
        rcases List.mem_cons.mp hx with rfl | hx'
        · exact Or.inr ⟨rfl, le_refl _⟩
        · rcases lt_or_eq_of_le (hle x hx' hex) with hlt | heq'
          · exact Or.inl hlt
          · exact Or.inr ⟨heq', (hy x hx').le⟩
      · refine ⟨r, heq, htake.2.trans hlt, List.mem_cons_of_mem _ hmem, hr, fun x hx hex => ?_⟩
        rcases List.mem_cons.mp hx with rfl | hx'
        · exact Or.inl hlt
        · exact hmax x hx' hex
    · rw [step, if_neg htake]
      have hhead : elig y → weight y ≤ w := fun he => not_lt.mp fun hlt => htake ⟨he, hlt⟩
      rcases ih hl' d w with ⟨heq, hle⟩ | ⟨r, heq, hlt, hmem, hr, hmax⟩
      · refine Or.inl ⟨heq, fun x hx hex => ?_⟩
        rcases List.mem_cons.mp hx with rfl | hx'
        · exact hhead hex
        · exact hle x hx' hex
      · refine Or.inr ⟨r, heq, hlt, List.mem_cons_of_mem _ hmem, hr, fun x hx hex => ?_⟩
        rcases List.mem_cons.mp hx with rfl | hx'
        · exact Or.inl ((hhead hex).trans_lt hlt)
        · exact hmax x hx' hex

end Scan
