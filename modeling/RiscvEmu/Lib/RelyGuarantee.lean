import Mathlib.Logic.Function.Basic
import Mathlib.Logic.Relation

/-!
# Components that share a state

Finitely or infinitely many components, each with a state of its own, work on a shared state in
turns.  An assertion about one component and the shared state survives the moves of the others if
it is stable under what they guarantee.  This file has the rule and its consequence for runs.
-/

namespace RelyGuarantee

variable {ι C S : Type} [DecidableEq ι]

/-- The states of the components, and what they share. -/
structure World (ι C S : Type) where
  locals : ι → C
  shared : S

/-- One move: component `i` changes its own state and the shared one as `own` allows, or the
shared state changes from outside. -/
inductive Step (own : ι → C × S → C × S → Prop) (outer : S → S → Prop) :
    World ι C S → World ι C S → Prop
  | own {w : World ι C S} (i : ι) {c : C} {s : S} (h : own i (w.locals i, w.shared) (c, s)) :
      Step own outer w ⟨Function.update w.locals i c, s⟩
  | outer {w : World ι C S} {s : S} (h : outer w.shared s) : Step own outer w ⟨w.locals, s⟩

/-- An assertion for each component, with what the components guarantee to each other. -/
structure Rule (own : ι → C × S → C × S → Prop) (outer : S → S → Prop) (P : ι → C → S → Prop)
    (G : ι → S → S → Prop) : Prop where
  keeps : ∀ i c s c' s', own i (c, s) (c', s') → P i c s → P i c' s'
  guarantees : ∀ i c s c' s', own i (c, s) (c', s') → P i c s → G i s s'
  stable : ∀ i j c s s', i ≠ j → P i c s → G j s s' → P i c s'
  outer : ∀ i c s s', P i c s → outer s s' → P i c s'

variable {own : ι → C × S → C × S → Prop} {outer : S → S → Prop} {P : ι → C → S → Prop}
  {G : ι → S → S → Prop} {w w' : World ι C S}

/-- The assertions hold of all components after a move if they did before it. -/
lemma Rule.step (h : Rule own outer P G) (hw : ∀ i, P i (w.locals i) w.shared)
    (hstep : Step own outer w w') (i : ι) : P i (w'.locals i) w'.shared := by
  cases hstep with
  | own j hown =>
    rcases eq_or_ne i j with rfl | hne
    · simp only [Function.update_self]
      exact h.keeps i _ _ _ _ hown (hw i)
    · simp only [Function.update_of_ne hne]
      exact h.stable i j _ _ _ hne (hw i) (h.guarantees j _ _ _ _ hown (hw j))
  | outer houter => exact h.outer i _ _ _ (hw i) houter

/-- The assertions hold after every run. -/
theorem Rule.run (h : Rule own outer P G) (hw : ∀ i, P i (w.locals i) w.shared)
    (hrun : Relation.ReflTransGen (Step own outer) w w') : ∀ i, P i (w'.locals i) w'.shared := by
  induction hrun with
  | refl => exact hw
  | tail _ hstep ih => exact h.step ih hstep

end RelyGuarantee
