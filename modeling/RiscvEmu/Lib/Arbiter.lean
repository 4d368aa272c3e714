import Mathlib.Order.BooleanAlgebra.Set
import Mathlib.Order.Basic
import Mathlib.Logic.Function.Basic
import Mathlib.Order.Lattice

/-!
# Level-triggered arbitration

Sources assert lines; contexts are told, one source at a time, about the most urgent source that
wants service.  This is the specification of an interrupt controller in terms of sets: `S` are the
sources, `C` the contexts, and priorities are natural numbers of which 0 means never.
-/

/-- The state of an arbiter. -/
structure Arbiter (C S : Type) where
  /-- The sources whose line is asserted. -/
  asserted : Set S
  /-- The sources that were claimed and not completed. -/
  inService : Set S
  enabled : C → Set S
  priority : S → ℕ
  threshold : C → ℕ

namespace Arbiter

variable {C S : Type} [LinearOrder S] (a : Arbiter C S)

/-- Context `c` may be told about source `s`. -/
def Eligible (c : C) (s : S) : Prop :=
  s ∈ a.asserted ∧ s ∉ a.inService ∧ s ∈ a.enabled c ∧ 0 < a.priority s ∧
    a.threshold c < a.priority s

/-- `s` is the source of greatest priority for `c`, the least one on ties. -/
def Best (c : C) (s : S) : Prop :=
  a.Eligible c s ∧ ∀ x, a.Eligible c x →
    a.priority x < a.priority s ∨ (a.priority x = a.priority s ∧ s ≤ x)

variable {a}

lemma Best.unique {c : C} {s t : S} (hs : a.Best c s) (ht : a.Best c t) : s = t := by
  rcases hs.2 t ht.1 with hlt | ⟨heq, hle⟩
  · rcases ht.2 s hs.1 with hlt' | ⟨heq', _⟩
    · exact absurd (hlt.trans hlt') (Nat.lt_irrefl _)
    · exact absurd (heq' ▸ hlt) (Nat.lt_irrefl _)
  · rcases ht.2 s hs.1 with hlt' | ⟨_, hle'⟩
    · exact absurd (heq ▸ hlt') (Nat.lt_irrefl _)
    · exact le_antisymm hle hle'

variable (a)

open Classical in
/-- The answer to a claim, `none` if no source wants service. -/
noncomputable def answer (c : C) : Option S :=
  if h : ∃ s, a.Best c s then some h.choose else none

variable {a}

lemma answer_of_best {c : C} {s : S} (h : a.Best c s) : a.answer c = some s := by
  have hex : ∃ s, a.Best c s := ⟨s, h⟩
  rw [answer, dif_pos hex, hex.choose_spec.unique h]

lemma answer_of_none {c : C} (h : ∀ s, ¬ a.Eligible c s) : a.answer c = none := by
  rw [answer, dif_neg]
  rintro ⟨s, hs⟩
  exact h s hs.1

/-! ## Operations -/

variable (a)

/-- A line rises or falls. -/
def setLine (s : S) (on : Bool) : Arbiter C S :=
  { a with asserted := if on then insert s a.asserted else a.asserted \ {s} }

/-- A context claims what it is told about. -/
noncomputable def claim (c : C) : Arbiter C S :=
  match a.answer c with
  | some s => { a with inService := insert s a.inService }
  | none => a

/-- The source is done with. -/
def complete (s : S) : Arbiter C S := { a with inService := a.inService \ {s} }

/-- Set the priority of a source. -/
def setPriority (s : S) (v : ℕ) : Arbiter C S :=
  { a with priority := Function.update a.priority s v }

/-- Set the threshold of a context. -/
def setThreshold [DecidableEq C] (c : C) (v : ℕ) : Arbiter C S :=
  { a with threshold := Function.update a.threshold c v }

/-- Replace the enabled sources of a context within a group of sources. -/
def setEnabled [DecidableEq C] (c : C) (group on : Set S) : Arbiter C S :=
  { a with enabled := Function.update a.enabled c ((a.enabled c \ group) ∪ (on ∩ group)) }

/-- A source is not offered again while it is in service. -/
lemma not_answer_of_inService {a : Arbiter C S} {c : C} {s : S} (h : s ∈ a.inService) :
    a.answer c ≠ some s := by
  intro heq
  by_cases hex : ∃ t, a.Best c t
  · obtain ⟨t, ht⟩ := hex
    rw [answer_of_best ht, Option.some.injEq] at heq
    exact ht.1.2.1 (heq ▸ h)
  · rw [answer, dif_neg hex] at heq
    exact absurd heq (by simp)

end Arbiter
