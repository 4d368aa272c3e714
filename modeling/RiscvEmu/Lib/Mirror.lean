import RiscvEmu.Lib.Exec

/-!
# Two runs of one program

A program may be run from a state and from an image of it under a map `φ` that replaces a part the
program should not depend on.  `Mirrors φ P m n Q` says that the second run is the image of the
first: it returns the same value or fails with the same exception, in the image of the state.  The
two programs are written separately because one that has read its state goes on with what it read.

The first state has `P` and the last one, of a failed run too, has `Q`: an image may be faithful
only under an invariant.
-/

namespace Exec

variable {ε σ τ α β : Type}

/-- The image of a result. -/
def image (φ : σ → σ) : EStateM.Result ε σ α → EStateM.Result ε σ α
  | .ok a s => .ok a (φ s)
  | .error e s => .error e (φ s)

/-- From a state with `P`, the run of `n` from the image is the image of the run of `m`, which ends
with `Q`. -/
def Mirrors (φ : σ → σ) (P : σ → Prop) (m n : EStateM ε σ α) (Q : σ → Prop) : Prop :=
  ∀ s, P s → n (φ s) = image φ (m s) ∧ Q (final m s)

variable {φ : σ → σ} {P P' Q Q' R : σ → Prop} {m n : EStateM ε σ α} {k l : α → EStateM ε σ β}

namespace Mirrors

/-! ## What the second run does -/

lemma outcome_eq (h : Mirrors φ P m n Q) {s : σ} (hs : P s) : outcome n (φ s) = outcome m s := by
  unfold outcome
  rw [(h s hs).1]
  cases m s <;> rfl

lemma final_eq (h : Mirrors φ P m n Q) {s : σ} (hs : P s) : final n (φ s) = φ (final m s) := by
  unfold final
  rw [(h s hs).1]
  cases m s <;> rfl

/-! ## Rules -/

lemma mono (h : Mirrors φ P m n Q) (hpre : ∀ s, P' s → P s) (hpost : ∀ s, Q s → Q' s) :
    Mirrors φ P' m n Q' :=
  fun s hs => ⟨(h s (hpre s hs)).1, hpost _ (h s (hpre s hs)).2⟩

lemma pre (h : Mirrors φ P m n Q) (hpre : ∀ s, P' s → P s) : Mirrors φ P' m n Q :=
  h.mono hpre fun _ hs => hs

lemma pure (a : α) : Mirrors φ P (pure a : EStateM ε σ α) (pure a) P := fun _ hs => ⟨rfl, hs⟩

lemma throw (e : ε) : Mirrors φ P (throw e : EStateM ε σ α) (throw e) P := fun _ hs => ⟨rfl, hs⟩

lemma modify {f g : σ → σ} (h : ∀ s, P s → g (φ s) = φ (f s) ∧ Q (f s)) :
    Mirrors φ P (modify f : EStateM ε σ PUnit) (modify g) Q :=
  fun s hs => ⟨congrArg (EStateM.Result.ok PUnit.unit) (h s hs).1, (h s hs).2⟩

/-- A sequence, whose middle state is of the kind `R`. -/
lemma seq (hm : Mirrors φ P m n R) (hk : ∀ a, Mirrors φ R (k a) (l a) Q) (hsub : ∀ s, R s → Q s) :
    Mirrors φ P (m >>= k) (n >>= l) Q := by
  intro s hs
  obtain ⟨hn, hR⟩ := hm s hs
  cases h : m s with
  | ok a t =>
    rw [h] at hn
    rw [final_of_ok h] at hR
    rw [bind_of_ok hn, bind_of_ok h]
    refine ⟨(hk a t hR).1, ?_⟩
    rw [show final (m >>= k) s = final (k a) t by unfold final; rw [bind_of_ok h]]
    exact (hk a t hR).2
  | error e t =>
    rw [h] at hn
    rw [final_of_error h] at hR
    rw [bind_of_error hn, bind_of_error h]
    refine ⟨rfl, ?_⟩
    rw [final_of_error (bind_of_error h)]
    exact hsub t hR

lemma bind (hm : Mirrors φ P m n P) (hk : ∀ a, Mirrors φ P (k a) (l a) P) :
    Mirrors φ P (m >>= k) (n >>= l) P :=
  hm.seq hk fun _ hs => hs

/-- What comes after reading the state has read the image in the second run. -/
lemma get_bind {f g : σ → EStateM ε σ β} (h : ∀ s, P s → Mirrors φ P (f s) (g (φ s)) Q) :
    Mirrors φ P (MonadState.get >>= f) (MonadState.get >>= g) Q :=
  fun s hs => h s hs s hs

lemma attempt (h : Mirrors φ P m n Q) : Mirrors φ P (Exec.attempt m) (Exec.attempt n) Q := by
  intro s hs
  obtain ⟨hn, hQ⟩ := h s hs
  cases hm : m s with
  | ok a t =>
    rw [hm] at hn
    rw [attempt_of_ok hn, attempt_of_ok hm, final_of_ok (attempt_of_ok hm)]
    exact ⟨rfl, final_of_ok hm ▸ hQ⟩
  | error e t =>
    rw [hm] at hn
    rw [attempt_of_error hn, attempt_of_error hm, final_of_ok (attempt_of_error hm)]
    exact ⟨rfl, final_of_error hm ▸ hQ⟩

/-- A program on a part of the state that the image leaves alone. -/
lemma zoom {view : σ → τ} {put : τ → σ → σ} (p : EStateM ε τ α) (hview : ∀ s, view (φ s) = view s)
    (hput : ∀ s t, P s → put t (φ s) = φ (put t s) ∧ Q (put t s)) :
    Mirrors φ P (Exec.zoom view put p) (Exec.zoom view put p) Q := by
  intro s hs
  rw [final_zoom]
  refine ⟨?_, (hput s _ hs).2⟩
  unfold Exec.zoom
  rw [hview]
  cases p (view s) with
  | ok a t => exact congrArg (EStateM.Result.ok a) (hput s t hs).1
  | error e t => exact congrArg (EStateM.Result.error e) (hput s t hs).1

/-- The two runs take the same branch. -/
lemma ite {c d : Prop} [Decidable c] [Decidable d] {m' n' : EStateM ε σ α} (hcd : d ↔ c)
    (hm : c → Mirrors φ P m n Q) (hm' : ¬ c → Mirrors φ P m' n' Q) :
    Mirrors φ P (if c then m else m') (if d then n else n') Q := by
  by_cases hc : c
  · rw [if_pos hc, if_pos (hcd.mpr hc)]
    exact hm hc
  · rw [if_neg hc, if_neg fun hd => hc (hcd.mp hd)]
    exact hm' hc

/-- Neither branch needs the condition. -/
lemma branch {c : Prop} [Decidable c] {m' n' : EStateM ε σ α} (hm : Mirrors φ P m n Q)
    (hm' : Mirrors φ P m' n' Q) : Mirrors φ P (if c then m else m') (if c then n else n') Q :=
  .ite Iff.rfl (fun _ => hm) fun _ => hm'

end Mirrors

end Exec
