import Mathlib.Order.Defs.Unbundled
import Mathlib.Logic.Function.Basic

/-!
# Programs with a state and exceptions

A program is an `EStateM ε σ α`: it reads and writes a state and either returns a value or fails,
and a failed run keeps the state it had reached.  This file has what is needed to reason about
such programs without unfolding them: inversion of a sequence, running a program on a part of
the state, and five properties of programs that compose.

* `Keeps R m`: every run of `m`, failed or not, relates its first and last state by `R`;
* `FailKeeps R m`: every failed run of `m` does;
* `Total m`: `m` never fails;
* `Raises P m`: the exceptions of `m` are of the kind `P`;
* `Ensures P m Q`: a run of `m` from a state with `P` that returns ends with `Q`.

`Succeeds m s` says that one run does return.
-/

namespace Exec

variable {ε σ τ α β : Type}

/-! ## Runs -/

/-- The state in which a run of `m` ends, whether it returned or failed. -/
def final (m : EStateM ε σ α) (s : σ) : σ :=
  match m s with
  | .ok _ s' => s'
  | .error _ s' => s'

variable {m : EStateM ε σ α} {s s' : σ} {a : α} {e : ε} {f : α → EStateM ε σ β}

lemma final_of_ok (h : m s = .ok a s') :
    final m s = s' := by
  simp only [final, h]

lemma final_of_error (h : m s = .error e s') :
    final m s = s' := by
  simp only [final, h]

/-- The exception a run of `m` ends with, if it fails. -/
def failure (m : EStateM ε σ α) (s : σ) : Option ε :=
  match m s with
  | .ok _ _ => none
  | .error e _ => some e

lemma failure_of_ok (h : m s = .ok a s') : failure m s = none := by
  simp only [failure, h]

lemma failure_of_error (h : m s = .error e s') :
    failure m s = some e := by
  simp only [failure, h]

lemma failure_eq_some :
    failure m s = some e ↔ m s = .error e (final m s) := by
  unfold failure final
  cases m s <;> simp

lemma failure_eq_none :
    failure m s = none ↔ ∃ a, m s = .ok a (final m s) := by
  unfold failure final
  cases m s <;> simp

/-- What a run of `m` hands to its caller. -/
def outcome (m : EStateM ε σ α) (s : σ) : Except ε α :=
  match m s with
  | .ok a _ => .ok a
  | .error e _ => .error e

lemma outcome_of_ok (h : m s = .ok a s') : outcome m s = .ok a := by
  simp only [outcome, h]

lemma outcome_of_error (h : m s = .error e s') :
    outcome m s = .error e := by
  simp only [outcome, h]

lemma eq_ok_of_outcome (h : (outcome m s).toOption = some a) :
    m s = .ok a (final m s) := by
  unfold outcome at h
  unfold final
  cases hm : m s with
  | ok b t =>
    rw [hm] at h
    cases h
    rfl
  | error e t =>
    rw [hm] at h
    cases h

@[simp] lemma pure_apply (a : α) (s : σ) : (pure a : EStateM ε σ α) s = .ok a s := rfl

@[simp] lemma get_apply (s : σ) : (get : EStateM ε σ σ) s = .ok s s := rfl

@[simp] lemma modify_apply (f : σ → σ) (s : σ) :
    (modify f : EStateM ε σ PUnit) s = .ok ⟨⟩ (f s) := rfl

@[simp] lemma throw_apply (e : ε) (s : σ) : (throw e : EStateM ε σ α) s = .error e s := rfl

lemma bind_apply (m : EStateM ε σ α) (f : α → EStateM ε σ β) (s : σ) :
    (m >>= f) s = match m s with
      | .ok a s' => f a s'
      | .error e s' => .error e s' := rfl

lemma bind_of_ok (h : m s = .ok a s') : (m >>= f) s = f a s' := by
  rw [bind_apply, h]

lemma bind_of_error (h : m s = .error e s') : (m >>= f) s = .error e s' := by
  rw [bind_apply, h]

lemma bind_eq_ok {s'' : σ} {b : β} :
    (m >>= f) s = .ok b s'' ↔ ∃ a s', m s = .ok a s' ∧ f a s' = .ok b s'' := by
  rw [bind_apply]
  cases m s with
  | ok a s' => simp [and_assoc]
  | error e s' => simp

lemma bind_eq_error {s'' : σ} :
    (m >>= f) s = .error e s'' ↔
      m s = .error e s'' ∨ ∃ a s', m s = .ok a s' ∧ f a s' = .error e s'' := by
  rw [bind_apply]
  cases m s with
  | ok a s' => simp [and_assoc]
  | error e s' => simp

/-! ## Combinators -/

/-- Run `m` and hand its exception, if it raised one, to the caller as a value. -/
def attempt (m : EStateM ε σ α) : EStateM ε σ (Except ε α) := fun s =>
  match m s with
  | .ok a s' => .ok (.ok a) s'
  | .error e s' => .ok (.error e) s'

lemma attempt_of_ok (h : m s = .ok a s') :
    attempt m s = .ok (.ok a) s' := by
  simp only [attempt, h]

lemma attempt_of_error (h : m s = .error e s') :
    attempt m s = .ok (.error e) s' := by
  simp only [attempt, h]

/-- Run `m` on the part of the state that `view` selects and `put` writes back. -/
def zoom (view : σ → τ) (put : τ → σ → σ) (m : EStateM ε τ α) : EStateM ε σ α := fun s =>
  match m (view s) with
  | .ok a t => .ok a (put t s)
  | .error e t => .error e (put t s)

lemma zoom_eq_ok {view : σ → τ} {put : τ → σ → σ} {m : EStateM ε τ α} :
    zoom view put m s = .ok a s' ↔ ∃ t, m (view s) = .ok a t ∧ s' = put t s := by
  unfold zoom
  cases m (view s) with
  | ok b t => simp [and_assoc, eq_comm]
  | error e t => simp

lemma zoom_eq_error {view : σ → τ} {put : τ → σ → σ} {m : EStateM ε τ α} :
    zoom view put m s = .error e s' ↔ ∃ t, m (view s) = .error e t ∧ s' = put t s := by
  unfold zoom
  cases m (view s) with
  | ok b t => simp
  | error e t => simp [and_assoc, eq_comm]

lemma final_zoom (view : σ → τ) (put : τ → σ → σ) (m : EStateM ε τ α) (s : σ) :
    final (zoom view put m) s = put (final m (view s)) s := by
  unfold final zoom
  cases m (view s) <;> rfl

lemma outcome_zoom (view : σ → τ) (put : τ → σ → σ) (m : EStateM ε τ α) (s : σ) :
    outcome (zoom view put m) s = outcome m (view s) := by
  unfold outcome zoom
  cases m (view s) <;> rfl

/-! ## Relations kept by every run -/

/-- Every run of `m`, failed or not, relates its first and its last state by `R`. -/
def Keeps (R : σ → σ → Prop) (m : EStateM ε σ α) : Prop := ∀ s, R s (final m s)

/-- Every failed run of `m` relates its first and its last state by `R`. -/
def FailKeeps (R : σ → σ → Prop) (m : EStateM ε σ α) : Prop :=
  ∀ s e s', m s = .error e s' → R s s'

/-- No run of `m` fails. -/
def Total (m : EStateM ε σ α) : Prop := ∀ s, ∃ a s', m s = .ok a s'

section Keeps

variable {R : σ → σ → Prop} {m : EStateM ε σ α} {f : α → EStateM ε σ β}

lemma Keeps.of_ok (h : Keeps R m) {s s' : σ} {a : α} (hm : m s = .ok a s') : R s s' := by
  simpa only [final_of_ok hm] using h s

lemma Keeps.of_error (h : Keeps R m) {s s' : σ} {e : ε} (hm : m s = .error e s') : R s s' := by
  simpa only [final_of_error hm] using h s

/-- A relation is kept if it is in both kinds of run. -/
lemma keeps_of_cases (hok : ∀ s a s', m s = .ok a s' → R s s')
    (herr : ∀ s e s', m s = .error e s' → R s s') : Keeps R m := by
  intro s
  unfold final
  cases h : m s with
  | ok a s' => exact hok s a s' h
  | error e s' => exact herr s e s' h

lemma Keeps.mono {R' : σ → σ → Prop} (h : Keeps R m) (hle : ∀ s s', R s s' → R' s s') :
    Keeps R' m := fun s => hle _ _ (h s)

lemma Keeps.modify {g : σ → σ} (h : ∀ s, R s (g s)) :
    Keeps R (modify g : EStateM ε σ PUnit) := h

/-- A program that reads the state first may use what it read. -/
lemma Keeps.get_bind {g : σ → EStateM ε σ β} (h : ∀ s, R s (final (g s) s)) :
    Keeps R ((MonadState.get : EStateM ε σ σ) >>= g) := h

lemma Keeps.attempt (hm : Keeps R m) : Keeps R (attempt m) := by
  intro s
  unfold final Exec.attempt
  cases h : m s with
  | ok a s' => exact hm.of_ok h
  | error e s' => exact hm.of_error h

variable [IsPreorder σ R]

lemma Keeps.pure (a : α) : Keeps R (pure a : EStateM ε σ α) := fun s => refl_of R s

lemma Keeps.get : Keeps R (get : EStateM ε σ σ) := fun s => refl_of R s

lemma Keeps.throw (e : ε) : Keeps R (throw e : EStateM ε σ α) := fun s => refl_of R s

lemma Keeps.bind (hm : Keeps R m) (hf : ∀ a, Keeps R (f a)) : Keeps R (m >>= f) := by
  apply keeps_of_cases
  · intro s b s'' h
    obtain ⟨a, s', hs, hs'⟩ := bind_eq_ok.mp h
    exact trans_of R (hm.of_ok hs) ((hf a).of_ok hs')
  · intro s e s'' h
    rcases bind_eq_error.mp h with hs | ⟨a, s', hs, hs'⟩
    · exact hm.of_error hs
    · exact trans_of R (hm.of_ok hs) ((hf a).of_error hs')

end Keeps

/-! ## Failed runs -/

section FailKeeps

variable {R : σ → σ → Prop} {m : EStateM ε σ α} {f : α → EStateM ε σ β}

lemma Keeps.failKeeps (h : Keeps R m) : FailKeeps R m := fun _ _ _ hm => h.of_error hm

lemma Total.failKeeps (h : Total m) : FailKeeps R m := by
  intro s e s' hm
  obtain ⟨a, t, ha⟩ := h s
  rw [ha] at hm
  exact absurd hm (by simp)

/-- Only the end of a sequence may fail after leaving `R`: here nothing before it leaves `R`. -/
lemma Keeps.bind_failKeeps [IsTrans σ R] (hm : Keeps R m) (hf : ∀ a, FailKeeps R (f a)) :
    FailKeeps R (m >>= f) := by
  intro s e s'' h
  rcases bind_eq_error.mp h with hs | ⟨a, s', hs, hs'⟩
  · exact hm.of_error hs
  · exact trans_of R (hm.of_ok hs) (hf a _ _ _ hs')

/-- What cannot fail may follow anything. -/
lemma FailKeeps.bind_total (hm : FailKeeps R m) (hf : ∀ a, Total (f a)) :
    FailKeeps R (m >>= f) := by
  intro s e s'' h
  rcases bind_eq_error.mp h with hs | ⟨a, s', hs, hs'⟩
  · exact hm _ _ _ hs
  · exact absurd hs' (by obtain ⟨b, t, hb⟩ := hf a s'; simp [hb])

end FailKeeps

section Total

variable {m : EStateM ε σ α} {f : α → EStateM ε σ β}

lemma Total.pure (a : α) : Total (pure a : EStateM ε σ α) := fun s => ⟨a, s, rfl⟩

lemma Total.get : Total (get : EStateM ε σ σ) := fun s => ⟨s, s, rfl⟩

lemma Total.modify (g : σ → σ) : Total (modify g : EStateM ε σ PUnit) := fun s => ⟨⟨⟩, g s, rfl⟩

lemma Total.attempt (m : EStateM ε σ α) : Total (attempt m) := by
  intro s
  unfold Exec.attempt
  cases m s <;> simp

lemma Total.bind (hm : Total m) (hf : ∀ a, Total (f a)) : Total (m >>= f) := by
  intro s
  obtain ⟨a, s', ha⟩ := hm s
  obtain ⟨b, s'', hb⟩ := hf a s'
  exact ⟨b, s'', bind_eq_ok.mpr ⟨a, s', ha, hb⟩⟩

end Total

/-! ## Kinds of exceptions -/

/-- Every exception that `m` raises is of the kind `P`. -/
def Raises (P : ε → Prop) (m : EStateM ε σ α) : Prop := ∀ s e s', m s = .error e s' → P e

section Raises

variable {P : ε → Prop} {m : EStateM ε σ α} {f : α → EStateM ε σ β}

lemma Total.raises (h : Total m) : Raises P m := by
  intro s e s' hm
  obtain ⟨a, t, ha⟩ := h s
  rw [ha] at hm
  cases hm

lemma Raises.throw {e : ε} (h : P e) : Raises P (throw e : EStateM ε σ α) := by
  intro s e' s' hm
  cases hm
  exact h

lemma Raises.bind (hm : Raises P m) (hf : ∀ a, Raises P (f a)) : Raises P (m >>= f) := by
  intro s e s'' h
  rcases bind_eq_error.mp h with hs | ⟨a, s', -, hs'⟩
  · exact hm _ _ _ hs
  · exact hf a _ _ _ hs'

lemma Raises.zoom {m : EStateM ε τ α} (hm : Raises P m) (view : σ → τ) (put : τ → σ → σ) :
    Raises P (zoom view put m) := by
  intro s e s' h
  obtain ⟨t, ht, -⟩ := zoom_eq_error.mp h
  exact hm _ _ _ ht

end Raises

/-! ## Pre- and postconditions -/

/-- From a state with `P`, a run of `m` that returns does so with `Q`. -/
def Ensures (P : σ → Prop) (m : EStateM ε σ α) (Q : α → σ → Prop) : Prop :=
  ∀ s, P s → ∀ a t, m s = .ok a t → Q a t

section Ensures

variable {P P' : σ → Prop} {Q Q' : α → σ → Prop} {R : β → σ → Prop} {m : EStateM ε σ α}
  {f : α → EStateM ε σ β}

lemma Ensures.of_ok (h : Ensures P m Q) {s t : σ} {a : α} (hs : P s) (hm : m s = .ok a t) : Q a t :=
  h s hs a t hm

lemma Ensures.mono (h : Ensures P m Q) (hpre : ∀ s, P' s → P s) (hpost : ∀ a s, Q a s → Q' a s) :
    Ensures P' m Q' :=
  fun s hs a t hm => hpost a t (h s (hpre s hs) a t hm)

lemma Ensures.pure {a : α} (h : ∀ s, P s → Q a s) : Ensures P (pure a : EStateM ε σ α) Q := by
  intro s hs b t hm
  cases hm
  exact h s hs

lemma Ensures.throw (e : ε) : Ensures P (throw e : EStateM ε σ α) Q := by
  intro s hs b t hm
  cases hm

lemma Ensures.modify {g : σ → σ} {Q : PUnit → σ → Prop} (h : ∀ s, P s → Q ⟨⟩ (g s)) :
    Ensures P (modify g : EStateM ε σ PUnit) Q := by
  intro s hs b t hm
  cases hm
  exact h s hs

lemma Ensures.bind (hm : Ensures P m Q) (hf : ∀ a, Ensures (Q a) (f a) R) :
    Ensures P (m >>= f) R := by
  intro s hs b t h
  obtain ⟨a, u, hu, ht⟩ := bind_eq_ok.mp h
  exact hf a u (hm s hs a u hu) b t ht

lemma Ensures.get_bind {g : σ → EStateM ε σ β} (h : ∀ s, P s → Ensures P (g s) R) :
    Ensures P (get >>= g) R := by
  intro s hs b t hm
  exact h s hs s hs b t hm

end Ensures

/-! ## Runs that return -/

/-- The run of `m` from `s` returns. -/
def Succeeds (m : EStateM ε σ α) (s : σ) : Prop := ∃ a t, m s = .ok a t

end Exec
