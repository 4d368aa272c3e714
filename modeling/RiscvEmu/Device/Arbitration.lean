import RiscvEmu.Device.Plic
import RiscvEmu.Lib.Arbiter
import RiscvEmu.Lib.Scan
import RiscvEmu.Lib.Exec

/-!
# The interrupt controller implements level-triggered arbitration

The three bitmaps, the register file and the kept answers of `plic.rs` refine an `Arbiter`, for
every sequence of line changes and register accesses.
-/

namespace RiscvEmu

open Exec

/-! ## Operations -/

/-- What happens to the controller. -/
inductive PlicOp where
  | setPending (irq : ℕ) (asserted : Bool)
  | load (offset size : ℕ)
  | store (offset size : ℕ) (value : U64)
  | update (csrs : CsrFile) (hart : ℕ)

/-- A register of the map, for the contexts that exist. -/
inductive PlicReg where
  | priority (irq : ℕ)
  | enable (ctx word : ℕ)
  | threshold (ctx : ℕ)
  | claim (ctx : ℕ)
  | other
deriving DecidableEq

namespace Plic

/-- The register at an offset, if the controller has `n` contexts. -/
def regAt (n offset : ℕ) : PlicReg :=
  if offset < priorityBase + maxIrqs * 4 then .priority (offset / 4)
  else if enableBase ≤ offset ∧ offset < contextBase then
    if (offset - enableBase) / 0x80 < n ∧ (offset - enableBase) % 0x80 / 4 < 2 then
      .enable ((offset - enableBase) / 0x80) ((offset - enableBase) % 0x80 / 4)
    else .other
  else if contextBase ≤ offset ∧ (offset - contextBase) / contextStride < n then
    if (offset - contextBase) % contextStride = thresholdOff then
      .threshold ((offset - contextBase) / contextStride)
    else if (offset - contextBase) % contextStride = claimOff then
      .claim ((offset - contextBase) / contextStride)
    else .other
  else .other

/-- What an operation does. -/
def apply (p : Plic) : PlicOp → Plic
  | .setPending irq asserted => p.setPending irq asserted
  | .load offset size => final (load offset size) p
  | .store offset size value => final (store offset size value) p
  | .update csrs hart => (p.update csrs hart).2

/-- The controller after a sequence of operations. -/
def after (p : Plic) (ops : List PlicOp) : Plic := ops.foldl apply p

/-! ## The specification -/

/-- What an operation means to the arbiter behind a controller with `n` contexts. -/
noncomputable def specStep (n : ℕ) (a : Arbiter ℕ ℕ) : PlicOp → Arbiter ℕ ℕ
  | .setPending irq asserted => if 0 < irq ∧ irq < maxIrqs then a.setLine irq asserted else a
  | .load offset size =>
    match regAt n offset with
    | .claim c => if size = 4 then a.claim c else a
    | _ => a
  | .store offset size value =>
    let v : U32 := value.setWidth 32
    if size = 4 then
      match regAt n offset with
      | .priority irq => a.setPriority irq v.toNat
      | .enable c word => a.setEnabled c {s | s / 32 = word} {s | v.getLsbD (s % 32)}
      | .threshold c => a.setThreshold c v.toNat
      | .claim _ => a.complete v.toNat
      | .other => a
    else a
  | .update _ _ => a

/-- An arbiter out of reset: no line asserted, everything disabled. -/
def specReset : Arbiter ℕ ℕ := ⟨∅, ∅, fun _ => ∅, fun _ => 0, fun _ => 0⟩

/-- What the arbiter is after some operations. -/
noncomputable def specAfter (n : ℕ) (ops : List PlicOp) : Arbiter ℕ ℕ :=
  ops.foldl (specStep n) specReset

/-! ## Abstraction and invariant -/

/-- The arbiter a controller stands for. -/
def view (p : Plic) : Arbiter ℕ ℕ where
  asserted := {s | p.line.getLsbD s}
  inService := {s | p.claimed.getLsbD s}
  enabled c := {s | c < p.numContexts ∧ (p.contexts c).enabled.getLsbD s}
  priority s := (p.priority s).toNat
  threshold c := (p.contexts c).threshold.toNat

/-- What relates the bitmaps to each other, and the kept answers to a scan. -/
structure Inv (p : Plic) : Prop where
  line_zero : p.line.getLsbD 0 = false
  claimed_zero : p.claimed.getLsbD 0 = false
  line_of_pending : ∀ s, p.pending.getLsbD s → p.line.getLsbD s
  pending_of_line : ∀ s, p.line.getLsbD s → ¬ p.claimed.getLsbD s → p.pending.getLsbD s
  best : p.dirty = false → ∀ c, p.best c = p.scan c

lemma getLsbD_bit (irq s : ℕ) : (bit irq).getLsbD s = decide (s < 64 ∧ s = irq) := by
  have hone : (1 : U64).getLsbD (s - irq) = decide (s - irq = 0) := by
    rw [show (1 : U64) = 1#64 from rfl, BitVec.getLsbD_one]
    simp
  rw [bit, BitVec.getLsbD_shiftLeft, hone]
  grind

lemma and_bit_eq_zero {x : U64} {irq : ℕ} (h : irq < 64) :
    x &&& bit irq = 0 ↔ x.getLsbD irq = false := by
  constructor
  · intro hx
    have hget : (x &&& bit irq).getLsbD irq = false := by
      rw [hx]
      exact BitVec.getLsbD_zero
    rwa [BitVec.getLsbD_and, getLsbD_bit, decide_eq_true ⟨h, rfl⟩, Bool.and_true] at hget
  · intro hx
    apply BitVec.eq_of_getLsbD_eq
    intro i hi
    rw [BitVec.getLsbD_and, getLsbD_bit]
    by_cases hirq : i = irq
    · subst hirq
      simp [hx]
    · simp [hirq]

/-! ## The scan -/

section Scan

variable {p : Plic}

/-- The sources the loop of `scan` does not skip. -/
def Candidate (p : Plic) (candidates : U64) (threshold : U32) (irq : ℕ) : Prop :=
  candidates &&& bit irq ≠ 0 ∧ p.priority irq ≠ 0 ∧ threshold < p.priority irq

instance (candidates : U64) (threshold : U32) : DecidablePred (p.Candidate candidates threshold) :=
  fun irq => by
    unfold Candidate
    infer_instance

lemma scanStep_eq (candidates : U64) (threshold : U32) (acc : ℕ × U32) (irq : ℕ) :
    p.scanStep candidates threshold acc irq =
      if p.Candidate candidates threshold irq ∧ acc.2 < p.priority irq then (irq, p.priority irq)
      else acc := by
  unfold scanStep Candidate
  by_cases h₁ : candidates &&& bit irq = 0
  · rw [if_pos h₁, if_neg fun h => h.1.1 h₁]
  rw [if_neg h₁]
  by_cases h₂ : p.priority irq = 0 ∨ p.priority irq ≤ threshold
  · rw [if_pos h₂, if_neg]
    rintro ⟨⟨-, hne, hlt⟩, -⟩
    exact h₂.elim hne (BitVec.not_le.mpr hlt)
  · obtain ⟨hne, hle⟩ := not_or.mp h₂
    rw [if_neg h₂]
    simp only [ne_eq, h₁, not_false_eq_true, hne, BitVec.not_le.mp hle, true_and, gt_iff_lt]

/-- The loop, with its priorities read as numbers. -/
lemma foldl_scanStep (candidates : U64) (threshold : U32) (l : List ℕ) (acc : ℕ × U32) :
    ((l.foldl (p.scanStep candidates threshold) acc).1,
      (l.foldl (p.scanStep candidates threshold) acc).2.toNat) =
      l.foldl (Scan.step (p.Candidate candidates threshold) fun s => (p.priority s).toNat)
        (acc.1, acc.2.toNat) := by
  induction l generalizing acc with
  | nil => rfl
  | cons x l ih =>
    rw [List.foldl_cons, List.foldl_cons, ih, scanStep_eq, Scan.step]
    simp only [BitVec.lt_def]
    split <;> rfl

lemma candidate_iff (h : p.Inv) {c irq : ℕ} (hc : c < p.numContexts) (hirq : irq < 64) :
    p.Candidate (p.pending &&& (p.contexts c).enabled &&& ~~~p.claimed) (p.contexts c).threshold
      irq ↔ p.view.Eligible c irq := by
  have hbits : (p.pending &&& (p.contexts c).enabled &&& ~~~p.claimed) &&& bit irq ≠ 0 ↔
      p.line.getLsbD irq = true ∧ p.claimed.getLsbD irq = false ∧
        (p.contexts c).enabled.getLsbD irq = true := by
    rw [ne_eq, and_bit_eq_zero hirq, Bool.not_eq_false]
    simp only [BitVec.getLsbD_and, BitVec.getLsbD_not, hirq, decide_true, Bool.true_and,
      Bool.and_eq_true, Bool.not_eq_true']
    constructor
    · rintro ⟨⟨hp, he⟩, hcl⟩
      exact ⟨h.line_of_pending irq hp, hcl, he⟩
    · rintro ⟨hl, hcl, he⟩
      exact ⟨⟨h.pending_of_line irq hl (by simp [hcl]), he⟩, hcl⟩
  have hprio : p.priority irq ≠ 0 ↔ 0 < (p.priority irq).toNat := by
    rw [Nat.pos_iff_ne_zero, ne_eq, ne_eq, ← BitVec.toNat_inj]
    rfl
  rw [Candidate, hbits, hprio, BitVec.lt_def]
  simp only [Arbiter.Eligible, view, Set.mem_ofPred_eq, hc, true_and, Bool.not_eq_true, and_assoc]

lemma eligible_range (h : p.Inv) {c s : ℕ} (hs : p.view.Eligible c s) : 1 ≤ s ∧ s < 64 := by
  have hline : p.line.getLsbD s = true := hs.1
  refine ⟨?_, BitVec.lt_of_getLsbD hline⟩
  rcases Nat.eq_zero_or_pos s with rfl | hpos
  · rw [h.line_zero] at hline
    exact absurd hline (by simp)
  · exact hpos

/-- A scan answers what the arbiter answers, with 0 for none. -/
lemma scan_spec (h : p.Inv) (c : ℕ) :
    (p.scan c = 0 ∧ ∀ s, ¬ p.view.Eligible c s) ∨ (p.scan c ≠ 0 ∧ p.view.Best c (p.scan c)) := by
  by_cases hc : c < p.numContexts
  · have hsorted : (List.range' 1 (maxIrqs - 1)).Pairwise (· < ·) := List.pairwise_lt_range'
    have hmem : ∀ s, s ∈ List.range' 1 (maxIrqs - 1) ↔ 1 ≤ s ∧ s < 64 := by
      intro s
      rw [List.mem_range'_1]
      rfl
    have hfold := foldl_scanStep (p := p)
      (p.pending &&& (p.contexts c).enabled &&& ~~~p.claimed) (p.contexts c).threshold
      (List.range' 1 (maxIrqs - 1)) (0, 0)
    have hscan : p.scan c = ((List.range' 1 (maxIrqs - 1)).foldl
        (Scan.step (p.Candidate (p.pending &&& (p.contexts c).enabled &&& ~~~p.claimed)
          (p.contexts c).threshold) fun s => (p.priority s).toNat) (0, 0)).1 := by
      rw [scan, if_pos hc]
      exact congrArg Prod.fst hfold
    rcases Scan.foldl_step (p.Candidate (p.pending &&& (p.contexts c).enabled &&&
        ~~~p.claimed) (p.contexts c).threshold) (fun s => (p.priority s).toNat)
        (List.range' 1 (maxIrqs - 1)) hsorted 0 0 with ⟨heq, hnone⟩ | ⟨r, heq, hpos, hr, hel, hmax⟩
    · refine Or.inl ⟨by rw [hscan, heq], fun s hs => ?_⟩
      have hrange := eligible_range h hs
      have hle := hnone s ((hmem s).mpr hrange) ((candidate_iff h hc hrange.2).mpr hs)
      have hprio : 0 < (p.priority s).toNat := hs.2.2.2.1
      omega
    · have hrange := (hmem r).mp hr
      rw [hscan, heq]
      refine Or.inr ⟨by omega, (candidate_iff h hc hrange.2).mp hel, fun x hx => ?_⟩
      have hxr := eligible_range h hx
      exact hmax x ((hmem x).mpr hxr) ((candidate_iff h hc hxr.2).mpr hx)
  · exact Or.inl ⟨by rw [scan, if_neg hc], fun s hs => hc hs.2.2.1.1⟩

end Scan

/-! ## The operations -/

section Operations

variable {p : Plic}

lemma refresh_view (p : Plic) : p.refresh.view = p.view := by
  unfold refresh
  split <;> rfl

lemma refresh_scan (p : Plic) (c : ℕ) : p.refresh.scan c = p.scan c := by
  unfold refresh
  split <;> rfl

lemma refresh_numContexts (p : Plic) : p.refresh.numContexts = p.numContexts := by
  unfold refresh
  split <;> rfl

lemma refresh_claimed (p : Plic) : p.refresh.claimed = p.claimed := by
  unfold refresh
  split <;> rfl

lemma Inv.refresh_best (h : p.Inv) (c : ℕ) : p.refresh.best c = p.scan c := by
  unfold refresh
  cases hd : p.dirty with
  | true => rfl
  | false => exact h.best hd c

lemma Inv.refresh (h : p.Inv) : p.refresh.Inv := by
  have hbest : p.refresh.dirty = false → ∀ c, p.refresh.best c = p.refresh.scan c := by
    intro _ c
    rw [h.refresh_best, refresh_scan]
  unfold Plic.refresh at hbest ⊢
  split at hbest
  · next hd =>
      rw [if_pos hd]
      exact ⟨h.line_zero, h.claimed_zero, h.line_of_pending, h.pending_of_line, hbest⟩
  · next hd =>
      rw [if_neg hd]
      exact h

lemma Inv.bestIrq (h : p.Inv) (c : ℕ) : p.bestIrq c = (p.scan c, p.refresh) := by
  unfold Plic.bestIrq
  dsimp only
  rw [h.refresh_best, refresh_numContexts]
  by_cases hc : c < p.numContexts
  · rw [if_pos hc]
  · rw [if_neg hc, scan, if_neg hc]

lemma getLsbD_or_bit {x : U64} {irq : ℕ} (h : irq < 64) (s : ℕ) :
    (x ||| bit irq).getLsbD s = true ↔ s = irq ∨ x.getLsbD s = true := by
  rw [BitVec.getLsbD_or, getLsbD_bit, Bool.or_eq_true, decide_eq_true_eq]
  constructor
  · rintro (hx | ⟨-, hs⟩)
    · exact Or.inr hx
    · exact Or.inl hs
  · rintro (rfl | hx)
    · exact Or.inr ⟨h, rfl⟩
    · exact Or.inl hx

lemma getLsbD_clear_bit {x : U64} {irq : ℕ} (s : ℕ) :
    (x &&& ~~~bit irq).getLsbD s = true ↔ x.getLsbD s = true ∧ s ≠ irq := by
  rw [BitVec.getLsbD_and, BitVec.getLsbD_not, getLsbD_bit]
  constructor
  · intro h
    simp only [Bool.and_eq_true, decide_eq_true_eq, Bool.not_eq_true', decide_eq_false_iff_not,
      not_and] at h
    exact ⟨h.1, h.2.2 h.2.1⟩
  · rintro ⟨hx, hne⟩
    have hlt := BitVec.lt_of_getLsbD hx
    simp [hx, hlt, hne]

/-! ### Lines -/

/-- A line change that alters no bitmap leaves the controller alone. -/
lemma setPending_eq (p : Plic) {irq : ℕ} (h : 0 < irq ∧ irq < maxIrqs) (on : Bool) :
    p.setPending irq on =
      let line := if on then p.line ||| bit irq else p.line &&& ~~~bit irq
      let pending := if on then p.pending ||| bit irq else p.pending &&& ~~~bit irq
      { p with
        line := line
        pending := pending
        dirty := p.dirty || line != p.line || pending != p.pending } := by
  unfold setPending
  rw [if_neg (by omega)]

lemma setPending_line {irq : ℕ} (h : 0 < irq ∧ irq < maxIrqs) (on : Bool) (s : ℕ) :
    (p.setPending irq on).line.getLsbD s = true ↔
      if on then s = irq ∨ p.line.getLsbD s = true else p.line.getLsbD s = true ∧ s ≠ irq := by
  rw [setPending_eq p h]
  cases on with
  | true => exact getLsbD_or_bit h.2 s
  | false => exact getLsbD_clear_bit s

lemma setPending_pending {irq : ℕ} (h : 0 < irq ∧ irq < maxIrqs) (on : Bool) (s : ℕ) :
    (p.setPending irq on).pending.getLsbD s = true ↔
      if on then s = irq ∨ p.pending.getLsbD s = true
      else p.pending.getLsbD s = true ∧ s ≠ irq := by
  rw [setPending_eq p h]
  cases on with
  | true => exact getLsbD_or_bit h.2 s
  | false => exact getLsbD_clear_bit s

lemma setPending_claimed (irq : ℕ) (on : Bool) : (p.setPending irq on).claimed = p.claimed := by
  unfold setPending
  split <;> rfl

lemma setPending_best (hinv : p.Inv) {irq : ℕ} (h : 0 < irq ∧ irq < maxIrqs) (on : Bool)
    (hd : (p.setPending irq on).dirty = false) (c : ℕ) :
    (p.setPending irq on).best c = (p.setPending irq on).scan c := by
  rw [setPending_eq p h] at hd ⊢
  dsimp only at hd ⊢
  -- the flag is clear only if it was and neither bitmap changed
  simp only [Bool.or_eq_false_iff, bne_eq_false_iff_eq] at hd
  have heq := hinv.best hd.1.1 c
  unfold scan at heq ⊢
  dsimp only at heq ⊢
  rw [hd.2]
  exact heq

lemma Inv.setPending (hinv : p.Inv) (irq : ℕ) (on : Bool) : (p.setPending irq on).Inv := by
  by_cases h : 0 < irq ∧ irq < maxIrqs
  · refine ⟨?_, ?_, fun s => ?_, fun s => ?_, setPending_best hinv h on⟩
    · rw [← Bool.not_eq_true, setPending_line h]
      have hz := Bool.eq_false_iff.mp hinv.line_zero
      cases on with
      | true => exact not_or.mpr ⟨by omega, hz⟩
      | false => exact fun hs => hz hs.1
    · rw [setPending_claimed]
      exact hinv.claimed_zero
    · rw [setPending_line h, setPending_pending h]
      have hp := hinv.line_of_pending s
      cases on with
      | true => exact fun hs => hs.imp_right hp
      | false => exact fun hs => ⟨hp hs.1, hs.2⟩
    · rw [setPending_line h, setPending_pending h, setPending_claimed]
      have hl := hinv.pending_of_line s
      cases on with
      | true => exact fun hs hc => hs.imp_right fun hline => hl hline hc
      | false => exact fun hs hc => ⟨hl hs.1 hc, hs.2⟩
  · rw [Plic.setPending, if_pos (by omega)]
    exact hinv

lemma setPending_view (irq : ℕ) (on : Bool) :
    (p.setPending irq on).view =
      if 0 < irq ∧ irq < maxIrqs then p.view.setLine irq on else p.view := by
  by_cases h : 0 < irq ∧ irq < maxIrqs
  · rw [if_pos h]
    have hset : {s | (p.setPending irq on).line.getLsbD s = true} =
        (p.view.setLine irq on).asserted := by
      ext s
      rw [Set.mem_ofPred_eq, setPending_line h]
      cases on with
      | true => exact Iff.rfl
      | false => exact Iff.rfl
    have hrest : (p.setPending irq on).view =
        { p.view with asserted := {s | (p.setPending irq on).line.getLsbD s = true} } := by
      rw [setPending_eq p h]
      rfl
    rw [hrest, hset]
    rfl
  · rw [if_neg h, setPending, if_pos (by omega)]

/-! ### Claims and completions -/

/-- A claim answers the scan, and puts the answer in service. -/
lemma Inv.claim_eq (hinv : p.Inv) (c : ℕ) :
    p.claim c =
      (p.scan c,
        if p.scan c ≠ 0 then
          { p.refresh with
            claimed := p.claimed ||| bit (p.scan c)
            pending := p.refresh.pending &&& ~~~bit (p.scan c)
            dirty := true }
        else p.refresh) := by
  unfold Plic.claim
  rw [hinv.bestIrq]
  dsimp only
  rw [refresh_claimed]
  split <;> rfl

/-- The arbiter's answer is the scan. -/
lemma Inv.answer (hinv : p.Inv) (c : ℕ) :
    p.view.answer c = if p.scan c ≠ 0 then some (p.scan c) else none := by
  rcases scan_spec hinv c with ⟨hz, hnone⟩ | ⟨hne, hbest⟩
  · rw [if_neg (by simp [hz]), Arbiter.answer_of_none hnone]
  · rw [if_pos hne, Arbiter.answer_of_best hbest]

lemma Inv.scan_lt (hinv : p.Inv) {c : ℕ} (h : p.scan c ≠ 0) : p.scan c < 64 := by
  rcases scan_spec hinv c with ⟨hz, -⟩ | ⟨-, hbest⟩
  · exact absurd hz h
  · exact (eligible_range hinv hbest.1).2

lemma refresh_pending (p : Plic) : p.refresh.pending = p.pending := by
  unfold refresh
  split <;> rfl

lemma refresh_line (p : Plic) : p.refresh.line = p.line := by
  unfold refresh
  split <;> rfl

lemma Inv.claim (hinv : p.Inv) (c : ℕ) : (p.claim c).2.Inv := by
  rw [hinv.claim_eq]
  by_cases h : p.scan c ≠ 0
  · have hlt := hinv.scan_lt h
    simp only [if_pos h]
    refine ⟨?_, ?_, fun s => ?_, fun s => ?_, fun hd => absurd hd (by simp)⟩
    · rw [refresh_line]
      exact hinv.line_zero
    · rw [← Bool.not_eq_true, getLsbD_or_bit hlt]
      have hz := Bool.eq_false_iff.mp hinv.claimed_zero
      exact not_or.mpr ⟨by omega, hz⟩
    · rw [refresh_line, refresh_pending, getLsbD_clear_bit]
      exact fun hs => hinv.line_of_pending s hs.1
    · rw [refresh_line, refresh_pending, getLsbD_or_bit hlt, getLsbD_clear_bit, not_or]
      exact fun hl hs => ⟨hinv.pending_of_line s hl hs.2, hs.1⟩
  · simp only [if_neg h]
    exact hinv.refresh

lemma Inv.claim_view (hinv : p.Inv) (c : ℕ) : (p.claim c).2.view = p.view.claim c := by
  rw [hinv.claim_eq, Arbiter.claim, hinv.answer]
  by_cases h : p.scan c ≠ 0
  · simp only [if_pos h]
    have hset : {s | (p.claimed ||| bit (p.scan c)).getLsbD s = true} =
        insert (p.scan c) p.view.inService := by
      ext s
      exact getLsbD_or_bit (hinv.scan_lt h) s
    calc _ = { p.refresh.view with
              inService := {s | (p.claimed ||| bit (p.scan c)).getLsbD s = true} } := rfl
      _ = _ := by rw [refresh_view, hset]
  · simp only [if_neg h]
    exact refresh_view p

lemma Inv.complete (hinv : p.Inv) (irq : ℕ) : (p.complete irq).Inv := by
  by_cases h : 0 < irq ∧ irq < maxIrqs
  · rw [Plic.complete, if_neg (by omega)]
    have hpend : ∀ s, (if p.line &&& bit irq ≠ 0 then p.pending ||| bit irq
        else p.pending).getLsbD s = true ↔
          p.pending.getLsbD s = true ∨ (s = irq ∧ p.line.getLsbD s = true) := by
      intro s
      by_cases hl : p.line &&& bit irq = 0
      · rw [if_neg (not_not.mpr hl)]
        refine ⟨Or.inl, ?_⟩
        rintro (hs | ⟨rfl, hs⟩)
        · exact hs
        · exact absurd hs (Bool.eq_false_iff.mp ((and_bit_eq_zero h.2).mp hl))
      · rw [if_pos hl, getLsbD_or_bit h.2]
        rw [and_bit_eq_zero h.2, Bool.not_eq_false] at hl
        constructor
        · rintro (rfl | hs)
          · exact Or.inr ⟨rfl, hl⟩
          · exact Or.inl hs
        · rintro (hs | ⟨rfl, -⟩)
          · exact Or.inr hs
          · exact Or.inl rfl
    refine ⟨hinv.line_zero, ?_, fun s => ?_, fun s => ?_, fun hd => absurd hd (by simp)⟩
    · rw [← Bool.not_eq_true, getLsbD_clear_bit]
      have hz := Bool.eq_false_iff.mp hinv.claimed_zero
      exact fun hs => hz hs.1
    · rw [hpend]
      rintro (hs | ⟨-, hs⟩)
      · exact hinv.line_of_pending s hs
      · exact hs
    · rw [hpend, getLsbD_clear_bit, not_and_or, not_not]
      rintro hl (hc | rfl)
      · exact Or.inl (hinv.pending_of_line s hl hc)
      · exact Or.inr ⟨rfl, hl⟩
  · rw [Plic.complete, if_pos (by omega)]
    exact hinv

lemma Inv.complete_view (hinv : p.Inv) (irq : ℕ) :
    (p.complete irq).view = p.view.complete irq := by
  by_cases h : 0 < irq ∧ irq < maxIrqs
  · have hset : {s | (p.claimed &&& ~~~bit irq).getLsbD s = true} =
        p.view.inService \ {irq} := by
      ext s
      exact getLsbD_clear_bit s
    rw [Plic.complete, if_neg (by omega)]
    calc _ = { p.view with inService := {s | (p.claimed &&& ~~~bit irq).getLsbD s = true} } := rfl
      _ = _ := by
        rw [hset]
        rfl
  · -- neither source 0 nor a number beyond the bitmap is ever in service
    have hnot : irq ∉ p.view.inService := by
      intro hmem
      have hget : p.claimed.getLsbD irq = true := hmem
      have hlt := BitVec.lt_of_getLsbD hget
      have hzero : irq = 0 := by
        simp only [maxIrqs] at h
        omega
      rw [hzero, hinv.claimed_zero] at hget
      exact absurd hget (by simp)
    rw [Plic.complete, if_pos (by omega), Arbiter.complete, Set.sdiff_singleton_eq_self hnot]

/-! ### Registers -/

/-- A change of the registers that sets the dirty flag. -/
lemma Inv.of_bitmaps {q : Plic} (hinv : p.Inv) (hl : q.line = p.line) (hp : q.pending = p.pending)
    (hc : q.claimed = p.claimed) (hd : q.dirty = true) : q.Inv where
  line_zero := hl ▸ hinv.line_zero
  claimed_zero := hc ▸ hinv.claimed_zero
  line_of_pending := by
    rw [hl, hp]
    exact hinv.line_of_pending
  pending_of_line := by
    rw [hl, hp, hc]
    exact hinv.pending_of_line
  best h := absurd h (by simp [hd])

lemma setPriority_view (irq : ℕ) (v : U32) :
    ({ p with priority := Function.update p.priority irq v, dirty := true } : Plic).view =
      p.view.setPriority irq v.toNat := by
  have hprio : (fun s => ((Function.update p.priority irq v) s).toNat) =
      Function.update p.view.priority irq v.toNat := by
    funext s
    rcases eq_or_ne s irq with rfl | hne
    · rw [Function.update_self, Function.update_self]
    · rw [Function.update_of_ne hne, Function.update_of_ne hne]
      rfl
  unfold Arbiter.setPriority
  rw [← hprio]
  rfl

lemma setThreshold_view (c : ℕ) (v : U32) :
    (p.setContext c { p.contexts c with threshold := v }).view =
      p.view.setThreshold c v.toNat := by
  have hthr : (p.setContext c { p.contexts c with threshold := v }).view.threshold =
      Function.update p.view.threshold c v.toNat := by
    funext x
    simp only [view, setContext]
    rcases eq_or_ne x c with rfl | hne
    · rw [Function.update_self, Function.update_self]
    · rw [Function.update_of_ne hne, Function.update_of_ne hne]
  have hen : (p.setContext c { p.contexts c with threshold := v }).view.enabled =
      p.view.enabled := by
    funext x
    simp only [view, setContext]
    rcases eq_or_ne x c with rfl | hne
    · rw [Function.update_self]
    · rw [Function.update_of_ne hne]
  unfold Arbiter.setThreshold
  rw [← hthr, ← hen]
  rfl

lemma getLsbD_setWord {x : U64} {i : ℕ} (hi : i < 2) (v : U32) (s : ℕ) :
    ((x &&& ~~~((0xffffffff : U64) <<< (i * 32))) ||| (v.setWidth 64 <<< (i * 32))).getLsbD s =
      if s / 32 = i then v.getLsbD (s % 32) else x.getLsbD s := by
  by_cases hs : s < 64
  · have hmask : (0xffffffff : U64) = (BitVec.allOnes 32).setWidth 64 := rfl
    rw [hmask, BitVec.getLsbD_or, BitVec.getLsbD_and, BitVec.getLsbD_not, BitVec.getLsbD_shiftLeft,
      BitVec.getLsbD_shiftLeft, BitVec.getLsbD_setWidth, BitVec.getLsbD_setWidth,
      BitVec.getLsbD_allOnes]
    by_cases hdiv : s / 32 = i
    · have hge : ¬ s < i * 32 := by omega
      have hsub : s - i * 32 = s % 32 := by omega
      have hmod : s % 32 < 32 := Nat.mod_lt _ (by omega)
      rw [if_pos hdiv, hsub]
      simp [hs, hge, hmod, show s % 32 < 64 by omega]
    · rw [if_neg hdiv]
      by_cases hlt : s < i * 32
      · simp [hs, hlt]
      · have hge : ¬ s - i * 32 < 32 := by omega
        simp [hs, hlt, hge, BitVec.getLsbD_of_ge v (s - i * 32) (by omega)]
  · rw [BitVec.getLsbD_of_ge _ _ (by omega), if_neg (by omega), BitVec.getLsbD_of_ge _ _ (by omega)]

lemma setEnabled_view {c i : ℕ} (hc : c < p.numContexts) (hi : i < 2) (v : U32) :
    (p.setEnabled c i v).view =
      p.view.setEnabled c {s | s / 32 = i} {s | v.getLsbD (s % 32)} := by
  have hen : (p.setEnabled c i v).view.enabled = Function.update p.view.enabled c
      ((p.view.enabled c \ {s | s / 32 = i}) ∪ ({s | v.getLsbD (s % 32)} ∩ {s | s / 32 = i})) := by
    funext x
    rcases eq_or_ne x c with rfl | hne
    · rw [Function.update_self]
      ext s
      simp only [view, setEnabled, setContext, Function.update_self, Set.mem_ofPred_eq,
        hc, true_and, getLsbD_setWord hi, Set.mem_union, Set.mem_sdiff, Set.mem_inter_iff]
      split <;> simp [*]
    · rw [Function.update_of_ne hne]
      simp only [view, setEnabled, setContext]
      rw [Function.update_of_ne hne]
  have hthr : (p.setEnabled c i v).view.threshold = p.view.threshold := by
    funext x
    simp only [view, setEnabled, setContext]
    rcases eq_or_ne x c with rfl | hne
    · rw [Function.update_self]
    · rw [Function.update_of_ne hne]
  unfold Arbiter.setEnabled
  rw [← hen, ← hthr]
  rfl

end Operations

end Plic

end RiscvEmu
