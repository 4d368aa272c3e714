import RiscvEmu.Device.Arbitration

/-!
# Runs of the interrupt controller

Every operation of the controller is one step of the arbiter it stands for, so after any sequence
of operations a claim, the external-interrupt bits and the kept answers are those of the arbiter.
-/

namespace RiscvEmu

open Exec

namespace Plic

variable {p : Plic}

/-! ## Accesses by register -/

section Offsets

variable {n offset : ℕ}

lemma not_priority (h : ¬ offset < contextBase) : ¬ offset < priorityBase + maxIrqs * 4 := by
  simp only [contextBase, priorityBase, maxIrqs] at h ⊢
  omega

lemma not_pending (h : ¬ offset < contextBase) :
    ¬ (pendingBase ≤ offset ∧ offset < pendingBase + 0x80) := by
  simp only [contextBase, pendingBase] at h ⊢
  omega

lemma not_enable (h : ¬ offset < contextBase) :
    ¬ (enableBase ≤ offset ∧ offset < contextBase) := fun hen => h hen.2

lemma regAt_low (h : offset < contextBase) (c : ℕ) : regAt n offset ≠ .claim c := by
  have hctx : ¬ (contextBase ≤ offset ∧ (offset - contextBase) / contextStride < n) :=
    fun hc => absurd h (Nat.not_lt.mpr hc.1)
  unfold regAt
  rw [if_neg hctx]
  split_ifs <;> simp

lemma regAt_high (h : ¬ offset < contextBase) :
    regAt n offset =
      if (offset - contextBase) / contextStride < n then
        if (offset - contextBase) % contextStride = thresholdOff then
          .threshold ((offset - contextBase) / contextStride)
        else if (offset - contextBase) % contextStride = claimOff then
          .claim ((offset - contextBase) / contextStride)
        else .other
      else .other := by
  unfold regAt
  rw [if_neg (not_priority h), if_neg (not_enable h)]
  simp only [Nat.not_lt.mp h, true_and]

lemma load_high (h : ¬ offset < contextBase) :
    load offset 4 p =
      if (offset - contextBase) / contextStride < p.numContexts then
        if (offset - contextBase) % contextStride = thresholdOff then
          .ok ((p.contexts ((offset - contextBase) / contextStride)).threshold.setWidth 64) p
        else if (offset - contextBase) % contextStride = claimOff then
          .ok (BitVec.ofNat 64 (p.claim ((offset - contextBase) / contextStride)).1)
            (p.claim ((offset - contextBase) / contextStride)).2
        else .ok 0 p
      else .ok 0 p := by
  have hctx : offset ≥ contextBase := Nat.not_lt.mp h
  unfold load
  rw [if_neg (by simp), if_neg (not_priority h), if_neg (not_pending h), if_neg (not_enable h),
    if_pos hctx]
  by_cases hn : (offset - contextBase) / contextStride < p.numContexts
  · have hn' : ¬ (offset - contextBase) / contextStride ≥ p.numContexts := by omega
    rw [if_pos hn, if_neg hn']
  · have hn' : (offset - contextBase) / contextStride ≥ p.numContexts := by omega
    rw [if_neg hn, if_pos hn']

end Offsets

variable {offset c s : ℕ}

lemma final_load_width {size : ℕ} (h : size ≠ 4) : final (load offset size) p = p := by
  apply final_of_error
  rw [load, if_pos h]

lemma final_load_low (h : offset < contextBase) : final (load offset 4) p = p := by
  have hctx : ¬ offset ≥ contextBase := by omega
  unfold final load
  rw [if_neg (by simp), if_neg hctx]
  split_ifs <;> rfl

/-- A load changes the controller only as a claim. -/
lemma final_load (offset size : ℕ) :
    final (load offset size) p =
      match regAt p.numContexts offset with
      | .claim c => if size = 4 then (p.claim c).2 else p
      | _ => p := by
  by_cases hsize : size = 4
  swap
  · rw [final_load_width hsize]
    split <;> simp [hsize]
  subst hsize
  by_cases hlow : offset < contextBase
  · rw [final_load_low hlow]
    split
    · next c hreg => exact absurd hreg (regAt_low hlow c)
    · rfl
  · have hreg := regAt_high (n := p.numContexts) hlow
    have hload := load_high (p := p) hlow
    by_cases hn : (offset - contextBase) / contextStride < p.numContexts
    · rw [if_pos hn] at hreg hload
      by_cases h₁ : (offset - contextBase) % contextStride = thresholdOff
      · rw [if_pos h₁] at hreg hload
        rw [final_of_ok hload, hreg]
      · rw [if_neg h₁] at hreg hload
        by_cases h₂ : (offset - contextBase) % contextStride = claimOff
        · rw [if_pos h₂] at hreg hload
          rw [final_of_ok hload, hreg]
          exact (if_pos rfl).symm
        · rw [if_neg h₂] at hreg hload
          rw [final_of_ok hload, hreg]
    · rw [if_neg hn] at hreg hload
      rw [final_of_ok hload, hreg]

lemma final_store (offset : ℕ) (value : U64) :
    final (store offset 4 value) p =
      match regAt p.numContexts offset with
      | .priority irq =>
        { p with priority := Function.update p.priority irq (value.setWidth 32), dirty := true }
      | .enable c i => p.setEnabled c i (value.setWidth 32)
      | .threshold c => p.setContext c { p.contexts c with threshold := value.setWidth 32 }
      | .claim _ => p.complete (value.setWidth 32).toNat
      | .other => p := by
  unfold final store regAt
  dsimp only
  rw [if_neg (by simp)]
  by_cases hprio : offset < priorityBase + maxIrqs * 4
  · rw [if_pos hprio, if_pos hprio]
  rw [if_neg hprio, if_neg hprio]
  by_cases hen : enableBase ≤ offset ∧ offset < contextBase
  · rw [if_pos hen, if_pos hen]
    by_cases hn : (offset - enableBase) / 0x80 < p.numContexts ∧
      (offset - enableBase) % 0x80 / 4 < 2
    · rw [if_pos hn, if_pos hn]
    · rw [if_neg hn, if_neg hn]
  rw [if_neg hen, if_neg hen]
  by_cases hctx : contextBase ≤ offset
  swap
  · have hctx' : ¬ offset ≥ contextBase := hctx
    rw [if_neg hctx', if_neg fun h => hctx h.1]
  have hctx' : offset ≥ contextBase := hctx
  rw [if_pos hctx']
  simp only [hctx, true_and]
  by_cases hn : (offset - contextBase) / contextStride < p.numContexts
  · rw [if_pos hn, if_pos hn]
    by_cases h₁ : (offset - contextBase) % contextStride = thresholdOff
    · rw [if_pos h₁, if_pos h₁]
    · rw [if_neg h₁, if_neg h₁]
      by_cases h₂ : (offset - contextBase) % contextStride = claimOff
      · rw [if_pos h₂, if_pos h₂]
      · rw [if_neg h₂, if_neg h₂]
  · rw [if_neg hn, if_neg hn]

lemma final_store_width {size : ℕ} {value : U64} (h : size ≠ 4) :
    final (store offset size value) p = p := by
  apply final_of_error
  unfold store
  dsimp only
  rw [if_pos h]

/-- The claim register of a context. -/
def claimReg (c : ℕ) : ℕ := contextBase + c * contextStride + claimOff

section ClaimReg

variable (c : ℕ)

lemma claimReg_high : ¬ claimReg c < contextBase := by
  simp only [claimReg]
  omega

lemma claimReg_div : (claimReg c - contextBase) / contextStride = c := by
  simp only [claimReg, contextBase, contextStride, claimOff]
  omega

lemma claimReg_mod : (claimReg c - contextBase) % contextStride = claimOff := by
  simp only [claimReg, contextBase, contextStride, claimOff]
  omega

lemma claimOff_ne : claimOff ≠ thresholdOff := by decide

end ClaimReg

lemma regAt_claimReg (n c : ℕ) :
    regAt n (claimReg c) = if c < n then .claim c else .other := by
  rw [regAt_high (claimReg_high c), claimReg_div, claimReg_mod, if_neg claimOff_ne, if_pos rfl]

lemma load_claimReg (c : ℕ) :
    load (claimReg c) 4 p =
      if c < p.numContexts then .ok (BitVec.ofNat 64 (p.claim c).1) (p.claim c).2 else .ok 0 p := by
  rw [load_high (claimReg_high c), claimReg_div, claimReg_mod, if_neg claimOff_ne, if_pos rfl]

/-! ## One operation -/

lemma setPending_numContexts (irq : ℕ) (on : Bool) :
    (p.setPending irq on).numContexts = p.numContexts := by
  unfold setPending
  split <;> rfl

lemma claim_numContexts (c : ℕ) : (p.claim c).2.numContexts = p.numContexts := by
  unfold claim bestIrq
  dsimp only
  split_ifs <;> exact refresh_numContexts p

lemma complete_numContexts (irq : ℕ) : (p.complete irq).numContexts = p.numContexts := by
  unfold complete
  split <;> rfl

/-- Driving the interrupt bits only refreshes the kept answers. -/
lemma Inv.update_eq (hinv : p.Inv) (csrs : CsrFile) (hart : ℕ) :
    p.update csrs hart =
      (drive (drive csrs Csr.mipMeip (p.scan (2 * hart) != 0)) Csr.mipSeip
        (p.scan (2 * hart + 1) != 0), p.refresh.refresh) := by
  unfold Plic.update
  rw [hinv.bestIrq]
  dsimp only
  rw [hinv.refresh.bestIrq, refresh_scan]

/-- What a run of operations keeps: the invariant, and the arbiter the controller stands for. -/
structure Refines (n : ℕ) (p : Plic) (a : Arbiter ℕ ℕ) : Prop where
  inv : p.Inv
  numContexts : p.numContexts = n
  view : p.view = a

variable {n : ℕ} {a : Arbiter ℕ ℕ}

lemma Refines.setPending (h : Refines n p a) (irq : ℕ) (on : Bool) :
    Refines n (p.setPending irq on) (specStep n a (.setPending irq on)) where
  inv := h.inv.setPending irq on
  numContexts := by rw [setPending_numContexts, h.numContexts]
  view := by rw [setPending_view, h.view, specStep]

lemma Refines.claim (h : Refines n p a) (c : ℕ) : Refines n (p.claim c).2 (a.claim c) where
  inv := h.inv.claim c
  numContexts := by rw [claim_numContexts, h.numContexts]
  view := by rw [h.inv.claim_view, h.view]

lemma Refines.load (h : Refines n p a) (offset size : ℕ) :
    Refines n (final (Plic.load offset size) p) (specStep n a (.load offset size)) := by
  rw [final_load, h.numContexts]
  unfold specStep
  dsimp only
  cases regAt n offset with
  | claim c =>
    by_cases hsize : size = 4
    · simp only [hsize, if_true]
      exact h.claim c
    · simp only [hsize, if_false]
      exact h
  | priority irq => exact h
  | enable c i => exact h
  | threshold c => exact h
  | other => exact h

/-- The enable registers of the map are those of contexts that exist. -/
lemma regAt_enable {i : ℕ} (h : regAt n offset = .enable c i) : c < n ∧ i < 2 := by
  unfold regAt at h
  split_ifs at h with h₁ h₂ h₃
  · simp only [PlicReg.enable.injEq] at h
    exact ⟨h.1 ▸ h₃.1, h.2 ▸ h₃.2⟩

lemma Refines.store (h : Refines n p a) (offset size : ℕ) (value : U64) :
    Refines n (final (Plic.store offset size value) p)
      (specStep n a (.store offset size value)) := by
  obtain ⟨hinv, rfl, rfl⟩ := h
  unfold specStep
  dsimp only
  by_cases hsize : size = 4
  swap
  · rw [final_store_width hsize, if_neg hsize]
    exact ⟨hinv, rfl, rfl⟩
  subst hsize
  rw [final_store, if_pos rfl]
  cases hreg : regAt p.numContexts offset with
  | priority irq => exact ⟨hinv.of_bitmaps rfl rfl rfl rfl, rfl, setPriority_view irq _⟩
  | enable c i =>
    obtain ⟨hc, hi⟩ := regAt_enable hreg
    exact ⟨hinv.of_bitmaps rfl rfl rfl rfl, rfl, setEnabled_view hc hi _⟩
  | threshold c => exact ⟨hinv.of_bitmaps rfl rfl rfl rfl, rfl, setThreshold_view c _⟩
  | claim c => exact ⟨hinv.complete _, complete_numContexts _, hinv.complete_view _⟩
  | other => exact ⟨hinv, rfl, rfl⟩

lemma Refines.refresh (h : Refines n p a) : Refines n p.refresh a where
  inv := h.inv.refresh
  numContexts := by rw [refresh_numContexts, h.numContexts]
  view := by rw [refresh_view, h.view]

/-- Every operation is a step of the arbiter. -/
lemma Refines.apply (h : Refines n p a) (op : PlicOp) :
    Refines n (p.apply op) (specStep n a op) := by
  cases op with
  | setPending irq on => exact h.setPending irq on
  | load offset size => exact h.load offset size
  | store offset size value => exact h.store offset size value
  | update csrs hart =>
    show Refines n (p.update csrs hart).2 a
    rw [h.inv.update_eq]
    exact h.refresh.refresh

lemma refines_new (harts : ℕ) : Refines (2 * max harts 1) (new harts) specReset where
  inv := ⟨BitVec.getLsbD_zero, BitVec.getLsbD_zero, fun s hs => hs, fun s hs _ => hs,
    fun hd => absurd hd (by simp [new])⟩
  numContexts := rfl
  view := by
    unfold view specReset new
    simp

lemma Refines.after (h : Refines n p a) (ops : List PlicOp) :
    Refines n (p.after ops) (ops.foldl (specStep n) a) := by
  induction ops generalizing p a with
  | nil => exact h
  | cons op ops ih => exact ih (h.apply op)

/-! ## Completions -/

/-- The operation completes source `s`. -/
def Completes (n s : ℕ) (op : PlicOp) : Prop :=
  ∃ c < n, ∃ value : U64, op = .store (claimReg c) 4 value ∧ (value.setWidth 32).toNat = s

lemma eq_claimReg_of_regAt (h : regAt n offset = .claim c) :
    c < n ∧ offset = claimReg c := by
  by_cases hlow : offset < contextBase
  · exact absurd h (regAt_low hlow c)
  rw [regAt_high hlow] at h
  split_ifs at h with h₁ h₂ h₃
  · simp only [PlicReg.claim.injEq] at h
    refine ⟨h ▸ h₁, ?_⟩
    simp only [claimReg, contextBase, contextStride, claimOff] at *
    omega

/-- A source stays in service until it is completed. -/
lemma inService_specStep (hs : s ∈ a.inService) {op : PlicOp} (hop : ¬ Completes n s op) :
    s ∈ (specStep n a op).inService := by
  cases op with
  | setPending irq on =>
    unfold specStep
    dsimp only
    split <;> exact hs
  | load offset size =>
    unfold specStep
    dsimp only
    split
    · split
      · unfold Arbiter.claim
        split
        · exact Set.mem_insert_of_mem _ hs
        · exact hs
      · exact hs
    · exact hs
  | store offset size value =>
    unfold specStep
    dsimp only
    split
    · next hsize =>
        split
        · exact hs
        · exact hs
        · exact hs
        · next c hreg =>
            obtain ⟨hc, rfl⟩ := eq_claimReg_of_regAt hreg
            refine ⟨hs, fun heq => hop ⟨c, hc, value, by rw [hsize], ?_⟩⟩
            exact (Set.mem_singleton_iff.mp heq).symm
        · exact hs
    · exact hs
  | update csrs hart => exact hs

lemma inService_foldl (hs : s ∈ a.inService) (ops : List PlicOp)
    (hops : ∀ op ∈ ops, ¬ Completes n s op) : s ∈ (ops.foldl (specStep n) a).inService := by
  induction ops generalizing a with
  | nil => exact hs
  | cons op ops ih =>
    exact ih (inService_specStep hs (hops op List.mem_cons_self))
      fun op' h => hops op' (List.mem_cons_of_mem op h)

/-! ## The interrupt bits -/

lemma drive_raw (csrs : CsrFile) (m : U64) (on : Bool) :
    (drive csrs m on).raw Csr.mip =
      if on then csrs.raw Csr.mip ||| m else csrs.raw Csr.mip &&& ~~~m := by
  cases on with
  | true => exact CsrFile.setRaw_raw_self ..
  | false => exact CsrFile.setRaw_raw_self ..

lemma drive_and (csrs : CsrFile) {m : U64} (hm : m ≠ 0) (on : Bool) :
    (drive csrs m on).raw Csr.mip &&& m ≠ 0 ↔ on = true := by
  rw [drive_raw]
  cases on with
  | true =>
    have h : (csrs.raw Csr.mip ||| m) &&& m = m := by grind
    rw [if_pos rfl, h]
    exact ⟨fun _ => rfl, fun _ => hm⟩
  | false =>
    have h : (csrs.raw Csr.mip &&& ~~~m) &&& m = 0 := by grind
    simp [h]

lemma drive_and_of_disjoint (csrs : CsrFile) {m k : U64} (hmk : m &&& k = 0) (on : Bool) :
    (drive csrs m on).raw Csr.mip &&& k = csrs.raw Csr.mip &&& k := by
  rw [drive_raw]
  cases on with
  | true => exact BitField.or_and_of_disjoint hmk
  | false => exact BitField.clear_and_of_disjoint hmk

/-! ## The result -/

lemma Refines.load_claimReg (h : Refines n p a) (c : ℕ) :
    ∃ q, Plic.load (claimReg c) 4 p = .ok (BitVec.ofNat 64 (p.scan c)) q := by
  rw [Plic.load_claimReg]
  by_cases hc : c < p.numContexts
  · rw [if_pos hc, h.inv.claim_eq]
    exact ⟨_, rfl⟩
  · rw [if_neg hc, scan, if_neg hc]
    exact ⟨_, rfl⟩

lemma Refines.toNat_of_load (h : Refines n p a) {v : U64} {q : Plic}
    (hq : Plic.load (claimReg c) 4 p = .ok v q) : v.toNat = p.scan c := by
  obtain ⟨r, hr⟩ := h.load_claimReg c
  rw [hq] at hr
  obtain ⟨rfl, -⟩ := EStateM.Result.ok.inj hr
  have hlt : p.scan c < 64 := by
    by_cases hz : p.scan c = 0
    · omega
    · exact h.inv.scan_lt hz
  rw [BitVec.toNat_ofNat, Nat.mod_eq_of_lt (by omega)]

/-- A scan is non-zero exactly if some source wants service. -/
lemma Refines.scan_ne_zero (h : Refines n p a) (c : ℕ) :
    p.scan c ≠ 0 ↔ ∃ s, a.Eligible c s := by
  rcases scan_spec h.inv c with ⟨hz, hnone⟩ | ⟨hne, hbest⟩
  · rw [h.view] at hnone
    simp [hz, hnone]
  · rw [h.view] at hbest
    exact ⟨fun _ => ⟨_, hbest.1⟩, fun _ => hne⟩

lemma Refines.inService_of_claim (h : Refines n p a) (hne : p.scan c ≠ 0) :
    p.scan c ∈ (specStep n a (.load (claimReg c) 4)).inService := by
  have hc : c < n := by
    by_contra hc
    rw [← h.numContexts] at hc
    exact hne (by rw [scan, if_neg hc])
  have hans := h.inv.answer c
  rw [h.view, if_pos hne] at hans
  unfold specStep
  dsimp only
  rw [regAt_claimReg, if_pos hc]
  simp only [if_true, Arbiter.claim, hans]
  exact Set.mem_insert ..

/-- A source in service is not the answer of a claim. -/
lemma Refines.scan_ne_of_inService (h : Refines n p a) (hs : s ∈ a.inService)
    (hne : p.scan c ≠ 0) : p.scan c ≠ s := by
  rintro rfl
  have hans := h.inv.answer c
  rw [h.view, if_pos hne] at hans
  exact Arbiter.not_answer_of_inService hs hans

/-- The controller arbitrates as the arbiter does, after any operations out of reset: a claim
answers the source of greatest priority, the external-interrupt bits say whether there is one, the
kept answer is that of a fresh scan, and a source is claimed again only after a completion. -/
theorem plic_arbitrates (harts : ℕ) (ops : List PlicOp) :
    let n := 2 * max harts 1
    let p := (new harts).after ops
    let a := specAfter n ops
    (∀ c, (∃ s q, a.Best c s ∧ load (claimReg c) 4 p = .ok (BitVec.ofNat 64 s) q) ∨
      ((∀ s, ¬ a.Eligible c s) ∧ ∃ q, load (claimReg c) 4 p = .ok 0 q)) ∧
    (∀ csrs hart,
      ((p.update csrs hart).1.raw Csr.mip &&& Csr.mipMeip ≠ 0 ↔ ∃ s, a.Eligible (2 * hart) s) ∧
      ((p.update csrs hart).1.raw Csr.mip &&& Csr.mipSeip ≠ 0 ↔
        ∃ s, a.Eligible (2 * hart + 1) s)) ∧
    (∀ c mid c' v q q', v ≠ 0 → load (claimReg c) 4 p = .ok v q →
      load (claimReg c') 4 ((new harts).after (ops ++ .load (claimReg c) 4 :: mid)) = .ok v q' →
      ∃ op ∈ mid, Completes n v.toNat op) ∧
    ∀ c, (p.bestIrq c).1 = p.scan c := by
  intro n p a
  have href : Refines n p a := (refines_new harts).after ops
  refine ⟨fun c => ?_, fun csrs hart => ⟨?_, ?_⟩, fun c mid c' v q q' hv hq hq' => ?_, fun c => ?_⟩
  · obtain ⟨q, hq⟩ := href.load_claimReg c
    rcases scan_spec href.inv c with ⟨hz, hnone⟩ | ⟨-, hbest⟩
    · rw [href.view] at hnone
      rw [hz] at hq
      exact Or.inr ⟨hnone, q, hq⟩
    · rw [href.view] at hbest
      exact Or.inl ⟨_, q, hbest, hq⟩
  · have hdisj : Csr.mipSeip &&& Csr.mipMeip = 0 := by decide
    rw [href.inv.update_eq, drive_and_of_disjoint _ hdisj, drive_and _ (by decide), bne_iff_ne]
    exact href.scan_ne_zero _
  · rw [href.inv.update_eq, drive_and _ (by decide), bne_iff_ne]
    exact href.scan_ne_zero _
  · -- the source of the first claim is in service until it is completed
    by_contra hno
    have hmid : ∀ op ∈ mid, ¬ Completes n v.toNat op := fun op hop hc => hno ⟨op, hop, hc⟩
    have href' := (refines_new harts).after (ops ++ .load (claimReg c) 4 :: mid)
    have hscan := href.toNat_of_load hq
    have hscan' := href'.toNat_of_load hq'
    have hne : v.toNat ≠ 0 := fun hz => hv (BitVec.eq_of_toNat_eq hz)
    have hclaimed := href.inService_of_claim (hscan ▸ hne)
    rw [← hscan] at hclaimed
    have hserving := inService_foldl hclaimed mid hmid
    have hfold : (ops ++ .load (claimReg c) 4 :: mid).foldl (specStep n) specReset =
        mid.foldl (specStep n) (specStep n a (.load (claimReg c) 4)) := by
      rw [List.foldl_append, List.foldl_cons]
      rfl
    rw [← hfold] at hserving
    exact href'.scan_ne_of_inService hserving (hscan' ▸ hne) hscan'.symm
  · rw [href.inv.bestIrq]

/-- Source 1 is raised, given priority 1 and enabled, and claimed; completed in between, it is
claimed again. -/
theorem plic_arbitrates_sample :
    let ops : List PlicOp := [.setPending 1 true, .store 4 4 1, .store enableBase 4 2]
    let mid : List PlicOp := [.store (claimReg 0) 4 1]
    (∃ q, load (claimReg 0) 4 ((new 1).after ops) = .ok 1 q) ∧
    (∃ q, load (claimReg 0) 4 ((new 1).after (ops ++ .load (claimReg 0) 4 :: mid)) = .ok 1 q) ∧
    ∃ op ∈ mid, Completes 2 1 op :=
  ⟨⟨_, rfl⟩, ⟨_, rfl⟩,
    (plic_arbitrates 1 [.setPending 1 true, .store 4 4 1, .store enableBase 4 2]).2.2.1 0
      [.store (claimReg 0) 4 1] 0 1 _ _ (by decide) rfl rfl⟩

end Plic

end RiscvEmu
