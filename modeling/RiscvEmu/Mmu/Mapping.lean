import RiscvEmu.Mmu.WriteBack

/-!
# The mapping of a page

What a translation hands back is a function of the address space, the slot of the page and, without
a hit, of the leaf that a walk over memory ends at (`mapped`).  A translation that lets an access
through leaves its page cached, and does not disturb the slots of pages that are not its neighbours
in the TLB.
-/

namespace RiscvEmu

open Exec

variable {csrs : CsrFile} {p : U32} {va va' pa : U64} {m : Mmu} {s t : MmuSys} {hart : ℕ}
    {ty : AccessType}

/-! ## Pages -/

/-- The pages of two addresses are the same, or do not share a slot of the TLB. -/
def Near (va va' : U64) : Prop := vpnOf va = vpnOf va' ∨ tlbIndex va ≠ tlbIndex va'

/-! Everything about a page depends on its number only. -/

lemma tlbIndex_vpn (h : vpnOf va = vpnOf va') : tlbIndex va = tlbIndex va' := by
  rw [tlbIndex, tlbIndex, h]

lemma canonical_vpn (h : vpnOf va = vpnOf va') : canonical va = canonical va' := by
  have hshift (x : U64) : x >>> 38 = vpnOf x >>> 26 := BitVec.shiftRight_add x 12 26
  rw [canonical, canonical, hshift, hshift, h]

lemma hit_vpn (h : vpnOf va = vpnOf va') : Hit csrs va m ↔ Hit csrs va' m := by
  rw [Hit, Hit, tlbKey, tlbKey, tlbIndex_vpn h, h]

lemma physAddr_toNat_eq (ppn va : U64) :
    (physAddr ppn va).toNat = (ppn <<< pageShift).toNat + va.toNat % 4096 := by
  have hpage : (ppn <<< pageShift).toNat % 2 ^ 12 = 0 := by
    rw [BitVec.toNat_shiftLeft, Nat.shiftLeft_eq, pageShift]
    omega
  rw [physAddr, BitVec.toNat_or, pageOffset_toNat]
  exact BitField.or_eq_add hpage (Nat.mod_lt _ (by decide))

/-! ## What a page is mapped to -/

/-- The entry of a page and its frame: those of its slot, or those a walk finds.  A superpage whose
frame is not aligned has none. -/
def MmuSys.pageEntry (s : MmuSys) (csrs : CsrFile) (va : U64) : Option (U64 × U64) :=
  let slot := s.mmu.tlb (tlbIndex va)
  if Hit csrs va s.mmu then some (slot.perms, slot.ppn)
  else (s.sys.leafOf csrs va).bind fun leaf =>
    if leaf.misaligned then none else some (leaf.entry, leaf.ppn (vpnOf va))

/-- The physical address of `va`, if an access of this kind is let through.  Machine mode is not
translated, and nothing is while `satp` says Bare. -/
def MmuSys.mapped (s : MmuSys) (csrs : CsrFile) (p : U32) (ty : AccessType) (va : U64) :
    Option U64 :=
  if Paged csrs p then
    if canonical va then
      (s.pageEntry csrs va).bind fun e =>
        if permitted e.1 ty p csrs then some (physAddr e.2 va) else none
    else none
  else some va

lemma mapped_bare (h : ¬Paged csrs p) : s.mapped csrs p ty va = some va := if_neg h

lemma mapped_paged (h : Paged csrs p) (hc : canonical va) :
    s.mapped csrs p ty va = (s.pageEntry csrs va).bind fun e =>
      if permitted e.1 ty p csrs then some (physAddr e.2 va) else none := by
  rw [MmuSys.mapped, if_pos h, if_pos hc]

lemma pageEntry_hit (ht : Hit csrs va s.mmu) :
    s.pageEntry csrs va = some ((s.mmu.tlb (tlbIndex va)).perms, (s.mmu.tlb (tlbIndex va)).ppn) :=
  if_pos ht

lemma pageEntry_miss (ht : ¬Hit csrs va s.mmu) :
    s.pageEntry csrs va = (s.sys.leafOf csrs va).bind fun leaf =>
      if leaf.misaligned then none else some (leaf.entry, leaf.ppn (vpnOf va)) := if_neg ht

/-- A translation hands back the mapping, or faults with the address it was given. -/
theorem outcome_translate (hart : ℕ) (csrs : CsrFile) (va : U64) (ty : AccessType) (p : U32)
    (s : MmuSys) :
    outcome (translate hart csrs va ty p) s =
      match s.mapped csrs p ty va with
      | some pa => .ok pa
      | none => .error ⟨pageFaultFor ty, va⟩ := by
  obtain ⟨r, t, hr, -, hcases⟩ := run_translate hart csrs va ty p s
  rw [hr]
  cases hcases with
  | bare h => rw [mapped_bare h]
  | noncanonical h hc => rw [MmuSys.mapped, if_pos h, if_neg hc]
  | hitRefused h hc ht hp =>
    rw [mapped_paged h hc, pageEntry_hit ht, Option.bind_some, if_neg hp]
  | hitClean h hc ht hp | hitDirty h hc ht hp =>
    rw [mapped_paged h hc, pageEntry_hit ht, Option.bind_some, if_pos hp]
  | missRefused h hc ht hw =>
    rw [mapped_paged h hc, pageEntry_miss ht]
    cases hleaf : s.sys.leafOf csrs va with
    | none => rfl
    | some leaf =>
      have hdenied := hw leaf hleaf
      rw [Option.bind_some]
      by_cases hmis : leaf.misaligned
      · rw [if_pos hmis, Option.bind_none]
      · rw [if_neg hmis, Option.bind_some, if_neg fun hp => hdenied ⟨hp, by simpa using hmis⟩]
  | missFilled h hc ht leaf hw hg =>
    have hmis : ¬leaf.misaligned := by simpa using hg.2
    rw [mapped_paged h hc, pageEntry_miss ht, hw, Option.bind_some, if_neg hmis, Option.bind_some,
      if_pos hg.1]

lemma translate_eq_ok_iff :
    (∃ t, translate hart csrs va ty p s = .ok pa t) ↔ s.mapped csrs p ty va = some pa := by
  have hout := outcome_translate hart csrs va ty p s
  constructor
  · rintro ⟨t, h⟩
    rw [outcome_of_ok h] at hout
    cases hmap : s.mapped csrs p ty va with
    | none =>
      rw [hmap] at hout
      cases hout
    | some pa' =>
      rw [hmap] at hout
      cases hout
      rfl
  · intro hmap
    rw [hmap] at hout
    cases h : translate hart csrs va ty p s with
    | ok pa' t =>
      rw [outcome_of_ok h] at hout
      cases hout
      exact ⟨t, rfl⟩
    | error e t =>
      rw [outcome_of_error h] at hout
      cases hout

lemma translate_eq_error {e : Trap} (h : translate hart csrs va ty p s = .error e t) :
    s.mapped csrs p ty va = none ∧ e = ⟨pageFaultFor ty, va⟩ := by
  have hout := outcome_translate hart csrs va ty p s
  rw [outcome_of_error h] at hout
  cases hmap : s.mapped csrs p ty va with
  | none =>
    rw [hmap] at hout
    exact ⟨rfl, Except.error.inj hout⟩
  | some pa =>
    rw [hmap] at hout
    cases hout

/-- The mapping depends on the slot of the page and on what walks find. -/
lemma mapped_congr (hslot : t.mmu.tlb (tlbIndex va) = s.mmu.tlb (tlbIndex va))
    (hleaf : ¬Hit csrs va s.mmu → t.sys.leafOf csrs va = s.sys.leafOf csrs va) :
    t.mapped csrs p ty va = s.mapped csrs p ty va := by
  have hentry : t.pageEntry csrs va = s.pageEntry csrs va := by
    have hhit : Hit csrs va t.mmu ↔ Hit csrs va s.mmu := by rw [Hit, Hit, hslot]
    by_cases ht : Hit csrs va s.mmu
    · rw [pageEntry_hit ht, pageEntry_hit (hhit.mpr ht), hslot]
    · rw [pageEntry_miss ht, pageEntry_miss (mt hhit.mp ht), hleaf ht]
  rw [MmuSys.mapped, MmuSys.mapped, hentry]

/-- It is the same where the TLB and the entries of the page tables are. -/
lemma mapped_of_entryAt (htlb : t.mmu.tlb = s.mmu.tlb) (hentries : t.sys.entryAt = s.sys.entryAt) :
    t.mapped csrs p ty va = s.mapped csrs p ty va := by
  refine mapped_congr (congrFun htlb _) fun _ => ?_
  rw [Sys.leafOf, Sys.leafOf]
  exact congrArg (fun f => walkOn f _ _ _) hentries

/-! ## Pages that are cached -/

/-- An access to the page will hit, be let through, and find the bits it needs set. -/
def Cached (ty : AccessType) (csrs : CsrFile) (p : U32) (va : U64) (m : Mmu) : Prop :=
  Paged csrs p → canonical va ∧ Hit csrs va m ∧ permitted (m.tlb (tlbIndex va)).perms ty p csrs ∧
    (ty = .store → (m.tlb (tlbIndex va)).perms &&& Pte.D ≠ 0)

/-- Where an access to a cached page goes. -/
def target (csrs : CsrFile) (p : U32) (m : Mmu) (va : U64) : U64 :=
  if Paged csrs p then physAddr (m.tlb (tlbIndex va)).ppn va else va

/-- The offset in the page is not translated. -/
lemma target_offset (csrs : CsrFile) (p : U32) (m : Mmu) (va : U64) :
    (target csrs p m va).toNat % 4096 = va.toNat % 4096 := by
  unfold target
  split_ifs
  · rw [physAddr_toNat_eq, BitVec.toNat_shiftLeft, Nat.shiftLeft_eq, pageShift]
    omega
  · rfl

lemma Cached.translate (hart : ℕ) (h : Cached ty csrs p va s.mmu) :
    ∃ n, translate hart csrs va ty p s =
      .ok (target csrs p s.mmu va) { s with mmu := { s.mmu with hits := n } } := by
  unfold target
  by_cases hp : Paged csrs p
  · obtain ⟨hc, ht, hperm, hd⟩ := h hp
    rw [if_pos hp, translate_hit_clean hp hc ht hperm fun h => hd h.1 h.2]
    exact ⟨_, rfl⟩
  · rw [if_neg hp, translate_bare hp]
    exact ⟨s.mmu.hits, rfl⟩

lemma Cached.mapped (h : Cached ty csrs p va s.mmu) :
    s.mapped csrs p ty va = some (target csrs p s.mmu va) := by
  obtain ⟨n, hn⟩ := h.translate 0
  exact translate_eq_ok_iff.mp ⟨_, hn⟩

lemma dirtied_slot (s : MmuSys) (hart : ℕ) (va : U64) :
    (s.dirtied hart va).countHit.mmu.tlb (tlbIndex va) =
      { s.mmu.tlb (tlbIndex va) with perms := (s.mmu.tlb (tlbIndex va)).perms ||| Pte.D } :=
  Function.update_self ..

lemma filled_slot (s : MmuSys) (hart : ℕ) (csrs : CsrFile) (va : U64) (ty : AccessType)
    (leaf : Leaf) :
    (s.filled hart csrs va ty leaf).mmu.tlb (tlbIndex va) =
      ⟨tlbKey csrs va, leaf.ppn (vpnOf va), updatedPte ty leaf.entry, leaf.pteAddr⟩ := by
  unfold MmuSys.filled
  exact Function.update_self ..

/-- A translation that lets an access through leaves its page cached. -/
lemma cached_of_ok (h : translate hart csrs va ty p s = .ok pa t) :
    Cached ty csrs p va t.mmu ∧ pa = target csrs p t.mmu va := by
  have hcases := translated hart csrs va ty p s
  rw [outcome_of_ok h, final_of_ok h] at hcases
  unfold target
  cases hcases with
  | bare hp => exact ⟨fun hp' => absurd hp' hp, (if_neg hp).symm⟩
  | hitClean hp hc ht hperm hd =>
    exact ⟨fun _ => ⟨hc, ht, hperm, fun hty h0 => hd ⟨hty, h0⟩⟩, (if_pos hp).symm⟩
  | hitDirty hp hc ht hperm hd =>
    refine ⟨fun _ => ⟨hc, ?_, ?_, fun _ => ?_⟩, ?_⟩
    · rw [Hit, dirtied_slot]
      exact ht
    · rw [dirtied_slot, AdEq.permitted (adEq_or (by decide) _)]
      exact hperm
    · rw [dirtied_slot]
      exact dirty_and _
    · rw [if_pos hp, dirtied_slot]
  | missFilled hp hc ht leaf hw hg n =>
    refine ⟨fun _ => ⟨hc, ?_, ?_, fun hty => ?_⟩, ?_⟩
    · rw [Hit, filled_slot]
    · rw [filled_slot, (updatedPte_adEq ..).permitted]
      exact hg.1
    · rw [filled_slot, hty]
      exact dirty_and _
    · rw [if_pos hp, filled_slot]

lemma Cached.same_page (h : Cached ty csrs p va m) (hvpn : vpnOf va = vpnOf va') :
    Cached ty csrs p va' m := by
  intro hp
  obtain ⟨hc, ht, hrest⟩ := h hp
  rw [tlbIndex_vpn hvpn] at hrest
  exact ⟨canonical_vpn hvpn ▸ hc, (hit_vpn hvpn).mp ht, hrest⟩

/-! ## What one translation does to other pages -/

lemma tlb_of_ne (hart : ℕ) (csrs : CsrFile) (va : U64) (ty : AccessType) (p : U32)
    (s : MmuSys) {i : ℕ}
    (hi : i ≠ tlbIndex va) : (final (translate hart csrs va ty p) s).mmu.tlb i = s.mmu.tlb i := by
  obtain ⟨r, t, -, hfin, hcases⟩ := run_translate hart csrs va ty p s
  rw [hfin]
  cases hcases with
  | hitDirty => exact Function.update_of_ne hi _ _
  | missFilled _ _ _ leaf _ _ n =>
    unfold MmuSys.filled
    dsimp only
    split <;> exact Function.update_of_ne hi _ _
  | bare | noncanonical | hitRefused | hitClean | missRefused => rfl

/-- One translation of an access, as other bytes of it that are cached see it. -/
lemma cached_near (h : translate hart csrs va ty p s = .ok pa t) (hnear : Near va va')
    (h' : Cached ty csrs p va' s.mmu) :
    Cached ty csrs p va' t.mmu ∧ target csrs p t.mmu va' = target csrs p s.mmu va' := by
  by_cases hcached : Cached ty csrs p va s.mmu
  · obtain ⟨n, hn⟩ := hcached.translate hart
    rw [h] at hn
    cases hn
    exact ⟨h', rfl⟩
  rcases hnear with hvpn | hidx
  · exact absurd (h'.same_page hvpn.symm) hcached
  · have hslot := tlb_of_ne hart csrs va ty p s (i := tlbIndex va') (Ne.symm hidx)
    rw [final_of_ok h] at hslot
    rw [Cached, Hit, target, target, hslot]
    exact ⟨h', rfl⟩

end RiscvEmu
