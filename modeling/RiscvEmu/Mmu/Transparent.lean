import RiscvEmu.Mmu.WriteBack

/-!
# The TLB is transparent

As long as the page tables change by translations only, a cached entry is the entry in memory up
to its dirty bit, and a hit does what a walk would do.
-/

namespace RiscvEmu

open Exec

/-! ## Writing back an entry, seen by loads -/

/-- The register that counts time: the only one that does not keep what is written to it. -/
def mtimeAddr : U64 := clintBase + BitVec.ofNat 64 Clint.mtimeOffset

/-- The interruptor is where the memory map has it. -/
def ClintPlaced (t : Sys) : Prop := ∀ r ∈ t.ranges, r.2.2 = DevId.clint → r.1 = clintBase

lemma clintPlaced_new (cfg : Config) : ClintPlaced (Sys.new cfg) := by
  intro r hr hid
  obtain ⟨d, hd, rfl⟩ := List.mem_map.mp hr
  unfold Config.devices at hd
  simp only [List.mem_append, List.mem_cons, List.not_mem_nil, or_false,
    List.mem_ite_nil_right] at hd
  rcases hd with ((((rfl | rfl | rfl | rfl | rfl) | ⟨-, rfl⟩) | ⟨-, rfl⟩) | ⟨-, rfl⟩) <;>
    first | rfl | cases hid

lemma ClintPlaced.base_eq {t : Sys} (h : ClintPlaced t) {addr base : U64}
    (hfind : t.find addr = some (base, .clint)) :
    base = clintBase := by
  unfold Sys.find at hfind
  obtain ⟨r, hr, heq⟩ := Option.map_eq_some_iff.mp hfind
  injection heq with hbase hid
  rw [← hbase, h r (List.mem_of_find?_eq_some hr) hid]

/-- A doubleword store changes a register of the power button or of the interruptor, at most. -/
lemma final_deviceStore_eight (id : DevId) (offset : ℕ) (v : U64) (t : Sys) :
    final (deviceStore id offset 8 v) t = { t with
      syscon := (final (deviceStore id offset 8 v) t).syscon
      clint := if id = .clint then final (Clint.store offset 8 v) t.clint else t.clint } := by
  cases id with
  | blk | net | rng =>
    unfold deviceStore
    rw [final_zoom, final_slotStore (by decide)]
    rfl
  | clint =>
    unfold deviceStore
    rw [final_zoom]
    rfl
  | uart | plic | rtc => rfl
  | syscon =>
    unfold deviceStore
    rw [final_zoom]
    rfl

/-- Where a write-back ends that does not reach RAM. -/
lemma writeBack_device {t : Sys} {addr : U64} (hart : ℕ) (v : U64) (hout : ¬InRam t.ram addr 8) :
    ∃ sc c n l, t.writeBack hart addr v =
      { t with syscon := sc, clint := c, mmioEpoch := n, log := l } ∧
      (c = t.clint ∨ ∃ base, t.find addr = some (base, .clint) ∧
        c = final (Clint.store (addr - base).toNat 8 v) t.clint) := by
  have hemit : ∀ u : Sys, final (Bus.store addr 8 v) t = u → ∃ l, t.writeBack hart addr v =
    { u with log := l } := by
    intro u hu
    unfold final at hu
    unfold Sys.writeBack
    cases h : Bus.store addr 8 v t with
    | ok a t' =>
      rw [h] at hu
      exact ⟨_, by rw [← hu]; rfl⟩
    | error e t' =>
      rw [h] at hu
      exact ⟨u.log, by rw [← hu]⟩
  rcases final_busStore addr 8 v t with ⟨_, hin, -⟩ | hfinal
  · exact absurd hin hout
  cases hdev : t.device addr with
  | none =>
    rw [hdev] at hfinal
    obtain ⟨l, hl⟩ := hemit t hfinal
    exact ⟨t.syscon, t.clint, t.mmioEpoch, l, hl, .inl rfl⟩
  | some r =>
    obtain ⟨base, id⟩ := r
    rw [hdev] at hfinal
    dsimp only at hfinal
    rw [final_deviceStore_eight] at hfinal
    obtain ⟨l, hl⟩ := hemit _ hfinal
    refine ⟨_, _, _, l, hl, ?_⟩
    split_ifs with hid
    · subst hid
      exact .inr ⟨base, Sys.find_of_device hdev, rfl⟩
    · exact .inl rfl

/-- Writing an entry that is a deadline changes that entry only. -/
lemma clint_load_store {c : Clint} {off : ℕ} {e v : U64}
    (hload : (outcome (Clint.load off 8) c).toOption = some e)
    (hne : off ≠ Clint.mtimeOffset) (hv : AdEq v e) (off' : ℕ) :
    (outcome (Clint.load off' 8) (final (Clint.store off 8 v) c)).toOption.map (· ||| Pte.AD) =
      (outcome (Clint.load off' 8) c).toOption.map (· ||| Pte.AD) := by
  rw [clint_load_eight] at hload
  by_cases hd : IsDeadline off
  swap
  · rw [if_neg hd, if_neg hne] at hload
    cases hload
  rw [if_pos hd, Option.some.injEq] at hload
  rw [clint_store_eight c v hd]
  split_ifs with hk
  swap
  · rfl
  rw [if_pos hk] at hload
  rw [clint_load_eight, clint_load_eight]
  by_cases hd' : IsDeadline off'
  · rw [if_pos hd', if_pos hd']
    dsimp only [Option.map_some]
    split_ifs with hk'
    · by_cases heq : (off' - Clint.mtimecmpOffset) / 8 = (off - Clint.mtimecmpOffset) / 8
      · rw [heq, Function.update_self, hload]
        exact congrArg some hv
      · rw [Function.update_of_ne heq]
    · rfl
  · rw [if_neg hd', if_neg hd']

lemma offset_ne {x y : U64} (hx : dramBase ≤ x) (hy : dramBase ≤ y) (hne : x ≠ y) :
    (x - dramBase).toNat ≠ (y - dramBase).toNat := by
  rw [BitVec.toNat_sub_of_le hx, BitVec.toNat_sub_of_le hy]
  have hxn : dramBase.toNat ≤ x.toNat := hx
  have hyn : dramBase.toNat ≤ y.toNat := hy
  have := mt BitVec.eq_of_toNat_eq hne
  omega

section WriteBack

variable {t : Sys} {addr v e : U64} (hart : ℕ)

/-- In RAM the entry becomes what is written. -/
lemma entryAt_writeBack_self (hin : InRam t.ram addr 8) :
    (t.writeBack hart addr v).entryAt addr = some v := by
  obtain ⟨hlen, hmem⟩ := writeBack_mem t hart addr v
  rw [if_pos hin] at hmem
  rw [entryAt_ram ((inRam_congr hlen).mpr hin), hmem, Bytes.load_store_eight]

/-- Writing to RAM, for the loads that do not see it. -/
lemma entryAt_writeBack_ne (hin : InRam t.ram addr 8) (haligned : addr.toNat % 8 = 0) {addr' : U64}
    (haligned' : addr'.toNat % 8 = 0) (hne : addr' ≠ addr) :
    (t.writeBack hart addr v).entryAt addr' = t.entryAt addr' := by
  rcases writeBack_cases t hart addr v with ⟨hout, -⟩ | ⟨-, ram, hst, heq⟩
  · exact absurd hin hout
  obtain ⟨-, hmem, hlen⟩ := Dram.store_eq_some hst
  rw [heq]
  refine entryAt_eq rfl hlen (fun hin' => ?_) (deviceLoad_eight_same rfl rfl rfl rfl)
  have hoff := offset_ne hin'.1 hin.1 hne
  have h₁ := offset_aligned hin.1 haligned
  have h₂ := offset_aligned hin'.1 haligned'
  change Bytes.load ram.mem _ 8 = _
  rw [hmem, Bytes.load_store_disjoint (by omega)]

/-- Writing back an entry leaves all entries as they were, up to the two bits. -/
theorem entryAt_writeBack (hclint : ClintPlaced t) (haligned : addr.toNat % 8 = 0)
    (hentry : t.entryAt addr = some e)
    (hv : AdEq v e) (htime : addr ≠ mtimeAddr) {addr' : U64} (haligned' : addr'.toNat % 8 = 0) :
    ((t.writeBack hart addr v).entryAt addr').map (· ||| Pte.AD) =
    (t.entryAt addr').map (· ||| Pte.AD) := by
  by_cases hin : InRam t.ram addr 8
  · by_cases heq : addr' = addr
    · subst heq
      rw [entryAt_writeBack_self hart hin, hentry]
      exact congrArg some hv
    · rw [entryAt_writeBack_ne hart hin haligned haligned' heq]
  obtain ⟨sc, c, n, l, heq, hc⟩ := writeBack_device hart v hin
  rw [heq]
  refine entryAt_congr _ rfl rfl (fun _ => rfl) fun base id hfind => ?_
  by_cases hid : id = .clint
  swap
  · congr 2
    exact deviceLoad_eight_congr hid rfl rfl rfl
  subst hid
  rw [deviceLoad_clint, deviceLoad_clint]
  rcases hc with rfl | ⟨base', hfind', rfl⟩
  · rfl
  have hload : (outcome (Clint.load (addr - base').toNat 8) t.clint).toOption = some e := by
    rw [← deviceLoad_clint, ← (loadDevice_of_find hfind' 8).1]
    rcases busLoad_cases addr 8 .load t with ⟨hi, -⟩ | ⟨-, -, h⟩ | ⟨-, -, h⟩
    · exact absurd hi hin
    · rw [Sys.entryAt, outcome_of_error h] at hentry
      cases hentry
    · rw [Sys.entryAt, outcome, h] at hentry
      exact hentry
  refine clint_load_store hload (fun hoff => htime ?_) hv _
  rw [hclint.base_eq hfind'] at hoff
  rw [mtimeAddr, ← hoff, BitVec.ofNat_toNat, BitVec.setWidth_eq, BitVec.add_comm,
    BitVec.sub_add_cancel]

end WriteBack

/-! ## Pages and their tags -/

/-- The top bits of a canonical address are all the same. -/
lemma canonical_bits {va : U64} (h : canonical va) {j : ℕ} (hlow : 38 ≤ j) (hhigh : j < 64) :
    va.getLsbD j = va.getLsbD 38 := by
  have hones : ∀ k : Fin 26, (0x3ffffff : U64).getLsbD k = true := by decide
  have hshift (k : ℕ) : va.getLsbD (38 + k) = (va >>> 38).getLsbD k :=
    (BitVec.getLsbD_ushiftRight ..).symm
  obtain ⟨k, rfl⟩ := Nat.exists_eq_add_of_le hlow
  have hzero := hshift 0
  rw [Nat.add_zero] at hzero
  rw [hshift, hzero]
  rcases of_decide_eq_true h with h | h
  · rw [h]
    simp
  · rw [h, hones ⟨k, by omega⟩]
    exact (hones 0).symm

section Tags

variable {csrs csrs' : CsrFile} {va va' : U64}

lemma vpnOf_getLsbD (va : U64) (i : ℕ) : (vpnOf va).getLsbD i = va.getLsbD (12 + i) := by
  rw [vpnOf, BitVec.getLsbD_ushiftRight, pageShift]

/-- The low part of a tag is that of the page number; the high part has the address space laid over
it. -/
lemma tlbKey_getLsbD (csrs : CsrFile) (va : U64) {i : ℕ} (hi : i < 64) :
    (tlbKey csrs va).getLsbD i = if i < 44 then va.getLsbD (12 + i) else
      csrs.satpAsid.getLsbD (i - 44) || va.getLsbD (12 + i) := by
  rw [tlbKey, BitVec.getLsbD_or, BitVec.getLsbD_shiftLeft, vpnOf_getLsbD, decide_eq_true hi,
    Bool.true_and]
  split_ifs with h <;> simp [h]

/-- A tag determines the page, although the address space covers part of the page number. -/
lemma vpnOf_of_tlbKey (hc : canonical va) (hc' : canonical va')
    (h : tlbKey csrs va = tlbKey csrs' va') :
    vpnOf va = vpnOf va' := by
  have hlow : ∀ i < 44, va.getLsbD (12 + i) = va'.getLsbD (12 + i) := fun i hi => by
    have hbit := congrArg (·.getLsbD i) h
    rwa [tlbKey_getLsbD _ _ (by omega), tlbKey_getLsbD _ _ (by omega), if_pos hi, if_pos hi] at hbit
  refine BitVec.eq_of_getLsbD_eq fun i hi => ?_
  rw [vpnOf_getLsbD, vpnOf_getLsbD]
  rcases Nat.lt_or_ge i 44 with hlt | hge
  · exact hlow i hlt
  · rcases Nat.lt_or_ge (12 + i) 64 with h64 | h64
    · -- above the tag, canonical addresses repeat bit 38
      rw [canonical_bits hc (by omega) h64, canonical_bits hc' (by omega) h64]
      exact hlow 26 (by decide)
    · rw [BitVec.getLsbD_of_ge _ _ h64, BitVec.getLsbD_of_ge _ _ h64]

lemma satpAsid_getLsbD (csrs : CsrFile) {i : ℕ} (hi : 16 ≤ i) :
    csrs.satpAsid.getLsbD i = false := by
  have hmask : ∀ k < 48, Csr.satpAsidMask.getLsbD (44 + (16 + k)) = false := by decide
  rw [CsrFile.satpAsid, BitVec.getLsbD_ushiftRight, BitVec.getLsbD_and]
  rcases Nat.lt_or_ge i 64 with hlt | hge
  · obtain ⟨k, rfl⟩ := Nat.exists_eq_add_of_le hi
    rw [hmask k (by omega), Bool.and_false]
  · rw [BitVec.getLsbD_of_ge _ _ (by omega), Bool.false_and]

/-- In the lower half a tag determines the address space, in the upper half all of it but the low
byte. -/
lemma satpAsid_of_tlbKey (hc : canonical va) (hpage : vpnOf va = vpnOf va')
    (h : tlbKey csrs va = tlbKey csrs' va') {i : ℕ} (hi : 8 ≤ i ∨ va.getLsbD 38 = false) :
    csrs.satpAsid.getLsbD i = csrs'.satpAsid.getLsbD i := by
  rcases Nat.lt_or_ge i 16 with hlt | hge
  swap
  · rw [satpAsid_getLsbD _ hge, satpAsid_getLsbD _ hge]
  have hbit := congrArg (·.getLsbD (44 + i)) h
  rw [tlbKey_getLsbD _ _ (by omega), tlbKey_getLsbD _ _ (by omega), if_neg (by omega),
    if_neg (by omega), ← vpnOf_getLsbD va', ← hpage, vpnOf_getLsbD, Nat.add_sub_cancel_left] at hbit
  have hclear : va.getLsbD (12 + (44 + i)) = false := by
    rcases Nat.lt_or_ge i 8 with h8 | h8
    · rw [canonical_bits hc (by omega) (by omega)]
      exact hi.resolve_left (by omega)
    · exact BitVec.getLsbD_of_ge _ _ (by omega)
  rwa [hclear, Bool.or_false, Bool.or_false] at hbit

/-- One page of the upper half, under two address spaces that differ in their low byte at most. -/
structure Overlaid (csrs csrs' : CsrFile) (va va' : U64) : Prop where
  page : vpnOf va = vpnOf va'
  upper : va.getLsbD 38
  space : csrs.satpAsid >>> 8 = csrs'.satpAsid >>> 8

lemma Overlaid.tlbKey_eq (hc : canonical va) (h : Overlaid csrs csrs' va va') :
    tlbKey csrs va = tlbKey csrs' va' := by
  refine BitVec.eq_of_getLsbD_eq fun i hi => ?_
  rw [tlbKey_getLsbD _ _ hi, tlbKey_getLsbD _ _ hi, ← vpnOf_getLsbD va', ← h.page, vpnOf_getLsbD]
  rcases Nat.lt_or_ge i 44 with hlow | hhigh
  · rw [if_pos hlow, if_pos hlow]
  rw [if_neg (by omega), if_neg (by omega)]
  rcases Nat.lt_or_ge i 52 with hmid | htop
  · rw [canonical_bits hc (by omega) (by omega), h.upper, Bool.or_true, Bool.or_true]
  · have hspace := congrArg (·.getLsbD (i - 52)) h.space
    rw [BitVec.getLsbD_ushiftRight, BitVec.getLsbD_ushiftRight, show 8 + (i - 52) =
      i - 44 by omega] at hspace
    rw [hspace]

/-- The tags of two pages are valid and differ, and the entry that a walk for one leaves behind is
not hit by the other. -/
structure TagsApart (csrs csrs' : CsrFile) (va va' : U64) : Prop where
  ne : tlbKey csrs va ≠ tlbKey csrs' va'
  valid : tlbKey csrs va ≠ invalidTag ∧ tlbKey csrs' va' ≠ invalidTag
  missed : ∀ (s : MmuSys) (hart : ℕ) (ty : AccessType) (leaf : Leaf), tlbIndex va = tlbIndex va' →
    ¬ Hit csrs' va' (s.filled hart csrs va ty leaf).mmu

/-- Tags identify an address space and a page, except that in the upper half the sign bits of the
page number cover the low byte of the address space. -/
theorem tags_apart_iff (hc : canonical va) (hc' : canonical va')
    (hne : csrs.satpAsid ≠ csrs'.satpAsid ∨ vpnOf va ≠ vpnOf va') :
    TagsApart csrs csrs' va va' ↔ ¬ Overlaid csrs csrs' va va' := by
  refine ⟨fun h hover => h.ne (hover.tlbKey_eq hc), fun hover => ?_⟩
  have hkey : tlbKey csrs va ≠ tlbKey csrs' va' := by
    intro h
    have hpage := vpnOf_of_tlbKey hc hc' h
    cases hupper : va.getLsbD 38
    · refine hne.elim (fun hspace => hspace ?_) fun hp => hp hpage
      exact BitVec.eq_of_getLsbD_eq fun i _ => satpAsid_of_tlbKey hc hpage h (.inr hupper)
    · refine hover ⟨hpage, hupper, BitVec.eq_of_getLsbD_eq fun i _ => ?_⟩
      rw [BitVec.getLsbD_ushiftRight, BitVec.getLsbD_ushiftRight]
      exact satpAsid_of_tlbKey hc hpage h (.inl (by omega))
  refine ⟨hkey, ⟨tlbKey_ne_invalidTag csrs va, tlbKey_ne_invalidTag csrs' va'⟩,
    fun s hart ty leaf hidx hhit => ?_⟩
  rw [Hit, ← hidx] at hhit
  exact hkey ((congrArg TlbEntry.tag (Function.update_self ..)).symm.trans hhit)

/-- Paging is on, with the root table in the second page of RAM. -/
def pagedCsrs (asid : U64) : CsrFile :=
  CsrFile.new.setRaw Csr.satp ((Csr.satpModeSv39 <<< 60) ||| (asid <<< 44) ||| 0x80001)

/-- The first page of the upper half under the address spaces 0 and 1. -/
theorem tags_apart_overlaid :
    ((pagedCsrs 0).satpMode = Csr.satpModeSv39 ∧ (pagedCsrs 1).satpMode = Csr.satpModeSv39) ∧
      (pagedCsrs 0).satpAsid ≠ (pagedCsrs 1).satpAsid ∧
      tlbKey (pagedCsrs 0) 0xffffffc000000000 = tlbKey (pagedCsrs 1) 0xffffffc000000000 := by
  decide +kernel

/-- A page of the lower half under the same, and the first page of the upper half under the address
spaces 0 and 256. -/
theorem tags_apart_iff_paged :
    TagsApart (pagedCsrs 0) (pagedCsrs 1) 0x1000 0x1000 ∧
      TagsApart (pagedCsrs 0) (pagedCsrs 256) 0xffffffc000000000 0xffffffc000000000 := by
  constructor
  · refine (tags_apart_iff (by decide) (by decide) (.inl (by decide +kernel))).mpr fun h => ?_
    exact absurd h.upper (by decide)
  · refine (tags_apart_iff (by decide) (by decide) (.inl (by decide +kernel))).mpr fun h => ?_
    exact absurd h.space (by decide +kernel)

end Tags

variable {csrs : CsrFile}

lemma walkOn_vpn {va va' : U64} (h : vpnOf va = vpnOf va') (mem : U64 → Option U64) (n : ℕ)
    (table : U64) :
    walkOn mem va n table = walkOn mem va' n table := by
  have hslot (level : ℕ) (table : U64) : pteSlot va level table = pteSlot va' level table := by
    have hshift (x : U64) : x >>> (pageShift + 9 * level) = vpnOf x >>> (9 * level) :=
      BitVec.shiftRight_add ..
    rw [pteSlot, pteSlot, hshift, hshift, h]
  induction n generalizing table with
  | zero => rfl
  | succ n ih =>
    unfold walkOn
    simp only [hslot, ih]

/-! ## Coherence -/

/-- The accessed bit is set in memory, and so is the dirty bit if it is in the TLB. -/
def Settled (perms entry : U64) : Prop :=
  entry ||| Pte.A = entry ∧ (perms &&& Pte.D ≠ 0 → entry &&& Pte.D ≠ 0)

/-- A slot holds what a walk for the page finds. -/
def Tracks (csrs : CsrFile) (t : Sys) (va : U64) (slot : TlbEntry) : Prop :=
  ∃ leaf, t.leafOf csrs va = some leaf ∧ leaf.misaligned = false ∧ slot.ppn = leaf.ppn (vpnOf va) ∧
    slot.pteAddr = leaf.pteAddr ∧ AdEq slot.perms leaf.entry ∧
    (InRam t.ram leaf.pteAddr 8 → Settled slot.perms leaf.entry)

/-- The TLB agrees with the page tables of an address space. -/
structure Coherent (csrs : CsrFile) (s : MmuSys) : Prop where
  clint : ClintPlaced s.sys
  timer : ∀ va leaf, s.sys.leafOf csrs va = some leaf → leaf.pteAddr ≠ mtimeAddr
  filled : EverySlot SlotFilled s.mmu
  tracks : ∀ va, canonical va → Hit csrs va s.mmu → Tracks csrs s.sys va (s.mmu.tlb (tlbIndex va))

lemma Leaf.Alike.misaligned {l l' : Leaf} (h : l.Alike l') : l'.misaligned = l.misaligned := by
  rw [Leaf.misaligned, Leaf.misaligned, h.1, h.2.2.shiftRight]

lemma Leaf.Alike.ppn {l l' : Leaf} (h : l.Alike l') (vpn : U64) : l'.ppn vpn = l.ppn vpn := by
  rw [Leaf.ppn, Leaf.ppn, h.1, h.2.2.shiftRight]

section Change

variable {csrs : CsrFile} {t t' : Sys} {va : U64} {slot : TlbEntry} {leaf : Leaf}

/-- The page tables are the same up to the two bits, as far as walks see them. -/
def TablesAlike (csrs : CsrFile) (t t' : Sys) : Prop :=
  ∀ va, ∀ X ∈ walkReads t.entryAt va sv39Levels csrs.root,
    (t'.entryAt X).map (· ||| Pte.AD) = (t.entryAt X).map (· ||| Pte.AD)

lemma TablesAlike.leafOf (h : TablesAlike csrs t t') (va : U64) :
    Option.Rel Leaf.Alike (t.leafOf csrs va) (t'.leafOf csrs va) := walkOn_congr (h va)

lemma TablesAlike.of_leafOf (h : TablesAlike csrs t t') (hleaf : t.leafOf csrs va = some leaf) :
    ∃ leaf', t'.leafOf csrs va = some leaf' ∧ leaf.Alike leaf' := by
  have hrel := h.leafOf va
  rw [hleaf] at hrel
  generalize t'.leafOf csrs va = found at hrel ⊢
  cases hrel with
  | some halike => exact ⟨_, rfl, halike⟩

lemma TablesAlike.timer (h : TablesAlike csrs t t')
    (htimer : ∀ va leaf, t.leafOf csrs va = some leaf → leaf.pteAddr ≠ mtimeAddr) {va : U64}
    {leaf' : Leaf} (hleaf : t'.leafOf csrs va = some leaf') : leaf'.pteAddr ≠ mtimeAddr := by
  have hrel := h.leafOf va
  rw [hleaf] at hrel
  cases hold : t.leafOf csrs va with
  | none =>
    rw [hold] at hrel
    cases hrel
  | some leaf =>
    rw [hold] at hrel
    cases hrel with
    | some halike =>
      rw [halike.2.1]
      exact htimer va leaf hold

/-- A slot goes on tracking its page if the entry stays settled. -/
lemma Tracks.change (h : Tracks csrs t va slot) (halike : TablesAlike csrs t t')
    (hlen : t'.ram.len = t.ram.len)
    (hsettled : ∀ leaf leaf', t.leafOf csrs va = some leaf → t'.leafOf csrs va = some leaf' →
      leaf.Alike leaf' →
      InRam t.ram leaf.pteAddr 8 → Settled slot.perms leaf.entry → Settled slot.perms leaf'.entry) :
    Tracks csrs t' va slot := by
  obtain ⟨leaf, hleaf, hmis, hppn, haddr, hperms, hset⟩ := h
  obtain ⟨leaf', hleaf', hal⟩ := halike.of_leafOf hleaf
  refine ⟨leaf', hleaf', hal.misaligned.trans hmis, hppn.trans (hal.ppn _).symm,
    haddr.trans hal.2.1.symm, hperms.trans hal.2.2, fun hin => ?_⟩
  have hin' : InRam t.ram leaf.pteAddr 8 := (inRam_congr hlen).mp (hal.2.1 ▸ hin)
  exact hsettled leaf leaf' hleaf hleaf' hal hin' (hset hin')

variable {s : MmuSys}

/-- Changes that spare the page tables keep the TLB coherent. -/
lemma Coherent.spare (h : Coherent csrs s) (hranges : t'.ranges = s.sys.ranges)
    (hlen : t'.ram.len = s.sys.ram.len)
    (hentries : ∀ va, ∀ X ∈ walkReads s.sys.entryAt va sv39Levels csrs.root, t'.entryAt X =
      s.sys.entryAt X) :
    Coherent csrs { s with sys := t' } := by
  have halike : TablesAlike csrs s.sys t' := fun va X hX => by rw [hentries va X hX]
  refine ⟨fun r hr => h.clint r (hranges ▸ hr), fun va leaf => halike.timer h.timer, h.filled,
    fun va hc ht => ?_⟩
  refine (h.tracks va hc ht).change halike hlen fun leaf leaf' hleaf hleaf' hal _ hset => ?_
  -- the leaf is among the entries that are the same
  have hentry := hentries va leaf.pteAddr (mem_walkReads hleaf)
  rw [(walkOn_entry hleaf).1, ← hal.2.1, (walkOn_entry hleaf').1, Option.some.injEq] at hentry
  rwa [hentry]

/-- Writing back the entry of a page with bits set. -/
lemma Coherent.tablesAlike (h : Coherent csrs s) (hart : ℕ) {v : U64}
    (hleaf : s.sys.leafOf csrs va = some leaf) (hv : AdEq v leaf.entry) :
    TablesAlike csrs s.sys (s.sys.writeBack hart leaf.pteAddr v) := fun _ _ hX =>
  entryAt_writeBack hart h.clint (leafOf_aligned hleaf) (walkOn_entry hleaf).1 hv
    (h.timer _ _ hleaf) (walkReads_aligned (isTable_shiftLeft _) hX)

lemma Coherent.writeBack (h : Coherent csrs s) (hart : ℕ) {v : U64}
    (hleaf : s.sys.leafOf csrs va = some leaf) (hv : AdEq v leaf.entry) (hA : v ||| Pte.A = v)
    (hD : leaf.entry &&& Pte.D ≠ 0 → v &&& Pte.D ≠ 0) :
    Coherent csrs { s with sys := s.sys.writeBack hart leaf.pteAddr v } := by
  have halike := h.tablesAlike hart hleaf hv
  have hranges := writeBack_ranges s.sys hart leaf.pteAddr v
  obtain ⟨hlen, -⟩ := writeBack_mem s.sys hart leaf.pteAddr v
  refine ⟨fun r hr => h.clint r (hranges ▸ hr), fun _ _ => halike.timer h.timer, h.filled,
    fun va' hc ht => ?_⟩
  refine (h.tracks va' hc ht).change halike hlen fun l l' hl hl' hal hin hset => ?_
  have hentry := (walkOn_entry hl').1
  rw [hal.2.1] at hentry
  by_cases heq : l.pteAddr = leaf.pteAddr
  · -- another page of the same entry
    rw [heq] at hin hentry
    have hl₁ := (walkOn_entry hl).1
    rw [heq, (walkOn_entry hleaf).1, Option.some.injEq] at hl₁
    rw [entryAt_writeBack_self hart hin, Option.some.injEq] at hentry
    rw [← hentry]
    exact ⟨hA, fun hp => hD (hl₁ ▸ hset.2 hp)⟩
  · by_cases hin₀ : InRam s.sys.ram leaf.pteAddr 8
    · rw [entryAt_writeBack_ne hart hin₀ (leafOf_aligned hleaf) (leafOf_aligned hl) heq,
        (walkOn_entry hl).1, Option.some.injEq] at hentry
      rwa [← hentry]
    · -- the write went to a device
      obtain ⟨sc, c, n, m, hwb, -⟩ := writeBack_device hart v hin₀
      have hram : (s.sys.writeBack hart leaf.pteAddr v).ram = s.sys.ram := by rw [hwb]
      rw [entryAt_ram (hram ▸ hin), hram, ← entryAt_ram hin, (walkOn_entry hl).1,
        Option.some.injEq] at hentry
      rwa [← hentry]

lemma Coherent.setSlot (h : Coherent csrs s) (hc : canonical va) (hok : SlotFilled slot)
    (htag : slot.tag = tlbKey csrs va) (htracks : Tracks csrs s.sys va slot) :
    Coherent csrs (s.setSlot (tlbIndex va) slot) := by
  refine ⟨h.clint, h.timer, h.filled.update (.inr hok), fun va' hc' ht => ?_⟩
  unfold Hit at ht
  change Tracks csrs s.sys va' (Function.update s.mmu.tlb (tlbIndex va) slot (tlbIndex va'))
  change (Function.update s.mmu.tlb (tlbIndex va) slot (tlbIndex va')).tag = _ at ht
  by_cases hidx : tlbIndex va' = tlbIndex va
  · rw [hidx, Function.update_self] at ht ⊢
    have hvpn := vpnOf_of_tlbKey hc hc' (htag.symm.trans ht)
    obtain ⟨leaf, hleaf, hmis, hppn, hrest⟩ := htracks
    exact ⟨leaf, (walkOn_vpn hvpn _ _ _).symm.trans hleaf, hmis, hvpn ▸ hppn, hrest⟩
  · rw [Function.update_of_ne hidx] at ht ⊢
    exact h.tracks va' hc' ht

end Change

/-! ## Translations -/

section Translations

variable {csrs : CsrFile} {s : MmuSys} {va : U64} {ty : AccessType} {p : U32} {leaf : Leaf}

lemma or_dirty {x : U64} (h : x &&& Pte.D ≠ 0) : x ||| Pte.D = x := by
  have hD : Pte.D = BitVec.twoPow 64 7 := by decide
  have hbit := (BitField.and_bit_ne_zero hD).mp h
  refine BitVec.eq_of_getLsbD_eq fun i hi => ?_
  rw [hD, BitVec.getLsbD_or, BitVec.getLsbD_twoPow]
  by_cases h7 : 7 = i
  · subst h7
    simp [hbit]
  · simp [h7]

/-- A slot filled with what was written back. -/
lemma Coherent.writeBack_tracks (h : Coherent csrs s) (hart : ℕ) {v : U64} {slot : TlbEntry}
    (hleaf : s.sys.leafOf csrs va = some leaf) (hv : AdEq v leaf.entry) (hA : v ||| Pte.A = v)
    (hmis : leaf.misaligned = false) (hppn : slot.ppn = leaf.ppn (vpnOf va))
    (haddr : slot.pteAddr = leaf.pteAddr)
    (hperms : slot.perms = v) : Tracks csrs (s.sys.writeBack hart leaf.pteAddr v) va slot := by
  obtain ⟨leaf', hleaf', hal⟩ := (h.tablesAlike hart hleaf hv).of_leafOf hleaf
  refine ⟨leaf', hleaf', hal.misaligned.trans hmis, hppn.trans (hal.ppn _).symm,
    haddr.trans hal.2.1.symm, hperms ▸ hv.trans hal.2.2, fun hin => ?_⟩
  have hin' : InRam s.sys.ram leaf.pteAddr 8 :=
    (inRam_congr (writeBack_mem ..).1).mp (hal.2.1 ▸ hin)
  have hentry := (walkOn_entry hleaf').1
  rw [hal.2.1, entryAt_writeBack_self hart hin', Option.some.injEq] at hentry
  rw [hperms, ← hentry]
  exact ⟨hA, id⟩

lemma Coherent.filled_slot (h : Coherent csrs s) (hart : ℕ) (hc : canonical va)
    (hleaf : s.sys.leafOf csrs va = some leaf)
    (hg : leaf.grants csrs ty p) : Coherent csrs (s.filled hart csrs va ty leaf) := by
  have hmis : leaf.misaligned = false := by simpa using hg.2
  have hok : SlotFilled ⟨tlbKey csrs va, leaf.ppn (vpnOf va), updatedPte ty leaf.entry,
    leaf.pteAddr⟩ :=
    ⟨updatedPte_accessed ty leaf.entry, leafOf_aligned hleaf⟩
  unfold MmuSys.filled
  dsimp only
  split
  · have hwb := h.writeBack hart hleaf (updatedPte_adEq ty leaf.entry) (updatedPte_accessed ty _)
      (updatedPte_dirty ty)
    exact hwb.setSlot hc hok rfl
      (h.writeBack_tracks hart hleaf (updatedPte_adEq ty _) (updatedPte_accessed ty _) hmis
        rfl rfl rfl)
  · next hsame =>
      rw [ne_eq, not_not] at hsame
      refine h.setSlot hc hok rfl ⟨leaf, hleaf, hmis, rfl, rfl, updatedPte_adEq ty _, fun _ => ?_⟩
      rw [hsame]
      exact ⟨hsame ▸ updatedPte_accessed ty leaf.entry, id⟩

lemma Coherent.dirtied (h : Coherent csrs s) (hart : ℕ) (hc : canonical va)
    (ht : Hit csrs va s.mmu) :
    Coherent csrs (s.dirtied hart va) := by
  obtain ⟨leaf, hleaf, hmis, hppn, haddr, hperms, -⟩ := h.tracks va hc ht
  obtain ⟨hA, haligned⟩ := h.filled.of_hit ht
  have hv : AdEq ((s.mmu.tlb (tlbIndex va)).perms ||| Pte.D) leaf.entry :=
    (adEq_or (by decide) _).trans hperms
  have hvA : (s.mmu.tlb (tlbIndex va)).perms ||| Pte.D ||| Pte.A =
    (s.mmu.tlb (tlbIndex va)).perms ||| Pte.D := by
    rw [BitVec.or_assoc, BitVec.or_comm Pte.D, ← BitVec.or_assoc, hA]
  have hwb := h.writeBack hart hleaf hv hvA fun _ => dirty_and _
  have heq : s.dirtied hart va = MmuSys.setSlot
      ⟨s.mmu, s.sys.writeBack hart leaf.pteAddr ((s.mmu.tlb (tlbIndex va)).perms ||| Pte.D)⟩
      (tlbIndex va)
      { s.mmu.tlb (tlbIndex va) with perms := (s.mmu.tlb (tlbIndex va)).perms ||| Pte.D } := by
    rw [← haddr]
    rfl
  rw [heq]
  exact hwb.setSlot hc ⟨hvA, haligned⟩ ht (h.writeBack_tracks hart hleaf hv hvA hmis hppn haddr rfl)

lemma Coherent.withEpoch (h : Coherent csrs s) (n : ℕ) : Coherent csrs (s.countMiss.withEpoch n) :=
  Coherent.spare (s := s.countMiss) ⟨h.clint, h.timer, h.filled, h.tracks⟩ rfl rfl fun _ _ _ => by
    rw [entryAt_withEpoch]

/-- A translation keeps the TLB coherent. -/
theorem Coherent.translate (h : Coherent csrs s) (hart : ℕ) (va : U64) (ty : AccessType) (p : U32) :
    Coherent csrs (final (translate hart csrs va ty p) s) := by
  obtain ⟨r, t, -, hfin, hcases⟩ := run_translate hart csrs va ty p s
  rw [hfin]
  cases hcases with
  | bare | noncanonical | hitRefused => exact h
  | hitClean => exact ⟨h.clint, h.timer, h.filled, h.tracks⟩
  | hitDirty _ hc ht =>
    have hd := h.dirtied hart hc ht
    exact ⟨hd.clint, hd.timer, hd.filled, hd.tracks⟩
  | missRefused _ _ _ _ n => exact h.withEpoch n
  | missFilled _ hc _ leaf hw hg n =>
    refine (h.withEpoch n).filled_slot hart hc ?_ hg
    rw [← hw, Sys.leafOf, Sys.leafOf]
    exact congrArg (fun mem => walkOn mem va sv39Levels csrs.root) (entryAt_withEpoch s.sys n)

/-! ## Agreement with the walk -/

lemma filled_mem (hart : ℕ) (ty : AccessType)
    (hentry : s.sys.entryAt leaf.pteAddr = some leaf.entry) :
    (s.filled hart csrs va ty leaf).sys.ram.mem =
      if InRam s.sys.ram leaf.pteAddr 8 then
        Bytes.store s.sys.ram.mem (leaf.pteAddr - dramBase).toNat 8 (updatedPte ty leaf.entry)
      else s.sys.ram.mem := by
  unfold MmuSys.filled
  dsimp only [MmuSys.setSlot]
  split
  · exact (writeBack_mem ..).2
  · next hsame =>
      rw [ne_eq, not_not] at hsame
      split_ifs with hin
      · rw [entryAt_ram hin, Option.some.injEq] at hentry
        rw [hsame, ← hentry, Bytes.store_load_eight]
      · rfl

/-- The translation of a machine whose TLB is empty. -/
def flushed (s : MmuSys) : MmuSys := ⟨s.mmu.flush, s.sys⟩

lemma not_hit_flushed (csrs : CsrFile) (va : U64) (m : Mmu) : ¬Hit csrs va m.flush :=
  fun h => tlbKey_ne_invalidTag csrs va h.symm

/-- What a translation does with an empty TLB, if a leaf is found. -/
lemma walk_of_leaf (hart : ℕ) (h : Paged csrs p) (hc : canonical va)
    (hleaf : s.sys.leafOf csrs va = some leaf) (hg : leaf.grants csrs ty p) :
    outcome (translate hart csrs va ty p) (flushed s) = .ok (physAddr (leaf.ppn (vpnOf va)) va) ∧
      (final (translate hart csrs va ty p) (flushed s)).sys.ram.mem =
        if InRam s.sys.ram leaf.pteAddr 8 then
          Bytes.store s.sys.ram.mem (leaf.pteAddr - dramBase).toNat 8 (updatedPte ty leaf.entry)
        else s.sys.ram.mem := by
  obtain ⟨r, t, hr, hfin, hcases⟩ := run_translate hart csrs va ty p (flushed s)
  rw [hr, hfin]
  cases hcases with
  | bare h' => exact absurd h h'
  | noncanonical _ hc' => exact absurd hc hc'
  | hitRefused _ _ ht | hitClean _ _ ht | hitDirty _ _ ht =>
    exact absurd ht (not_hit_flushed csrs va s.mmu)
  | missRefused _ _ _ hw => exact absurd hg (hw leaf hleaf)
  | missFilled _ _ _ leaf' hw _ n =>
    cases hleaf.symm.trans hw
    refine ⟨rfl, filled_mem (s := (flushed s).countMiss.withEpoch n) hart ty ?_⟩
    exact (congrFun (entryAt_withEpoch s.sys n) _).trans (walkOn_entry hleaf).1

/-- And if none is found, or it does not let the access through. -/
lemma walk_refused (hart : ℕ) (h : Paged csrs p)
    (hw : ∀ leaf, s.sys.leafOf csrs va = some leaf → ¬leaf.grants csrs ty p) :
    outcome (translate hart csrs va ty p) (flushed s) = .error ⟨pageFaultFor ty, va⟩ ∧
      (final (translate hart csrs va ty p) (flushed s)).sys.ram = s.sys.ram := by
  obtain ⟨r, t, hr, hfin, hcases⟩ := run_translate hart csrs va ty p (flushed s)
  rw [hr, hfin]
  cases hcases with
  | bare h' => exact absurd h h'
  | noncanonical => exact ⟨rfl, rfl⟩
  | hitRefused _ _ ht | hitClean _ _ ht | hitDirty _ _ ht =>
    exact absurd ht (not_hit_flushed csrs va s.mmu)
  | missRefused => exact ⟨rfl, rfl⟩
  | missFilled _ _ _ leaf hleaf hg => exact absurd hg (hw leaf hleaf)

/-- Setting the bits of an entry that has them changes nothing. -/
lemma updatedPte_of_settled {perms entry : U64} (h : Settled perms entry)
    (hd : ¬(ty = .store ∧ perms &&& Pte.D = 0)) :
    updatedPte ty entry = entry := by
  unfold updatedPte
  split
  · next hty =>
      have hD := h.2 fun h0 => hd ⟨hty, h0⟩
      rw [h.1, or_dirty hD]
  · exact h.1

/-- From a coherent TLB a translation does what it does from an empty one. -/
theorem Coherent.agrees (h : Coherent csrs s) (hart : ℕ) (va : U64) (ty : AccessType) (p : U32) :
    outcome (RiscvEmu.translate hart csrs va ty p) s =
      outcome (RiscvEmu.translate hart csrs va ty p) (flushed s) ∧
      (final (RiscvEmu.translate hart csrs va ty p) s).sys.ram.mem =
        (final (RiscvEmu.translate hart csrs va ty p) (flushed s)).sys.ram.mem := by
  obtain ⟨r, t, hr, hfin, hcases⟩ := run_translate hart csrs va ty p s
  rw [hr, hfin]
  cases hcases with
  | bare hp =>
    rw [outcome_of_ok (translate_bare hp), final_of_ok (translate_bare hp)]
    exact ⟨rfl, rfl⟩
  | noncanonical hp hc =>
    rw [outcome_of_error (translate_refused hp hc), final_of_error (translate_refused hp hc)]
    exact ⟨rfl, rfl⟩
  | hitRefused hp hc ht hperm =>
    obtain ⟨leaf, hleaf, -, -, -, hperms, -⟩ := h.tracks va hc ht
    obtain ⟨hout, hram⟩ := walk_refused hart (s := s) hp fun l hl hg => by
      cases hleaf.symm.trans hl
      exact hperm ((hperms.permitted ty p csrs).trans hg.1)
    rw [hout, hram]
    exact ⟨rfl, rfl⟩
  | hitClean hp hc ht hperm hd =>
    obtain ⟨leaf, hleaf, hmis, hppn, haddr, hperms, hset⟩ := h.tracks va hc ht
    have hg : leaf.grants csrs ty p :=
      ⟨(hperms.permitted ty p csrs).symm.trans hperm, by rw [hmis]; rfl⟩
    obtain ⟨hout, hram⟩ := walk_of_leaf hart hp hc hleaf hg
    rw [hout, hram, hppn]
    refine ⟨rfl, ?_⟩
    split_ifs with hin
    · have hentry := (walkOn_entry hleaf).1
      rw [entryAt_ram hin, Option.some.injEq] at hentry
      rw [updatedPte_of_settled (hset hin) hd, ← hentry, Bytes.store_load_eight]
      rfl
    · rfl
  | hitDirty hp hc ht hperm hd =>
    obtain ⟨leaf, hleaf, hmis, hppn, haddr, hperms, hset⟩ := h.tracks va hc ht
    have hg : leaf.grants csrs ty p :=
      ⟨(hperms.permitted ty p csrs).symm.trans hperm, by rw [hmis]; rfl⟩
    obtain ⟨hout, hram⟩ := walk_of_leaf hart hp hc hleaf hg
    rw [hout, hram, hppn]
    refine ⟨rfl, ?_⟩
    have hmem := (writeBack_mem s.sys hart (s.mmu.tlb (tlbIndex va)).pteAddr
      ((s.mmu.tlb (tlbIndex va)).perms ||| Pte.D)).2
    change (s.sys.writeBack hart (s.mmu.tlb (tlbIndex va)).pteAddr
      ((s.mmu.tlb (tlbIndex va)).perms ||| Pte.D)).ram.mem = _
    rw [hmem, haddr]
    split_ifs with hin
    · have hvalue : (s.mmu.tlb (tlbIndex va)).perms ||| Pte.D = updatedPte ty leaf.entry := by
        rw [updatedPte, if_pos hd.1, BitVec.or_assoc]
        change _ = leaf.entry ||| Pte.AD
        rw [← hperms, Pte.AD, ← BitVec.or_assoc, (h.filled.of_hit ht).1]
      rw [hvalue]
    · rfl
  | missRefused hp hc ht hw n =>
    obtain ⟨hout, hram⟩ := walk_refused hart hp hw
    rw [hout, hram]
    exact ⟨rfl, rfl⟩
  | missFilled hp hc ht leaf hw hg n =>
    obtain ⟨hout, hram⟩ := walk_of_leaf hart hp hc hw hg
    rw [hout, hram]
    refine ⟨rfl, filled_mem (s := s.countMiss.withEpoch n) hart ty ?_⟩
    exact (congrFun (entryAt_withEpoch s.sys n) _).trans (walkOn_entry hw).1

end Translations

/-! ## Runs -/

lemma Coherent.of_satp {csrs' : CsrFile} {s : MmuSys} (h : Coherent csrs s)
    (hsatp : csrs'.satp = csrs.satp) :
    Coherent csrs' s := by
  have hroot : csrs'.root = csrs.root := by
    rw [CsrFile.root, CsrFile.root, CsrFile.satpPpn, CsrFile.satpPpn, hsatp]
  have hkey (va : U64) : tlbKey csrs' va = tlbKey csrs va := by
    rw [tlbKey, tlbKey, CsrFile.satpAsid, CsrFile.satpAsid, hsatp]
  have hleaf (va : U64) : s.sys.leafOf csrs' va = s.sys.leafOf csrs va := by
    rw [Sys.leafOf, Sys.leafOf, hroot]
  refine ⟨h.clint, fun va leaf hl => h.timer va leaf (hleaf va ▸ hl), h.filled, fun va hc ht => ?_⟩
  rw [Hit, hkey] at ht
  rw [Tracks, hleaf]
  exact h.tracks va hc ht

/-- What happens in one address space: translations, and changes of memory that spare the page
tables. -/
inductive SpaceStep (hart : ℕ) (csrs : CsrFile) : MmuSys → MmuSys → Prop
  | translate {s : MmuSys} {csrs' : CsrFile} (h : csrs'.satp = csrs.satp) (va : U64)
    (ty : AccessType) (p : U32) :
      SpaceStep hart csrs s (final (translate hart csrs' va ty p) s)
  | spare {s : MmuSys} {t : Sys} (hranges : t.ranges = s.sys.ranges)
    (hlen : t.ram.len = s.sys.ram.len)
      (hentries : ∀ va, ∀ X ∈ walkReads s.sys.entryAt va sv39Levels csrs.root, t.entryAt X =
        s.sys.entryAt X) :
      SpaceStep hart csrs s { s with sys := t }

lemma SpaceStep.coherent {hart : ℕ} {s t : MmuSys} (h : SpaceStep hart csrs s t)
    (hs : Coherent csrs s) : Coherent csrs t := by
  cases h with
  | translate hsatp va ty p => exact ((hs.of_satp hsatp).translate hart va ty p).of_satp hsatp.symm
  | spare hranges hlen hentries => exact hs.spare hranges hlen hentries

lemma coherent_run {hart : ℕ} {s t : MmuSys} (h : Relation.ReflTransGen (SpaceStep hart csrs) s t)
    (hs : Coherent csrs s) : Coherent csrs t := by
  induction h with
  | refl => exact hs
  | tail _ hstep ih => exact hstep.coherent ih

/-- An empty TLB is coherent with every page table. -/
lemma coherent_flushed {s : MmuSys} (hclint : ClintPlaced s.sys)
    (htimer : ∀ va leaf, s.sys.leafOf csrs va = some leaf → leaf.pteAddr ≠ mtimeAddr) :
    Coherent csrs (flushed s) :=
  ⟨hclint, htimer, fun _ => .inl rfl, fun va _ ht => absurd ht (not_hit_flushed csrs va s.mmu)⟩

/-- Translations with the TLB do what walks do: from a flushed TLB, as long as nothing else touches
the page tables of the address space and none of them is the register that counts time. -/
theorem tlb_transparent {cfg : Config} {hart : ℕ} {csrs : CsrFile} {s t : MmuSys}
    (hbus : s.sys.ranges = (Sys.new cfg).ranges)
    (htimer : ∀ va leaf, s.sys.leafOf csrs va = some leaf → leaf.pteAddr ≠ mtimeAddr)
    (hrun : Relation.ReflTransGen (SpaceStep hart csrs) (flushed s) t) {csrs' : CsrFile}
    (hsatp : csrs'.satp = csrs.satp) (va : U64) (ty : AccessType) (p : U32) :
    outcome (translate hart csrs' va ty p) t = outcome (translate hart csrs' va ty p) (flushed t) ∧
      (final (translate hart csrs' va ty p) t).sys.ram.mem =
        (final (translate hart csrs' va ty p) (flushed t)).sys.ram.mem := by
  have hclint : ClintPlaced s.sys := fun r hr => clintPlaced_new cfg r (hbus ▸ hr)
  exact ((coherent_run hrun (coherent_flushed hclint htimer)).of_satp hsatp).agrees hart va ty p

/-- Page tables of one gigapage, in the second page of RAM. -/
def gigapageSys : Sys :=
  ((Machine.init (Config.plain 1 8192 twoPages_fits)).run
    [.writeBytes (dramBase + 0x1000) gigapageEntry]).sys

/-- Sv39 with these tables. -/
def gigapageCsrs : CsrFile := CsrFile.new.write Csr.satp 0x8000000000080001

lemma gigapage_timer (va : U64) (leaf : Leaf) (h : gigapageSys.leafOf gigapageCsrs va = some leaf) :
    leaf.pteAddr ≠ mtimeAddr := by
  have hkinds : ∀ i : Fin 512, ∀ base,
      pteKind (Bytes.load gigapageSys.ram.mem (0x1000 + 8 * i) 8) ≠ .table base := by
    have hdec : ∀ i : Fin 512, pteKind (Bytes.load gigapageSys.ram.mem (0x1000 + 8 * i) 8) = .bad ∨
        pteKind (Bytes.load gigapageSys.ram.mem (0x1000 + 8 * i) 8) = .leaf := by decide +kernel
    intro i base hkind
    rcases hdec i with hbad | hleaf
    · cases hkind.symm.trans hbad
    · cases hkind.symm.trans hleaf
  have hroot : gigapageCsrs.root = 0x80001000 := by decide +kernel
  have hlen : gigapageSys.ram.len = 8192 := by decide +kernel
  -- all entries of the root table are in RAM
  have hidx : ((va >>> 30) &&& 0x1ff).toNat < 512 := by
    rw [BitVec.toNat_and]
    exact Nat.lt_of_le_of_lt Nat.and_le_right (by decide)
  have hslot : (pteSlot va 2 0x80001000).toNat =
    dramBase.toNat + (0x1000 + 8 * ((va >>> 30) &&& 0x1ff).toNat) := by
    rw [pteSlot, BitVec.toNat_add, BitVec.toNat_mul]
    change (0x80001000 + ((va >>> 30) &&& 0x1ff).toNat * 8 % 2 ^ 64) % 2 ^ 64 = 0x80000000 + _
    omega
  have hbase : dramBase ≤ pteSlot va 2 0x80001000 := by
    rw [BitVec.le_def, hslot]
    exact Nat.le_add_right _ _
  have hoff : (pteSlot va 2 0x80001000 - dramBase).toNat =
    0x1000 + 8 * ((va >>> 30) &&& 0x1ff).toNat := by
    rw [BitVec.toNat_sub_of_le hbase, hslot, Nat.add_sub_cancel_left]
  have hin : InRam gigapageSys.ram (pteSlot va 2 0x80001000) 8 := by
    refine ⟨hbase, (Dram.inRange_iff _).mpr ?_⟩
    rw [hoff, hlen]
    omega
  rw [Sys.leafOf, sv39Levels, hroot] at h
  obtain ⟨entry, hentry, ⟨-, rfl⟩ | ⟨base, hkind, -⟩⟩ := walkOn_cases h
  · intro heq
    have : dramBase ≤ mtimeAddr := heq ▸ hbase
    exact absurd this (by decide)
  · rw [entryAt_ram hin, hoff, Option.some.injEq] at hentry
    exact absurd (hentry ▸ hkind) (hkinds ⟨_, hidx⟩ base)

/-- A load and then a store through the gigapage: the store hits, and does what a walk would do. -/
theorem tlb_transparent_sample :
    let s : MmuSys := ⟨Mmu.new, gigapageSys⟩
    let t := final (translate 0 gigapageCsrs 0 .load privSupervisor) (flushed s)
    Hit gigapageCsrs 8 t.mmu ∧
    outcome (translate 0 gigapageCsrs 8 .store privSupervisor) t =
        outcome (translate 0 gigapageCsrs 8 .store privSupervisor) (flushed t) ∧
      (final (translate 0 gigapageCsrs 8 .store privSupervisor) t).sys.ram.mem =
        (final (translate 0 gigapageCsrs 8 .store privSupervisor) (flushed t)).sys.ram.mem := by
  have hhit : Hit gigapageCsrs 8 (final (translate 0 gigapageCsrs 0 .load privSupervisor)
    (flushed ⟨Mmu.new, gigapageSys⟩)).mmu := by decide +kernel
  have hbus : gigapageSys.ranges = (Sys.new (Config.plain 1 8192 twoPages_fits)).ranges := by
    decide +kernel
  exact ⟨hhit, tlb_transparent (s := ⟨Mmu.new, gigapageSys⟩) hbus gigapage_timer
    (.single (.translate rfl 0 .load privSupervisor)) rfl 8 .store privSupervisor⟩

end RiscvEmu
