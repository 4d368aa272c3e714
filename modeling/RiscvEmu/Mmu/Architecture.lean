import RiscvEmu.Lib.Sv39
import RiscvEmu.Mmu.Reserved

/-!
# The walk is the walk of the architecture

Where the tables lie in RAM, or where nothing answers, and no entry has a reserved bit, a
translation that finds nothing cached does what the Sv39 algorithm says: it takes the leaf the
algorithm finds, or raises the page fault.
-/

namespace RiscvEmu

open Exec

/-! ## The algorithm on this machine -/

/-- An access, to the architecture. -/
def AccessType.sv39 : AccessType → Sv39.Access
  | .instruction => .fetch
  | .load => .load
  | .store => .store

/-- The fields of `satp` and `mstatus` that the algorithm reads. -/
def CsrFile.sv39 (csrs : CsrFile) (p : U32) : Sv39.Env where
  root := csrs.satp.extractLsb' 0 44
  user := p = privUser
  sum := (csrs.raw Csr.mstatus).getLsbD 18
  mxr := (csrs.raw Csr.mstatus).getLsbD 19

/-- The doubleword of RAM at a physical address. -/
def Dram.word (d : Dram) (addr : ℕ) : Option U64 :=
  if dramBase.toNat ≤ addr ∧ addr + 8 ≤ dramBase.toNat + d.len then
    some (Bytes.load d.mem (addr - dramBase.toNat) 8)
  else none

/-- If there is an entry at an address, it is in RAM and has no reserved bit. -/
def Sys.PlainEntry (t : Sys) (addr : U64) : Prop :=
  ∀ e, t.entryAt addr = some e → InRam t.ram addr 8 ∧ e &&& Pte.reserved = 0

/-- The leaf is marked, and everything else in RAM is as it was. -/
structure LeafMarked (d d' : Dram) (found : Sv39.Found) (access : Sv39.Access) : Prop where
  len : d'.len = d.len
  leaf : d'.word found.addr = some (Sv39.marked found.entry access)
  rest : ∀ i, ¬ (found.addr ≤ dramBase.toNat + i ∧ dramBase.toNat + i < found.addr + 8) →
    d'.mem i = d.mem i

/-- What a translation has to do according to the algorithm. -/
structure FollowsSv39 (hart : ℕ) (csrs : CsrFile) (va : U64) (ty : AccessType) (p : U32)
    (s : MmuSys) :
    Prop where
  succeeds_iff : (∃ pa, outcome (translate hart csrs va ty p) s = .ok pa) ↔
    ∃ found, Sv39.lookup s.sys.ram.word (csrs.sv39 p) va ty.sv39 = some found
  mapped : ∀ found, Sv39.lookup s.sys.ram.word (csrs.sv39 p) va ty.sv39 = some found →
    ∃ pa, outcome (translate hart csrs va ty p) s = .ok pa ∧ pa.toNat = found.target va ∧
      LeafMarked s.sys.ram (final (translate hart csrs va ty p) s).sys.ram found ty.sv39
  refused : Sv39.lookup s.sys.ram.word (csrs.sv39 p) va ty.sv39 = none →
    outcome (translate hart csrs va ty p) s = .error ⟨pageFaultFor ty, va⟩ ∧
      (final (translate hart csrs va ty p) s).sys.ram = s.sys.ram

/-! ## Entries -/

section Entries

variable (e : U64)

lemma and_V : e &&& Pte.V ≠ 0 ↔ Sv39.valid e = true := BitField.and_bit_ne_zero (by decide)

lemma and_R : e &&& Pte.R ≠ 0 ↔ Sv39.readable e = true := BitField.and_bit_ne_zero (by decide)

lemma and_W : e &&& Pte.W ≠ 0 ↔ Sv39.writable e = true := BitField.and_bit_ne_zero (by decide)

lemma and_X : e &&& Pte.X ≠ 0 ↔ Sv39.executable e = true := BitField.and_bit_ne_zero (by decide)

lemma and_RX : e &&& (Pte.R ||| Pte.X) ≠ 0 ↔ Sv39.isLeaf e = true := by
  rw [Sv39.isLeaf, Bool.or_eq_true, ← and_R, ← and_X, BitVec.and_or_distrib_left, ← not_and_or,
    not_iff_not]
  exact BitVec.or_eq_zero_iff

lemma pteKind_eq : pteKind e =
    if Sv39.broken e then .bad
    else if Sv39.isLeaf e then .leaf
    else .table ((e >>> Pte.ppnShift) <<< pageShift) := by
  have hbroken : Sv39.broken e = true ↔ e &&& Pte.V = 0 ∨ (e &&& Pte.W ≠ 0 ∧ e &&& Pte.R = 0) := by
    have hV := and_V e
    have hW := and_W e
    have hR := and_R e
    rw [Sv39.broken]
    grind
  unfold pteKind
  rw [if_congr hbroken rfl rfl, if_congr (and_RX e).symm rfl rfl]
  by_cases hv : e &&& Pte.V = 0
  · rw [if_pos hv, if_pos (.inl hv)]
  · simp only [hv, if_false, false_or]

lemma updatedPte_eq (ty : AccessType) : updatedPte ty e = Sv39.marked e ty.sv39 := by
  cases ty with
  | store => rfl
  | instruction | load => exact (BitVec.or_zero).symm

lemma bne_bit {b : U64} {n : ℕ} (h : b = BitVec.twoPow 64 n) : (e &&& b != 0) = e.getLsbD n := by
  rw [Bool.eq_iff_iff, bne_iff_ne]
  exact BitField.and_bit_ne_zero h

/-- The permission check of the source, for the two levels that translate. -/
lemma permitted_eq (csrs : CsrFile) (ty : AccessType) {p : U32}
    (hp : p = privUser ∨ p = privSupervisor) :
    permitted e ty p csrs =
      ((csrs.sv39 p).reaches ty.sv39 e && (csrs.sv39 p).permits ty.sv39 e) := by
  have hsum : csrs.mstatusSum = (csrs.sv39 p).sum := bne_bit _ (by decide)
  have hmxr : csrs.mstatusMxr = (csrs.sv39 p).mxr := bne_bit _ (by decide)
  unfold permitted Sv39.Env.reaches Sv39.Env.permits
  rw [bne_bit e (b := Pte.U) (n := 4) (by decide), bne_bit e (b := Pte.R) (n := 1) (by decide),
    bne_bit e (b := Pte.W) (n := 2) (by decide), bne_bit e (b := Pte.X) (n := 3) (by decide),
    hsum, hmxr]
  generalize hsum' : (csrs.sv39 p).sum = sum
  generalize hmxr' : (csrs.sv39 p).mxr = mxr
  rw [← Sv39.forUser, ← Sv39.readable, ← Sv39.writable, ← Sv39.executable]
  rcases hp with rfl | rfl
  · rw [show (csrs.sv39 privUser).user = true from rfl]
    cases ty <;> cases hu : Sv39.forUser e <;> simp [AccessType.sv39]
  · rw [show (csrs.sv39 privSupervisor).user = false from rfl]
    have hlevel : privSupervisor ≠ privUser := by decide
    cases ty <;> cases hu : Sv39.forUser e <;> cases sum <;> simp [AccessType.sv39, hlevel]

lemma ppn_eq_frame {e : U64} (h : e &&& Pte.reserved = 0) :
    e >>> Pte.ppnShift = (Sv39.frame e).setWidth 64 := by
  have hlt := ppn_lt_of_reserved h
  apply BitVec.eq_of_toNat_eq
  rw [BitVec.toNat_setWidth, Sv39.frame, BitVec.extractLsb'_toNat, ← BitVec.toNat_ushiftRight]
  rw [Pte.ppnShift] at hlt ⊢
  omega

end Entries

lemma canonical_eq (va : U64) : canonical va = Sv39.canonical va := by
  have hsign : (va >>> 38 = 0 ∨ va >>> 38 = 0x3ffffff) ↔ (va.setWidth 39).signExtend 64 = va := by
    rw [← BitVec.toNat_inj, ← BitVec.toNat_inj, ← BitVec.toNat_inj, BitVec.toNat_signExtend,
      BitVec.msb_eq_decide, BitVec.toNat_ushiftRight, Nat.shiftRight_eq_div_pow,
      show (0 : U64).toNat = 0 from rfl, show (0x3ffffff : U64).toNat = 0x3ffffff from rfl]
    simp only [BitVec.toNat_setWidth, decide_eq_true_eq]
    have := va.isLt
    split <;> omega
  unfold canonical Sv39.canonical
  exact decide_eq_decide.mpr hsign

/-! ## Walks -/

/-- The table of a frame. -/
def tableOf (frame : BitVec 44) : U64 := frame.setWidth 64 <<< pageShift

lemma tableOf_toNat (frame : BitVec 44) : (tableOf frame).toNat = frame.toNat * 4096 := by
  have := frame.isLt
  rw [tableOf, BitVec.toNat_shiftLeft, BitVec.toNat_setWidth, Nat.shiftLeft_eq, pageShift]
  omega

lemma root_eq (csrs : CsrFile) (p : U32) : csrs.root = tableOf (csrs.sv39 p).root := by
  have hppn : csrs.satpPpn = (csrs.sv39 p).root.setWidth 64 := by
    apply BitVec.eq_of_toNat_eq
    rw [CsrFile.satpPpn, BitVec.toNat_and, show Csr.satpPpnMask.toNat = 2 ^ 44 - 1 by decide,
      Nat.and_two_pow_sub_one_eq_mod, BitVec.toNat_setWidth]
    simp only [CsrFile.sv39, BitVec.extractLsb'_toNat, Nat.shiftRight_zero]
    omega
  rw [CsrFile.root, hppn, tableOf]

lemma pteSlot_toNat (va : U64) (level : ℕ) (frame : BitVec 44) :
    (pteSlot va level (tableOf frame)).toNat = Sv39.slot va level frame := by
  have hindex : ((va >>> (pageShift + 9 * level)) &&& 0x1ff : U64).toNat =
    (Sv39.vpn va level).toNat := by
    rw [BitVec.toNat_and, BitVec.toNat_ushiftRight, Sv39.vpn, BitVec.extractLsb'_toNat, pageShift]
    exact Nat.and_two_pow_sub_one_eq_mod _ 9
  have hlt := (Sv39.vpn va level).isLt
  have hframe := frame.isLt
  rw [pteSlot, BitVec.toNat_add, BitVec.toNat_mul, hindex, tableOf_toNat, show (8 : U64).toNat =
    8 from rfl, Sv39.slot]
  omega

lemma inRam_eight_iff {d : Dram} {addr : U64} :
    InRam d addr 8 ↔ dramBase.toNat ≤ addr.toNat ∧ addr.toNat + 8 ≤ dramBase.toNat + d.len := by
  rw [inRam_iff]
  omega

/-- What a load finds at a plain address is the word of RAM. -/
lemma word_of_plain {t : Sys} {addr : U64} (h : t.PlainEntry addr) :
    t.ram.word addr.toNat = t.entryAt addr := by
  unfold Dram.word
  by_cases hin : InRam t.ram addr 8
  · rw [if_pos (inRam_eight_iff.mp hin), entryAt_ram hin, BitVec.toNat_sub_of_le hin.1]
  · rw [if_neg fun h' => hin (inRam_eight_iff.mpr h')]
    cases hentry : t.entryAt addr with
    | none => rfl
    | some e => exact absurd (h e hentry).1 hin

/-- A leaf found by the algorithm, as the source describes it. -/
def leafOfFound (f : Sv39.Found) : Leaf := ⟨f.level, f.entry, BitVec.ofNat 64 f.addr⟩

/-- Over plain entries the walk of the source is the search of the algorithm. -/
lemma walkOn_eq_search {t : Sys} {va : U64} {n : ℕ} {frame : BitVec 44}
    (h : ∀ addr ∈ walkReads t.entryAt va n (tableOf frame), t.PlainEntry addr) :
    walkOn t.entryAt va n (tableOf frame) =
      (Sv39.search t.ram.word va n frame).map leafOfFound := by
  induction n generalizing frame with
  | zero => rfl
  | succ n ih =>
    have hplain := h (pteSlot va n (tableOf frame)) (by rw [walkReads]; exact List.mem_cons_self)
    have hword := word_of_plain hplain
    rw [pteSlot_toNat] at hword
    rw [walkOn, Sv39.search, hword]
    cases hentry : t.entryAt (pteSlot va n (tableOf frame)) with
    | none => rfl
    | some e =>
      have hkind := pteKind_eq e
      rw [Option.bind_eq_bind, Option.bind_some]
      dsimp only
      split_ifs at hkind ⊢
      · rw [hkind]
        rfl
      · rw [hkind, Option.map_some, leafOfFound, ← pteSlot_toNat, BitVec.ofNat_toNat,
          BitVec.setWidth_eq]
      · have hbase : (e >>> Pte.ppnShift) <<< pageShift = tableOf (Sv39.frame e) := by
          rw [ppn_eq_frame (hplain e hentry).2, tableOf]
        rw [hbase] at hkind
        rw [hkind]
        refine ih fun addr haddr => h addr ?_
        rw [walkReads_table hentry hkind]
        exact List.mem_cons_of_mem _ haddr

/-! ## Leaves -/

section Leaves

variable {f : Sv39.Found} (hreserved : f.entry &&& Pte.reserved = 0) (hlevel : f.level < 3)

lemma levelMask_toNat {level : ℕ} (h : level < 3) :
    (levelMask level).toNat = 2 ^ (9 * level) - 1 := by
  obtain rfl | rfl | rfl : level = 0 ∨ level = 1 ∨ level = 2 := by omega
  all_goals decide

include hreserved

/-- The page number in an entry is the number of the frame. -/
lemma ppn_toNat : (f.entry >>> Pte.ppnShift).toNat = (Sv39.frame f.entry).toNat := by
  have hlt := (Sv39.frame f.entry).isLt
  rw [ppn_eq_frame hreserved, BitVec.toNat_setWidth]
  omega

include hlevel

lemma misaligned_eq : (leafOfFound f).misaligned = !f.aligned := by
  have hlow : ((f.entry >>> Pte.ppnShift) &&& levelMask f.level).toNat =
      (Sv39.frame f.entry).toNat % 2 ^ (9 * f.level) := by
    rw [BitVec.toNat_and, ppn_toNat hreserved, levelMask_toNat hlevel,
      Nat.and_two_pow_sub_one_eq_mod]
  have hzero : (f.entry >>> Pte.ppnShift) &&& levelMask f.level = 0#64 ↔ f.aligned = true := by
    rw [← BitVec.toNat_inj, hlow, Sv39.Found.aligned, decide_eq_true_eq]
    rfl
  unfold Leaf.misaligned leafOfFound
  dsimp only
  by_cases hpos : f.level > 0
  · by_cases ha : f.aligned = true <;> simp [hpos, hzero, ha]
  · have ha : f.aligned = true := by
      rw [Sv39.Found.aligned, Nat.eq_zero_of_not_pos hpos, decide_eq_true_eq]
      omega
    simp [hpos, ha]

lemma physAddr_toNat (va : U64) (halign : f.aligned = true) :
    (physAddr ((leafOfFound f).ppn (vpnOf va)) va).toNat = f.target va := by
  -- the frame is a multiple of the size of the page, so the parts are put together by addition
  have hframe := (Sv39.frame f.entry).isLt
  rw [Sv39.Found.aligned, decide_eq_true_eq] at halign
  have hlow : va.toNat / 4096 % 2 ^ (9 * f.level) < 2 ^ (9 * f.level) :=
    Nat.mod_lt _ (Nat.two_pow_pos _)
  have hppn : ((leafOfFound f).ppn (vpnOf va)).toNat =
      (Sv39.frame f.entry).toNat + va.toNat / 4096 % 2 ^ (9 * f.level) := by
    unfold Leaf.ppn leafOfFound
    dsimp only
    split
    · rw [BitVec.toNat_or, BitVec.toNat_and, ppn_toNat hreserved, levelMask_toNat hlevel,
        Nat.and_two_pow_sub_one_eq_mod, vpnOf, BitVec.toNat_ushiftRight, Nat.shiftRight_eq_div_pow]
      exact BitField.or_eq_add halign hlow
    · next hpos =>
      rw [ppn_toNat hreserved, Nat.eq_zero_of_not_pos hpos]
      omega
  have hshift : (((leafOfFound f).ppn (vpnOf va)) <<< pageShift).toNat =
      ((Sv39.frame f.entry).toNat + va.toNat / 4096 % 2 ^ (9 * f.level)) * 4096 := by
    rw [BitVec.toNat_shiftLeft, hppn, Nat.shiftLeft_eq, pageShift]
    have hsmall : 2 ^ (9 * f.level) ≤ 2 ^ 18 := Nat.pow_le_pow_right (by decide) (by omega)
    omega
  rw [physAddr, BitVec.toNat_or, pageOffset_toNat, hshift,
    BitField.or_eq_add (n := 12) (by omega) (by omega), Sv39.Found.target]
  obtain hl | hl | hl : f.level = 0 ∨ f.level = 1 ∨ f.level = 2 := by omega
  all_goals
    rw [hl] at halign ⊢
    omega

end Leaves

/-! ## Memory -/

lemma word_eq {d : Dram} {addr : U64} (h : InRam d addr 8) :
    d.word addr.toNat = some (Bytes.load d.mem (addr - dramBase).toNat 8) := by
  rw [Dram.word, if_pos (inRam_eight_iff.mp h), BitVec.toNat_sub_of_le h.1]

lemma leafMarked_filled {hart : ℕ} {csrs : CsrFile} {va : U64} {ty : AccessType} {s : MmuSys}
    {f : Sv39.Found} {addr : U64} (haddr : addr.toNat = f.addr) (hin : InRam s.sys.ram addr 8)
    (hentry : s.sys.entryAt addr = some f.entry) :
    LeafMarked s.sys.ram (s.filled hart csrs va ty ⟨f.level, f.entry, addr⟩).sys.ram f ty.sv39 := by
  have hword : s.sys.ram.word f.addr = some f.entry := by
    rw [← haddr, word_eq hin, ← entryAt_ram hin, hentry]
  unfold MmuSys.filled
  dsimp only [MmuSys.setSlot]
  rw [updatedPte_eq]
  split
  · obtain ⟨hlen, hmem⟩ := writeBack_mem s.sys hart addr (Sv39.marked f.entry ty.sv39)
    rw [if_pos hin] at hmem
    generalize (s.sys.writeBack hart addr (Sv39.marked f.entry ty.sv39)).ram = d at hlen hmem
    have hin' : InRam d addr 8 := by
      rw [inRam_eight_iff, hlen]
      exact inRam_eight_iff.mp hin
    refine ⟨hlen, ?_, fun i hi => ?_⟩
    · rw [← haddr, word_eq hin', hmem, Bytes.load_store_eight]
    · rw [hmem, Bytes.store_of_not_mem]
      rw [BitVec.toNat_sub_of_le hin.1]
      have := BitVec.le_def.mp hin.1
      omega
  · next hsame =>
    refine ⟨rfl, ?_, fun _ _ => rfl⟩
    rw [hword, not_not.mp hsame]

/-! ## Translations -/

section Translations

variable {hart : ℕ} {csrs : CsrFile} {va : U64} {ty : AccessType} {p : U32} {s : MmuSys}

/-- The walk of the source finds what the algorithm finds. -/
lemma leafOf_eq (p : U32)
    (hreads : ∀ addr ∈ walkReads s.sys.entryAt va sv39Levels csrs.root, s.sys.PlainEntry addr) :
    s.sys.leafOf csrs va =
      (Sv39.search s.sys.ram.word va 3 (csrs.sv39 p).root).map leafOfFound := by
  rw [root_eq csrs p] at hreads
  rw [Sys.leafOf, root_eq csrs p]
  exact walkOn_eq_search hreads

lemma found_plain {f : Sv39.Found}
    (hreads : ∀ addr ∈ walkReads s.sys.entryAt va sv39Levels csrs.root, s.sys.PlainEntry addr)
    (h : Sv39.search s.sys.ram.word va 3 (csrs.sv39 p).root = some f) :
    s.sys.entryAt (BitVec.ofNat 64 f.addr) = some f.entry ∧
      InRam s.sys.ram (BitVec.ofNat 64 f.addr) 8 ∧
      f.entry &&& Pte.reserved = 0 := by
  have hleaf : s.sys.leafOf csrs va = some (leafOfFound f) := by
    rw [leafOf_eq p hreads, h, Option.map_some]
  have hentry := (walkOn_entry hleaf).1
  exact ⟨hentry, hreads _ (mem_walkReads hleaf) f.entry hentry⟩

lemma lookup_eq_some (hp : p = privUser ∨ p = privSupervisor) (hc : canonical va)
    (hreads : ∀ addr ∈ walkReads s.sys.entryAt va sv39Levels csrs.root, s.sys.PlainEntry addr)
    {f : Sv39.Found} :
    Sv39.lookup s.sys.ram.word (csrs.sv39 p) va ty.sv39 = some f ↔
      Sv39.search s.sys.ram.word va 3 (csrs.sv39 p).root = some f ∧
        (leafOfFound f).grants csrs ty p := by
  rw [Sv39.lookup, if_pos (canonical_eq va ▸ hc), Option.filter_eq_some_iff]
  refine and_congr_right fun hsearch => ?_
  obtain ⟨-, -, hreserved⟩ := found_plain hreads hsearch
  rw [Leaf.grants, misaligned_eq hreserved (Sv39.search_level hsearch), Bool.not_not,
    show (leafOfFound f).entry = f.entry from rfl, permitted_eq f.entry csrs ty hp,
      Bool.and_eq_true]

lemma followsSv39_of_refused (hnone : Sv39.lookup s.sys.ram.word (csrs.sv39 p) va ty.sv39 = none)
    (hout : outcome (translate hart csrs va ty p) s = .error ⟨pageFaultFor ty, va⟩)
    (hram : (final (translate hart csrs va ty p) s).sys.ram = s.sys.ram) :
    FollowsSv39 hart csrs va ty p s := by
  refine ⟨?_, fun f hf => ?_, fun _ => ⟨hout, hram⟩⟩
  · rw [hout, hnone]
    refine iff_of_false ?_ ?_
    · rintro ⟨pa, h⟩
      cases h
    · rintro ⟨f, h⟩
      cases h
  · rw [hnone] at hf
    cases hf

lemma followsSv39_of_mapped {f : Sv39.Found} {pa : U64}
    (hsome : Sv39.lookup s.sys.ram.word (csrs.sv39 p) va ty.sv39 = some f)
    (hout : outcome (translate hart csrs va ty p) s = .ok pa) (htarget : pa.toNat = f.target va)
    (hmarked : LeafMarked s.sys.ram (final (translate hart csrs va ty p) s).sys.ram f ty.sv39) :
    FollowsSv39 hart csrs va ty p s := by
  refine ⟨iff_of_true ⟨pa, hout⟩ ⟨f, hsome⟩, fun f' hf => ?_, fun hnone => ?_⟩
  · rw [hsome, Option.some.injEq] at hf
    subst hf
    exact ⟨pa, hout, htarget, hmarked⟩
  · rw [hsome] at hnone
    cases hnone

end Translations

/-- On an empty TLB, a translation over plain tables follows the Sv39 algorithm. -/
theorem translate_follows_sv39 (hart : ℕ) {csrs : CsrFile} (va : U64) (ty : AccessType) {p : U32}
    {s : MmuSys} (hmode : csrs.satpMode = Csr.satpModeSv39) (hp : p = privUser ∨ p = privSupervisor)
    (hempty : ∀ i, (s.mmu.tlb i).tag = invalidTag)
    (hreads : ∀ addr ∈ walkReads s.sys.entryAt va sv39Levels csrs.root, s.sys.PlainEntry addr) :
    FollowsSv39 hart csrs va ty p s := by
  have hpaged : Paged csrs p := by
    rintro (hmachine | hbare)
    · rcases hp with rfl | rfl <;> exact absurd hmachine (by decide)
    · exact absurd (hmode.symm.trans hbare) (by decide)
  have hmiss : ¬ Hit csrs va s.mmu := fun ht =>
    tlbKey_ne_invalidTag csrs va (ht.symm.trans (hempty (tlbIndex va)))
  obtain ⟨r, t, hout, hfin, hcases⟩ := run_translate hart csrs va ty p s
  cases hcases with
  | bare hb => exact absurd hpaged hb
  | hitRefused _ _ ht _ | hitClean _ _ ht _ _ | hitDirty _ _ ht _ _ => exact absurd ht hmiss
  | noncanonical _ hc =>
    refine followsSv39_of_refused ?_ hout (by rw [hfin])
    rw [Sv39.lookup, if_neg (canonical_eq va ▸ hc)]
  | missRefused _ hc _ hw n =>
    refine followsSv39_of_refused ?_ hout (by rw [hfin]; rfl)
    rw [Option.eq_none_iff_forall_ne_some]
    intro f hf
    obtain ⟨hsearch, hgrants⟩ := (lookup_eq_some hp hc hreads).mp hf
    exact hw (leafOfFound f) (by rw [leafOf_eq p hreads, hsearch, Option.map_some]) hgrants
  | missFilled _ hc _ leaf hw hg n =>
    rw [leafOf_eq p hreads, Option.map_eq_some_iff] at hw
    obtain ⟨f, hsearch, rfl⟩ := hw
    obtain ⟨hentry, hin, hreserved⟩ := found_plain hreads hsearch
    have hlevel := Sv39.search_level hsearch
    have hsome := (lookup_eq_some hp hc hreads).mpr ⟨hsearch, hg⟩
    have haligned : f.aligned = true := by
      have := hg.2
      rwa [misaligned_eq hreserved hlevel, Bool.not_not] at this
    have haddr : (BitVec.ofNat 64 f.addr).toNat = f.addr := by
      rw [BitVec.toNat_ofNat]
      have := Sv39.search_addr_lt hsearch
      omega
    refine followsSv39_of_mapped hsome hout (physAddr_toNat hreserved hlevel va haligned) ?_
    rw [hfin]
    refine leafMarked_filled (s := s.countMiss.withEpoch n) haddr hin ?_
    exact (congrFun (entryAt_withEpoch s.sys n) _).trans hentry

/-- A store through a gigapage over RAM. -/
theorem translate_follows_sv39_gigapage :
    let s : MmuSys := ⟨Mmu.new, (tableRun gigapageEntry).sys⟩
    Sv39.lookup s.sys.ram.word (tableCsrs.sv39 privSupervisor) 0x1238 .store =
      some ⟨2, 0x2000000f, 0x80001000⟩ ∧
      FollowsSv39 0 tableCsrs 0x1238 .store privSupervisor s := by
  intro s
  have hreads : walkReads s.sys.entryAt 0x1238 sv39Levels tableCsrs.root = [0x80001000] := by
    decide +kernel
  have hentry : s.sys.entryAt 0x80001000 = some 0x2000000f := by decide +kernel
  have hin : InRam s.sys.ram 0x80001000 8 := by decide +kernel
  refine ⟨by decide +kernel,
    translate_follows_sv39 0 0x1238 .store (by decide +kernel) (.inr rfl) (fun _ => rfl)
      fun addr haddr e he => ?_⟩
  rw [hreads, List.mem_singleton] at haddr
  subst haddr
  rw [hentry, Option.some.injEq] at he
  subst he
  exact ⟨hin, by decide⟩

end RiscvEmu
