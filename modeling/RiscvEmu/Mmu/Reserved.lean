import RiscvEmu.Mmu.WriteBack

/-!
# Reserved bits of page-table entries

The walk takes everything above bit 10 of an entry as a page number and shifts it left by two.  Bits
61 to 54 of an entry, which are reserved, become bits 63 to 56 of an address: of the next table, or
of the result.  Bits 63 and 62 are shifted out.  None of them is ever checked.
-/

namespace RiscvEmu

open Exec

namespace Pte

/-- The bits above the page number. -/
def reserved : U64 := 0x3ff <<< 54

/-- Those of them that reach an address. -/
def leaking : U64 := 0xff <<< 54

end Pte

/-! ## What an access looks at -/

/-- The pointers that a walk follows to another table it reads. -/
def walkPointers (mem : U64 → Option U64) (va : U64) : ℕ → U64 → List U64
  | 0, _ => []
  | 1, _ => []
  | level + 2, table =>
    match mem (pteSlot va (level + 1) table) with
    | none => []
    | some entry =>
      match pteKind entry with
      | .table base => entry :: walkPointers mem va (level + 1) base
      | _ => []

section Access

variable (csrs : CsrFile) (va : U64) (ty : AccessType) (p : U32) (s : MmuSys)

/-- The access walks the tables. -/
def Walks : Prop := canonical va ∧ ¬ Hit csrs va s.mmu

instance : Decidable (Hit csrs va s.mmu) := by
  unfold Hit
  infer_instance

instance : Decidable (Walks csrs va s) := by
  unfold Walks
  infer_instance

/-- Where it reads a table. -/
def tableReads : List U64 :=
  if Walks csrs va s then walkReads s.sys.entryAt va sv39Levels csrs.root else []

/-- The pointers it follows. -/
def followedPointers : List U64 :=
  if Walks csrs va s then walkPointers s.sys.entryAt va sv39Levels csrs.root else []

/-- The entries it uses: those the walk reads, or the cached one. -/
def examinedEntries : List U64 :=
  if Walks csrs va s then (tableReads csrs va s).filterMap s.sys.entryAt
  else if canonical va then [(s.mmu.tlb (tlbIndex va)).perms] else []

/-- An entry with a reserved bit makes the access fault, and no address is above the 56 bits of a
physical address. -/
structure ReservedKeptOut (hart : ℕ) : Prop where
  faults : (∃ e ∈ examinedEntries csrs va s, e &&& Pte.reserved ≠ 0) →
    outcome (translate hart csrs va ty p) s = .error ⟨pageFaultFor ty, va⟩
  result : ∀ pa, outcome (translate hart csrs va ty p) s = .ok pa → pa.toNat < 2 ^ 56
  reads : ∀ addr ∈ tableReads csrs va s, addr.toNat < 2 ^ 56

/-- The entry the access ends at, if there is one, does not allow it. -/
def Denied : Prop :=
  if Walks csrs va s then ∀ leaf, s.sys.leafOf csrs va = some leaf → ¬ leaf.grants csrs ty p
  else ¬ permitted (s.mmu.tlb (tlbIndex va)).perms ty p csrs

/-- No entry has a reserved bit, or the access is denied for another reason and no pointer it
followed has one that reaches the address. -/
def ReservedHarmless : Prop :=
  (∀ e ∈ examinedEntries csrs va s, e &&& Pte.reserved = 0) ∨
    (Denied csrs va ty p s ∧ ∀ e ∈ followedPointers csrs va s, e &&& Pte.leaking = 0)

end Access

/-! ## Addresses made of entries -/

lemma and_leaking_eq_zero (e : U64) :
    e &&& Pte.leaking = 0 ↔ ((e >>> Pte.ppnShift) <<< pageShift).toNat < 2 ^ 56 := by
  rw [show (0 : U64) = 0#64 from rfl, BitField.and_field_eq_zero (n := 54) (k := 8) (by decide),
    BitVec.toNat_shiftLeft, BitVec.toNat_ushiftRight, Nat.shiftLeft_eq, Nat.shiftRight_eq_div_pow,
    Pte.ppnShift,
    pageShift]
  omega

lemma and_leaking_of_reserved {e : U64} (h : e &&& Pte.reserved = 0) : e &&& Pte.leaking = 0 := by
  have hzero : e &&& Pte.reserved = 0 &&& Pte.reserved := h.trans (by decide)
  exact (BitField.and_of_subset hzero (by decide)).trans (by decide)

/-- Without reserved bits a page number has 44 bits. -/
lemma ppn_lt_of_reserved {e : U64} (h : e &&& Pte.reserved = 0) :
    (e >>> Pte.ppnShift).toNat < 2 ^ 44 := by
  rw [show (0 : U64) =
    0#64 from rfl, BitField.and_field_eq_zero (n := 54) (k := 10) (by decide)] at h
  rw [BitVec.toNat_ushiftRight, Nat.shiftRight_eq_div_pow, Pte.ppnShift]
  omega

lemma physAddr_lt {ppn : U64} (va : U64) (h : ppn.toNat < 2 ^ 44) :
    (physAddr ppn va).toNat < 2 ^ 56 := by
  rw [physAddr, BitVec.toNat_or]
  refine Nat.or_lt_two_pow ?_ ?_
  · rw [BitVec.toNat_shiftLeft, Nat.shiftLeft_eq, pageShift]
    omega
  · rw [pageOffset_toNat]
    omega

/-- The entries of a table below the limit are below it, and no others. -/
lemma pteSlot_lt_iff {table : U64} (va : U64) (level : ℕ) (ht : IsTable table) :
    (pteSlot va level table).toNat < 2 ^ 56 ↔ table.toNat < 2 ^ 56 := by
  have hindex : ((va >>> (pageShift + 9 * level)) &&& 0x1ff : U64).toNat < 512 := by
    rw [BitVec.toNat_and]
    exact Nat.lt_of_le_of_lt Nat.and_le_right (by decide)
  rw [IsTable] at ht
  rw [pteSlot, BitVec.toNat_add, BitVec.toNat_mul, show (8 : U64).toNat = 8 from rfl]
  generalize ((va >>> (pageShift + 9 * level)) &&& 0x1ff : U64).toNat = index at hindex
  have := table.isLt
  omega

/-! ## Walks -/

section Walks

variable {mem : U64 → Option U64} {va table : U64} {n : ℕ}

lemma walkPointers_table {e base : U64} (hmem : mem (pteSlot va (n + 1) table) = some e)
    (hkind : pteKind e = .table base) :
    walkPointers mem va (n + 2) table = e :: walkPointers mem va (n + 1) base := by
  rw [walkPointers]
  simp only [hmem, hkind]

lemma walkPointers_end (h : ∀ e base, mem (pteSlot va n table) = some e → pteKind e ≠ .table base) :
    walkPointers mem va (n + 1) table = [] := by
  cases n with
  | zero => rfl
  | succ n =>
    rw [walkPointers]
    cases hmem : mem (pteSlot va (n + 1) table) with
    | none => rfl
    | some e =>
      dsimp only
      cases hkind : pteKind e with
      | table base => exact absurd hkind (h e base hmem)
      | bad | leaf => rfl

/-- Tables are read below the limit exactly if no pointer that was followed leaks. -/
lemma walkReads_lt_iff (ht : IsTable table) (hlt : table.toNat < 2 ^ 56) :
    (∀ addr ∈ walkReads mem va n table, addr.toNat < 2 ^ 56) ↔
      ∀ e ∈ walkPointers mem va n table, e &&& Pte.leaking = 0 := by
  induction n generalizing table with
  | zero => simp [walkReads, walkPointers]
  | succ n ih =>
    have hhead : (pteSlot va n table).toNat < 2 ^ 56 := (pteSlot_lt_iff va n ht).mpr hlt
    rcases walk_cases mem va n table with ⟨e, base, hmem, hkind⟩ | hend
    swap
    · rw [walkReads_end hend, walkPointers_end hend]
      simpa using hhead
    rw [walkReads_table hmem hkind, List.forall_mem_cons]
    obtain rfl := pteKind_table hkind
    cases n with
    | zero => simpa [walkReads, walkPointers] using hhead
    | succ n =>
      rw [walkPointers_table hmem hkind, List.forall_mem_cons, and_leaking_eq_zero]
      by_cases hnext : ((e >>> Pte.ppnShift) <<< pageShift).toNat < 2 ^ 56
      · rw [ih (isTable_shiftLeft _) hnext]
        exact and_congr_left' (iff_of_true hhead hnext)
      · -- the next table is already out of bounds
        refine iff_of_false (fun h => hnext ?_) fun h => hnext h.1
        refine (pteSlot_lt_iff va n (isTable_shiftLeft _)).mp (h.2 _ ?_)
        rw [walkReads]
        exact List.mem_cons_self

/-- Pointers that are followed are entries that were read. -/
lemma mem_of_walkPointers {e : U64} (h : e ∈ walkPointers mem va n table) :
    e ∈ (walkReads mem va n table).filterMap mem := by
  induction n generalizing table with
  | zero => cases h
  | succ n ih =>
    rcases walk_cases mem va n table with ⟨e', base, hmem, hkind⟩ | hend
    swap
    · rw [walkPointers_end hend] at h
      cases h
    cases n with
    | zero => cases h
    | succ n =>
      rw [walkPointers_table hmem hkind] at h
      rw [walkReads_table hmem hkind, List.filterMap_cons_some hmem]
      rcases List.mem_cons.mp h with rfl | h
      · exact List.mem_cons_self
      · exact List.mem_cons_of_mem _ (ih h)

lemma mem_of_walkOn {leaf : Leaf} (h : walkOn mem va n table = some leaf) :
    leaf.entry ∈ (walkReads mem va n table).filterMap mem :=
  List.mem_filterMap.mpr ⟨leaf.pteAddr, mem_walkReads h, (walkOn_entry h).1⟩

lemma walkOn_level {leaf : Leaf} (h : walkOn mem va n table = some leaf) : leaf.level < n := by
  induction n generalizing table with
  | zero => cases h
  | succ n ih =>
    obtain ⟨entry, -, ⟨-, rfl⟩ | ⟨base, -, hrest⟩⟩ := walkOn_cases h
    · exact Nat.lt_succ_self n
    · exact Nat.lt_succ_of_lt (ih hrest)

end Walks

/-! ## Frames of leaves, and cached ones -/

lemma root_lt (csrs : CsrFile) : csrs.root.toNat < 2 ^ 56 := by
  have hppn : csrs.satpPpn.toNat < 2 ^ 44 := by
    rw [CsrFile.satpPpn, BitVec.toNat_and]
    exact Nat.lt_of_le_of_lt Nat.and_le_right (by decide)
  rw [CsrFile.root, BitVec.toNat_shiftLeft, Nat.shiftLeft_eq, pageShift]
  omega

/-- The frame of a slot is the page number of its entry, with bits of a superpage filled in. -/
def SlotFramed (e : TlbEntry) : Prop :=
  ∃ low : U64, low.toNat < 2 ^ 44 ∧ e.ppn = (e.perms >>> Pte.ppnShift) ||| low

lemma levelMask_lt {level : ℕ} (h : level < 3) : (levelMask level).toNat < 2 ^ 44 := by
  obtain rfl | rfl | rfl : level = 0 ∨ level = 1 ∨ level = 2 := by omega
  all_goals decide

lemma leaf_framed {leaf : Leaf} (vpn : U64) (h : leaf.level < 3) :
    ∃ low : U64, low.toNat < 2 ^ 44 ∧ leaf.ppn vpn = (leaf.entry >>> Pte.ppnShift) ||| low := by
  unfold Leaf.ppn
  split
  · refine ⟨vpn &&& levelMask leaf.level, ?_, rfl⟩
    rw [BitVec.toNat_and]
    exact Nat.lt_of_le_of_lt Nat.and_le_right (levelMask_lt h)
  · exact ⟨0, by decide, (BitVec.or_zero).symm⟩

lemma slotRule_framed : SlotRule SlotFramed where
  filled t csrs va ty leaf hw := by
    obtain ⟨low, hlow, heq⟩ := leaf_framed (vpnOf va) (walkOn_level hw)
    exact ⟨low, hlow, by rw [(updatedPte_adEq ty leaf.entry).shiftRight]; exact heq⟩
  dirtied e h := by
    obtain ⟨low, hlow, heq⟩ := h
    exact ⟨low, hlow, by rw [(adEq_or (by decide) e.perms).shiftRight]; exact heq⟩

lemma framed_lt {entry ppn : U64}
    (h : ∃ low : U64, low.toNat < 2 ^ 44 ∧ ppn = (entry >>> Pte.ppnShift) ||| low)
    (hentry : entry &&& Pte.reserved = 0) : ppn.toNat < 2 ^ 44 := by
  obtain ⟨low, hlow, rfl⟩ := h
  rw [BitVec.toNat_or]
  exact Nat.or_lt_two_pow (ppn_lt_of_reserved hentry) hlow

/-! ## Accesses -/

section Accesses

variable {hart : ℕ} {csrs : CsrFile} {va : U64} {ty : AccessType} {p : U32} {s : MmuSys}

lemma not_walks (ht : Hit csrs va s.mmu) : ¬ Walks csrs va s := fun hw => hw.2 ht

lemma outcome_of_denied (hpaged : Paged csrs p) (hc : canonical va) (h : Denied csrs va ty p s) :
    outcome (translate hart csrs va ty p) s = .error ⟨pageFaultFor ty, va⟩ := by
  obtain ⟨r, t, hr, -, hcases⟩ := run_translate hart csrs va ty p s
  rw [hr]
  unfold Denied at h
  cases hcases with
  | bare hb => exact absurd hpaged hb
  | noncanonical | hitRefused | missRefused => rfl
  | hitClean _ _ ht hp _ | hitDirty _ _ ht hp _ =>
    rw [if_neg (not_walks ht)] at h
    exact absurd hp h
  | missFilled _ _ ht leaf hw hg _ =>
    rw [if_pos (show Walks csrs va s from ⟨hc, ht⟩)] at h
    exact absurd hg (h leaf hw)

lemma denied_of_error {e : Trap} (hc : canonical va)
    (h : outcome (translate hart csrs va ty p) s = .error e) :
    Denied csrs va ty p s := by
  obtain ⟨r, t, hr, -, hcases⟩ := run_translate hart csrs va ty p s
  obtain rfl := h.symm.trans hr
  unfold Denied
  cases hcases with
  | noncanonical _ hnc => exact absurd hc hnc
  | hitRefused _ _ ht hp =>
    rw [if_neg (not_walks ht)]
    exact hp
  | missRefused _ _ ht hw _ =>
    rw [if_pos (show Walks csrs va s from ⟨hc, ht⟩)]
    exact hw

/-- What comes out of entries without reserved bits. -/
lemma result_lt (hpaged : Paged csrs p) (hslots : EverySlot SlotFramed s.mmu)
    (h : ∀ e ∈ examinedEntries csrs va s, e &&& Pte.reserved = 0) {pa : U64}
    (hok : outcome (translate hart csrs va ty p) s = .ok pa) : pa.toNat < 2 ^ 56 := by
  obtain ⟨r, t, hr, -, hcases⟩ := run_translate hart csrs va ty p s
  obtain rfl := hok.symm.trans hr
  unfold examinedEntries tableReads at h
  cases hcases with
  | bare hb => exact absurd hpaged hb
  | hitClean _ hc ht _ _ | hitDirty _ hc ht _ _ =>
    rw [if_neg (not_walks ht), if_pos hc] at h
    exact physAddr_lt va (framed_lt (hslots.of_hit ht) (h _ List.mem_cons_self))
  | missFilled _ hc ht leaf hw _ _ =>
    rw [if_pos (show Walks csrs va s from ⟨hc, ht⟩),
      if_pos (show Walks csrs va s from ⟨hc, ht⟩)] at h
    exact physAddr_lt va (framed_lt (leaf_framed _ (walkOn_level hw)) (h _ (mem_of_walkOn hw)))

lemma tableReads_lt_iff :
    (∀ addr ∈ tableReads csrs va s, addr.toNat < 2 ^ 56) ↔
      ∀ e ∈ followedPointers csrs va s, e &&& Pte.leaking = 0 := by
  unfold tableReads followedPointers
  split
  · exact walkReads_lt_iff (isTable_shiftLeft _) (root_lt csrs)
  · simp

lemma followed_examined {e : U64} (h : e ∈ followedPointers csrs va s) :
    e ∈ examinedEntries csrs va s := by
  unfold followedPointers at h
  unfold examinedEntries tableReads
  split at h
  · next hw =>
      rw [if_pos hw, if_pos hw]
      exact mem_of_walkPointers h
  · cases h

/-- Reserved bits are kept out exactly where they are harmless. -/
lemma reservedKeptOut_iff (hpaged : Paged csrs p) (hslots : EverySlot SlotFramed s.mmu) :
    ReservedKeptOut csrs va ty p s hart ↔ ReservedHarmless csrs va ty p s := by
  constructor
  · intro h
    by_cases hclear : ∀ e ∈ examinedEntries csrs va s, e &&& Pte.reserved = 0
    · exact .inl hclear
    · push Not at hclear
      have hc : canonical va := by
        by_contra hnc
        obtain ⟨e, he, -⟩ := hclear
        rw [examinedEntries, if_neg fun hw => hnc hw.1, if_neg hnc] at he
        cases he
      exact .inr ⟨denied_of_error hc (h.faults hclear), tableReads_lt_iff.mp h.reads⟩
  · rintro (hclear | ⟨hdenied, hpointers⟩)
    · refine ⟨?_, fun pa hok => result_lt hpaged hslots hclear hok, ?_⟩
      · rintro ⟨e, he, hbits⟩
        exact absurd (hclear e he) hbits
      · exact tableReads_lt_iff.mpr fun e he =>
          and_leaking_of_reserved (hclear e (followed_examined he))
    · have herror : outcome (translate hart csrs va ty p) s = .error ⟨pageFaultFor ty, va⟩ := by
        by_cases hc : canonical va
        · exact outcome_of_denied hpaged hc hdenied
        · rw [outcome_of_error (translate_refused hpaged hc)]
      refine ⟨fun _ => herror, fun pa hok => ?_, tableReads_lt_iff.mpr hpointers⟩
      rw [herror] at hok
      cases hok

end Accesses

/-- In every state of every run, an access under Sv39 keeps reserved bits out exactly if they are
harmless to it: no entry has one, or the access is denied for another reason and no pointer
leaks. -/
theorem reserved_bits_iff {cfg : Config} {m : Machine} (hm : Reachable cfg m) (h : ℕ)
    {csrs : CsrFile}
    (hmode : csrs.satpMode = Csr.satpModeSv39) (va : U64) (ty : AccessType) {p : U32}
    (hp : p ≠ privMachine) :
    ReservedKeptOut csrs va ty p ⟨(m.harts h).mmu, m.sys⟩ h ↔
      ReservedHarmless csrs va ty p ⟨(m.harts h).mmu, m.sys⟩ := by
  refine reservedKeptOut_iff ?_ (slotRule_framed.reachable hm h)
  rintro (hmachine | hbare)
  · exact hp hmachine
  · exact absurd (hmode.symm.trans hbare) (by decide)

/-! ## A leaf with a reserved bit -/

/-- A gigapage over RAM, with bit 54 set. -/
def leakyEntry : List U8 := [0x0f, 0x00, 0x00, 0x20, 0x00, 0x00, 0x40, 0x00]

/-- A machine whose second page of RAM is a table that begins with an entry. -/
def tableRun (entry : List U8) : Machine :=
  (Machine.init (Config.plain 1 8192 twoPages_fits)).run [.writeBytes (dramBase + 0x1000) entry]

/-- Sv39 with this table. -/
def tableCsrs : CsrFile := CsrFile.new.write Csr.satp 0x8000000000080001

/-- The access succeeds, at an address of 57 bits. -/
theorem reserved_bit_leaks :
    let s : MmuSys := ⟨((tableRun leakyEntry).harts 0).mmu, (tableRun leakyEntry).sys⟩
    Reachable (Config.plain 1 8192 twoPages_fits) (tableRun leakyEntry) ∧
      outcome (translate 0 tableCsrs 8 .load privSupervisor) s = .ok 0x100000080000008 ∧
      ¬ ReservedKeptOut tableCsrs 8 .load privSupervisor s 0 := by
  have hok : outcome (translate 0 tableCsrs 8 .load privSupervisor)
      ⟨((tableRun leakyEntry).harts 0).mmu, (tableRun leakyEntry).sys⟩ = .ok 0x100000080000008 := by
    decide +kernel
  exact ⟨⟨_, rfl⟩, hok, fun h => absurd (h.result _ hok) (by decide)⟩

/-- Without the bit nothing leaks. -/
theorem reserved_bits_iff_gigapage :
    let s : MmuSys := ⟨((tableRun gigapageEntry).harts 0).mmu, (tableRun gigapageEntry).sys⟩
    examinedEntries tableCsrs 8 s = [0x2000000f] ∧
      ReservedKeptOut tableCsrs 8 .load privSupervisor s 0 := by
  have hentries : examinedEntries tableCsrs 8
      ⟨((tableRun gigapageEntry).harts 0).mmu, (tableRun gigapageEntry).sys⟩ = [0x2000000f] := by
    decide +kernel
  have hreach : Reachable (Config.plain 1 8192 twoPages_fits) (tableRun gigapageEntry) := ⟨_, rfl⟩
  refine ⟨hentries,
    (reserved_bits_iff hreach 0 (by decide +kernel) 8 .load (by decide)).mpr (.inl ?_)⟩
  intro e he
  rw [hentries] at he
  rw [List.mem_singleton.mp he]
  decide

end RiscvEmu
