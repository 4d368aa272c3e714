import RiscvEmu.Cpu.StoreLoops
import RiscvEmu.History
import RiscvEmu.Mmu.Reserved

/-!
# A hart reads its own writes

After a store the TLB holds the translations of its bytes, and an entry that lets a store through
lets a load through.  So a load that follows goes to the same bytes without looking at the page
tables, which the store may have overwritten.  Bytes of one access differ in their offsets inside a
page, so they never meet, whatever the frames of the two pages are.
-/

namespace RiscvEmu

open Exec

/-! ## Writable pages are readable -/

/-- The entry of a slot is one that a walk ends at. -/
def SlotLeaf (e : TlbEntry) : Prop := pteKind e.perms = .leaf

lemma slotRule_leaf : SlotRule SlotLeaf where
  filled t csrs va ty leaf hw := (updatedPte_adEq ty leaf.entry).pteKind.trans (walkOn_entry hw).2
  dirtied e h := (adEq_or (by decide) e.perms).pteKind.trans h

/-- There are no leaves that can be written and not read. -/
lemma readable_of_writable {e : U64} (h : pteKind e = .leaf) (hw : e &&& Pte.W ≠ 0) :
    e &&& Pte.R ≠ 0 := by
  intro hr
  unfold pteKind at h
  split_ifs at h with hv hwr hrx
  exact hwr ⟨hw, hr⟩

lemma permitted_load {e : U64} {p : U32} {csrs : CsrFile} (hleaf : pteKind e = .leaf)
    (h : permitted e .store p csrs) : permitted e .load p csrs := by
  unfold permitted at h ⊢
  dsimp only at h ⊢
  split_ifs at h ⊢
  have hw : e &&& Pte.W ≠ 0 := bne_iff_ne.mp h
  rw [bne_iff_ne.mpr (readable_of_writable hleaf hw), Bool.true_or]

/-! ## Pages that can be read -/

lemma Cached.load {csrs : CsrFile} {p : U32} {va : U64} {m : Mmu}
    (h : Cached .store csrs p va m) (hm : EverySlot SlotLeaf m) : Cached .load csrs p va m := by
  intro hp
  obtain ⟨hc, ht, hperm, -⟩ := h hp
  exact ⟨hc, ht, permitted_load (hm.of_hit ht) hperm, nofun⟩

/-- A load sets a bit in the first byte of an entry; it changes no other byte. -/
lemma translate_load_mem (hart : ℕ) (csrs : CsrFile) (va : U64) (p : U32) (s : MmuSys) {off : ℕ}
    (hoff : off % 8 ≠ 0) :
    (final (translate hart csrs va .load p) s).sys.ram.mem off = s.sys.ram.mem off := by
  obtain ⟨r, t, -, hfin, hcases⟩ := run_translate hart csrs va .load p s
  rw [hfin]
  cases hcases with
  | hitDirty _ _ _ _ hd => cases hd.1
  | missFilled _ _ _ leaf hw _ n =>
    have hentry : (s.countMiss.withEpoch n).sys.entryAt leaf.pteAddr = some leaf.entry :=
      (congrFun (entryAt_withEpoch s.sys n) _).trans (walkOn_entry hw).1
    exact (adUpdate_filled (leafOf_aligned hw) hentry).mem_of_mod hoff
  | bare | noncanonical | hitRefused | hitClean | missRefused => rfl

/-! ## What translations write -/

/-- An offset inside the doubleword at an address of RAM. -/
def InWord (addr : U64) (off : ℕ) : Prop :=
  dramBase ≤ addr ∧ (addr - dramBase).toNat ≤ off ∧ off < (addr - dramBase).toNat + 8

/-- Only entries that a translation of the hart wrote back changed. -/
def PteWrites (hart : ℕ) (s t : Sys) : Prop :=
  t.ram.len = s.ram.len ∧ ∃ new, t.log = new ++ s.log ∧
    ∀ off, t.ram.mem off ≠ s.ram.mem off → ∃ addr, .pteUpdate hart addr ∈ new ∧ InWord addr off

instance (hart : ℕ) : IsPreorder Sys (PteWrites hart) where
  refl s := ⟨rfl, [], rfl, fun _ h => absurd rfl h⟩
  trans s t u h g := by
    obtain ⟨hlen, new, hlog, hmem⟩ := h
    obtain ⟨hlen', new', hlog', hmem'⟩ := g
    refine ⟨hlen'.trans hlen,
      new' ++ new, by rw [hlog', hlog, List.append_assoc], fun off hne => ?_⟩
    by_cases hsame : t.ram.mem off = s.ram.mem off
    · obtain ⟨addr, haddr, hin⟩ := hmem' off (by rwa [hsame])
      exact ⟨addr, List.mem_append_left _ haddr, hin⟩
    · obtain ⟨addr, haddr, hin⟩ := hmem off hsame
      exact ⟨addr, List.mem_append_right _ haddr, hin⟩

lemma SysQuiet.pteWrites {s t : Sys} (h : SysQuiet s t) (hart : ℕ) : PteWrites hart s t :=
  ⟨by rw [h.ram], [], by rw [h.log]; rfl, fun off hne => absurd (by rw [h.ram]) hne⟩

lemma pteWrites_writeBack (t : Sys) (hart : ℕ) (pteAddr value : U64) :
    PteWrites hart t (t.writeBack hart pteAddr value) := by
  have hemit : ∀ u : Sys, u.ram = t.ram → u.log = t.log →
    PteWrites hart t (u.emit (.pteUpdate hart pteAddr)) := by
    intro u hram hlog
    exact ⟨congrArg Dram.len hram, [.pteUpdate hart pteAddr], congrArg (_ :: ·) hlog,
      fun off hne => absurd (congrFun (congrArg Dram.mem hram) off) hne⟩
  unfold Sys.writeBack
  split
  · next u h =>
    rcases busStore_ok h with ⟨hin, ram, hst, rfl⟩ | ⟨-, -, hq⟩
    · obtain ⟨-, hmem, hlen⟩ := Dram.store_eq_some hst
      refine ⟨hlen, [.pteUpdate hart pteAddr], rfl, fun off hne =>
        ⟨pteAddr, List.mem_cons_self, hin.1, ?_⟩⟩
      by_contra hout
      exact hne ((congrFun hmem off).trans (Bytes.store_of_not_mem hout))
    · have hquiet := hq (by decide)
      exact hemit u hquiet.ram hquiet.log
  · next h => exact (busStore_error h).2.pteWrites hart

lemma translateKeeps_pteWrites (hart : ℕ) :
    TranslateKeeps hart fun s t => PteWrites hart s.sys t.sys where
  countHit s := refl_of (PteWrites hart) s.sys
  walked s csrs va := (quiet_walkFrom csrs va s.sys).pteWrites hart
  setSlot s _ _ := refl_of (PteWrites hart) s.sys
  writeBack s pteAddr value := pteWrites_writeBack s.sys hart pteAddr value

lemma translateFor_ok {va pa : U64} {ty : AccessType} {p : U32} {s t : Hart}
    (h : translateFor va ty p s = .ok pa t) :
    PteWrites s.cpu.hartid s.sys t.sys ∧ t.cpu = { s.cpu with mmu := t.cpu.mmu } := by
  obtain ⟨u, hu, rfl⟩ := translateFor_eq_ok.mp h
  exact ⟨((translateKeeps_pteWrites s.cpu.hartid).translate s.cpu.csrs va ty p).of_ok hu, rfl⟩

/-! ## Where bytes are -/

/-- Where the byte at a virtual address is, for an access of this hart. -/
def Hart.located (s : Hart) (va : U64) (ty : AccessType) : Option U64 :=
  (outcome (translateFor va ty s.cpu.dataPrivilege) s).toOption

/-- Where an access that hits goes. -/
def Hart.place (s : Hart) (va : U64) : U64 := target s.cpu.csrs s.cpu.dataPrivilege s.cpu.mmu va

section Places

variable {s t : Hart} {va : U64} {n i : ℕ}

lemma located_of_cached {ty : AccessType}
    (h : Cached ty s.cpu.csrs s.cpu.dataPrivilege va s.cpu.mmu) :
    s.located va ty = some (s.place va) := by
  obtain ⟨k, hk⟩ := translateFor_of_cached h
  rw [Hart.located, outcome_of_ok hk]
  rfl

/-! Inside a page. -/

lemma add_toNat_of_not_crosses (hcross : ¬ crossesPage va n) (hi : i < n) :
    (va + BitVec.ofNat 64 i).toNat = va.toNat + i ∧ va.toNat % 4096 + i < 4096 := by
  rw [crossesPage, decide_eq_true_eq, pageSize] at hcross
  have := va.isLt
  rw [BitVec.toNat_add, BitVec.toNat_ofNat]
  omega

lemma vpn_of_not_crosses (hcross : ¬ crossesPage va n) (hi : i < n) :
    vpnOf va = vpnOf (va + BitVec.ofNat 64 i) := by
  obtain ⟨hsum, hlt⟩ := add_toNat_of_not_crosses hcross hi
  apply BitVec.eq_of_toNat_eq
  rw [vpnOf, vpnOf, BitVec.toNat_ushiftRight, BitVec.toNat_ushiftRight, hsum,
    Nat.shiftRight_eq_div_pow, Nat.shiftRight_eq_div_pow, pageShift]
  omega

/-- The bytes of an access inside a page are next to each other. -/
lemma place_of_not_crosses (s : Hart) (hcross : ¬ crossesPage va n) (hi : i < n) :
    s.place (va + BitVec.ofNat 64 i) = s.place va + BitVec.ofNat 64 i := by
  obtain ⟨hsum, hlt⟩ := add_toNat_of_not_crosses hcross hi
  unfold Hart.place target
  split
  · rw [← tlbIndex_vpn (vpn_of_not_crosses hcross hi)]
    apply BitVec.eq_of_toNat_eq
    have hbound := (physAddr (s.cpu.mmu.tlb (tlbIndex va)).ppn (va + BitVec.ofNat 64 i)).isLt
    rw [physAddr_toNat_eq, hsum] at hbound
    rw [BitVec.toNat_add, BitVec.toNat_ofNat, physAddr_toNat_eq, physAddr_toNat_eq, hsum]
    omega
  · rfl

lemma offset_add {d : Dram} {pa : U64} (hn : n ≤ 8)
    (h : ∀ i < n, InRam d (pa + BitVec.ofNat 64 i) 1)
    (hi : i < n) : (pa + BitVec.ofNat 64 i - dramBase).toNat = (pa - dramBase).toNat + i := by
  have hfirst := inRam_iff.mp (h 0 (by omega))
  have hthis := inRam_iff.mp (h i hi)
  rw [show pa + BitVec.ofNat 64 0 = pa from BitVec.add_zero pa] at hfirst
  have hle : dramBase ≤ pa := hfirst.1
  have hle' : dramBase ≤ pa + BitVec.ofNat 64 i := hthis.1
  rw [BitVec.toNat_sub_of_le hle, BitVec.toNat_sub_of_le hle']
  rw [show dramBase.toNat = 2147483648 from rfl, BitVec.toNat_add, BitVec.toNat_ofNat] at hthis ⊢
  rw [show dramBase.toNat = 2147483648 from rfl] at hfirst
  have := pa.isLt
  omega

lemma inRam_of_bytes {d : Dram} {pa : U64} (hn : 0 < n ∧ n ≤ 8)
    (h : ∀ i < n, InRam d (pa + BitVec.ofNat 64 i) 1) : InRam d pa n := by
  have hfirst := h 0 hn.1
  rw [show pa + BitVec.ofNat 64 0 = pa from BitVec.add_zero pa] at hfirst
  have hlast := (Dram.inRange_iff d).mp (h (n - 1) (by omega)).2
  rw [offset_add hn.2 h (by omega)] at hlast
  refine ⟨hfirst.1, (Dram.inRange_iff d).mpr ?_⟩
  omega

end Places

/-! ## Loads -/

section Loads

variable {s t : Hart} {va : U64} {n i : ℕ}

/-- The byte of RAM at a physical address. -/
def Dram.byteAt (d : Dram) (pa : U64) : U8 := d.mem (pa - dramBase).toNat

lemma busLoad_byte {pa : U64} {t : Sys} (h : InRam t.ram pa 1) :
    Bus.load pa 1 .load t = .ok ((t.ram.byteAt pa).setWidth 64) t := by
  rw [busLoad_ram h]
  simp [Bytes.load, Dram.byteAt]

lemma and_ff (b : U64) : b &&& 0xff = (b.setWidth 8).setWidth 64 := by
  have hmask : ∀ k : Fin 64, (0xff : U64).getLsbD k = decide (k.val < 8) := by decide
  refine BitVec.eq_of_getLsbD_eq fun k hk => ?_
  rw [BitVec.getLsbD_and, hmask ⟨k, hk⟩, BitVec.getLsbD_setWidth, BitVec.getLsbD_setWidth]
  by_cases h8 : k < 8 <;> simp [h8, hk]

lemma setWidth_byte (b : U8) : (b.setWidth 64).setWidth 8 = b :=
  (BitVec.setWidth_setWidth_of_le _ (by decide)).trans (BitVec.setWidth_eq _)

/-- The number a loop over bytes builds up. -/
def gather (f : ℕ → U8) (is : List ℕ) (value : U64) : U64 :=
  is.foldl (fun v i => v ||| (f i).setWidth 64 <<< (8 * i)) value

lemma gather_range (f : ℕ → U8) (n : ℕ) : gather f (List.range n) 0 = Bytes.join f n := by
  induction n with
  | zero => rfl
  | succ n ih =>
    have happend : gather f (List.range n ++ [n]) 0 = gather f [n] (gather f (List.range n) 0) :=
      List.foldl_append
    rw [List.range_succ, happend, ih]
    rfl

lemma loadBytes_of_cached {csrs : CsrFile} {p : U32} (is : List ℕ) (value : U64)
    (hcsrs : s.cpu.csrs = csrs)
    (hload : ∀ i ∈ is, Cached .load csrs p (va + BitVec.ofNat 64 i) s.cpu.mmu)
    (hin : ∀ i ∈ is, InRam s.sys.ram (target csrs p s.cpu.mmu (va + BitVec.ofNat 64 i)) 1) :
    ∃ u, loadBytes va .load p is value s =
      .ok (gather (fun i => s.sys.ram.byteAt (target csrs p s.cpu.mmu (va + BitVec.ofNat 64 i))) is
        value) u := by
  induction is generalizing value s with
  | nil => exact ⟨s, rfl⟩
  | cons i is ih =>
    subst hcsrs
    obtain ⟨k, hk⟩ := translateFor_of_cached (hload i List.mem_cons_self)
    have hbyte := busLoad_byte (hin i List.mem_cons_self)
    have hlift :
        liftSys (Bus.load (target s.cpu.csrs p s.cpu.mmu (va + BitVec.ofNat 64 i)) 1 .load)
          (s.withHits k) = _ := zoom_eq_ok.mpr ⟨s.sys, hbyte, rfl⟩
    unfold loadBytes
    rw [bind_of_ok hk, bind_of_ok hlift, and_ff, setWidth_byte]
    exact ih (s := s.withHits k) _ rfl
      (fun j hj => hload j (List.mem_cons_of_mem _ hj)) fun j hj =>
        hin j (List.mem_cons_of_mem _ hj)

lemma memLoad_of_cached (hn : 0 < n ∧ n ≤ 8)
    (hload : ∀ i < n,
      Cached .load s.cpu.csrs s.cpu.dataPrivilege (va + BitVec.ofNat 64 i) s.cpu.mmu)
    (hin : ∀ i < n, InRam s.sys.ram (s.place (va + BitVec.ofNat 64 i)) 1) :
    ∃ u, memLoad va n .load s =
      .ok (Bytes.join (fun i => s.sys.ram.byteAt (s.place (va + BitVec.ofNat 64 i))) n) u := by
  unfold memLoad
  by_cases hcross : crossesPage va n
  · obtain ⟨u, hu⟩ :=
      loadBytes_of_cached (List.range n) 0 rfl (fun i hi => hload i (List.mem_range.mp hi))
      fun i hi => hin i (List.mem_range.mp hi)
    rw [gather_range] at hu
    rw [if_pos hcross, loadAcrossPages, bind_of_ok (get_apply s)]
    exact ⟨u, hu⟩
  · have hzero := hload 0 hn.1
    rw [show va + BitVec.ofNat 64 0 = va from BitVec.add_zero va] at hzero
    obtain ⟨k, hk⟩ := translateFor_of_cached hzero
    have hbytes : ∀ i < n, InRam s.sys.ram (s.place va + BitVec.ofNat 64 i) 1 := fun i hi =>
      place_of_not_crosses s hcross hi ▸ hin i hi
    have hall : Bus.load (s.place va) n .load s.sys = _ := busLoad_ram (inRam_of_bytes hn hbytes)
    rw [if_neg hcross, bind_of_ok (get_apply s), if_neg (by decide), bind_of_ok hk]
    refine ⟨_, zoom_eq_ok.mpr ⟨s.sys, ?_, rfl⟩⟩
    refine hall.trans ?_
    rw [Nat.min_eq_left hn.2, Bytes.load_eq_join hn.2]
    congr 1
    refine Bytes.join_congr fun i hi => ?_
    rw [place_of_not_crosses s hcross hi, Dram.byteAt, offset_add hn.2 hbytes hi]

end Loads

/-! ## Stores -/

section Stores

variable {s t u : Hart} {va pa : U64} {n : ℕ} {x : U64} {csrs : CsrFile} {p : U32} {is : List ℕ}
    {T : ℕ → U64}

/-- One turn of the second loop. -/
lemma Aimed.storeBytes_cons {i : ℕ} (h : Aimed csrs p va (i :: is) T s)
    (hok : RiscvEmu.storeBytes va p x (i :: is) s = .ok () t) :
    ∃ k w, storeAt (T i) 1 (valueByte x i) (s.withHits k) = .ok () w ∧
      w.cpu = (s.withHits k).cpu ∧ Aimed csrs p va is T w ∧
      RiscvEmu.storeBytes va p x is w = .ok () t := by
  obtain ⟨k, hk⟩ := h.step
  unfold RiscvEmu.storeBytes at hok
  rw [bind_of_ok hk] at hok
  obtain ⟨⟨⟩, w, hw, hrest⟩ := bind_eq_ok.mp hok
  obtain ⟨u, -, rfl⟩ := storeAt_eq_ok.mp hw
  exact ⟨k, _, hw, rfl, h.tail rfl, hrest⟩

/-- The second loop leaves the TLB. -/
lemma Aimed.storeBytes_cpu (h : Aimed csrs p va is T s)
    (hok : RiscvEmu.storeBytes va p x is s = .ok () t) :
    ∃ k, t.cpu = (s.withHits k).cpu := by
  induction is generalizing s with
  | nil =>
    cases hok
    exact ⟨t.cpu.mmu.hits, rfl⟩
  | cons i is ih =>
    obtain ⟨k, w, -, hcpu, haimed, hrest⟩ := h.storeBytes_cons hok
    obtain ⟨k', hk'⟩ := ih haimed hrest
    exact ⟨k', by rw [hk', Hart.withHits, hcpu]; rfl⟩

/-- Over bytes in RAM, it writes them. -/
lemma Aimed.storeBytes_ok (h : Aimed csrs p va is T s) (hin : ∀ i ∈ is, InRam s.sys.ram (T i) 1)
    (hok : RiscvEmu.storeBytes va p x is s = .ok () t) :
    t.sys.ram.len = s.sys.ram.len ∧ t.sys.ram.mem = putBytes x T s.sys.ram.mem is := by
  induction is generalizing s with
  | nil =>
    cases hok
    exact ⟨rfl, rfl⟩
  | cons i is ih =>
    obtain ⟨k, w, hw, -, haimed, hrest⟩ := h.storeBytes_cons hok
    obtain ⟨hlen, hmem⟩ := storeAt_ram hw (hin i List.mem_cons_self)
    have hin' : ∀ j ∈ is, InRam w.sys.ram (T j) 1 := fun j hj =>
      (inRam_congr hlen).mpr (hin j (List.mem_cons_of_mem _ hj))
    obtain ⟨hlen', hfinal⟩ := ih haimed hin' hrest
    refine ⟨hlen'.trans hlen, ?_⟩
    rw [hfinal, hmem]
    rfl

lemma translateBytes_pteWrites (hok : translateBytes va p is s = .ok () t) :
    PteWrites s.cpu.hartid s.sys t.sys ∧ t.cpu = { s.cpu with mmu := t.cpu.mmu } := by
  induction is generalizing s with
  | nil =>
    cases hok
    exact ⟨refl_of (PteWrites t.cpu.hartid) t.sys, rfl⟩
  | cons i is ih =>
    unfold translateBytes at hok
    obtain ⟨pa, s₁, h₁, hok⟩ := bind_eq_ok.mp hok
    obtain ⟨hw, hcpu⟩ := translateFor_ok h₁
    obtain ⟨hw', hcpu'⟩ := ih hok
    have hid : s₁.cpu.hartid = s.cpu.hartid := by rw [hcpu]
    rw [hid] at hw'
    refine ⟨trans_of (PteWrites s.cpu.hartid) hw hw', ?_⟩
    rw [hcpu', hcpu]

/-- What a store to RAM that succeeded leaves. -/
structure Stored (va : U64) (n : ℕ) (x : U64) (s t : Hart) : Prop where
  len : t.sys.ram.len = s.sys.ram.len
  bytes : ∀ i < n, t.sys.ram.byteAt (t.place (va + BitVec.ofNat 64 i)) = Bytes.byte x i
  rest : ∃ u : Hart, PteWrites s.cpu.hartid s.sys u.sys ∧ u.sys.log <:+ t.sys.log ∧
    ∀ off, (∀ i < n, off ≠ (t.place (va + BitVec.ofNat 64 i) - dramBase).toNat) →
      t.sys.ram.mem off = u.sys.ram.mem off

lemma stored_inside (hn : 0 < n ∧ n ≤ 8) (hcross : ¬ crossesPage va n)
    (h : memStore va n x s = .ok () t) :
    (∀ i < n, Cached .store t.cpu.csrs t.cpu.dataPrivilege (va + BitVec.ofNat 64 i) t.cpu.mmu) ∧
      ((∀ i < n, InRam s.sys.ram (t.place (va + BitVec.ofNat 64 i)) 1) → Stored va n x s t) := by
  unfold memStore at h
  rw [if_neg hcross, bind_of_ok (get_apply s)] at h
  obtain ⟨pa, u, htr, hst⟩ := bind_eq_ok.mp h
  obtain ⟨hwrites, -⟩ := translateFor_ok htr
  obtain ⟨m, hm, rfl⟩ := translateFor_eq_ok.mp htr
  obtain ⟨hcached, hpa⟩ := cached_of_ok hm
  obtain ⟨w, hbus, hstored⟩ := storeAt_eq_ok.mp hst
  have hcpu : t.cpu = { s.cpu with mmu := m.mmu } := by rw [hstored, Hart.stored]
  have hram : t.sys.ram = w.ram := by rw [hstored, (stored_sys ..).1]
  have hplace : t.place va = pa := by
    rw [hpa, Hart.place, hcpu]
    rfl
  refine ⟨fun i hi => ?_, fun hin => ?_⟩
  · rw [hcpu]
    exact hcached.same_page (vpn_of_not_crosses hcross hi)
  have hbytes : ∀ i < n, InRam m.sys.ram (pa + BitVec.ofNat 64 i) 1 := by
    intro i hi
    have hbyte := hin i hi
    rw [place_of_not_crosses t hcross hi, hplace] at hbyte
    exact (inRam_congr hwrites.1).mpr hbyte
  rcases busStore_ok hbus with ⟨-, ram, hsome, rfl⟩ | ⟨hout, -⟩
  swap
  · exact absurd (inRam_of_bytes hn hbytes) hout
  obtain ⟨-, hmem, hlen⟩ := Dram.store_eq_some hsome
  rw [Nat.min_eq_left hn.2] at hmem
  have hoff : ∀ i < n, (t.place (va + BitVec.ofNat 64 i) - dramBase).toNat =
    (pa - dramBase).toNat + i := by
    intro i hi
    rw [place_of_not_crosses t hcross hi, hplace, offset_add hn.2 hbytes hi]
  refine ⟨?_, fun i hi => ?_, _, hwrites, (sharedKeeps_history.memKeeps.store pa n x).of_ok hst,
    fun off hne => ?_⟩
  · rw [hram]
    exact hlen.trans hwrites.1
  · rw [Dram.byteAt, hoff i hi, hram]
    dsimp only
    rw [hmem, Bytes.store_of_mem (by omega), Nat.add_sub_cancel_left]
  · rw [hram]
    dsimp only
    rw [hmem, Bytes.store_of_not_mem]
    rintro ⟨hle, hlt⟩
    exact hne (off - (pa - dramBase).toNat) (by omega) (by rw [hoff _ (by omega)]; omega)

lemma stored_across (hn : 0 < n ∧ n ≤ 8) (hcross : crossesPage va n)
    (h : memStore va n x s = .ok () t) :
    (∀ i < n, Cached .store t.cpu.csrs t.cpu.dataPrivilege (va + BitVec.ofNat 64 i) t.cpu.mmu) ∧
      ((∀ i < n, InRam s.sys.ram (t.place (va + BitVec.ofNat 64 i)) 1) → Stored va n x s t) := by
  unfold memStore at h
  rw [if_pos hcross, storeAcrossPages, bind_of_ok (get_apply s)] at h
  obtain ⟨⟨⟩, u, hfirst, hst⟩ := bind_eq_ok.mp h
  obtain ⟨hwrites, hcpu⟩ := translateBytes_pteWrites hfirst
  obtain ⟨hcsrs, hcached, -⟩ := translateBytes_cached rfl (spread_of_le va hn.2)
    (fun i hi => List.mem_range.mp hi) hfirst
  have haimed : Aimed s.cpu.csrs s.cpu.dataPrivilege va (List.range n)
      (fun i => target s.cpu.csrs s.cpu.dataPrivilege u.cpu.mmu (va + BitVec.ofNat 64 i)) u :=
    ⟨hcsrs, hcached, fun _ _ => rfl⟩
  obtain ⟨k, hk⟩ := haimed.storeBytes_cpu hst
  have hplace : ∀ a, t.place a = target s.cpu.csrs s.cpu.dataPrivilege u.cpu.mmu a := by
    intro a
    rw [Hart.place, hk, Hart.withHits, hcpu]
    rfl
  refine ⟨fun i hi => ?_, fun hin => ?_⟩
  · have hthis := hcached i (List.mem_range.mpr hi)
    rw [hk, Hart.withHits, hcpu]
    exact hthis
  simp only [hplace] at hin
  have hin' : ∀ i ∈ List.range n,
      InRam u.sys.ram
        (target s.cpu.csrs s.cpu.dataPrivilege u.cpu.mmu (va + BitVec.ofNat 64 i)) 1 :=
    fun i hi => (inRam_congr hwrites.1).mpr (hin i (List.mem_range.mp hi))
  obtain ⟨hlen, hmem⟩ := haimed.storeBytes_ok hin' hst
  have hlog :=
    Keeps.of_ok
      (sharedKeeps_history.memKeeps.storeBytes va s.cpu.dataPrivilege x (List.range n)) hst
  refine ⟨hlen.trans hwrites.1, fun i hi => ?_, u, hwrites, hlog, fun off hne => ?_⟩
  · rw [Dram.byteAt, hplace, hmem]
    refine putBytes_of_mem (List.mem_range.mpr hi) (fun l hl => (hin' l hl).1) List.nodup_range
      (fun l hl heq => ?_) _
    exact target_injective (Nat.lt_of_lt_of_le (List.mem_range.mp hl) hn.2)
      (Nat.lt_of_lt_of_le hi hn.2) heq
  · rw [hmem]
    refine putBytes_of_ne (fun l hl => ?_) _
    have hoff := hne l (List.mem_range.mp hl)
    rwa [hplace] at hoff

end Stores

/-! ## Loads across pages -/

/-- The bytes of a load, translated and loaded one after the other. -/
def loadEach (va : U64) (ty : AccessType) (p : U32) : List ℕ → HartM (List U8)
  | [] => pure []
  | i :: rest => do
    let pa ← translateFor (va + BitVec.ofNat 64 i) ty p
    let b ← liftSys (Bus.load pa 1 ty)
    let bs ← loadEach va ty p rest
    pure (b.setWidth 8 :: bs)

section Each

variable {s t u w : Hart} {va pa b : U64} {ty : AccessType} {csrs : CsrFile} {p : U32} {is : List ℕ}
    {bs : List U8}
  {n i k : ℕ}

lemma gather_congr {f g : ℕ → U8} (h : ∀ i ∈ is, f i = g i) (value : U64) :
    gather f is value = gather g is value := by
  induction is generalizing value with
  | nil => rfl
  | cons i is ih =>
    have htail :=
      ih (fun j hj => h j (List.mem_cons_of_mem _ hj)) (value ||| (f i).setWidth 64 <<< (8 * i))
    rw [gather, List.foldl_cons, ← gather, htail, h i List.mem_cons_self]
    rfl

/-- The loop over consecutive bytes puts them together. -/
lemma loadBytes_eq (va : U64) (ty : AccessType) (p : U32) (i k : ℕ) (value : U64) (s : Hart) :
    loadBytes va ty p (List.range' i k) value s =
      (loadEach va ty p (List.range' i k) >>= fun bs =>
        pure (gather (fun j => bs.getD (j - i) 0) (List.range' i k) value)) s := by
  induction k generalizing i value s with
  | zero => rfl
  | succ k ih =>
    rw [List.range'_succ]
    unfold loadBytes loadEach
    rw [bind_apply, bind_apply, bind_apply]
    cases translateFor (va + BitVec.ofNat 64 i) ty p s with
    | error e t => rfl
    | ok pa t =>
      dsimp only
      rw [bind_apply, bind_apply]
      cases liftSys (Bus.load pa 1 ty) t with
      | error e t => rfl
      | ok b t =>
        dsimp only
        rw [ih, bind_apply, bind_apply]
        cases loadEach va ty p (List.range' (i + 1) k) t with
        | error e t => rfl
        | ok bs t =>
          dsimp only
          have hhead : gather (fun j => (b.setWidth 8 :: bs).getD (j - i) 0)
            (i :: List.range' (i + 1) k) value =
              gather (fun j => (b.setWidth 8 :: bs).getD (j - i) 0) (List.range' (i + 1) k)
                (value ||| (b &&& 0xff) <<< (8 * i)) := by
            rw [gather, List.foldl_cons, Nat.sub_self, List.getD_cons_zero, ← and_ff, ← gather]
          have hshift : ∀ j ∈ List.range' (i + 1) k,
              (b.setWidth 8 :: bs).getD (j - i) 0 = bs.getD (j - (i + 1)) 0 := by
            intro j hj
            have := (List.mem_range'_1.mp hj).1
            rw [show j - i = (j - (i + 1)) + 1 by omega, List.getD_cons_succ]
          have htail := gather_congr hshift (value ||| (b &&& 0xff) <<< (8 * i))
          rw [← htail, ← hhead]
          rfl

/-- A load across pages is the little-endian number of its bytes. -/
lemma memLoad_across (hcross : crossesPage va n) (ty : AccessType) (s : Hart) :
    memLoad va n ty s = (loadEach va ty s.cpu.dataPrivilege (List.range n) >>= fun bs =>
      pure (Bytes.join (fun i => bs.getD i 0) n)) s := by
  unfold memLoad
  rw [if_pos hcross, loadAcrossPages, bind_of_ok (get_apply s), List.range_eq_range', loadBytes_eq]
  simp only [← List.range_eq_range', Nat.sub_zero, gather_range]

/-! What the translations of a load leave to its other bytes. -/

lemma loadByte_ok (hload : liftSys (Bus.load pa 1 .load) u = .ok b w) :
    w.cpu = u.cpu ∧ w.sys.ram = u.sys.ram ∧
      (InRam u.sys.ram pa 1 → b.setWidth 8 = u.sys.ram.byteAt pa) := by
  obtain ⟨t, ht, rfl⟩ := zoom_eq_ok.mp hload
  refine ⟨rfl, ((quiet_busLoad pa 1 .load).of_ok ht).ram, fun hin => ?_⟩
  rw [busLoad_byte hin] at ht
  cases ht
  exact setWidth_byte _

/-- The first byte of a load. -/
structure FirstByte (csrs : CsrFile) (p : U32) (va : U64) (n i : ℕ) (s w : Hart) (b : U8) :
    Prop where
  cpu : w.cpu = { s.cpu with mmu := w.cpu.mmu }
  len : w.sys.ram.len = s.sys.ram.len
  cached : Cached .load csrs p (va + BitVec.ofNat 64 i) w.cpu.mmu
  byte : InRam w.sys.ram (target csrs p w.cpu.mmu (va + BitVec.ofNat 64 i)) 1 →
    b = w.sys.ram.byteAt (target csrs p w.cpu.mmu (va + BitVec.ofNat 64 i))
  kept : KeepsCached .load csrs p va n s.cpu.mmu w.cpu.mmu
  mem : ∀ off, (off % 8 ≠ 0 ∨ Cached .load csrs p (va + BitVec.ofNat 64 i) s.cpu.mmu) →
    w.sys.ram.mem off = s.sys.ram.mem off

lemma FirstByte.same_csrs {b : U8} (h : FirstByte csrs p va n i s w b) (hcsrs : s.cpu.csrs = csrs) :
    w.cpu.csrs = csrs := by
  rw [h.cpu]
  exact hcsrs

lemma loadEach_cons (hcsrs : s.cpu.csrs = csrs) (hspread : Spread va n) (hi : i < n)
    (h : loadEach va .load p (i :: is) s = .ok bs t) :
    ∃ b bs' w, bs = b :: bs' ∧ loadEach va .load p is w = .ok bs' t ∧
      FirstByte csrs p va n i s w b := by
  obtain ⟨pa, u, htr, h⟩ := bind_eq_ok.mp h
  obtain ⟨b, w, hload, h⟩ := bind_eq_ok.mp h
  obtain ⟨bs', t', hrest, h⟩ := bind_eq_ok.mp h
  cases h
  obtain ⟨hwrites, -⟩ := translateFor_ok htr
  obtain ⟨m, hm, rfl⟩ := translateFor_eq_ok.mp htr
  rw [hcsrs] at hm
  obtain ⟨hcached, hpa⟩ := cached_of_ok hm
  obtain ⟨hcpu, hram, hbyte⟩ := loadByte_ok hload
  have hmmu : w.cpu.mmu = m.mmu := by rw [hcpu]
  refine ⟨_, bs', w, rfl, hrest, ?_, ?_, ?_, ?_, ?_, ?_⟩
  · rw [hcpu]
  · rw [hram]
    exact hwrites.1
  · rwa [hmmu]
  · rw [hmmu, ← hpa, hram]
    exact hbyte
  · rw [hmmu]
    exact fun j hj => cached_near hm (hspread i hi j hj)
  · rintro off (hoff | hthis)
    · have hmem := translate_load_mem s.cpu.hartid csrs (va + BitVec.ofNat 64 i) p s.mmuSys hoff
      rw [final_of_ok hm] at hmem
      rw [hram]
      exact hmem
    · obtain ⟨k, hk⟩ := hthis.translate (s := s.mmuSys) s.cpu.hartid
      rw [hm] at hk
      cases hk
      rw [hram]
      rfl

/-- Pages that can be read stay so, and where they are. -/
lemma loadEach_kept (hcsrs : s.cpu.csrs = csrs) (hspread : Spread va n) (his : ∀ i ∈ is, i < n)
    (h : loadEach va .load p is s = .ok bs t) :
    t.cpu = { s.cpu with mmu := t.cpu.mmu } ∧ t.sys.ram.len = s.sys.ram.len ∧
      KeepsCached .load csrs p va n s.cpu.mmu t.cpu.mmu := by
  induction is generalizing s bs with
  | nil =>
    cases h
    exact ⟨rfl, rfl, refl_of (KeepsCached .load csrs p va n) _⟩
  | cons i is ih =>
    obtain ⟨b, bs', w, rfl, hrest, hfirst⟩ :=
      loadEach_cons hcsrs hspread (his i List.mem_cons_self) h
    have hcsrs' := hfirst.same_csrs hcsrs
    obtain ⟨hcpu, hlen, hkept⟩ := ih hcsrs' (fun j hj => his j (List.mem_cons_of_mem _ hj)) hrest
    exact ⟨by rw [hcpu, hfirst.cpu], hlen.trans hfirst.len,
      trans_of (KeepsCached .load csrs p va n) hfirst.kept hkept⟩

/-- Only the first byte of an entry changes, and none does while all pages can be read. -/
lemma loadEach_mem (hcsrs : s.cpu.csrs = csrs) (hspread : Spread va n) (his : ∀ i ∈ is, i < n)
    (h : loadEach va .load p is s = .ok bs t) {off : ℕ}
    (hoff : off % 8 ≠ 0 ∨ ∀ j ∈ is, Cached .load csrs p (va + BitVec.ofNat 64 j) s.cpu.mmu) :
    t.sys.ram.mem off = s.sys.ram.mem off := by
  induction is generalizing s bs with
  | nil =>
    cases h
    rfl
  | cons i is ih =>
    obtain ⟨b, bs', w, rfl, hrest, hfirst⟩ :=
      loadEach_cons hcsrs hspread (his i List.mem_cons_self) h
    have hcsrs' := hfirst.same_csrs hcsrs
    have his' : ∀ j ∈ is, j < n := fun j hj => his j (List.mem_cons_of_mem _ hj)
    have htail := ih hcsrs' his' hrest
      (hoff.imp id fun hall j hj =>
        (hfirst.kept j (his' j hj) (hall j (List.mem_cons_of_mem _ hj))).1)
    exact htail.trans (hfirst.mem off (hoff.imp id fun hall => hall i List.mem_cons_self))

/-- Bytes of one doubleword are in one page. -/
lemma vpn_of_aligned (halign : (va + BitVec.ofNat 64 i).toNat % 8 = 0) {j : ℕ} (hij : i ≤ j)
    (hj : j < i + 8)
    (hj8 : j < 8) : vpnOf (va + BitVec.ofNat 64 i) = vpnOf (va + BitVec.ofNat 64 j) := by
  rw [BitVec.toNat_add, BitVec.toNat_ofNat] at halign
  apply BitVec.eq_of_toNat_eq
  rw [vpnOf_byte va (by omega), vpnOf_byte va hj8]
  omega

/-- The offset of a byte in its doubleword is not translated. -/
lemma target_mod_eight (csrs : CsrFile) (p : U32) (m : Mmu) (va : U64) :
    (target csrs p m va).toNat % 8 = va.toNat % 8 := by
  have := target_offset csrs p m va
  omega

/-- The bytes of a load are those in RAM after it. -/
lemma loadEach_bytes (hcsrs : s.cpu.csrs = csrs) (hspread : Spread va n) (hn : n ≤ 8)
    (hk : i + k ≤ n) (h : loadEach va .load p (List.range' i k) s = .ok bs t) :
    ∀ j < k, Cached .load csrs p (va + BitVec.ofNat 64 (i + j)) t.cpu.mmu ∧
      (InRam t.sys.ram (target csrs p t.cpu.mmu (va + BitVec.ofNat 64 (i + j))) 1 →
        bs.getD j 0 =
          t.sys.ram.byteAt (target csrs p t.cpu.mmu (va + BitVec.ofNat 64 (i + j)))) := by
  induction k generalizing i s bs with
  | zero => exact fun j hj => absurd hj (Nat.not_lt_zero j)
  | succ k ih =>
    rw [List.range'_succ] at h
    obtain ⟨b, bs', w, rfl, hrest, hfirst⟩ := loadEach_cons hcsrs hspread (by omega : i < n) h
    have hcsrs' := hfirst.same_csrs hcsrs
    have his : ∀ j ∈ List.range' (i + 1) k, j < n := fun j hj => by
      have := List.mem_range'_1.mp hj
      omega
    obtain ⟨-, hlen, hkept⟩ := loadEach_kept hcsrs' hspread his hrest
    intro j hj
    cases j with
    | succ j =>
      have htail := ih hcsrs' (by omega) hrest j (by omega)
      rw [show i + (j + 1) = i + 1 + j by omega, List.getD_cons_succ]
      exact htail
    | zero =>
      obtain ⟨hload, htarget⟩ := hkept i (by omega) hfirst.cached
      rw [Nat.add_zero, htarget, List.getD_cons_zero]
      refine ⟨hload, fun hin => ?_⟩
      rw [hfirst.byte ((inRam_congr hlen).mp hin), Dram.byteAt, Dram.byteAt]
      refine (loadEach_mem hcsrs' hspread his hrest ?_).symm
      -- a byte that a later translation could change is the first of a doubleword
      by_cases halign : (va + BitVec.ofNat 64 i).toNat % 8 = 0
      · right
        intro j hj
        have hbounds := List.mem_range'_1.mp hj
        exact hfirst.cached.same_page (vpn_of_aligned halign (by omega) (by omega) (by omega))
      · left
        rw [← target_mod_eight csrs p w.cpu.mmu] at halign
        rw [BitVec.toNat_sub_of_le hin.1, show dramBase.toNat = 8 * 268435456 from rfl]
        have := BitVec.le_def.mp hin.1
        rw [show dramBase.toNat = 8 * 268435456 from rfl] at this
        omega

end Each

/-! ## The results -/

/-- What a store and a load of the same bytes have to do with each other, and how a load across
pages is made. -/
structure ReadsOwnWrites (s : Hart) (va : U64) (n : ℕ) : Prop where
  /-- A load after a store to RAM returns what was stored. -/
  own : ∀ x t, memStore va n x s = .ok () t →
    (∀ i < n, ∃ pa, t.located (va + BitVec.ofNat 64 i) .store = some pa ∧ InRam s.sys.ram pa 1) →
    ∃ u, memLoad va n .load t = .ok (BitVec.ofNat 64 (x.toNat % 2 ^ (8 * n))) u
  /-- The store changes its bytes, and page-table entries that its translations wrote back. -/
  rest : ∀ x t, memStore va n x s = .ok () t →
    (∀ i < n, ∃ pa, t.located (va + BitVec.ofNat 64 i) .store = some pa ∧ InRam s.sys.ram pa 1) →
    ∃ new, t.sys.log = new ++ s.sys.log ∧ ∀ off, t.sys.ram.mem off ≠ s.sys.ram.mem off →
      (∃ i < n, ∃ pa, t.located (va + BitVec.ofNat 64 i) .store = some pa ∧ off =
        (pa - dramBase).toNat) ∨
        ∃ addr, .pteUpdate s.cpu.hartid addr ∈ new ∧ InWord addr off
  /-- A load across pages puts its bytes together, each translated on its own. -/
  across : crossesPage va n → memLoad va n .load s =
    (loadEach va .load s.cpu.dataPrivilege (List.range n) >>= fun bs =>
      pure (Bytes.join (fun i => bs.getD i 0) n)) s
  /-- The bytes of RAM that it loads. -/
  bytes : crossesPage va n → ∀ v t, memLoad va n .load s = .ok v t → ∀ i < n,
    ∃ pa, t.located (va + BitVec.ofNat 64 i) .load = some pa ∧
      (InRam t.sys.ram pa 1 → Bytes.byte v i = t.sys.ram.byteAt pa)
  /-- Where the bytes are next to each other in RAM, one access to the bus loads the same. -/
  wide : crossesPage va n → ∀ v t pa, memLoad va n .load s = .ok v t →
    (∀ i < n, t.located (va + BitVec.ofNat 64 i) .load = some (pa + BitVec.ofNat 64 i) ∧
      InRam t.sys.ram (pa + BitVec.ofNat 64 i) 1) →
    Bus.load pa n .load t.sys = .ok v t.sys

section Results

variable {s t : Hart} {va : U64} {n : ℕ} {x v : U64}

/-- Whatever the store did, it left its pages cached. -/
lemma memStore_cached (hn : 0 < n ∧ n ≤ 8) (h : memStore va n x s = .ok () t) :
    (∀ i < n, Cached .store t.cpu.csrs t.cpu.dataPrivilege (va + BitVec.ofNat 64 i) t.cpu.mmu) ∧
      ((∀ i < n, InRam s.sys.ram (t.place (va + BitVec.ofNat 64 i)) 1) → Stored va n x s t) := by
  by_cases hcross : crossesPage va n
  · exact stored_across hn hcross h
  · exact stored_inside hn hcross h

lemma memStore_stored (hn : 0 < n ∧ n ≤ 8) (h : memStore va n x s = .ok () t)
    (hin : ∀ i < n, ∃ pa, t.located (va + BitVec.ofNat 64 i) .store = some pa ∧
      InRam s.sys.ram pa 1) :
    Stored va n x s t ∧ (∀ i < n, InRam t.sys.ram (t.place (va + BitVec.ofNat 64 i)) 1) ∧
      ∀ i < n, t.located (va + BitVec.ofNat 64 i) .store =
        some (t.place (va + BitVec.ofNat 64 i)) := by
  obtain ⟨hcached, hstored⟩ := memStore_cached hn h
  have hlocated := fun i hi => located_of_cached (hcached i hi)
  have hplace : ∀ i < n, InRam s.sys.ram (t.place (va + BitVec.ofNat 64 i)) 1 := by
    intro i hi
    obtain ⟨pa, hpa, hram⟩ := hin i hi
    rw [hlocated i hi, Option.some.injEq] at hpa
    rwa [hpa]
  have hst := hstored hplace
  exact ⟨hst, fun i hi => (inRam_congr hst.len).mpr (hplace i hi), hlocated⟩

lemma memLoad_after_store (hslots : EverySlot SlotLeaf s.cpu.mmu) (hn : 0 < n ∧ n ≤ 8)
    (h : memStore va n x s = .ok () t)
    (hin : ∀ i < n, ∃ pa, t.located (va + BitVec.ofNat 64 i) .store = some pa ∧
      InRam s.sys.ram pa 1) :
    ∃ u, memLoad va n .load t = .ok (BitVec.ofNat 64 (x.toNat % 2 ^ (8 * n))) u := by
  obtain ⟨hst, hram, -⟩ := memStore_stored hn h hin
  have hslots' : EverySlot SlotLeaf t.cpu.mmu :=
    (slotRule_leaf.memKeeps.memStore va n x).of_ok h hslots
  obtain ⟨u, hu⟩ :=
    memLoad_of_cached hn (fun i hi => ((memStore_cached hn h).1 i hi).load hslots') hram
  rw [Bytes.join_congr fun i hi => hst.bytes i hi, Bytes.join_byte hn.2] at hu
  exact ⟨u, hu⟩

lemma memStore_rest (hn : 0 < n ∧ n ≤ 8) (h : memStore va n x s = .ok () t)
    (hin : ∀ i < n, ∃ pa, t.located (va + BitVec.ofNat 64 i) .store = some pa ∧
      InRam s.sys.ram pa 1) :
    ∃ new, t.sys.log = new ++ s.sys.log ∧ ∀ off, t.sys.ram.mem off ≠ s.sys.ram.mem off →
      (∃ i < n, ∃ pa, t.located (va + BitVec.ofNat 64 i) .store = some pa ∧ off =
        (pa - dramBase).toNat) ∨
        ∃ addr, .pteUpdate s.cpu.hartid addr ∈ new ∧ InWord addr off := by
  obtain ⟨hst, -, hlocated⟩ := memStore_stored hn h hin
  obtain ⟨u, ⟨-, new, hlog, hpte⟩, ⟨newer, hnewer⟩, hrest⟩ := hst.rest
  refine ⟨newer ++ new, by rw [← hnewer, hlog, List.append_assoc], fun off hne => ?_⟩
  by_cases hbyte : ∃ i < n, off = (t.place (va + BitVec.ofNat 64 i) - dramBase).toNat
  · obtain ⟨i, hi, hoff⟩ := hbyte
    exact .inl ⟨i, hi, _, hlocated i hi, hoff⟩
  · rw [hrest off fun i hi hoff => hbyte ⟨i, hi, hoff⟩] at hne
    obtain ⟨addr, haddr, hword⟩ := hpte off hne
    exact .inr ⟨addr, List.mem_append_right _ haddr, hword⟩

lemma memLoad_bytes (hn : 0 < n ∧ n ≤ 8) (hcross : crossesPage va n)
    (h : memLoad va n .load s = .ok v t) :
    ∀ i < n, t.located (va + BitVec.ofNat 64 i) .load = some (t.place (va + BitVec.ofNat 64 i)) ∧
      (InRam t.sys.ram (t.place (va + BitVec.ofNat 64 i)) 1 →
        Bytes.byte v i = t.sys.ram.byteAt (t.place (va + BitVec.ofNat 64 i))) := by
  rw [memLoad_across hcross] at h
  obtain ⟨bs, u, heach, hjoin⟩ := bind_eq_ok.mp h
  cases hjoin
  have hspread : Spread va n := spread_of_le va hn.2
  obtain ⟨hcpu, -, -⟩ := loadEach_kept rfl hspread (fun i hi => List.mem_range.mp hi) heach
  rw [List.range_eq_range'] at heach
  have hbytes := loadEach_bytes (i := 0) rfl hspread hn.2 (Nat.le_of_eq (Nat.zero_add n)) heach
  have hplace : ∀ a, t.place a = target s.cpu.csrs s.cpu.dataPrivilege t.cpu.mmu a := by
    intro a
    rw [Hart.place, hcpu]
    rfl
  intro i hi
  obtain ⟨hload, hbyte⟩ := hbytes i hi
  rw [Nat.zero_add] at hload hbyte
  refine ⟨located_of_cached ?_, fun hin => ?_⟩
  · rw [hcpu]
    exact hload
  · rw [hplace] at hin ⊢
    rw [Bytes.byte_join hn.2 hi]
    exact hbyte hin

lemma memLoad_wide {pa : U64} (hn : 0 < n ∧ n ≤ 8) (hcross : crossesPage va n)
    (h : memLoad va n .load s = .ok v t)
    (hpa : ∀ i < n, t.located (va + BitVec.ofNat 64 i) .load = some (pa + BitVec.ofNat 64 i) ∧
      InRam t.sys.ram (pa + BitVec.ofNat 64 i) 1) :
    Bus.load pa n .load t.sys = .ok v t.sys := by
  have hin : ∀ i < n, InRam t.sys.ram (pa + BitVec.ofNat 64 i) 1 := fun i hi => (hpa i hi).2
  rw [busLoad_ram (inRam_of_bytes hn hin), Nat.min_eq_left hn.2, Bytes.load_eq_join hn.2]
  have hbytes := memLoad_bytes hn hcross h
  rw [memLoad_across hcross] at h
  obtain ⟨bs, u, -, hjoin⟩ := bind_eq_ok.mp h
  cases hjoin
  congr 1
  refine Bytes.join_congr fun i hi => ?_
  obtain ⟨hlocated, hbyte⟩ := hbytes i hi
  rw [(hpa i hi).1, Option.some.injEq] at hlocated
  rw [← hlocated] at hbyte
  have hthis := hbyte (hin i hi)
  rw [Bytes.byte_join hn.2 hi, Dram.byteAt, offset_add hn.2 hin hi] at hthis
  exact hthis.symm

end Results

/-- Accesses of up to eight bytes, of a hart whose TLB holds what its MMU put there. -/
lemma readsOwnWrites_of_le {s : Hart} (hslots : EverySlot SlotLeaf s.cpu.mmu) (va : U64) {n : ℕ}
    (hn : 0 < n ∧ n ≤ 8) : ReadsOwnWrites s va n where
  own _ _ h hin := memLoad_after_store hslots hn h hin
  rest _ _ h hin := memStore_rest hn h hin
  across hcross := memLoad_across hcross .load s
  bytes hcross _ _ h i hi := ⟨_, memLoad_bytes hn hcross h i hi⟩
  wide hcross _ _ _ h hpa := memLoad_wide hn hcross h hpa

/-- A hart reads its own writes, as long as its TLB holds what its MMU put there. -/
theorem reads_own_writes {s : Hart} (hslots : EverySlot SlotLeaf s.cpu.mmu) (va : U64) {n : ℕ}
    (hn : n ∈ [1, 2, 4, 8]) : ReadsOwnWrites s va n := by
  have hsize : 0 < n ∧ n ≤ 8 := by
    simp only [List.mem_cons, List.not_mem_nil, or_false] at hn
    omega
  exact readsOwnWrites_of_le hslots va hsize

/-- So does every hart of a machine that ran from reset. -/
theorem readsOwnWrites_reachable {cfg : Config} {m : Machine} (hm : Reachable cfg m) (i : ℕ)
    (va : U64) {n : ℕ} (hn : 0 < n ∧ n ≤ 8) : ReadsOwnWrites (m.hart i) va n :=
  readsOwnWrites_of_le (slotRule_leaf.reachable hm i) va hn

/-- A supervisor whose gigapage covers the page table itself. -/
def selfMapped : Hart :=
  { cpu := { ((tableRun gigapageEntry).hart 0).cpu with csrs := tableCsrs, priv := .supervisor }
    sys := (tableRun gigapageEntry).sys }

/-- It stores across a page into the entry that maps both pages, and reads that back. -/
theorem reads_own_writes_tables :
    let t := final (memStore 0xffc 8 0x1122334455667788) selfMapped
    Bytes.load t.sys.ram.mem 0x1000 4 = 0x11223344 ∧ ∃ u, memLoad 0xffc 8 .load t =
      .ok 0x1122334455667788 u := by
  have hok : failure (memStore 0xffc 8 0x1122334455667788) selfMapped = none := by decide +kernel
  obtain ⟨⟨⟩, hstore⟩ := failure_eq_none.mp hok
  have hplaces : ∀ i : Fin 8,
      (final (memStore 0xffc 8 0x1122334455667788) selfMapped).located
      (0xffc + BitVec.ofNat 64 i) .store =
        some (0x80000ffc + BitVec.ofNat 64 i) ∧
          InRam selfMapped.sys.ram (0x80000ffc + BitVec.ofNat 64 i) 1 := by
    decide +kernel
  have hread :=
    (reads_own_writes (s := selfMapped) (fun _ => .inl rfl) 0xffc
      (by decide : 8 ∈ [1, 2, 4, 8])).own
    0x1122334455667788 _ hstore fun i hi => ⟨_, hplaces ⟨i, hi⟩⟩
  exact ⟨by decide +kernel, hread⟩

end RiscvEmu
