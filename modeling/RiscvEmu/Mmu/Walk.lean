import RiscvEmu.MmuEffects

/-!
# Page tables as a map

A doubleword load changes nothing but the count of device accesses, so a walk is a function of
what such loads find.  Entries that differ in the accessed and the dirty bit only are walked alike.
-/

namespace RiscvEmu

open Exec BitField

/-! ## What a doubleword load finds -/

/-- The doubleword at an address, if the bus has one there. -/
def Sys.entryAt (t : Sys) (addr : U64) : Option U64 := (outcome (Bus.load addr 8 .load) t).toOption

/-- The shared state with another count of device accesses. -/
def Sys.withEpoch (t : Sys) (n : ℕ) : Sys := { t with mmioEpoch := n }

/-- No device has a register whose doubleword load has an effect. -/
lemma deviceLoad_eight (id : DevId) (offset : ℕ) (t : Sys) :
    final (deviceLoad id offset 8) t = t := by
  cases id with
  | blk | net | rng =>
    unfold deviceLoad
    rw [final_zoom, final_slotLoad]
    rfl
  | clint =>
    have hclint : final (Clint.load offset 8) t.clint = t.clint := by
      unfold final Clint.load
      dsimp only
      split_ifs <;> rfl
    unfold deviceLoad
    rw [final_zoom, hclint]
  | uart | plic | syscon | rtc => rfl

lemma deviceLoad_withEpoch (id : DevId) (offset size n : ℕ) (t : Sys) :
    outcome (deviceLoad id offset size) (t.withEpoch n) =
      outcome (deviceLoad id offset size) t := by
  cases id <;> (unfold deviceLoad; rw [outcome_zoom, outcome_zoom]; rfl)

/-- Doubleword loads see the interruptor, and otherwise what no store changes. -/
lemma deviceLoad_eight_congr {id : DevId} {off : ℕ} {t t' : Sys} (hid : id ≠ .clint)
    (hblk : t'.blk = t.blk) (hnet : t'.net = t.net) (hrng : t'.rng = t.rng) :
    outcome (deviceLoad id off 8) t' = outcome (deviceLoad id off 8) t := by
  have hslot : ∀ {D : Type} [Virtio.VirtioDevice D] (unit : Sys → VirtioMmio D), unit t' = unit t →
      outcome (Virtio.Slot.load off 8) (virtioSlot unit t') =
        outcome (Virtio.Slot.load off 8) (virtioSlot unit t) := by
    intro D _ unit hunit
    unfold outcome Virtio.Slot.load virtioSlot
    dsimp only
    rw [hunit]
    split_ifs <;> rfl
  cases id with
  | clint => exact absurd rfl hid
  | blk =>
    unfold deviceLoad
    rw [outcome_zoom, outcome_zoom]
    exact hslot Sys.blk hblk
  | net =>
    unfold deviceLoad
    rw [outcome_zoom, outcome_zoom]
    exact hslot Sys.net hnet
  | rng =>
    unfold deviceLoad
    rw [outcome_zoom, outcome_zoom]
    exact hslot Sys.rng hrng
  | uart | plic | syscon | rtc => rfl

/-- The deadline at an offset of the interruptor. -/
def IsDeadline (off : ℕ) : Prop :=
  Clint.mtimecmpOffset ≤ off ∧ off < Clint.mtimecmpOffset + 8 * maxHarts ∧
    (off - Clint.mtimecmpOffset) % 8 = 0

instance (off : ℕ) : Decidable (IsDeadline off) := by
  unfold IsDeadline
  infer_instance

/-- The doublewords of the interruptor: the deadlines and the time. -/
lemma clint_load_eight (c : Clint) (off : ℕ) : (outcome (Clint.load off 8) c).toOption =
    if IsDeadline off then
      some (if (off - Clint.mtimecmpOffset) / 8 < c.harts then c.mtimecmp
        ((off - Clint.mtimecmpOffset) / 8) else ~~~0)
    else if off = Clint.mtimeOffset then some c.clock.now else none := by
  unfold outcome Clint.load IsDeadline
  by_cases hrange : Clint.mtimecmpOffset ≤ off ∧ off < Clint.mtimecmpOffset + 8 * maxHarts
  · have hne : off ≠ Clint.mtimeOffset := by
      have : Clint.mtimecmpOffset + 8 * maxHarts ≤ Clint.mtimeOffset := by decide
      omega
    by_cases hword : (off - Clint.mtimecmpOffset) % 8 = 0
    · simp [hrange.1, hrange.2, hword, Except.toOption]
    · simp [hrange.1, hrange.2, hword, hne, Except.toOption]
  · have hdead : ¬(Clint.mtimecmpOffset ≤ off ∧ off < Clint.mtimecmpOffset + 8 * maxHarts ∧
        (off - Clint.mtimecmpOffset) % 8 = 0) := fun h => hrange ⟨h.1, h.2.1⟩
    by_cases htime : off = Clint.mtimeOffset
    · subst htime
      simp [hrange, hdead, Except.toOption]
    · simp [hrange, hdead, htime, Except.toOption]

/-- Writing a deadline leaves the time as it was. -/
lemma clint_store_eight (c : Clint) {off : ℕ} (v : U64) (h : IsDeadline off) :
    final (Clint.store off 8 v) c =
      if (off - Clint.mtimecmpOffset) / 8 < c.harts then
        { c with mtimecmp := Function.update c.mtimecmp ((off - Clint.mtimecmpOffset) / 8) v }
      else c := by
  obtain ⟨hlow, hhigh, hword⟩ := h
  unfold final Clint.store
  by_cases hk : (off - Clint.mtimecmpOffset) / 8 < c.harts
  · simp [hlow, hhigh, hword, hk]
  · simp [hlow, hhigh, hword, hk]

lemma deviceLoad_clint (off size : ℕ) (t : Sys) :
    outcome (deviceLoad .clint off size) t = outcome (Clint.load off size) t.clint := by
  unfold deviceLoad
  exact outcome_zoom ..

lemma loadDevice_of_find {t : Sys} {addr base : U64} {id : DevId}
    (h : t.find addr = some (base, id)) (size : ℕ) :
    (outcome (loadDevice addr size .load) t).toOption =
        (outcome (deviceLoad id (addr - base).toNat size) t).toOption ∧
      final (loadDevice addr size .load) t =
        final (deviceLoad id (addr - base).toNat size) (t.withEpoch (t.mmioEpoch + 1)) := by
  rw [← deviceLoad_withEpoch id _ _ (t.mmioEpoch + 1) t]
  unfold outcome final loadDevice
  rw [h]
  dsimp only [Sys.withEpoch]
  cases deviceLoad id (addr - base).toNat size { t with mmioEpoch := t.mmioEpoch + 1 } <;>
    exact ⟨rfl, rfl⟩

lemma busLoad_eight (addr : U64) (t : Sys) :
    ∃ n, final (Bus.load addr 8 .load) t = t.withEpoch n := by
  rcases busLoad_cases addr 8 .load t with ⟨-, h⟩ | ⟨-, -, h⟩ | ⟨-, -, h⟩
  · exact ⟨t.mmioEpoch, final_of_ok h⟩
  · exact ⟨t.mmioEpoch, final_of_error h⟩
  · rw [final, h]
    cases hfind : t.find addr with
    | none =>
      refine ⟨t.mmioEpoch, ?_⟩
      simp only [loadDevice, hfind]
      rfl
    | some r =>
      have hfinal := (loadDevice_of_find hfind 8).2
      rw [deviceLoad_eight] at hfinal
      exact ⟨_, hfinal⟩

/-- What a load finds depends on RAM and on what the devices answer. -/
lemma entryAt_congr {β : Type} (f : U64 → β) {t t' : Sys} {addr : U64}
    (hranges : t'.ranges = t.ranges) (hlen : t'.ram.len = t.ram.len) (hram : InRam t.ram addr 8 →
      f (Bytes.load t'.ram.mem (addr - dramBase).toNat 8) =
        f (Bytes.load t.ram.mem (addr - dramBase).toNat 8))
    (hdev : ∀ base id, t.find addr = some (base, id) →
      (outcome (deviceLoad id (addr - base).toNat 8) t').toOption.map f =
        (outcome (deviceLoad id (addr - base).toNat 8) t).toOption.map f) :
    (t'.entryAt addr).map f = (t.entryAt addr).map f := by
  have hin : InRam t'.ram addr 8 ↔ InRam t.ram addr 8 := inRam_congr hlen
  unfold Sys.entryAt
  rcases busLoad_cases addr 8 .load t with ⟨hi, h⟩ | ⟨hi, hb, h⟩ | ⟨hi, hb, h⟩
  · rw [outcome_of_ok h, outcome_of_ok (busLoad_ram (hin.mpr hi))]
    exact congrArg some (hram hi)
  · rcases busLoad_cases addr 8 .load t' with ⟨hi', -⟩ | ⟨-, -, h'⟩ | ⟨-, hb', -⟩
    · exact absurd (hin.mp hi') hi
    · rw [outcome_of_error h, outcome_of_error h']
    · exact absurd (hlen ▸ hb) hb'
  · rcases busLoad_cases addr 8 .load t' with ⟨hi', -⟩ | ⟨-, hb', -⟩ | ⟨-, -, h'⟩
    · exact absurd (hin.mp hi') hi
    · exact absurd (hlen ▸ hb') hb
    · rw [outcome, outcome, h, h']
      change (outcome (loadDevice addr 8 .load) t').toOption.map f =
        (outcome (loadDevice addr 8 .load) t).toOption.map f
      have hfind' : t'.find addr = t.find addr := by unfold Sys.find; rw [hranges]
      cases hfind : t.find addr with
      | none =>
        rw [hfind] at hfind'
        simp only [outcome, loadDevice, hfind, hfind']
      | some r =>
        obtain ⟨base, id⟩ := r
        rw [(loadDevice_of_find hfind 8).1, (loadDevice_of_find (hfind'.trans hfind) 8).1,
          hdev base id hfind]

lemma entryAt_eq {t t' : Sys} {addr : U64} (hranges : t'.ranges = t.ranges)
    (hlen : t'.ram.len = t.ram.len)
    (hram : InRam t.ram addr 8 →
      Bytes.load t'.ram.mem (addr - dramBase).toNat 8 =
        Bytes.load t.ram.mem (addr - dramBase).toNat 8)
    (hdev : ∀ id offset, outcome (deviceLoad id offset 8) t' = outcome (deviceLoad id offset 8) t) :
    t'.entryAt addr = t.entryAt addr := by
  have h := entryAt_congr id hranges hlen hram fun base id _ => by rw [hdev]
  simpa using h

lemma entryAt_withEpoch (t : Sys) (n : ℕ) : (t.withEpoch n).entryAt = t.entryAt :=
  funext fun _ => entryAt_eq rfl rfl (fun _ => rfl) fun id offset =>
    deviceLoad_withEpoch id offset 8 n t

/-- Devices answer the same after a change they do not take part in. -/
lemma deviceLoad_eight_same {t t' : Sys} (hclint : t'.clint = t.clint) (hblk : t'.blk = t.blk)
    (hnet : t'.net = t.net) (hrng : t'.rng = t.rng) (id : DevId) (offset : ℕ) :
    outcome (deviceLoad id offset 8) t' = outcome (deviceLoad id offset 8) t := by
  by_cases hid : id = .clint
  · rw [hid, deviceLoad_clint, deviceLoad_clint, hclint]
  · exact deviceLoad_eight_congr hid hblk hnet hrng

lemma entryAt_emit (t : Sys) (e : Event) : (t.emit e).entryAt = t.entryAt :=
  funext fun _ => entryAt_eq rfl rfl (fun _ => rfl) (deviceLoad_eight_same rfl rfl rfl rfl)

lemma entryAt_ram {t : Sys} {addr : U64} (h : InRam t.ram addr 8) :
    t.entryAt addr = some (Bytes.load t.ram.mem (addr - dramBase).toNat 8) := by
  rw [Sys.entryAt, outcome_of_ok (busLoad_ram h)]
  rfl

/-! ## Kinds of entries -/

/-- The accessed and the dirty bit. -/
def Pte.AD : U64 := Pte.A ||| Pte.D

/-- The same up to the accessed and the dirty bit. -/
def AdEq (x y : U64) : Prop := x ||| Pte.AD = y ||| Pte.AD

lemma AdEq.trans {x y z : U64} (h : AdEq x y) (g : AdEq y z) : AdEq x z := Eq.trans h g

/-- Such entries agree on every other field. -/
lemma AdEq.and {x y k : U64} (h : AdEq x y) (hk : Pte.AD &&& k = 0) : x &&& k = y &&& k := by
  rw [← or_and_of_disjoint hk, h, or_and_of_disjoint hk]

lemma AdEq.shiftRight {x y : U64} (h : AdEq x y) : x >>> Pte.ppnShift = y >>> Pte.ppnShift := by
  have hor (z : U64) : (z ||| Pte.AD) >>> Pte.ppnShift = z >>> Pte.ppnShift := by
    rw [BitVec.ushiftRight_or_distrib, show Pte.AD >>> Pte.ppnShift =
      0#64 by decide, BitVec.or_zero]
  rw [← hor x, h, hor y]

lemma adEq_or {bits : U64} (h : bits ||| Pte.AD = Pte.AD) (x : U64) : AdEq (x ||| bits) x := by
  rw [AdEq, BitVec.or_assoc, h]

/-- What a walk makes of an entry. -/
inductive PteKind where
  | bad
  | leaf
  | table (base : U64)
deriving DecidableEq

/-- What a walk takes an entry for. -/
def pteKind (entry : U64) : PteKind :=
  if entry &&& Pte.V = 0 then .bad
  else if entry &&& Pte.W ≠ 0 ∧ entry &&& Pte.R = 0 then .bad
  else if entry &&& (Pte.R ||| Pte.X) ≠ 0 then .leaf
  else .table ((entry >>> Pte.ppnShift) <<< pageShift)

lemma AdEq.pteKind {x y : U64} (h : AdEq x y) : pteKind x = pteKind y := by
  unfold RiscvEmu.pteKind
  rw [h.and (k := Pte.V) (by decide), h.and (k := Pte.W) (by decide),
    h.and (k := Pte.R) (by decide), h.and (k := Pte.R ||| Pte.X) (by decide), h.shiftRight]

/-- Neither bit matters to the permission check. -/
lemma AdEq.permitted {x y : U64} (h : AdEq x y) (ty : AccessType) (p : U32) (csrs : CsrFile) :
    permitted x ty p csrs = permitted y ty p csrs := by
  unfold RiscvEmu.permitted
  rw [h.and (k := Pte.U) (by decide), h.and (k := Pte.W) (by decide),
    h.and (k := Pte.R) (by decide), h.and (k := Pte.X) (by decide)]

/-! ## Walks over a map -/

/-- The walk, on a map from addresses to entries. -/
def walkOn (mem : U64 → Option U64) (va : U64) : ℕ → U64 → Option Leaf
  | 0, _ => none
  | level + 1, table =>
    let addr := pteSlot va level table
    match mem addr with
    | none => none
    | some entry =>
      match pteKind entry with
      | .bad => none
      | .leaf => some ⟨level, entry, addr⟩
      | .table base => walkOn mem va level base

/-- The addresses it looks at. -/
def walkReads (mem : U64 → Option U64) (va : U64) : ℕ → U64 → List U64
  | 0, _ => []
  | level + 1, table =>
    let addr := pteSlot va level table
    addr :: match (mem addr).map pteKind with
      | some (.table base) => walkReads mem va level base
      | _ => []

/-- The walk of the source is a walk over what loads find. -/
lemma walk_eq_walkOn (va : U64) (n : ℕ) (table : U64) (t : Sys) :
    ∃ k, walk va n table t = .ok (walkOn t.entryAt va n table) (t.withEpoch k) := by
  induction n generalizing table t with
  | zero => exact ⟨t.mmioEpoch, rfl⟩
  | succ n ih =>
    obtain ⟨k, hk⟩ := busLoad_eight (pteSlot va n table) t
    unfold walk walkOn
    cases hload : Bus.load (pteSlot va n table) 8 .load t with
    | error e t' =>
      have hentry : t.entryAt (pteSlot va n table) = none := by
        rw [Sys.entryAt, outcome_of_error hload]
        rfl
      rw [final_of_error hload] at hk
      rw [bind_of_ok (attempt_of_error hload)]
      simp only [hentry]
      exact ⟨k, by rw [hk]; rfl⟩
    | ok entry t' =>
      have hentry : t.entryAt (pteSlot va n table) = some entry := by
        rw [Sys.entryAt, outcome_of_ok hload]
        rfl
      rw [final_of_ok hload] at hk
      rw [bind_of_ok (attempt_of_ok hload)]
      simp only [hentry, pteKind]
      rw [hk]
      split_ifs
      · exact ⟨k, rfl⟩
      · exact ⟨k, rfl⟩
      · exact ⟨k, rfl⟩
      · obtain ⟨k', hk'⟩ := ih ((entry >>> Pte.ppnShift) <<< pageShift) (t.withEpoch k)
        rw [entryAt_withEpoch] at hk'
        exact ⟨k', hk'⟩

lemma pageOffset_toNat (va : U64) : (pageOffset va).toNat = va.toNat % 4096 := by
  rw [pageOffset, BitVec.toNat_and]
  exact Nat.and_two_pow_sub_one_eq_mod va.toNat 12

/-- The root table of an address space. -/
def CsrFile.root (csrs : CsrFile) : U64 := csrs.satpPpn <<< pageShift

/-- The leaf of a page in an address space. -/
def Sys.leafOf (t : Sys) (csrs : CsrFile) (va : U64) : Option Leaf :=
  walkOn t.entryAt va sv39Levels csrs.root

lemma walkFrom_eq (csrs : CsrFile) (va : U64) (t : Sys) :
    ∃ k, walkFrom csrs va t = (t.leafOf csrs va, t.withEpoch k) := by
  obtain ⟨k, hk⟩ := walk_eq_walkOn va sv39Levels csrs.root t
  have heq := walk_eq csrs va t
  rw [show csrs.satpPpn <<< pageShift = csrs.root from rfl, hk] at heq
  injection heq with h₁ h₂
  exact ⟨k, Prod.ext h₁.symm h₂.symm⟩

section WalkOn

variable {mem mem' : U64 → Option U64} {va table : U64} {n : ℕ} {leaf : Leaf}

/-- A walk that finds a leaf finds it in the table it looks at, or in one below. -/
lemma walkOn_cases (h : walkOn mem va (n + 1) table = some leaf) :
    ∃ entry, mem (pteSlot va n table) = some entry ∧
      (pteKind entry = .leaf ∧ leaf = ⟨n, entry, pteSlot va n table⟩ ∨
        ∃ base, pteKind entry = .table base ∧ walkOn mem va n base = some leaf) := by
  unfold walkOn at h
  dsimp only at h
  cases hmem : mem (pteSlot va n table) with
  | none =>
    rw [hmem] at h
    cases h
  | some entry =>
    rw [hmem] at h
    dsimp only at h
    refine ⟨entry, rfl, ?_⟩
    cases hkind : pteKind entry with
    | bad =>
      rw [hkind] at h
      cases h
    | leaf =>
      rw [hkind] at h
      cases h
      exact .inl ⟨rfl, rfl⟩
    | table base =>
      rw [hkind] at h
      exact .inr ⟨base, rfl, h⟩

/-- A walk ends at an entry that is there, and is a leaf. -/
lemma walkOn_entry (h : walkOn mem va n table = some leaf) :
    mem leaf.pteAddr = some leaf.entry ∧ pteKind leaf.entry = .leaf := by
  induction n generalizing table with
  | zero => cases h
  | succ n ih =>
    obtain ⟨entry, hmem, ⟨hkind, rfl⟩ | ⟨base, -, hrest⟩⟩ := walkOn_cases h
    · exact ⟨hmem, hkind⟩
    · exact ih hrest

/-- The reads of a walk that goes on to another table. -/
lemma walkReads_table {e base : U64} (hmem : mem (pteSlot va n table) = some e)
    (hkind : pteKind e = .table base) :
    walkReads mem va (n + 1) table = pteSlot va n table :: walkReads mem va n base := by
  rw [walkReads]
  simp only [hmem, Option.map_some, hkind]

/-- The reads of a walk that ends at its first entry. -/
lemma walkReads_end (h : ∀ e base, mem (pteSlot va n table) = some e → pteKind e ≠ .table base) :
    walkReads mem va (n + 1) table = [pteSlot va n table] := by
  rw [walkReads]
  cases hmem : mem (pteSlot va n table) with
  | none => rfl
  | some e =>
    simp only [Option.map_some]
    cases hkind : pteKind e with
    | table base => exact absurd hkind (h e base hmem)
    | bad | leaf => rfl

lemma pteKind_table {e base : U64} (h : pteKind e = .table base) :
    base = (e >>> Pte.ppnShift) <<< pageShift := by
  unfold pteKind at h
  split_ifs at h
  exact (PteKind.table.inj h).symm

/-- A walk goes on, or ends at its first entry. -/
lemma walk_cases (mem : U64 → Option U64) (va : U64) (n : ℕ) (table : U64) :
    (∃ e base, mem (pteSlot va n table) = some e ∧ pteKind e = .table base) ∨
      ∀ e base, mem (pteSlot va n table) = some e → pteKind e ≠ .table base := by
  by_cases h : ∃ e base, mem (pteSlot va n table) = some e ∧ pteKind e = .table base
  · exact .inl h
  · exact .inr fun e base hmem hkind => h ⟨e, base, hmem, hkind⟩

/-- Tables begin at page boundaries. -/
def IsTable (table : U64) : Prop := table.toNat % 4096 = 0

lemma isTable_shiftLeft (x : U64) : IsTable (x <<< pageShift) := by
  rw [IsTable, BitVec.toNat_shiftLeft, Nat.shiftLeft_eq, pageShift]
  omega

lemma pteSlot_aligned (va : U64) (level : ℕ) (h : IsTable table) :
    (pteSlot va level table).toNat % 8 = 0 := by
  rw [IsTable] at h
  rw [pteSlot, BitVec.toNat_add, BitVec.toNat_mul, show (8 : U64).toNat = 8 from rfl]
  omega

lemma walkReads_aligned (ht : IsTable table) {addr : U64} (h : addr ∈ walkReads mem va n table) :
    addr.toNat % 8 = 0 := by
  induction n generalizing table with
  | zero => cases h
  | succ n ih =>
    rcases walk_cases mem va n table with ⟨e, base, hmem, hkind⟩ | hend
    · rw [walkReads_table hmem hkind] at h
      rcases List.mem_cons.mp h with rfl | h
      · exact pteSlot_aligned va n ht
      · exact ih (pteKind_table hkind ▸ isTable_shiftLeft _) h
    · rw [walkReads_end hend, List.mem_singleton] at h
      exact h ▸ pteSlot_aligned va n ht

lemma mem_walkReads (h : walkOn mem va n table = some leaf) :
    leaf.pteAddr ∈ walkReads mem va n table := by
  induction n generalizing table with
  | zero => cases h
  | succ n ih =>
    obtain ⟨entry, hmem, ⟨-, rfl⟩ | ⟨base, hkind, hrest⟩⟩ := walkOn_cases h
    · exact List.mem_cons_self
    · rw [walkReads_table hmem hkind]
      exact List.mem_cons_of_mem _ (ih hrest)

lemma walkOn_aligned (ht : IsTable table) (h : walkOn mem va n table = some leaf) :
    leaf.pteAddr.toNat % 8 = 0 := walkReads_aligned ht (mem_walkReads h)

/-- Leaves in the same place, the same up to the two bits. -/
def Leaf.Alike (l l' : Leaf) : Prop :=
  l'.level = l.level ∧ l'.pteAddr = l.pteAddr ∧ AdEq l.entry l'.entry

/-- Maps that agree, up to the two bits, on what a walk looks at are walked alike. -/
lemma walkOn_congr
    (hmem : ∀ X ∈ walkReads mem va n table, (mem' X).map (· ||| Pte.AD) =
      (mem X).map (· ||| Pte.AD)) :
    Option.Rel Leaf.Alike (walkOn mem va n table) (walkOn mem' va n table) := by
  induction n generalizing table with
  | zero => exact .none
  | succ n ih =>
    have hhead := hmem (pteSlot va n table) List.mem_cons_self
    unfold walkOn
    dsimp only
    cases hx : mem (pteSlot va n table) with
    | none =>
      rw [hx, Option.map_none, Option.map_eq_none_iff] at hhead
      rw [hhead]
      exact .none
    | some x =>
      rw [hx, Option.map_some] at hhead
      obtain ⟨y, hy, hxy⟩ := Option.map_eq_some_iff.mp hhead
      have hkind : pteKind x = pteKind y := AdEq.pteKind hxy.symm
      rw [hy]
      dsimp only
      rw [← hkind]
      cases hk : pteKind x with
      | bad => exact .none
      | leaf => exact .some ⟨rfl, rfl, hxy.symm⟩
      | table base =>
        refine ih fun X hX => hmem X ?_
        rw [walkReads_table hx hk]
        exact List.mem_cons_of_mem _ hX

end WalkOn

/-! ## The cases of a translation -/

/-- The shared state of a translation with another count of device accesses. -/
def MmuSys.withEpoch (s : MmuSys) (n : ℕ) : MmuSys := { s with sys := s.sys.withEpoch n }

/-- A leaf that lets an access through. -/
def Leaf.grants (leaf : Leaf) (csrs : CsrFile) (ty : AccessType) (p : U32) : Prop :=
  permitted leaf.entry ty p csrs ∧ !leaf.misaligned

/-- What a translation hands to its caller, and what it leaves. -/
inductive Translated (hart : ℕ) (csrs : CsrFile) (va : U64) (ty : AccessType) (p : U32)
    (s : MmuSys) :
    Except Trap U64 → MmuSys → Prop
  | bare (h : ¬Paged csrs p) : Translated hart csrs va ty p s (.ok va) s
  | noncanonical (h : Paged csrs p) (hc : ¬canonical va) :
      Translated hart csrs va ty p s (.error ⟨pageFaultFor ty, va⟩) s
  | hitRefused (h : Paged csrs p) (hc : canonical va) (ht : Hit csrs va s.mmu)
      (hp : ¬permitted (s.mmu.tlb (tlbIndex va)).perms ty p csrs) :
      Translated hart csrs va ty p s (.error ⟨pageFaultFor ty, va⟩) s
  | hitClean (h : Paged csrs p) (hc : canonical va) (ht : Hit csrs va s.mmu)
      (hp : permitted (s.mmu.tlb (tlbIndex va)).perms ty p csrs)
      (hd : ¬(ty = .store ∧ (s.mmu.tlb (tlbIndex va)).perms &&& Pte.D = 0)) :
      Translated hart csrs va ty p s (.ok (physAddr (s.mmu.tlb (tlbIndex va)).ppn va)) s.countHit
  | hitDirty (h : Paged csrs p) (hc : canonical va) (ht : Hit csrs va s.mmu)
      (hp : permitted (s.mmu.tlb (tlbIndex va)).perms ty p csrs)
      (hd : ty = .store ∧ (s.mmu.tlb (tlbIndex va)).perms &&& Pte.D = 0) :
      Translated hart csrs va ty p s (.ok (physAddr (s.mmu.tlb (tlbIndex va)).ppn va))
        (s.dirtied hart va).countHit
  | missRefused (h : Paged csrs p) (hc : canonical va) (ht : ¬Hit csrs va s.mmu)
      (hw : ∀ leaf, s.sys.leafOf csrs va = some leaf → ¬leaf.grants csrs ty p) (n : ℕ) :
      Translated hart csrs va ty p s (.error ⟨pageFaultFor ty, va⟩) (s.countMiss.withEpoch n)
  | missFilled (h : Paged csrs p) (hc : canonical va) (ht : ¬Hit csrs va s.mmu) (leaf : Leaf)
      (hw : s.sys.leafOf csrs va = some leaf) (hg : leaf.grants csrs ty p) (n : ℕ) :
      Translated hart csrs va ty p s (.ok (physAddr (leaf.ppn (vpnOf va)) va))
        ((s.countMiss.withEpoch n).filled hart csrs va ty leaf)

/-- Every translation is one of these. -/
theorem translated (hart : ℕ) (csrs : CsrFile) (va : U64) (ty : AccessType) (p : U32) (s : MmuSys) :
    Translated hart csrs va ty p s (outcome (translate hart csrs va ty p) s)
      (final (translate hart csrs va ty p) s) := by
  by_cases h : Paged csrs p
  swap
  · rw [outcome_of_ok (translate_bare h), final_of_ok (translate_bare h)]
    exact .bare h
  by_cases hc : canonical va
  swap
  · rw [outcome_of_error (translate_refused h hc), final_of_error (translate_refused h hc)]
    exact .noncanonical h hc
  by_cases ht : Hit csrs va s.mmu
  · by_cases hp : permitted (s.mmu.tlb (tlbIndex va)).perms ty p csrs
    swap
    · have heq : translate hart csrs va ty p s = _ := translate_hit_refused h hc ht hp
      rw [outcome_of_error heq, final_of_error heq]
      exact .hitRefused h hc ht hp
    by_cases hd : ty = .store ∧ (s.mmu.tlb (tlbIndex va)).perms &&& Pte.D = 0
    · have heq : translate hart csrs va ty p s = _ := translate_hit_dirty h hc ht hp hd
      rw [outcome_of_ok heq, final_of_ok heq]
      exact .hitDirty h hc ht hp hd
    · have heq : translate hart csrs va ty p s = _ := translate_hit_clean h hc ht hp hd
      rw [outcome_of_ok heq, final_of_ok heq]
      exact .hitClean h hc ht hp hd
  · obtain ⟨n, hn⟩ := walkFrom_eq csrs va s.sys
    have heq := translate_miss hart ty h hc ht
    have hwalked : s.walked csrs va = s.countMiss.withEpoch n := by
      rw [MmuSys.walked, hn]
      rfl
    rw [hwalked, hn] at heq
    dsimp only at heq
    cases hleaf : s.sys.leafOf csrs va with
    | none =>
      rw [hleaf] at heq
      rw [outcome_of_error heq, final_of_error heq]
      exact .missRefused h hc ht (fun leaf hl => by rw [hleaf] at hl; cases hl) n
    | some leaf =>
      rw [hleaf] at heq
      dsimp only at heq
      split at heq
      · next hg =>
          rw [fillSlot_apply] at heq
          rw [outcome_of_ok heq, final_of_ok heq]
          exact .missFilled h hc ht leaf hleaf hg n
      · next hg =>
          rw [outcome_of_error heq, final_of_error heq]
          refine .missRefused h hc ht (fun l hl => ?_) n
          rw [hleaf] at hl
          cases hl
          exact hg

lemma run_translate (hart : ℕ) (csrs : CsrFile) (va : U64) (ty : AccessType) (p : U32)
    (s : MmuSys) :
    ∃ r t, outcome (translate hart csrs va ty p) s = r ∧ final (translate hart csrs va ty p) s = t ∧
      Translated hart csrs va ty p s r t := ⟨_, _, rfl, rfl, translated hart csrs va ty p s⟩

end RiscvEmu
