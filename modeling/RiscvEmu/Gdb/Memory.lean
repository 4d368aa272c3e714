import RiscvEmu.Machine
import RiscvEmu.Mmu.Walk
import RiscvEmu.Cpu.Frame

/-!
# Guest memory as the debugger sees it

The part of `gdb.rs` that reads and writes guest memory.  The debugger speaks virtual addresses and
resolves them with the hart's own translation, so a look at memory walks the guest's page tables:
it fills the TLB and sets the accessed bit of the entry it ends at.  These bits are all that a look
can change, and this file says which looks set one.
-/

namespace RiscvEmu

open Exec

/-! ## Reading and writing -/

namespace Gdb

/-- Resolve an address as the hart would; code that is execute-only can be read too. -/
def translate (s : Hart) (vaddr : U64) (write : Bool) : Option U64 × Hart :=
  match translateFor vaddr (if write then .store else .load) s.cpu.priv.val s with
  | .ok pa t => (some pa, t)
  | .error _ t =>
    if write then (none, t)
    else
      match translateFor vaddr .instruction t.cpu.priv.val t with
      | .ok pa u => (some pa, u)
      | .error _ u => (none, u)

/-- How many of `left` bytes lie in the page of `va`. -/
def chunk (va : U64) (left : ℕ) : ℕ := min left (pageSize - va.toNat % pageSize)

/-- The loop of `read_bytes`: one turn a page.  Every turn reads a byte, so `left` turns are
enough. -/
def readFrom : ℕ → U64 → ℕ → Hart → Option (List U8) × Hart
  | 0, _, _, s => (some [], s)
  | turns + 1, va, left, s =>
    if left = 0 then (some [], s)
    else
      match translate s va false with
      | (none, t) => (none, t)
      | (some pa, t) =>
        match t.sys.ram.readBytes pa (chunk va left) with
        | none => (none, t)
        | some bytes =>
          let r := readFrom turns (va + BitVec.ofNat 64 (chunk va left)) (left - chunk va left) t
          (r.1.map (bytes ++ ·), r.2)

/-- Read bytes, page by page. -/
def readBytes (s : Hart) (vaddr : U64) (len : ℕ) : Option (List U8) × Hart :=
  readFrom len vaddr len s

/-- A write watchpoint, with the bytes last seen there. -/
structure Watch where
  addr : U64
  len : U64
  last : List U8

/-- The loop over the watchpoints before an instruction: the first one whose bytes have changed. -/
def compareWatches : List Watch → Hart → Option U64 × List Watch × Hart
  | [], s => (none, [], s)
  | w :: ws, s =>
    match readBytes s w.addr w.len.toNat with
    | (some now, t) =>
      if now ≠ w.last then (some w.addr, { w with last := now } :: ws, t)
      else
        let r := compareWatches ws t
        (r.1, w :: r.2.1, r.2.2)
    | (none, t) =>
      let r := compareWatches ws t
      (r.1, w :: r.2.1, r.2.2)

end Gdb

/-! ## What a guest can see -/

/-- RAM without the bookkeeping of cached code. -/
def Dram.contents (d : Dram) : Dram :=
  { d with epoch := 0, codePages := fun _ => false, marked := [], anyMarked := false }

lemma Dram.contents_congr {d d' : Dram} (hlen : d'.len = d.len) (hmem : d'.mem = d.mem) :
    d'.contents = d.contents := by
  cases d
  cases d'
  cases hlen
  cases hmem
  rfl

namespace Sys

/-- RAM, devices and mailboxes, without the history and the count of device accesses. -/
def visible (s : Sys) : Sys := { s with ram := s.ram.contents, mmioEpoch := 0, log := [] }

/-- The part of it that no write to a page-table entry can reach: all but the bytes of RAM, the
compare registers and the time. -/
def still (s : Sys) : Sys :=
  { s.visible with
    ram := { s.ram.contents with mem := fun _ => 0 }
    clint := { s.clint with mtimecmp := fun _ => 0, clock := { s.clint.clock with mtime := 0 } } }

/-- Fill in what `still` leaves out. -/
def restore (s : Sys) (mem : ℕ → U8) (mtimecmp : ℕ → U64) (mtime : U64) : Sys :=
  { s with
    ram := { s.ram with mem := mem }
    clint := { s.clint with mtimecmp := mtimecmp, clock := { s.clint.clock with mtime := mtime } } }

lemma visible_eq_restore (s : Sys) :
    s.visible = s.still.restore s.ram.mem s.clint.mtimecmp s.clint.clock.mtime := rfl

lemma visible_eq_iff {s t : Sys} : t.visible = s.visible ↔ t.still = s.still ∧
    (t.ram.mem = s.ram.mem ∧ t.clint.mtimecmp = s.clint.mtimecmp) ∧
    t.clint.clock.mtime = s.clint.clock.mtime := by
  constructor
  · intro h
    have hstill : t.visible.still = s.visible.still := congrArg still h
    have hmem : t.visible.ram.mem = s.visible.ram.mem := congrArg (fun u : Sys => u.ram.mem) h
    have hclint : t.visible.clint = s.visible.clint := congrArg Sys.clint h
    exact ⟨hstill, ⟨hmem, congrArg Clint.mtimecmp hclint⟩,
      congrArg (fun c : Clint => c.clock.mtime) hclint⟩
  · rintro ⟨hstill, ⟨hmem, hcmp⟩, htime⟩
    rw [visible_eq_restore, visible_eq_restore s, hstill, hmem, hcmp, htime]

/-- How far the running hart's time is ahead of the clock. -/
def lead (s : Sys) : U64 := s.clint.clock.live / Clock.atLeastOne s.clint.clock.ipt

/-! ## Where a page-table entry can be -/

/-- The register of the core-local interruptor an address leads to, if it leads there. -/
def clintOffset (s : Sys) (addr : U64) : Option ℕ :=
  match s.device addr with
  | some (base, .clint) => some (addr - base).toNat
  | _ => none

/-- The compare register at an address, by the hart it belongs to. -/
def compareAt (s : Sys) (addr : U64) : Option ℕ :=
  (s.clintOffset addr).bind fun o =>
    if Clint.mtimecmpOffset ≤ o ∧ o < Clint.mtimecmpOffset + 8 * maxHarts ∧
        (o - Clint.mtimecmpOffset) % 8 = 0 ∧ (o - Clint.mtimecmpOffset) / 8 < s.clint.harts then
      some ((o - Clint.mtimecmpOffset) / 8)
    else none

/-- A write to an entry at this address is kept: it is in RAM or in a compare register. -/
def keepsMark (s : Sys) (addr : U64) : Bool :=
  decide (InRam s.ram addr 8) || (s.compareAt addr).isSome

/-- The time is at this address. -/
def clockAt (s : Sys) (addr : U64) : Bool := s.clintOffset addr = some Clint.mtimeOffset

lemma keepsMark_of_still {s t : Sys} (h : t.still = s.still) : t.keepsMark = s.keepsMark := by
  have h' : t.still.keepsMark = s.still.keepsMark := congrArg keepsMark h
  exact h'

lemma clockAt_of_still {s t : Sys} (h : t.still = s.still) : t.clockAt = s.clockAt := by
  have h' : t.still.clockAt = s.still.clockAt := congrArg clockAt h
  exact h'

lemma lead_of_still {s t : Sys} (h : t.still = s.still) : t.lead = s.lead := by
  have h' : t.still.lead = s.still.lead := congrArg lead h
  exact h'

end Sys

/-! ## Marks -/

/-- The entries at the addresses `marks` were written back with their accessed bit, and nothing else
happened. -/
structure Marked (marks : List U64) (s t : Sys) : Prop where
  still : t.still = s.still
  mem : BitField.Within s.ram.mem t.ram.mem
  compare : BitField.Within s.clint.mtimecmp t.clint.mtimecmp
  kept : (t.ram.mem = s.ram.mem ∧ t.clint.mtimecmp = s.clint.mtimecmp) ↔
    ∀ a ∈ marks, s.keepsMark a = false
  time : t.clint.clock.mtime =
    s.clint.clock.mtime + BitVec.ofNat 64 (marks.countP s.clockAt) * (s.lead + Pte.A)

namespace Marked

variable {l l' : List U64} {s t u : Sys}

lemma of_visible (h : t.visible = s.visible) : Marked [] s t := by
  obtain ⟨hstill, ⟨hmem, hcmp⟩, htime⟩ := Sys.visible_eq_iff.mp h
  refine ⟨hstill, hmem ▸ .refl _, hcmp ▸ .refl _, iff_of_true ⟨hmem, hcmp⟩ (by simp), ?_⟩
  simp [htime]

lemma append (h : Marked l s t) (h' : Marked l' t u) : Marked (l ++ l') s u := by
  have hkeeps : t.keepsMark = s.keepsMark := Sys.keepsMark_of_still h.still
  have hkept' := h'.kept
  rw [hkeeps] at hkept'
  refine ⟨h'.still.trans h.still, h.mem.trans h'.mem, h.compare.trans h'.compare, ?_, ?_⟩
  · simp only [List.mem_append, or_imp, forall_and]
    rw [← h.kept, ← hkept']
    constructor
    · rintro ⟨hmem, hcmp⟩
      have hmem' : t.ram.mem = s.ram.mem := h.mem.squeeze h'.mem hmem
      have hcmp' : t.clint.mtimecmp = s.clint.mtimecmp := h.compare.squeeze h'.compare hcmp
      exact ⟨⟨hmem', hcmp'⟩, hmem.trans hmem'.symm, hcmp.trans hcmp'.symm⟩
    · rintro ⟨⟨hmem, hcmp⟩, hmem', hcmp'⟩
      exact ⟨hmem'.trans hmem, hcmp'.trans hcmp⟩
  · rw [h'.time, h.time, Sys.clockAt_of_still h.still, Sys.lead_of_still h.still,
      List.countP_append, BitVec.ofNat_add, BitVec.add_mul, BitVec.add_assoc]

lemma visible_right (h : Marked l s t) (hu : u.visible = t.visible) : Marked l s u := by
  simpa using h.append (of_visible hu)

lemma visible_left (h : Marked l s t) (hu : s.visible = u.visible) : Marked l u t := by
  simpa using (of_visible hu).append h

/-- Nothing a guest can see has changed. -/
lemma visible_iff (h : Marked l s t) : t.visible = s.visible ↔
    (∀ a ∈ l, s.keepsMark a = false) ∧
      BitVec.ofNat 64 (l.countP s.clockAt) * (s.lead + Pte.A) = 0 := by
  rw [Sys.visible_eq_iff, h.kept, h.time]
  have hadd : ∀ x y : U64, x + y = x ↔ y = 0 := fun x y => by simp
  rw [hadd, and_iff_right h.still]

end Marked

/-! ## The effect of a mark -/

lemma visible_writeBack (t : Sys) (hart : ℕ) (addr value : U64) :
    (t.writeBack hart addr value).visible = (final (Bus.store addr 8 value) t).visible := by
  unfold Sys.writeBack final
  cases Bus.store addr 8 value t <;> rfl

/-- The accessed bit is added to a word that did not have it. -/
lemma or_accessed_eq_add {entry : U64} (h : entry ||| Pte.A ≠ entry) :
    entry ||| Pte.A = entry + Pte.A := by
  have hA : Pte.A = BitVec.twoPow 64 6 := by decide
  have hand := BitVec.and_twoPow entry 6
  rw [← hA] at hand
  split at hand
  · refine absurd (BitField.or_eq_left_iff.mpr ?_) h
    rw [← hand, BitVec.and_comm entry, BitVec.and_assoc]
    simp
  · exact (BitVec.add_eq_or_of_and_eq_zero _ _ hand).symm

/-- A device access does not start in RAM. -/
lemma Sys.device_of_find {t : Sys} {addr : U64} {r : U64 × DevId}
    (hout : ¬(dramBase ≤ addr ∧ (addr - dramBase).toNat < t.ram.len))
    (hfind : t.find addr = some r) :
    t.device addr = some r := by
  unfold Sys.device
  rw [if_neg hout, hfind]

lemma clint_store_time (v : U64) (c : Clint) :
    final (Clint.store Clint.mtimeOffset 8 v) c = { c with clock := { c.clock with mtime := v } } :=
      rfl

/-- Setting bits of a doubleword in memory. -/
lemma within_store (mem : Bytes.Mem) (off : ℕ) (bits : U64) :
    BitField.Within mem (Bytes.store mem off 8 (Bytes.load mem off 8 ||| bits)) := by
  intro i
  by_cases hi : off ≤ i ∧ i < off + 8
  · have hsplit : Bytes.byte (Bytes.load mem off 8 ||| bits) (i - off) =
        mem i ||| Bytes.byte bits (i - off) := by
      have hbyte : Bytes.byte (Bytes.load mem off 8) (i - off) = mem i := by
        rw [Bytes.byte_load (Nat.le_refl 8) (by omega), Nat.add_sub_cancel' hi.1]
      rw [← hbyte]
      ext k hk
      simp [Bytes.byte]
    rw [Bytes.store_of_mem hi, hsplit, ← BitVec.or_assoc, BitVec.or_self]
  · rw [Bytes.store_of_not_mem hi, BitVec.or_self]

section Effect

variable {t : Sys} {a entry : U64}

lemma marked_ram (hin : InRam t.ram a 8) (he : t.entryAt a = some entry)
    (ha : entry ||| Pte.A ≠ entry) :
    Marked [a] t (final (Bus.store a 8 (entry ||| Pte.A)) t) := by
  obtain ⟨ram, hram, hst⟩ := busStore_ram (entry ||| Pte.A) hin
  obtain ⟨-, hmem, hlen⟩ := Dram.store_eq_some hram
  rw [entryAt_ram hin, Option.some.injEq] at he
  subst he
  rw [final_of_ok hst]
  have hstill : ({ t with ram := ram } : Sys).still = t.still := by
    have hblank : ({ ram with mem := fun _ => 0 } : Dram).contents =
      ({ t.ram with mem := fun _ => 0 } : Dram).contents :=
      Dram.contents_congr hlen rfl
    exact congrArg (fun d => { t.still with ram := d }) hblank
  have hkeeps : t.keepsMark a = true := by simp [Sys.keepsMark, hin]
  have hclock : t.clockAt a = false := by
    simp [Sys.clockAt, Sys.clintOffset, Sys.device_of_inRam hin]
  refine ⟨hstill, ?_, .refl _, iff_of_false ?_ (by simp [hkeeps]), by simp [hclock]⟩
  · dsimp only
    rw [hmem]
    exact within_store _ _ _
  · rintro ⟨hsame, -⟩
    refine ha ?_
    dsimp only at hsame
    rw [hmem] at hsame
    have hload : Bytes.load (Bytes.store t.ram.mem (a - dramBase).toNat 8
        (Bytes.load t.ram.mem (a - dramBase).toNat 8 ||| Pte.A)) (a - dramBase).toNat 8 =
        Bytes.load t.ram.mem (a - dramBase).toNat 8 ||| Pte.A := Bytes.load_store_eight
    rw [show min 8 8 = 8 from rfl] at hsame
    rw [hsame] at hload
    exact hload.symm

/-- A store that leaves everything as it was, to an entry outside RAM and the interruptor. -/
lemma marked_nowhere {u : Sys} (hout : ¬InRam t.ram a 8) (hdev : t.clintOffset a = none)
    (hu : u.visible = t.visible) : Marked [a] t u := by
  have hnone := Marked.of_visible hu
  have hkeeps : t.keepsMark a = false := by simp [Sys.keepsMark, Sys.compareAt, hout, hdev]
  have hclock : t.clockAt a = false := by simp [Sys.clockAt, hdev]
  refine ⟨hnone.still, hnone.mem, hnone.compare, ?_, ?_⟩
  · exact iff_of_true (hnone.kept.mpr (by simp)) (by simp [hkeeps])
  · rw [hnone.time]
    simp [hclock]

lemma final_store_clint {base : U64} (hdev : t.device a = some (base, .clint)) (v : U64) :
    final (Bus.store a 8 v) t =
      { t.countAccess with clint := final (Clint.store (a - base).toNat 8 v) t.clint } := by
  rcases final_busStore a 8 v t with ⟨_, hin, -⟩ | h
  · rw [Sys.device_of_inRam hin] at hdev
    cases hdev
  · rw [h, hdev]
    dsimp only [deviceStore]
    rw [final_zoom]
    rfl

lemma ones_or (x : U64) : (~~~0 : U64) ||| x = ~~~0 := by
  rw [show (~~~0 : U64) = BitVec.allOnes 64 from rfl, BitVec.allOnes_or]

lemma marked_clint {base : U64} (hout : ¬InRam t.ram a 8) (hdev : t.device a = some (base, .clint))
    (he : (outcome (Clint.load (a - base).toNat 8) t.clint).toOption = some entry)
    (ha : entry ||| Pte.A ≠ entry) : Marked [a] t (final (Bus.store a 8 (entry ||| Pte.A)) t) := by
  have hoffset : t.clintOffset a = some (a - base).toNat := by simp [Sys.clintOffset, hdev]
  rw [final_store_clint hdev]
  generalize (a - base).toNat = o at hoffset he
  rw [clint_load_eight] at he
  split_ifs at he with hd hhart htime
  · cases he
    obtain ⟨hlo, hhi, hword⟩ := hd
    have hcompare : t.compareAt a = some ((o - Clint.mtimecmpOffset) / 8) := by
      rw [Sys.compareAt, hoffset, Option.bind_some, if_pos ⟨hlo, hhi, hword, hhart⟩]
    have hne : o ≠ Clint.mtimeOffset := by
      rintro rfl
      exact absurd hhi (by decide)
    have hkeeps : t.keepsMark a = true := by simp [Sys.keepsMark, hcompare]
    have hclock : t.clockAt a = false := by simp [Sys.clockAt, hoffset, hne]
    rw [clint_store_eight _ _ ⟨hlo, hhi, hword⟩, if_pos hhart]
    generalize (o - Clint.mtimecmpOffset) / 8 = hart at ha
    refine ⟨rfl, .refl _, ?_, iff_of_false ?_ (by simp [hkeeps]), by simp [hclock]⟩
    · intro i
      dsimp only
      by_cases hi : i = hart
      · subst hi
        rw [Function.update_self, ← BitVec.or_assoc, BitVec.or_self]
      · rw [Function.update_of_ne hi, BitVec.or_self]
    · rintro ⟨-, hsame⟩
      have hat := congrFun hsame hart
      dsimp only at hat
      rw [Function.update_self] at hat
      exact ha hat
  · cases he
    exact absurd (ones_or _) ha
  · cases he
    subst htime
    have hcompare : t.compareAt a = none := by
      rw [Sys.compareAt, hoffset]
      rfl
    have hkeeps : t.keepsMark a = false := by simp [Sys.keepsMark, hout, hcompare]
    have hclock : t.clockAt a = true := by simp [Sys.clockAt, hoffset]
    rw [clint_store_time]
    refine ⟨rfl, .refl _, .refl _, iff_of_true ⟨rfl, rfl⟩ (by simp [hkeeps]), ?_⟩
    dsimp only
    rw [or_accessed_eq_add ha, Clock.now, List.countP_singleton, if_pos hclock, BitVec.add_assoc]
    simp [Sys.lead]

/-- A virtio device ignores a doubleword. -/
lemma visible_store_virtio {base : U64} {id : DevId} (hdev : t.device a = some (base, id))
    (hid : id = .blk ∨ id = .net ∨ id = .rng) (v : U64) :
    (final (Bus.store a 8 v) t).visible = t.visible := by
  rcases final_busStore a 8 v t with ⟨_, hin, -⟩ | h
  · rw [Sys.device_of_inRam hin] at hdev
    cases hdev
  · rw [h, hdev]
    dsimp only
    rcases hid with rfl | rfl | rfl
    all_goals
      rw [deviceStore, final_zoom, final_slotStore (by decide)]
      rfl

/-- Writing back a leaf with its accessed bit. -/
lemma marked_store (he : t.entryAt a = some entry) (hk : pteKind entry = .leaf)
    (ha : entry ||| Pte.A ≠ entry) :
    Marked [a] t (final (Bus.store a 8 (entry ||| Pte.A)) t) := by
  rcases busLoad_cases a 8 .load t with ⟨hin, -⟩ | ⟨-, -, h⟩ | ⟨hout, hbelow, h⟩
  · exact marked_ram hin he ha
  · rw [Sys.entryAt, outcome_of_error h] at he
    cases he
  have hload : t.entryAt a = (outcome (loadDevice a 8 .load) t).toOption := by
    rw [Sys.entryAt, outcome, outcome, h]
  cases hfind : t.find a with
  | none =>
    simp [hload, outcome, loadDevice, hfind, Except.toOption] at he
  | some r =>
    obtain ⟨base, id⟩ := r
    have hdev := Sys.device_of_find hbelow hfind
    rw [hload, (loadDevice_of_find hfind 8).1] at he
    have hother : id ≠ .clint → t.clintOffset a = none := by
      intro hne
      unfold Sys.clintOffset
      rw [hdev]
      cases id <;> first | rfl | exact absurd rfl hne
    cases id with
    | clint =>
      rw [deviceLoad, outcome_zoom] at he
      exact marked_clint hout hdev he ha
    | uart | plic | rtc => cases he
    | syscon =>
      cases he
      exact absurd hk (by decide)
    | blk =>
      exact marked_nowhere hout (hother (by decide)) (visible_store_virtio hdev (by decide) _)
    | net =>
      exact marked_nowhere hout (hother (by decide)) (visible_store_virtio hdev (by decide) _)
    | rng =>
      exact marked_nowhere hout (hother (by decide)) (visible_store_virtio hdev (by decide) _)

end Effect

/-! ## Looking -/

/-- A look at memory has marked entries and changed the TLB, and nothing else. -/
structure Looked (marks : List U64) (s t : Hart) : Prop where
  cpu : t.cpu = { s.cpu with mmu := t.cpu.mmu }
  sys : Marked marks s.sys t.sys

namespace Looked

variable {l l' : List U64} {s t u : Hart}

lemma refl (s : Hart) : Looked [] s s := ⟨rfl, .of_visible rfl⟩

lemma append (h : Looked l s t) (h' : Looked l' t u) : Looked (l ++ l') s u :=
  ⟨by rw [h'.cpu, h.cpu], h.sys.append h'.sys⟩

end Looked

instance (leaf : Leaf) (csrs : CsrFile) (ty : AccessType) (p : U32) :
    Decidable (leaf.grants csrs ty p) := by
  unfold Leaf.grants
  infer_instance

namespace Hart

/-- The entry whose accessed bit a translation sets: that of a page it has to walk to. -/
def markFor (s : Hart) (va : U64) (ty : AccessType) : Option U64 :=
  if Paged s.cpu.csrs s.cpu.priv.val ∧ canonical va ∧ ¬Hit s.cpu.csrs va s.cpu.mmu then
    (s.sys.leafOf s.cpu.csrs va).bind fun leaf =>
      if leaf.grants s.cpu.csrs ty s.cpu.priv.val ∧
        leaf.entry ||| Pte.A ≠ leaf.entry then some leaf.pteAddr
      else none
  else none

/-- The entry whose accessed bit the debugger sets by resolving an address. -/
def mark (s : Hart) (va : U64) : Option U64 := (s.markFor va .load).or (s.markFor va .instruction)

variable {s : Hart} {va : U64} {ty : AccessType}

lemma markFor_of_not
    (h : ¬(Paged s.cpu.csrs s.cpu.priv.val ∧ canonical va ∧ ¬Hit s.cpu.csrs va s.cpu.mmu)) :
    s.markFor va ty = none := if_neg h

lemma markFor_of_leaf {leaf : Leaf} (hp : Paged s.cpu.csrs s.cpu.priv.val) (hc : canonical va)
    (ht : ¬Hit s.cpu.csrs va s.cpu.mmu) (hw : s.sys.leafOf s.cpu.csrs va = some leaf) :
    s.markFor va ty =
      if leaf.grants s.cpu.csrs ty s.cpu.priv.val ∧
        leaf.entry ||| Pte.A ≠ leaf.entry then some leaf.pteAddr
      else none := by
  unfold markFor
  rw [if_pos ⟨hp, hc, ht⟩, hw]
  rfl

/-- A refused load leaves the entry to be marked by a fetch as it was. -/
lemma markFor_congr {t : Hart} {n : ℕ} (hcpu : t.cpu = { s.cpu with mmu := t.cpu.mmu })
    (htlb : t.cpu.mmu.tlb = s.cpu.mmu.tlb) (hsys : t.sys = s.sys.withEpoch n) :
    t.markFor va ty = s.markFor va ty := by
  have hcsrs : t.cpu.csrs = s.cpu.csrs := by rw [hcpu]
  have hpriv : t.cpu.priv = s.cpu.priv := by rw [hcpu]
  have hhit : Hit s.cpu.csrs va t.cpu.mmu ↔ Hit s.cpu.csrs va s.cpu.mmu := by
    unfold Hit
    rw [htlb]
  have hleaf : t.sys.leafOf s.cpu.csrs va = s.sys.leafOf s.cpu.csrs va := by
    unfold Sys.leafOf
    rw [hsys, entryAt_withEpoch]
  unfold markFor
  rw [hcsrs, hpriv, hleaf]
  simp only [hhit]

end Hart

/-- What a translation that only looks does. -/
lemma looked_translateFor (s : Hart) (va : U64) (ty : AccessType) (hty : ty ≠ .store) :
    Looked (s.markFor va ty).toList s (final (translateFor va ty s.cpu.priv.val) s) := by
  obtain ⟨r, t, -, hfin, h⟩ :=
    run_translate s.cpu.hartid s.cpu.csrs va ty s.cpu.priv.val ⟨s.cpu.mmu, s.sys⟩
  rw [final_translateFor, hfin]
  cases h with
  | bare h =>
    rw [Hart.markFor_of_not fun hn => h hn.1]
    exact ⟨rfl, .of_visible rfl⟩
  | noncanonical h hc =>
    rw [Hart.markFor_of_not fun hn => hc hn.2.1]
    exact ⟨rfl, .of_visible rfl⟩
  | hitRefused h hc ht hp =>
    rw [Hart.markFor_of_not fun hn => hn.2.2 ht]
    exact ⟨rfl, .of_visible rfl⟩
  | hitClean h hc ht hp hd =>
    rw [Hart.markFor_of_not fun hn => hn.2.2 ht]
    exact ⟨rfl, .of_visible rfl⟩
  | hitDirty h hc ht hp hd => exact absurd hd.1 hty
  | missRefused h hc ht hw n =>
    have hnone : s.markFor va ty = none := by
      cases hleaf : s.sys.leafOf s.cpu.csrs va with
      | none => rw [Hart.markFor, hleaf, Option.bind_none, ite_self]
      | some leaf => rw [Hart.markFor_of_leaf h hc ht hleaf, if_neg fun hg => hw leaf hleaf hg.1]
    rw [hnone]
    exact ⟨rfl, .of_visible rfl⟩
  | missFilled h hc ht leaf hw hg n =>
    obtain ⟨hentry, hkind⟩ := walkOn_entry hw
    have hupdated : updatedPte ty leaf.entry = leaf.entry ||| Pte.A := if_neg hty
    rw [Hart.markFor_of_leaf h hc ht hw]
    refine ⟨rfl, ?_⟩
    unfold MmuSys.filled
    rw [hupdated]
    by_cases hset : leaf.entry ||| Pte.A ≠ leaf.entry
    · rw [if_pos ⟨hg, hset⟩, if_pos hset]
      have hvis :=
        visible_writeBack (s.sys.withEpoch n) s.cpu.hartid leaf.pteAddr (leaf.entry ||| Pte.A)
      have hmark : Marked [leaf.pteAddr] (s.sys.withEpoch n) _ :=
        marked_store (by rw [entryAt_withEpoch]; exact hentry) hkind hset
      exact (hmark.visible_right hvis).visible_left rfl
    · rw [if_neg fun h => hset h.2, if_neg hset]
      exact .of_visible rfl

section Second

variable {s : Hart} {va : U64} {ty : AccessType}

/-- A refused translation marks nothing and leaves the TLB and what is in memory. -/
lemma refused_translateFor {e : Trap}
    (he : outcome (translateFor va ty s.cpu.priv.val) s = .error e) :
    s.markFor va ty = none ∧ (final (translateFor va ty s.cpu.priv.val) s).cpu.mmu.tlb =
      s.cpu.mmu.tlb ∧
      ∃ n, (final (translateFor va ty s.cpu.priv.val) s).sys = s.sys.withEpoch n := by
  obtain ⟨r, t, hr, hfin, h⟩ :=
    run_translate s.cpu.hartid s.cpu.csrs va ty s.cpu.priv.val ⟨s.cpu.mmu, s.sys⟩
  rw [outcome_translateFor] at he
  rw [final_translateFor, hfin]
  obtain rfl := he.symm.trans hr
  cases h with
  | noncanonical h hc => exact ⟨Hart.markFor_of_not fun hn => hc hn.2.1, rfl, s.sys.mmioEpoch, rfl⟩
  | hitRefused h hc ht hp =>
    exact ⟨Hart.markFor_of_not fun hn => hn.2.2 ht, rfl, s.sys.mmioEpoch, rfl⟩
  | missRefused h hc ht hw n =>
    refine ⟨?_, rfl, n, rfl⟩
    cases hleaf : s.sys.leafOf s.cpu.csrs va with
    | none => rw [Hart.markFor, hleaf, Option.bind_none, ite_self]
    | some leaf => rw [Hart.markFor_of_leaf h hc ht hleaf, if_neg fun hg => hw leaf hleaf hg.1]

/-- A page that could be translated without a mark has none to be set. -/
lemma markFor_of_granted (hty : ty ≠ .store) {pa : U64}
    (he : outcome (translateFor va ty s.cpu.priv.val) s = .ok pa) (hnone : s.markFor va ty = none)
    (ty' : AccessType) : s.markFor va ty' = none := by
  obtain ⟨r, t, hr, -, h⟩ :=
    run_translate s.cpu.hartid s.cpu.csrs va ty s.cpu.priv.val ⟨s.cpu.mmu, s.sys⟩
  rw [outcome_translateFor] at he
  obtain rfl := he.symm.trans hr
  cases h with
  | bare h => exact Hart.markFor_of_not fun hn => h hn.1
  | hitClean h hc ht hp hd => exact Hart.markFor_of_not fun hn => hn.2.2 ht
  | hitDirty h hc ht hp hd => exact absurd hd.1 hty
  | missFilled h hc ht leaf hw hg n =>
    rw [Hart.markFor_of_leaf h hc ht hw] at hnone ⊢
    have hset : ¬(leaf.entry ||| Pte.A ≠ leaf.entry) := by
      intro hset
      rw [if_pos ⟨hg, hset⟩] at hnone
      cases hnone
    exact if_neg fun hn => hset hn.2

end Second

lemma Gdb.translate_of_ok {s t : Hart} {va pa : U64}
    (h : translateFor va .load s.cpu.priv.val s = .ok pa t) :
    Gdb.translate s va false = (some pa, t) := by
  unfold Gdb.translate
  simp only [Bool.false_eq_true, if_false, h]

lemma Gdb.translate_of_error {s t : Hart} {va : U64} {e : Trap}
    (h : translateFor va .load s.cpu.priv.val s = .error e t) :
    (Gdb.translate s va false).2 = final (translateFor va .instruction t.cpu.priv.val) t := by
  unfold Gdb.translate final
  simp only [Bool.false_eq_true, if_false, h]
  cases translateFor va .instruction t.cpu.priv.val t <;> rfl

/-- The debugger resolves an address. -/
lemma looked_translate (s : Hart) (va : U64) :
    Looked (s.mark va).toList s (Gdb.translate s va false).2 := by
  have hload := looked_translateFor s va .load (by decide)
  cases h : translateFor va .load s.cpu.priv.val s with
  | ok pa t =>
    have hmark : s.mark va = s.markFor va .load := by
      unfold Hart.mark
      cases hm : s.markFor va .load with
      | some a => rfl
      | none => exact markFor_of_granted (by decide) (outcome_of_ok h) hm .instruction
    rw [final_of_ok h] at hload
    rw [Gdb.translate_of_ok h, hmark]
    exact hload
  | error e t =>
    obtain ⟨hnone, htlb, n, hsys⟩ := refused_translateFor (outcome_of_error h)
    have hinst := looked_translateFor t va .instruction (by decide)
    rw [final_of_error h] at hload htlb hsys
    rw [Hart.markFor_congr hload.cpu htlb hsys] at hinst
    rw [hnone] at hload
    rw [Gdb.translate_of_error h, Hart.mark, hnone, Option.none_or]
    exact hload.append hinst

namespace Gdb

/-- The entries a read marks. -/
def marksFrom : ℕ → U64 → ℕ → Hart → List U64
  | 0, _, _, _ => []
  | turns + 1, va, left, s =>
    if left = 0 then []
    else
      let r := translate s va false
      let rest :=
        match r.1.bind fun pa => r.2.sys.ram.readBytes pa (chunk va left) with
        | none => []
        | some _ =>
          marksFrom turns (va + BitVec.ofNat 64 (chunk va left)) (left - chunk va left) r.2
      (s.mark va).toList ++ rest

/-- The entries that a read marks. -/
def marks (s : Hart) (vaddr : U64) (len : ℕ) : List U64 := marksFrom len vaddr len s

/-- The entries a comparison of watchpoints marks. -/
def watchMarks : List Watch → Hart → List U64
  | [], _ => []
  | w :: ws, s =>
    let r := readBytes s w.addr w.len.toNat
    marks s w.addr w.len.toNat ++ if r.1.isSome ∧ r.1 ≠ some w.last then [] else watchMarks ws r.2

lemma looked_readFrom (turns : ℕ) (va : U64) (left : ℕ) (s : Hart) :
    Looked (marksFrom turns va left s) s (readFrom turns va left s).2 := by
  induction turns generalizing va left s with
  | zero => exact .refl s
  | succ turns ih =>
    unfold marksFrom readFrom
    split
    · exact .refl s
    have hpage := looked_translate s va
    generalize translate s va false = r at hpage
    obtain ⟨pa, t⟩ := r
    cases pa with
    | none => simpa using hpage
    | some pa =>
      dsimp only [Option.bind_some]
      cases t.sys.ram.readBytes pa (chunk va left) with
      | none => simpa using hpage
      | some bytes => exact hpage.append (ih _ _ t)

lemma looked_readBytes (s : Hart) (vaddr : U64) (len : ℕ) :
    Looked (marks s vaddr len) s (readBytes s vaddr len).2 := looked_readFrom len vaddr len s

lemma looked_compareWatches (ws : List Watch) (s : Hart) :
    Looked (watchMarks ws s) s (compareWatches ws s).2.2 := by
  induction ws generalizing s with
  | nil => exact .refl s
  | cons w ws ih =>
    have hread := looked_readBytes s w.addr w.len.toNat
    unfold watchMarks compareWatches
    generalize readBytes s w.addr w.len.toNat = r at hread
    obtain ⟨now, t⟩ := r
    cases now with
    | none => exact hread.append (ih t)
    | some now =>
      by_cases hsame : now = w.last
      · simpa [hsame] using hread.append (ih t)
      · simpa [hsame] using hread

/-- The ways a debugger looks at memory. -/
inductive Look where
  /-- A packet asks for bytes of memory. -/
  | memory (addr len : U64)
  /-- The watchpoints are compared before an instruction. -/
  | watches (ws : List Watch)

/-- The most a packet can ask for. -/
def maxRead : ℕ := 0x10000

/-- What a look does to the hart. -/
def Look.run : Look → Hart → Hart
  | .memory addr len, s => (readBytes s addr (min len.toNat maxRead)).2
  | .watches ws, s => (compareWatches ws s).2.2

/-- The page-table entries a look marks as accessed. -/
def Look.marks : Look → Hart → List U64
  | .memory addr len, s => Gdb.marks s addr (min len.toNat maxRead)
  | .watches ws, s => watchMarks ws s

lemma Look.looked (look : Look) (s : Hart) : Looked (look.marks s) s (look.run s) := by
  cases look with
  | memory addr len => exact looked_readBytes s addr _
  | watches ws => exact looked_compareWatches ws s

/-- A guest cannot tell two machines apart: only TLBs, the history and counts of accesses differ. -/
structure Unseen (m m' : Machine) : Prop where
  harts : ∀ h, m'.harts h = { m.harts h with mmu := (m'.harts h).mmu }
  sys : m'.sys.visible = m.sys.visible

/-- A look of the debugger through one of the harts leaves the machine as a guest sees it exactly
if no entry it marks is in RAM or in a compare register, and the marks made in the register of the
time, each of which moves it ahead by the running hart's lead and one more bit, come to nothing. -/
theorem look_unseen_iff (m : Machine) (h : Fin m.sys.numHarts) (look : Look) :
    Unseen m (m.onHart h look.run) ↔
      (∀ a ∈ look.marks (m.hart h), m.sys.keepsMark a = false) ∧
      BitVec.ofNat 64 ((look.marks (m.hart h)).countP m.sys.clockAt) *
        (m.sys.lead + Pte.A) = 0 := by
  have hlooked := look.looked (m.hart h)
  have hrun : m.onHart h look.run = m.setHart h (look.run (m.hart h)) := if_pos h.isLt
  have hvisible : (look.run (m.hart h)).sys.visible = m.sys.visible ↔ _ := hlooked.sys.visible_iff
  refine .trans ?_ hvisible
  rw [hrun]
  constructor
  · intro hunseen
    exact hunseen.sys
  · intro hvisible
    refine ⟨fun i => ?_, hvisible⟩
    by_cases hi : i = h
    · subst hi
      simp only [Machine.setHart, Function.update_self]
      exact hlooked.cpu
    · simp only [Machine.setHart, Function.update_of_ne hi]

/-- A supervisor whose RAM is mapped at its own addresses by a page that was never accessed.  The
table is the first page of RAM. -/
def freshPage : Machine :=
  let m := (Machine.init (.plain 1 4096 page_fits)).act
    (.writeBytes 0x80000010 [0x0f, 0, 0, 0x20, 0, 0, 0, 0])
  m.onHart 0 fun s => { s with cpu := { s.cpu with
    priv := .supervisor
    csrs := s.cpu.csrs.write Csr.satp 0x8000000000080000 } }

/-- The debugger reads one byte, and a byte of RAM changes. -/
theorem look_sets_accessed :
    ¬Unseen freshPage (freshPage.onHart 0 (Look.memory 0x80000100 1).run) := by
  intro h
  have hmem := (Sys.visible_eq_iff.mp h.sys).2.1.1
  have hbyte := congrFun hmem 16
  have hbefore : freshPage.sys.ram.mem 16 = 0x0f := by decide +kernel
  have hafter : (freshPage.onHart 0 (Look.memory 0x80000100 1).run).sys.ram.mem 16 = 0x4f := by
    decide +kernel
  rw [hbefore, hafter] at hbyte
  exact absurd hbyte (by decide)

end Gdb

end RiscvEmu
