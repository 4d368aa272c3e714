import RiscvEmu.Cpu.Reservations
import RiscvEmu.Cpu.Pages
import RiscvEmu.Platform
import RiscvEmu.Firmware
import RiscvEmu.Wiring

/-!
# Load-reserved and store-conditional

What a store-conditional does, in any reachable state, to what has happened since the hart's last
load-reserved.  RAM has three kinds of writers, and only one of them cancels reservations: the
stores of harts.  A device and the page walk of another hart do not.  And a reservation is kept
while the mapping of its page changes, so that a store-conditional may write another granule.
-/

namespace RiscvEmu

open Exec

/-! ## Since the last load-reserved -/

/-- The bytes an event writes, by the first of them and their number. -/
def Event.region : Event → Option (U64 × ℕ)
  | .store _ pa n => some (pa, n)
  | .pteUpdate _ addr => some (addr, 8)
  | .dma addr n => some (addr, n)
  | .image addr n => some (addr, n)
  | _ => none

/-- The event writes a byte of the granule `g`; its bytes are in the address space. -/
def Event.hits (g : U64) (e : Event) : Bool :=
  match e.region with
  | some (addr, n) => addr.toNat + n ≤ 2 ^ 64 ∧ ∃ k < n, (addr + BitVec.ofNat 64 k) >>> 3 = g
  | none => false

/-- A store of another hart. -/
def Event.storeOfOther (i : ℕ) : Event → Bool
  | .store h _ _ => h ≠ i
  | _ => false

/-- A write by a device, a loader, or the page walk of another hart. -/
def Event.unannounced (i : ℕ) : Event → Bool
  | .pteUpdate h _ => h ≠ i
  | .dma _ _ => true
  | .image _ _ => true
  | _ => false

/-- A write by something other than the instructions of hart `i`. -/
def Event.foreign (i : ℕ) (e : Event) : Bool := e.storeOfOther i || e.unannounced i

/-- The address and the granule of the last load-reserved of hart `i`, and what has happened
since. -/
def sinceLr (i : ℕ) : List Event → Option ((U64 × U64) × List Event)
  | [] => none
  | e :: log =>
    match e with
    | .loadReserved h va pa _ _ =>
      if h = i then some ((va, pa >>> 3), []) else (sinceLr i log).map fun r => (r.1, e :: r.2)
    | _ => (sinceLr i log).map fun r => (r.1, e :: r.2)

/-- Since the last load-reserved of hart `i` its granule was written by an event of this kind. -/
def writtenSince (i : ℕ) (kind : Event → Bool) (log : List Event) : Bool :=
  match sinceLr i log with
  | some ((_, g), es) => es.any fun e => kind e && e.hits g
  | none => false

/-- The last load-reserved of hart `i` was not at `va`, or something has ended its reservation
since: a store-conditional, a trap or a start of the hart, or a store of another hart to the
granule. -/
def endedSince (i : ℕ) (va : U64) (log : List Event) : Bool :=
  match sinceLr i log with
  | some ((va', g), es) => va' ≠ va ∨ ∃ e ∈ es, e.spares i g = false
  | none => true

variable {i n : ℕ} {va g : U64} {s begun : Hart} {m : Machine} {inst : DecodedInst}

lemma sinceLr_cons {e : Event} (he : ∀ va pa n v, e ≠ .loadReserved i va pa n v)
    (log : List Event) :
    sinceLr i (e :: log) = (sinceLr i log).map fun r => (r.1, e :: r.2) := by
  cases e with
  | loadReserved h va pa n v =>
    have hne : h ≠ i := by
      rintro rfl
      exact he va pa n v rfl
    simp [sinceLr, hne]
  | _ => rfl

/-- A reservation the history tells of is one that was spared by all that has happened since. -/
lemma held_iff_sinceLr {log : List Event} :
    held i log = some (va, g) ↔ ∃ es, sinceLr i log = some ((va, g), es) ∧
      ∀ e ∈ es, e.spares i g := by
  induction log with
  | nil => simp [held, sinceLr]
  | cons e log ih =>
    constructor
    · intro h
      rcases held_cons h with ⟨pa, n, v, rfl, rfl⟩ | ⟨he, hlog⟩
      · exact ⟨[], by simp [sinceLr], by simp⟩
      · obtain ⟨es, hes, hall⟩ := ih.mp hlog
        refine ⟨e :: es, ?_, List.forall_mem_cons.mpr ⟨he, hall⟩⟩
        rw [sinceLr_cons, hes]
        · rfl
        · rintro va' pa n v rfl
          simp [Event.spares] at he
    · rintro ⟨es, hes, hall⟩
      by_cases hlr : ∃ va' pa n v, e = .loadReserved i va' pa n v
      · obtain ⟨va', pa, n, v, rfl⟩ := hlr
        simp only [sinceLr, if_true, Option.some.injEq, Prod.mk.injEq] at hes
        simp [held, hes.1]
      · push Not at hlr
        rw [sinceLr_cons hlr] at hes
        obtain ⟨⟨r, es'⟩, hr, heq⟩ := Option.map_eq_some_iff.mp hes
        obtain ⟨rfl, rfl⟩ := Prod.mk.inj heq
        obtain ⟨he, hrest⟩ := List.forall_mem_cons.mp hall
        exact held_of_spares he (ih.mpr ⟨es', hr, hrest⟩)

lemma endedSince_eq_false {log : List Event} :
    endedSince i va log = false ↔ ∃ g, held i log = some (va, g) := by
  unfold endedSince
  simp only [held_iff_sinceLr]
  cases hsince : sinceLr i log with
  | none => simp
  | some r =>
    obtain ⟨⟨va', g⟩, es⟩ := r
    simp only [decide_eq_false_iff_not, not_or, not_not, not_exists, not_and, Bool.not_eq_false]
    constructor
    · rintro ⟨rfl, hall⟩
      exact ⟨g, es, rfl, hall⟩
    · rintro ⟨g', es', heq, hall⟩
      cases heq
      exact ⟨rfl, hall⟩

/-- A store that writes a byte of a granule touches it. -/
lemma touchesGranule_of_hits {h : ℕ} {pa : U64} (hit : (Event.store h pa n).hits g) :
    touchesGranule pa n g := by
  simp only [Event.hits, Event.region, decide_eq_true_eq] at hit
  obtain ⟨hfits, k, hk, rfl⟩ := hit
  have hsum : (pa + BitVec.ofNat 64 k).toNat = pa.toNat + k := by
    rw [BitVec.toNat_add, BitVec.toNat_ofNat, Nat.add_mod_mod, Nat.mod_eq_of_lt (by omega)]
  have hlast : (pa + BitVec.ofNat 64 n - 1).toNat = pa.toNat + n - 1 := by
    have hone : (1 : U64).toNat = 1 := rfl
    rw [BitVec.toNat_sub, BitVec.toNat_add, BitVec.toNat_ofNat, hone]
    omega
  simp only [touchesGranule, decide_eq_true_eq]
  refine ⟨granule_ne_noRes _, ?_, ?_⟩
  · rw [ge_iff_le, BitVec.le_def, BitVec.toNat_ushiftRight, BitVec.toNat_ushiftRight, hsum,
      Nat.shiftRight_eq_div_pow, Nat.shiftRight_eq_div_pow]
    omega
  · rw [BitVec.le_def, BitVec.toNat_ushiftRight, BitVec.toNat_ushiftRight, hsum, hlast,
      Nat.shiftRight_eq_div_pow, Nat.shiftRight_eq_div_pow]
    omega

/-- A store of another hart that was spared has not written the granule. -/
lemma Event.not_hits_of_spares {e : Event} (hspares : e.spares i g)
    (hother : e.storeOfOther i) : e.hits g = false := by
  cases e with
  | store h pa n =>
    by_contra hit
    have htouch := touchesGranule_of_hits (by simpa using hit)
    have hne : h ≠ i := by simpa [Event.storeOfOther] using hother
    simp [Event.spares, hne, htouch] at hspares
  | _ => cases hother

/-- As long as a reservation is there, no other hart has stored to its granule. -/
lemma not_writtenSince_of_held {log : List Event} (h : held i log = some (va, g)) :
    writtenSince i (Event.storeOfOther i) log = false := by
  obtain ⟨es, hes, hall⟩ := held_iff_sinceLr.mp h
  simp only [writtenSince, hes, List.any_eq_false, Bool.and_eq_true, not_and, Bool.not_eq_true]
  exact fun e he hother => Event.not_hits_of_spares (hall e he) hother

lemma writtenSince_foreign (i : ℕ) (log : List Event) :
    writtenSince i (Event.foreign i) log =
      (writtenSince i (Event.storeOfOther i) log || writtenSince i (Event.unannounced i) log) := by
  unfold writtenSince
  cases sinceLr i log with
  | none => rfl
  | some r =>
    simp only [Event.foreign, Bool.and_or_distrib_right]
    induction r.2 with
    | nil => rfl
    | cons e es ih =>
      simp only [List.any_cons, ih]
      grind

/-! ## Store-conditional -/

/-- Without the two halves of a reservation a store-conditional writes nothing and says so. -/
lemma storeConditional_of_not_holds (h : s.holds va = false) (n rs2 : ℕ) :
    ∃ t, storeConditional va n rs2 s = .ok false t ∧ t.sys.ram = s.sys.ram := by
  rw [storeConditional_eq, h]
  exact ⟨_, rfl, rfl⟩

/-- With both it does not say that it failed. -/
lemma storeConditional_of_holds {t : Hart} (h : s.holds va = true) (n rs2 : ℕ) :
    storeConditional va n rs2 s ≠ .ok false t := by
  rw [storeConditional_eq, h]
  intro heq
  obtain ⟨src, s₁, -, heq⟩ := bind_eq_ok.mp heq
  rw [if_pos rfl] at heq
  obtain ⟨-, s₂, -, heq⟩ := bind_eq_ok.mp heq
  obtain ⟨-, s₃, -, heq⟩ := bind_eq_ok.mp heq
  cases heq

/-- Hart `i` of a machine is about to execute the atomic `inst`, of `n` bytes at `va`, in state `s`:
it was fetched, no interrupt is taken in its place, and the address is aligned. -/
structure AtomicAt (op : ℕ) (m : Machine) (i : ℕ) (inst : DecodedInst) (va : U64) (n : ℕ)
    (begun s : Hart) : Prop where
  interrupt : (m.harts i).nextInterrupt = none
  fetched : ∃ fetched, nextInst (m.hart i) = .ok inst fetched ∧ begun = fetched.begin inst
  opcode : inst.opcode = Opcode.amo
  funct5 : inst.funct7 / 4 % 32 = op
  size : amoSize inst.funct3 = some n
  address : readReg inst.rs1 begun = .ok va s
  aligned : va.toNat % n = 0

/-- It is a store-conditional. -/
abbrev ScAt : Machine → ℕ → DecodedInst → U64 → ℕ → Hart → Hart → Prop := AtomicAt 0x03

/-- It is a load-reserved, which has no second operand. -/
structure LrAt (m : Machine) (i : ℕ) (inst : DecodedInst) (va : U64) (n : ℕ) (begun s : Hart) : Prop
    extends AtomicAt 0x02 m i inst va n begun s where
  rs2 : inst.rs2 = 0

variable {op : ℕ}

lemma AtomicAt.execute (h : AtomicAt op m i inst va n begun s) :
    RiscvEmu.execute inst begun = executeAtomic inst n op va s := by
  rw [execute_amo h.opcode, executeAmo, h.size]
  dsimp only
  rw [bind_of_ok h.address, if_neg (not_not.mpr h.aligned), h.funct5]

/-- The instruction writes to its register what the store-conditional returns: zero for a
success. -/
lemma ScAt.execute (h : ScAt m i inst va n begun s) :
    RiscvEmu.execute inst begun =
      (storeConditional va n inst.rs2 >>= fun ok => writeReg inst.rd (if ok then 0 else 1)) s :=
  AtomicAt.execute h

lemma AtomicAt.accounted (h : AtomicAt op m i inst va n begun s) : Accounted (m.hart i) s := by
  obtain ⟨fetched, hfetched, rfl⟩ := h.fetched
  have hbegin : Accounted fetched (fetched.begin inst) := .of_calm rfl (refl_of Calm fetched.sys)
  exact trans_of Accounted (trans_of Accounted (accounted_nextInst.of_ok hfetched) hbegin)
    ((probeKeeps_accounted.readReg inst.rs1).of_ok h.address)

/-- Its state is one in which the reservation is the one the history tells. -/
lemma AtomicAt.recorded {cfg : Config} (hm : Reachable cfg m) (hi : i < m.sys.numHarts)
    (h : AtomicAt op m i inst va n begun s) : s.Recorded ∧ s.cpu.hartid = i := by
  obtain ⟨hrec, hid⟩ := recorded_reachable hm hi
  exact ⟨h.accounted.recorded hrec, h.accounted.hartid.trans hid⟩

/-- A reservation that a store-conditional finds is the one the history tells. -/
lemma ScAt.held {cfg : Config} (hm : Reachable cfg m) (hi : i < m.sys.numHarts)
    (h : ScAt m i inst va n begun s) (hholds : s.holds va = true) : RiscvEmu.held i s.sys.log =
      some (va, (s.sys.mail i).reservation) := by
  obtain ⟨hrec, hid⟩ := AtomicAt.recorded hm hi h
  have hheld := hrec.held hholds
  rwa [hid] at hheld

/-- The state in which hart `i` would execute the atomic it fetches. -/
def Machine.atomicState (m : Machine) (i : ℕ) (inst : DecodedInst) : Hart :=
  final (readReg inst.rs1) ((final nextInst (m.hart i)).begin inst)

lemma atomicAt_of_outcome (hinterrupt : (m.harts i).nextInterrupt = none)
    (hfetched : (outcome nextInst (m.hart i)).toOption = some inst)
    (hinst : inst.opcode = Opcode.amo ∧ inst.funct7 / 4 % 32 = op ∧ amoSize inst.funct3 = some n)
    (haddress : (outcome (readReg inst.rs1) ((final nextInst (m.hart i)).begin inst)).toOption =
      some va)
    (haligned : va.toNat % n = 0) :
    AtomicAt op m i inst va n ((final nextInst (m.hart i)).begin inst) (m.atomicState i inst) :=
  ⟨hinterrupt, ⟨_, eq_ok_of_outcome hfetched, rfl⟩, hinst.1, hinst.2.1, hinst.2.2,
    eq_ok_of_outcome haddress, haligned⟩

/-- In every reachable state, a store-conditional fails after a write to the reserved granule by
something else than the hart's own instructions, exactly if a device, a loader or another hart's
page walk has not written it, or something else has ended the reservation as well. -/
theorem sc_fails_after_foreign_write_iff {cfg : Config} {m : Machine} (hm : Reachable cfg m) {i : ℕ}
    (hi : i < m.sys.numHarts) {inst : DecodedInst} {va : U64} {n : ℕ} {begun s : Hart}
    (h : ScAt m i inst va n begun s) :
    (execute inst begun =
      (storeConditional va n inst.rs2 >>= fun ok => writeReg inst.rd (if ok then 0 else 1)) s) ∧
    ((writtenSince i (Event.foreign i) s.sys.log →
        ∃ t, storeConditional va n inst.rs2 s = .ok false t ∧ t.sys.ram = s.sys.ram) ↔
      (writtenSince i (Event.unannounced i) s.sys.log → endedSince i va s.sys.log)) := by
  refine ⟨h.execute, ?_⟩
  obtain ⟨hrec, hid⟩ := AtomicAt.recorded hm hi h
  have hfound : s.holds va = true ↔ endedSince i va s.sys.log = false := by
    rw [hrec.holds_iff, endedSince_eq_false, hid]
  constructor
  · intro hfails hwritten
    obtain ⟨t, ht, -⟩ := hfails (by rw [writtenSince_foreign, hwritten, Bool.or_true])
    by_contra hended
    exact storeConditional_of_holds (hfound.mpr (by simpa using hended)) _ _ ht
  · intro hcond hforeign
    by_cases hholds : s.holds va = true
    · have hheld := h.held hm hi hholds
      rw [writtenSince_foreign, not_writtenSince_of_held hheld, Bool.false_or] at hforeign
      have hended := hcond hforeign
      rw [hfound.mp hholds] at hended
      cases hended
    · exact storeConditional_of_not_holds (by simpa using hholds) _ _

/-- `auipc x5, 0`; `lr.d x6, (x5)`; `sc.d x7, x6, (x5)`. -/
def lrThenSc : List U32 := [0x00000297, 0x1002b32f, 0x1862b3af]

/-- A device has written a byte of the granule after the load-reserved. -/
def writtenByDevice : Machine :=
  (Machine.loaded 1 lrThenSc).run [.step 0, .step 0, .writeBytes dramBase [1]]

/-- The store-conditional that follows succeeds all the same. -/
theorem sc_succeeds_after_dma :
    writtenSince 0 (Event.foreign 0) writtenByDevice.sys.log = true ∧
      .scDone 0 dramBase dramBase 8 0x1002b32f00000297 ∈
        (writtenByDevice.act (.step 0)).sys.log := by
  decide +kernel

/-- The store-conditional of the program. -/
def scInst : DecodedInst := decode16 0xb3af 0x1862

/-- After the device's write nothing has ended the reservation, and the store-conditional does not
fail. -/
theorem sc_fails_after_foreign_write_iff_dma :
    ∃ begun s : Hart, ScAt writtenByDevice 0 scInst dramBase 8 begun s ∧
      writtenSince 0 (Event.unannounced 0) s.sys.log = true ∧
        endedSince 0 dramBase s.sys.log = false ∧
      ¬(writtenSince 0 (Event.foreign 0) s.sys.log →
          ∃ t, storeConditional dramBase 8 scInst.rs2 s = .ok false t ∧ t.sys.ram = s.sys.ram) := by
  have hat : ScAt writtenByDevice 0 scInst dramBase 8 _ _ :=
    atomicAt_of_outcome (by decide +kernel) (by decide +kernel) (by decide +kernel)
      (by decide +kernel) (by decide +kernel)
  have hreach : Reachable (.plain 1 4096 page_fits) writtenByDevice := by
    refine ⟨[.loadImage dramBase (codeBytes lrThenSc)] ++
      [.step 0, .step 0, .writeBytes dramBase [1]], ?_⟩
    rw [writtenByDevice, Machine.loaded, Machine.run, Machine.run, Machine.run, List.foldl_append]
  have hwritten : writtenSince 0 (Event.unannounced 0)
    (writtenByDevice.atomicState 0 scInst).sys.log = true := by
    decide +kernel
  have hended : endedSince 0 dramBase (writtenByDevice.atomicState 0 scInst).sys.log = false := by
    decide +kernel
  refine ⟨_, _, hat, hwritten, hended, fun hfails => ?_⟩
  have hcond := (sc_fails_after_foreign_write_iff hreach (by decide +kernel) hat).2.mp
    hfails hwritten
  rw [hended] at hcond
  cases hcond

/-! ## Where a store-conditional writes -/

lemma crossesPage_of_aligned {funct3 : ℕ} (hn : amoSize funct3 = some n)
    (h : va.toNat % n = 0) : crossesPage va n = false := by
  have hsize : n ∈ [1, 2, 4, 8] := by
    unfold amoSize at hn
    split at hn <;> simp_all
  exact Bool.eq_false_iff.mpr (not_crossesPage_of_aligned hsize h)

/-- The frame that the data accesses of a hart to the page of `va` go to. -/
def Hart.frameOf (s : Hart) (va : U64) : Option U64 :=
  if Paged s.cpu.csrs s.cpu.dataPrivilege then
    (s.mmuSys.pageEntry s.cpu.csrs va).map fun e : U64 × U64 => e.2 <<< pageShift
  else some (vpnOf va <<< pageShift)

/-- A physical address is the frame and the offset in the page. -/
lemma frameOf_of_mapped {ty : AccessType} {pa : U64}
    (h : s.mmuSys.mapped s.cpu.csrs s.cpu.dataPrivilege ty va = some pa) :
    ∃ f : U64, s.frameOf va = some f ∧ f.toNat % 4096 = 0 ∧ pa.toNat =
      f.toNat + va.toNat % 4096 := by
  have hpage (x : U64) : (x <<< pageShift).toNat % 4096 = 0 := by
    rw [BitVec.toNat_shiftLeft, Nat.shiftLeft_eq, pageShift]
    omega
  unfold Hart.frameOf
  by_cases hp : Paged s.cpu.csrs s.cpu.dataPrivilege
  · by_cases hc : canonical va
    · rw [mapped_paged hp hc] at h
      obtain ⟨e, he, hpa⟩ := Option.bind_eq_some_iff.mp h
      split_ifs at hpa
      cases hpa
      rw [if_pos hp, he]
      exact ⟨_, rfl, hpage _, physAddr_toNat_eq _ _⟩
    · rw [MmuSys.mapped, if_pos hp, if_neg hc] at h
      cases h
  · rw [mapped_bare hp] at h
    cases h
    rw [if_neg hp]
    refine ⟨_, rfl, hpage _, ?_⟩
    rw [vpnOf, BitVec.toNat_shiftLeft, BitVec.toNat_ushiftRight, Nat.shiftLeft_eq,
      Nat.shiftRight_eq_div_pow, pageShift]
    have := va.isLt
    omega

/-- Of one virtual address, the granules are the same exactly if the frames are. -/
lemma granule_eq_iff {f f' pa pa' : U64} (hf : f.toNat % 4096 = 0) (hf' : f'.toNat % 4096 = 0)
    (hpa : pa.toNat = f.toNat + va.toNat % 4096) (hpa' : pa'.toNat = f'.toNat + va.toNat % 4096) :
    pa >>> 3 = pa' >>> 3 ↔ f = f' := by
  rw [← BitVec.toNat_inj, ← BitVec.toNat_inj, BitVec.toNat_ushiftRight, BitVec.toNat_ushiftRight,
    Nat.shiftRight_eq_div_pow, Nat.shiftRight_eq_div_pow]
  omega

/-- What a store of one page leaves at the head of the history, and where it went. -/
lemma memStore_log {v : U64} {t : Hart} (hpage : crossesPage va n = false)
    (h : memStore va n v s = .ok () t) :
    ∃ pa older, s.mmuSys.mapped s.cpu.csrs s.cpu.dataPrivilege .store va = some pa ∧
      t.cpu.hartid = s.cpu.hartid ∧ t.sys.log = .store s.cpu.hartid pa n :: older := by
  rw [memStore, if_neg (by simp [hpage]), bind_of_ok (get_apply s)] at h
  obtain ⟨pa, u, htranslate, h⟩ := bind_eq_ok.mp h
  obtain ⟨w, -, rfl⟩ := storeAt_eq_ok.mp h
  have hid : u.cpu.hartid = s.cpu.hartid := by
    rw [← final_of_ok htranslate, final_translateFor]
  refine ⟨pa, w.log, mapped_of_translateFor htranslate, hid, ?_⟩
  rw [← hid, (stored_sys ..).2.2]

/-- The store-conditional begins with nothing that moves where it stores. -/
lemma mapped_scBegin (s : Hart) (va : U64) (rs2 : ℕ) :
    let t := final (readReg rs2) (s.scBegin va)
    t.mmuSys.mapped t.cpu.csrs t.cpu.dataPrivilege .store va =
      s.mmuSys.mapped s.cpu.csrs s.cpu.dataPrivilege .store va := by
  have hs : final (readReg rs2) (s.scBegin va) =
      { s.scBegin va with cpu := ((s.scBegin va).cpu.getReg rs2).2 } := rfl
  dsimp only
  rw [hs, Cpu.getReg_eq]
  exact mapped_of_entryAt rfl (entryAt_emit s.sys _)

/-- What a load-reserved leaves: its page is cached, and the event has where it went. -/
lemma loadReserved_ok {v : U64} {t : Hart} (hpage : crossesPage va n = false)
    (h : loadReserved va n s = .ok v t) :
    ∃ older, t.sys.log =
        .loadReserved s.cpu.hartid va (target t.cpu.csrs t.cpu.dataPrivilege t.cpu.mmu va) n
          v :: older ∧
      Cached .load t.cpu.csrs t.cpu.dataPrivilege va t.cpu.mmu := by
  unfold loadReserved at h
  obtain ⟨v', u, hload, h⟩ := bind_eq_ok.mp h
  rw [memLoad, if_neg (by simp [hpage]), bind_of_ok (get_apply s), if_neg (by decide)] at hload
  obtain ⟨pa, w, htranslate, hbus⟩ := bind_eq_ok.mp hload
  obtain ⟨m, hm, rfl⟩ := translateFor_eq_ok.mp htranslate
  obtain ⟨x, -, rfl⟩ := zoom_eq_ok.mp hbus
  have hcached := (cached_of_ok hm).1
  -- the reservation is noted, and the second translation hits
  let noted : Hart :=
    ⟨{ s.cpu with mmu := m.mmu, reservationValid := true, reservationAddr := va }, x⟩
  have hmod : modifyCpu (fun c => { c with reservationValid := true, reservationAddr := va })
      ⟨{ s.cpu with mmu := m.mmu }, x⟩ = .ok () noted := rfl
  obtain ⟨k, hk⟩ := hcached.translate (s := noted.mmuSys) s.cpu.hartid
  have hagain : translateFor va .load noted.cpu.dataPrivilege noted = _ :=
    translateFor_eq_ok.mpr ⟨_, hk, rfl⟩
  rw [bind_of_ok hmod, bind_of_ok (get_apply noted), bind_of_ok (attempt_of_ok hagain)] at h
  cases h
  exact ⟨x.log, rfl, hcached⟩

lemma frameOf_of_cached {ty : AccessType}
    (h : Cached ty s.cpu.csrs s.cpu.dataPrivilege va s.cpu.mmu) :
    ∃ f : U64, s.frameOf va = some f ∧ f.toNat % 4096 = 0 ∧
      (target s.cpu.csrs s.cpu.dataPrivilege s.cpu.mmu va).toNat = f.toNat + va.toNat % 4096 :=
  frameOf_of_mapped (Cached.mapped (s := s.mmuSys) h)

/-- The event is a load-reserved of hart `i`. -/
def Event.isLr (i : ℕ) : Event → Bool
  | .loadReserved h .. => h = i
  | _ => false

/-- Hart `i` has made no load-reserved since the history was `old`. -/
def NoLrSince (i : ℕ) (old log : List Event) : Prop :=
  ∃ new, log = new ++ old ∧ ∀ e ∈ new, e.isLr i = false

/-- Then the last one it made is at the head of `old`. -/
lemma NoLrSince.held {old log : List Event} {va' pa v : U64} {k : ℕ}
    (h : NoLrSince i (.loadReserved i va' pa k v :: old) log)
    (hheld : RiscvEmu.held i log = some (va, g)) :
    va' = va ∧ g = pa >>> 3 := by
  obtain ⟨new, rfl, hnew⟩ := h
  induction new with
  | nil =>
    rw [List.nil_append, RiscvEmu.held, if_pos rfl] at hheld
    cases hheld
    exact ⟨rfl, rfl⟩
  | cons e new ih =>
    obtain ⟨he, hrest⟩ := List.forall_mem_cons.mp hnew
    rcases held_cons hheld with ⟨pa', n', v', rfl, -⟩ | ⟨-, hlog⟩
    · simp [Event.isLr] at he
    · exact ih hrest hlog

/-- The step of a load-reserved that succeeds ends with the history it leaves. -/
lemma LrAt.log_step {v : U64} {t : Hart} (hi : i < m.sys.numHarts) (h : LrAt m i inst va n begun s)
    (hload : loadReserved va n s = .ok v t) : (m.act (.step i)).sys.log = t.sys.log := by
  obtain ⟨fetched, hfetched, hbegun⟩ := h.fetched
  have hexec : execute inst begun =
      .ok () { t with cpu := t.cpu.setReg inst.rd (amoValue n v) } := by
    have hrs2 : ¬inst.rs2 ≠ 0 := not_not.mpr h.rs2
    have hwrite : writeReg inst.rd (amoValue n v) t =
        .ok () { t with cpu := t.cpu.setReg inst.rd (amoValue n v) } := rfl
    rw [AtomicAt.execute h.toAtomicAt, executeAtomic, if_pos rfl, if_neg hrs2, bind_of_ok hload,
      hwrite]
  rw [hbegun] at hexec
  have hstep := stepCore_of_ok (s := m.hart i) h.interrupt (instruction_of_ok hfetched hexec)
  have hact : m.act (.step i) = m.setHart i (m.hart i).step := if_pos hi
  rw [hact, Hart.step, hstep]
  rfl

/-- The space, the data privilege and the slot of the page are the same in two states of a hart. -/
structure SameMapping (va : U64) (s t : Hart) : Prop where
  satp : t.cpu.csrs.satp = s.cpu.csrs.satp
  privilege : t.cpu.dataPrivilege = s.cpu.dataPrivilege
  slot : t.cpu.mmu.tlb (tlbIndex va) = s.cpu.mmu.tlb (tlbIndex va)

/-- Then a page that is cached keeps its frame, whatever was written to the page tables. -/
lemma SameMapping.frameOf {ty : AccessType} {t : Hart} (h : SameMapping va s t)
    (hcached : Cached ty s.cpu.csrs s.cpu.dataPrivilege va s.cpu.mmu) : t.frameOf va =
      s.frameOf va := by
  have hmode : Paged t.cpu.csrs t.cpu.dataPrivilege ↔ Paged s.cpu.csrs s.cpu.dataPrivilege := by
    rw [Paged, Paged, CsrFile.satpMode, CsrFile.satpMode, h.satp, h.privilege]
  unfold Hart.frameOf
  by_cases hp : Paged s.cpu.csrs s.cpu.dataPrivilege
  · have hit : Hit s.cpu.csrs va s.mmuSys.mmu := (hcached hp).2.1
    have hit' : Hit t.cpu.csrs va t.mmuSys.mmu := by
      have hkey : tlbKey t.cpu.csrs va = tlbKey s.cpu.csrs va := by
        rw [tlbKey, tlbKey, CsrFile.satpAsid, CsrFile.satpAsid, h.satp]
      rw [Hit, hkey]
      exact (congrArg TlbEntry.tag h.slot).trans hit
    rw [if_pos hp, if_pos (hmode.mpr hp), pageEntry_hit hit, pageEntry_hit hit']
    exact congrArg (fun e : TlbEntry => some (e.ppn <<< pageShift)) h.slot
  · rw [if_neg hp, if_neg (mt hmode.mp hp)]

/-- A hart executes a load-reserved, the machine runs on without another one of that hart, and the
hart executes a store-conditional that succeeds.  It writes the granule that was reserved exactly if
the page still has the frame it had at the load-reserved.  So it does if neither the address space
nor the data privilege nor the TLB slot of the page has changed in between. -/
theorem sc_writes_reserved_granule_iff {cfg : Config} {m : Machine} (hm : Reachable cfg m) {i : ℕ}
    (hi : i < m.sys.numHarts) {lr sc : DecodedInst} {va va' v : U64} {k n : ℕ}
    {begun s t begun' s' t' : Hart} {ls : List Label}
    (hlr : LrAt m i lr va k begun s) (hload : loadReserved va k s = .ok v t)
    (hsc : ScAt ((m.act (.step i)).run ls) i sc va' n begun' s')
    (hlast : NoLrSince i (m.act (.step i)).sys.log s'.sys.log)
    (hok : storeConditional va' n sc.rs2 s' = .ok true t') :
    ∃ (pa pa' src : U64) (older older' : List Event),
      t.sys.log = .loadReserved i va pa k v :: older ∧
      t'.sys.log = .scDone i va' pa' n src :: .store i pa' n :: older' ∧
      (pa' >>> 3 = pa >>> 3 ↔ s'.frameOf va' = t.frameOf va) ∧
      (SameMapping va t s' → pa' >>> 3 = pa >>> 3) := by
  have hm' : Reachable cfg ((m.act (.step i)).run ls) := by
    obtain ⟨ks, rfl⟩ := hm
    refine ⟨ks ++ .step i :: ls, ?_⟩
    rw [Machine.run, Machine.run, Machine.run, List.foldl_append]
    rfl
  have hi' : i < ((m.act (.step i)).run ls).sys.numHarts := by
    rw [run_numHarts, act_numHarts]
    exact hi
  have hid : s.cpu.hartid = i := (AtomicAt.recorded hm hi hlr.toAtomicAt).2
  obtain ⟨hrec', hid'⟩ := AtomicAt.recorded hm' hi' hsc
  -- the load-reserved
  obtain ⟨older, hlog, hcached⟩ :=
    loadReserved_ok (crossesPage_of_aligned hlr.size hlr.aligned) hload
  rw [hid] at hlog
  obtain ⟨f, hf, hpage, hpa⟩ := frameOf_of_cached hcached
  -- the reservation the store-conditional finds is that one
  have hholds : s'.holds va' = true := by
    by_contra hno
    obtain ⟨u, hu, -⟩ := storeConditional_of_not_holds (by simpa using hno) n sc.rs2
    rw [hok] at hu
    cases hu
  have hheld := ScAt.held hm' hi' hsc hholds
  rw [hlr.log_step hi hload, hlog] at hlast
  obtain ⟨rfl, hg⟩ := hlast.held hheld
  -- the store
  rw [storeConditional_eq, hholds] at hok
  obtain ⟨src, s₁, hsrc, hok⟩ := bind_eq_ok.mp hok
  rw [if_pos rfl] at hok
  obtain ⟨_, s₂, hstore, hok⟩ := bind_eq_ok.mp hok
  obtain ⟨pa', older', hmapped, hid₂, hlog'⟩ :=
    memStore_log (crossesPage_of_aligned hsc.size hsc.aligned) hstore
  have hs₁ : s₁ = final (readReg sc.rs2) (s'.scBegin va) := (final_of_ok hsrc).symm
  have hid₁ : s₁.cpu.hartid = i := by
    rw [hs₁, ← hid']
    exact Cpu.getReg_hartid _ _
  rw [hs₁, mapped_scBegin] at hmapped
  obtain ⟨f', hf', hpage', hpa'⟩ := frameOf_of_mapped hmapped
  cases hok
  have hiff : pa' >>> 3 = target t.cpu.csrs t.cpu.dataPrivilege t.cpu.mmu va >>> 3 ↔
      s'.frameOf va = t.frameOf va := by
    rw [granule_eq_iff hpage' hpage hpa' hpa, hf, hf', Option.some.injEq]
  refine ⟨_, pa', src, older, older', hlog, ?_, hiff, fun hsame => hiff.mpr (hsame.frameOf hcached)⟩
  rw [← hid₁, ← hlog', ← hid₂]
  have hstored : lastStore s₂.sys.log = pa' := by rw [hlog']; rfl
  rw [← hstored]
  rfl

/-- `auipc x5, 1`; `lr.d x6, (x5)`; `ld x6, 24(x5)`; `ld x7, 32(x5)`; `csrw satp, x6`; `csrw
mstatus, x7`; `sc.d x8, x9, (x5)`. -/
def remapThenSc : List U32 :=
  [0x00001297, 0x1002b32f, 0x0182b303, 0x0202b383, 0x18031073, 0x30039073, 0x1892b42f]

/-- One page that is its own table of every level and maps the second page of RAM to the first; and
the values of `satp` and of `mstatus` that turn it on for the data accesses of machine mode. -/
def remapTable : List U32 :=
  [0x20000401, 0, 0x200000c7, 0, 0x20000401, 0, 0x80001, 0x80000000, 0x20800, 0]

/-- The machine after some steps of the program. -/
def remapRun (steps : ℕ) : Machine :=
  (Machine.init (.plain 1 8192 twoPages_fits)).run
    ([.loadImage dramBase (codeBytes remapThenSc),
      .loadImage (dramBase + 4096) (codeBytes remapTable)] ++
      List.replicate steps (.step 0))

lemma remapRun_add (a b : ℕ) :
    (remapRun a).run (List.replicate b (.step 0)) = remapRun (a + b) := by
  rw [remapRun, remapRun, Machine.run, Machine.run, Machine.run, ← List.foldl_append,
    List.append_assoc, List.replicate_append_replicate]

/-- The store-conditional writes the first page, the reservation is in the second. -/
theorem sc_writes_other_granule :
    (sinceLr 0 (remapRun 6).sys.log).map Prod.fst =
      some (dramBase + 4096, (dramBase + 4096) >>> 3) ∧
      .scDone 0 (dramBase + 4096) dramBase 8 0 ∈ ((remapRun 6).act (.step 0)).sys.log := by
  decide +kernel

/-- The two instructions of the program. -/
def remapLr : DecodedInst := decode16 0xb32f 0x1002

@[inherit_doc remapLr]
def remapSc : DecodedInst := decode16 0xb42f 0x1892

/-- Between them the frame of the page has changed, so the granule is another one. -/
theorem sc_writes_reserved_granule_iff_remapped :
    ∃ t t' : Hart,
      loadReserved (dramBase + 4096) 8 ((remapRun 1).atomicState 0 remapLr) = .ok 0x20000401 t ∧
      storeConditional (dramBase + 4096) 8 9 ((remapRun 6).atomicState 0 remapSc) = .ok true t' ∧
      ∃ (pa pa' src : U64) (older older' : List Event),
        t.sys.log = .loadReserved 0 (dramBase + 4096) pa 8 0x20000401 :: older ∧
        t'.sys.log = .scDone 0 (dramBase + 4096) pa' 8 src :: .store 0 pa' 8 :: older' ∧
        pa' >>> 3 ≠ pa >>> 3 := by
  have hreach : Reachable (.plain 1 8192 twoPages_fits) (remapRun 1) := ⟨_, rfl⟩
  have hlr : LrAt (remapRun 1) 0 remapLr (dramBase + 4096) 8 _ _ :=
    ⟨atomicAt_of_outcome (by decide +kernel) (by decide +kernel) (by decide +kernel)
      (by decide +kernel) (by decide +kernel), by decide⟩
  have hload : loadReserved (dramBase + 4096) 8 ((remapRun 1).atomicState 0 remapLr) =
      .ok 0x20000401 _ := eq_ok_of_outcome (by decide +kernel)
  have hrun : ((remapRun 1).act (.step 0)).run (List.replicate 4 (.step 0)) = remapRun 6 := by
    have hstep : (remapRun 1).act (.step 0) = remapRun 2 := remapRun_add 1 1
    rw [hstep, remapRun_add]
  have hsc : ScAt (((remapRun 1).act (.step 0)).run (List.replicate 4 (.step 0))) 0 remapSc
      (dramBase + 4096) 8 ((final nextInst ((remapRun 6).hart 0)).begin remapSc)
      ((remapRun 6).atomicState 0 remapSc) := by
    rw [hrun]
    exact atomicAt_of_outcome (by decide +kernel) (by decide +kernel) (by decide +kernel)
      (by decide +kernel) (by decide +kernel)
  have hok : storeConditional (dramBase + 4096) 8 remapSc.rs2 ((remapRun 6).atomicState 0 remapSc) =
      .ok true _ := eq_ok_of_outcome (by decide +kernel)
  have hlast : NoLrSince 0 ((remapRun 1).act (.step 0)).sys.log
      ((remapRun 6).atomicState 0 remapSc).sys.log :=
    ⟨((remapRun 6).atomicState 0 remapSc).sys.log.take 8, by decide +kernel, by decide +kernel⟩
  obtain ⟨pa, pa', src, older, older', hlog, hlog', hiff, -⟩ :=
    sc_writes_reserved_granule_iff hreach (by decide +kernel) hlr hload hsc hlast hok
  refine ⟨_, _, hload, hok, pa, pa', src, older, older', hlog, hlog', mt hiff.mp ?_⟩
  decide +kernel

end RiscvEmu
