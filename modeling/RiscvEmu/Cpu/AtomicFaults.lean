import RiscvEmu.Cpu.Frame
import RiscvEmu.Mmu.Mapping

/-!
# The causes of faults of atomics

An access chooses the cause of its fault by its type.  LR loads and SC stores, so they report what
they should.  A read-modify-write instruction loads first, as an ordinary load, and a fault of that
load is reported as one.
-/

namespace RiscvEmu

open Exec

namespace Exception

/-- A refused load. -/
def isLoadFault : Exception → Bool
  | loadAddressMisaligned | loadAccessFault | loadPageFault => true
  | _ => false

/-- A refused store. -/
def isStoreFault : Exception → Bool
  | storeAMOAddressMisaligned | storeAMOAccessFault | storeAMOPageFault => true
  | _ => false

/-- A misaligned address, a page fault or an access fault. -/
def isMemoryFault (e : Exception) : Bool :=
  e.isLoadFault || e.isStoreFault ||
    e = instructionAddressMisaligned || e = instructionAccessFault || e = instructionPageFault

end Exception

/-! ## Faults of an access -/

/-- The faults of an access of type `ty`. -/
def FaultOf (ty : AccessType) (t : Trap) : Prop :=
  t.cause = pageFaultFor ty ∨ t.cause = accessFaultFor ty

lemma FaultOf.isLoadFault {t : Trap} (h : FaultOf .load t) : t.cause.isLoadFault = true := by
  rcases h with h | h <;> rw [h] <;> rfl

lemma FaultOf.isStoreFault {t : Trap} (h : FaultOf .store t) : t.cause.isStoreFault = true := by
  rcases h with h | h <;> rw [h] <;> rfl

lemma raises_translateFor (va : U64) (ty : AccessType) (p : U32) :
    Raises (FaultOf ty) (translateFor va ty p) := by
  intro s t s' h
  obtain ⟨u, hu, -⟩ := zoom_eq_error.mp h
  rw [(translate_eq_error hu).2]
  exact .inl rfl

lemma raises_deviceLoad (id : DevId) (offset size : ℕ) :
    Raises (FaultOf .load) (deviceLoad id offset size) := by
  intro s t s' h
  unfold deviceLoad at h
  cases id with
  | syscon =>
    obtain ⟨d, hd, -⟩ := zoom_eq_error.mp h
    cases hd
  | _ =>
    obtain ⟨d, hd, -⟩ := zoom_eq_error.mp h
    simp only [Uart.load, Clint.load, Plic.load, Rtc.load, Virtio.Slot.load] at hd
    split_ifs at hd <;> cases hd <;> exact .inr rfl

lemma raises_deviceStore (id : DevId) (offset size : ℕ) (v : U64) :
    Raises (FaultOf .store) (deviceStore id offset size v) := by
  intro s t s' h
  unfold deviceStore at h
  cases id with
  | _ =>
    obtain ⟨d, hd, -⟩ := zoom_eq_error.mp h
    simp only [Uart.store, Clint.store, Plic.store, Syscon.store, Rtc.store,
      Virtio.Slot.store] at hd
    split_ifs at hd <;> cases hd <;> exact .inr rfl

lemma raises_loadDevice (pa : U64) (size : ℕ) :
    Raises (FaultOf .load) (loadDevice pa size .load) := by
  intro s t s' h
  unfold loadDevice at h
  split at h
  · cases h
    exact .inr rfl
  · split at h
    · cases h
    · next hdev =>
        cases h
        exact raises_deviceLoad _ _ _ _ _ _ hdev

lemma raises_storeDevice (pa : U64) (size : ℕ) (v : U64) :
    Raises (FaultOf .store) (storeDevice pa size v) := by
  intro s t s' h
  unfold storeDevice at h
  split at h
  · cases h
    exact .inr rfl
  · exact raises_deviceStore _ _ _ v _ _ _ h

lemma raises_busLoad (pa : U64) (size : ℕ) : Raises (FaultOf .load) (Bus.load pa size .load) := by
  intro s t s' h
  rcases busLoad_cases pa size .load s with ⟨-, hrun⟩ | ⟨-, -, hrun⟩ | ⟨-, -, hrun⟩
  · rw [hrun] at h
    cases h
  · rw [hrun] at h
    cases h
    exact .inr rfl
  · exact raises_loadDevice pa size _ _ _ (hrun ▸ h)

lemma raises_busStore (pa : U64) (size : ℕ) (v : U64) :
    Raises (FaultOf .store) (Bus.store pa size v) := by
  intro s t s' h
  rcases busStore_cases pa size v s with ⟨-, ram, -, hrun⟩ | ⟨-, -, hrun⟩ | ⟨-, -, hrun⟩
  · rw [hrun] at h
    cases h
  · rw [hrun] at h
    cases h
    exact .inr rfl
  · exact raises_storeDevice pa size v _ _ _ (hrun ▸ h)

lemma raises_storeAt (pa : U64) (size : ℕ) (v : U64) :
    Raises (FaultOf .store) (storeAt pa size v) :=
  .bind ((raises_busStore pa size v).zoom _ _) fun _ => (Total.modify _).raises

lemma raises_loadBytes (va : U64) (p : U32) (is : List ℕ) (v : U64) :
    Raises (FaultOf .load) (loadBytes va .load p is v) := by
  induction is generalizing v with
  | nil => exact (Total.pure _).raises
  | cons i is ih =>
    exact .bind (raises_translateFor _ _ _) fun pa =>
      .bind ((raises_busLoad pa 1).zoom _ _) fun _ => ih _

lemma raises_translateBytes (va : U64) (p : U32) (is : List ℕ) :
    Raises (FaultOf .store) (translateBytes va p is) := by
  induction is with
  | nil => exact (Total.pure _).raises
  | cons i is ih => exact .bind (raises_translateFor _ _ _) fun _ => ih

lemma raises_storeBytes (va : U64) (p : U32) (v : U64) (is : List ℕ) :
    Raises (FaultOf .store) (storeBytes va p v is) := by
  induction is with
  | nil => exact (Total.pure _).raises
  | cons i is ih =>
    exact .bind (raises_translateFor _ _ _) fun _ => .bind (raises_storeAt _ _ _) fun _ => ih

lemma raises_memLoad (va : U64) (size : ℕ) : Raises (FaultOf .load) (memLoad va size .load) := by
  unfold memLoad
  split
  · exact .bind Total.get.raises fun _ => raises_loadBytes _ _ _ _
  · exact .bind Total.get.raises fun _ => .bind (raises_translateFor _ _ _) fun pa =>
      (raises_busLoad pa size).zoom _ _

lemma raises_memStore (va : U64) (size : ℕ) (v : U64) :
    Raises (FaultOf .store) (memStore va size v) := by
  unfold memStore
  split
  · exact .bind Total.get.raises fun _ => .bind (raises_translateBytes _ _ _) fun _ =>
      raises_storeBytes _ _ _ _
  · exact .bind Total.get.raises fun _ => .bind (raises_translateFor _ _ _) fun pa =>
      raises_storeAt _ _ _

/-! ## The atomics -/

/-- The operation of an atomic. -/
def amoFunct5 (inst : DecodedInst) : ℕ := inst.funct7 / 4 % 32

/-- A memory fault is one of a kind. -/
def AtomicFault (kind : Exception → Bool) (t : Trap) : Prop := t.cause.isMemoryFault → kind t.cause

/-- What an atomic may be refused as: LR as a load, the others as a store. -/
def atomicKind (inst : DecodedInst) : Exception → Bool :=
  if amoFunct5 inst = 0x02 then Exception.isLoadFault else Exception.isStoreFault

/-- If the instruction raises a memory fault, it is the one an atomic should raise. -/
def FaultsAsAtomic (inst : DecodedInst) (s : Hart) : Prop :=
  ∀ t s', execute inst s = .error t s' → AtomicFault (atomicKind inst) t

/-- The load of a read-modify-write instruction returns, if it comes to it. -/
def AmoLoads (inst : DecodedInst) (s : Hart) : Prop :=
  ∀ size, amoSize inst.funct3 = some size → (s.cpu.getReg inst.rs1).1.toNat % size = 0 →
    Succeeds (memLoad (s.cpu.getReg inst.rs1).1 size .load)
      { s with cpu := (s.cpu.getReg inst.rs1).2 }

section Atomics

variable {inst : DecodedInst} {size : ℕ} {addr : U64}

/-- An illegal instruction is not a memory fault. -/
lemma illegal_cause (inst : DecodedInst) : (illegal inst).cause.isMemoryFault = false := rfl

lemma executeAmo_apply (h : amoSize inst.funct3 = some size) (s : Hart) :
    executeAmo inst s =
      (if (s.cpu.getReg inst.rs1).1.toNat % size ≠ 0 then
        throw ⟨if amoFunct5 inst = 0x02 then .loadAddressMisaligned else .storeAMOAddressMisaligned,
          (s.cpu.getReg inst.rs1).1⟩
      else executeAtomic inst size (amoFunct5 inst) (s.cpu.getReg inst.rs1).1)
        { s with cpu := (s.cpu.getReg inst.rs1).2 } := by
  unfold executeAmo
  rw [h]
  rfl

/-- The exceptions of LR: its load is a load. -/
lemma raises_loadReserved (addr : U64) (size : ℕ) :
    Raises (FaultOf .load) (loadReserved addr size) := by
  refine .bind (raises_memLoad addr size) fun v => Total.raises ?_
  exact .bind (.modify _) fun _ => .bind .get fun _ => .bind (.attempt _) fun _ =>
    .bind (.modify _) fun _ => .pure v

lemma raises_storeConditional (addr : U64) (size rs2 : ℕ) :
    Raises (FaultOf .store) (storeConditional addr size rs2) := by
  have hread : Total (readReg rs2) := fun _ => ⟨_, _, rfl⟩
  refine .bind Total.get.raises fun s => .bind (Total.modify _).raises fun _ => ?_
  refine .bind (Total.modify _).raises fun _ => .bind hread.raises fun src => ?_
  split
  · exact .bind (raises_memStore addr size src) fun _ => .bind (Total.modify _).raises fun _ =>
      (Total.pure true).raises
  · exact .bind (Total.modify _).raises fun _ => (Total.pure false).raises

lemma raises_lr (inst : DecodedInst) (size : ℕ) (addr : U64) :
    Raises (AtomicFault Exception.isLoadFault) (executeAtomic inst size 0x02 addr) := by
  unfold executeAtomic
  rw [if_pos rfl]
  split
  · exact .throw fun h => absurd h (by rw [illegal_cause]; simp)
  · refine .bind ?_ fun _ => (Total.modify _).raises
    exact fun s t s' h _ => (raises_loadReserved addr size s t s' h).isLoadFault

lemma raises_sc (inst : DecodedInst) (size : ℕ) (addr : U64) :
    Raises (AtomicFault Exception.isStoreFault) (executeAtomic inst size 0x03 addr) := by
  unfold executeAtomic
  rw [if_neg (by decide), if_pos rfl]
  refine .bind ?_ fun _ => (Total.modify _).raises
  exact fun s t s' h _ => (raises_storeConditional addr size inst.rs2 s t s' h).isStoreFault

/-- Once its load has returned, a read-modify-write instruction fails like a store. -/
lemma raises_amo_tail (inst : DecodedInst) (size funct5 : ℕ) (addr orig : U64) :
    Raises (AtomicFault Exception.isStoreFault) (do
      let src ← readReg inst.rs2
      match amoStore size funct5 orig src with
      | none => throw (illegal inst)
      | some result => do
        memStore addr size result
        writeReg inst.rd (amoValue size orig) : HartM Unit) := by
  have hread : Total (readReg inst.rs2) := fun _ => ⟨_, _, rfl⟩
  refine .bind hread.raises fun src => ?_
  split
  · exact .throw fun h => absurd h (by rw [illegal_cause]; simp)
  · refine .bind ?_ fun _ => (Total.modify _).raises
    exact fun s t s' h _ => (raises_memStore addr size _ s t s' h).isStoreFault

/-- A load fault is a memory fault, and not the one of a store. -/
lemma not_atomicFault_store {t : Trap} (h : FaultOf .load t) :
    ¬ AtomicFault Exception.isStoreFault t := by
  intro hfault
  rcases h with h | h
  · have hstore := hfault (by rw [h]; rfl)
    rw [h] at hstore
    exact absurd hstore (by decide)
  · have hstore := hfault (by rw [h]; rfl)
    rw [h] at hstore
    exact absurd hstore (by decide)

/-- A read-modify-write instruction reports what it should exactly if its load returns. -/
lemma amo_faults_iff {funct5 : ℕ} (hlr : funct5 ≠ 0x02) (hsc : funct5 ≠ 0x03) (s : Hart) :
    (∀ t s', executeAtomic inst size funct5 addr s = .error t s' →
      AtomicFault Exception.isStoreFault t) ↔
      Succeeds (memLoad addr size .load) s := by
  unfold executeAtomic
  rw [if_neg hlr, if_neg hsc]
  constructor
  · intro h
    cases hload : memLoad addr size .load s with
    | ok v q => exact ⟨v, q, hload⟩
    | error t q =>
      exact absurd (h t q (bind_of_error hload))
        (not_atomicFault_store (raises_memLoad addr size s t q hload))
  · rintro ⟨v, q, hload⟩ t s' h
    rw [bind_of_ok hload] at h
    exact raises_amo_tail inst size funct5 addr v q t s' h

end Atomics

/-- The faults of an atomic have the cause they should have, except that a read-modify-write
instruction whose load fails reports a load. -/
theorem atomic_faults_iff (inst : DecodedInst) (hop : inst.opcode = Opcode.amo) (s : Hart) :
    FaultsAsAtomic inst s ↔ (amoFunct5 inst ≠ 0x02 → amoFunct5 inst ≠ 0x03 → AmoLoads inst s) := by
  unfold FaultsAsAtomic AmoLoads
  rw [execute_amo hop]
  cases hsize : amoSize inst.funct3 with
  | none =>
    have hrefused : executeAmo inst s = .error (illegal inst) s := by
      unfold executeAmo
      rw [hsize]
      rfl
    refine iff_of_true (fun t s' h => ?_) fun _ _ size hsize' => by cases hsize'
    rw [hrefused] at h
    cases h
    exact fun h => absurd h (by rw [illegal_cause]; simp)
  | some size =>
    rw [executeAmo_apply hsize]
    by_cases halign : (s.cpu.getReg inst.rs1).1.toNat % size = 0
    swap
    · -- a misaligned address is reported by the operation, before any access
      rw [if_pos halign]
      refine iff_of_true (fun t s' h => ?_) fun _ _ size' hsize' h => ?_
      · cases h
        unfold AtomicFault atomicKind
        split <;> exact fun _ => rfl
      · cases hsize'
        exact absurd h halign
    rw [if_neg (not_not.mpr halign)]
    unfold atomicKind
    by_cases hlr : amoFunct5 inst = 0x02
    · rw [if_pos hlr, hlr]
      exact iff_of_true (fun t s' h => raises_lr inst size _ _ t s' h) fun h => absurd rfl h
    rw [if_neg hlr]
    by_cases hsc : amoFunct5 inst = 0x03
    · rw [hsc]
      exact iff_of_true (fun t s' h => raises_sc inst size _ _ t s' h) fun _ h => absurd rfl h
    · rw [amo_faults_iff hlr hsc]
      constructor
      · intro h _ _ size' hsize' _
        cases hsize'
        exact h
      · exact fun h => h hlr hsc size rfl halign

/-- `amoadd.w x0, x0, (x0)`: nothing answers at address zero, and the guest is told about a load. -/
theorem amo_faults_as_load :
    failure (execute (decode 0x0000202f)) ((Machine.init (.plain 1 4096 page_fits)).hart 0) =
      some ⟨.loadAccessFault, 0⟩ := by
  decide +kernel

/-- A hart whose `x5` holds the address of the low half of `mtime`, which can be loaded and not
stored. -/
def timeHart : Hart :=
  let s := (Machine.init (.plain 1 4096 page_fits)).hart 0
  { s with cpu := s.cpu.setReg 5 (clintBase + BitVec.ofNat 64 Clint.mtimeOffset) }

/-- `amoadd.w x0, x0, (x5)` faults there in its store, and the guest is told about a store. -/
theorem atomic_faults_iff_time :
    failure (execute (decode 0x0002a02f)) timeHart = some ⟨.storeAMOAccessFault, 0x0200bff8⟩ ∧
      FaultsAsAtomic (decode 0x0002a02f) timeHart := by
  refine ⟨by decide +kernel, (atomic_faults_iff _ (by decide +kernel) _).mpr fun _ _ => ?_⟩
  intro size hsize _
  have hfour : amoSize (decode 0x0002a02f).funct3 = some 4 := by decide +kernel
  rw [hfour] at hsize
  cases hsize
  have hloads : failure (memLoad (timeHart.cpu.getReg (decode 0x0002a02f).rs1).1 4 .load)
      { timeHart with cpu := (timeHart.cpu.getReg (decode 0x0002a02f).rs1).2 } = none := by
    decide +kernel
  obtain ⟨v, hv⟩ := failure_eq_none.mp hloads
  exact ⟨v, _, hv⟩

end RiscvEmu
