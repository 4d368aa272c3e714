import RiscvEmu.Firmware

/-!
# Hart masks

The calls for interrupts and fences name harts by a mask relative to a base: bit `i` is for hart
`base + i`.  The sum is taken in a machine word, so a base near the end of the numbers names the
harts at their beginning.  Where no sum wraps, and also where a wrapped one is out of range, the
harts that are signalled are the ones that are named; otherwise they are not.
-/

namespace RiscvEmu

open Exec

namespace Sbi

/-- Bit `i` of the mask is set. -/
def Selects (mask : U64) (i : ℕ) : Prop := i < 64 ∧ mask.getLsbD i = true

/-- The harts a mask relative to a base names; a base of all ones names every hart. -/
def Names (count : ℕ) (mask base : U64) (t : ℕ) : Prop :=
  if base = ~~~0 then t < count else ∃ i, Selects mask i ∧ t = base.toNat + i

/-- All the named harts exist. -/
def Exist (count : ℕ) (mask base : U64) : Prop := ∀ t, Names count mask base t → t < count

/-- A named number is too large for a machine word, and all of them are small once they wrap. -/
def Wraps (count : ℕ) (mask base : U64) : Prop :=
  base ≠ ~~~0 ∧ (∃ i, Selects mask i ∧ 2 ^ 64 ≤ base.toNat + i) ∧
    ∀ i, Selects mask i → (base.toNat + i) % 2 ^ 64 < count

section Targets

variable {count : ℕ} {mask base : U64}

lemma toNat_id (base : U64) (i : ℕ) :
    (base + BitVec.ofNat 64 i).toNat = (base.toNat + i) % 2 ^ 64 := by
  simp

lemma targets_some {ids : List ℕ} (hbase : base ≠ ~~~0) (h : targets count mask base = some ids) :
    (∀ t, t ∈ ids ↔ ∃ i, Selects mask i ∧ t = (base.toNat + i) % 2 ^ 64) ∧
      ∀ t ∈ ids, t < count := by
  unfold targets at h
  rw [if_neg hbase] at h
  dsimp only at h
  split at h
  · next hall =>
      cases h
      refine ⟨fun t => ?_, fun t ht => by simpa using List.all_eq_true.mp hall t ht⟩
      simp only [List.mem_map, List.mem_filter, List.mem_range, toNat_id, Selects, eq_comm]
  · cases h

lemma targets_none (hbase : base ≠ ~~~0) (h : targets count mask base = none) :
    ∃ i, Selects mask i ∧ count ≤ (base.toNat + i) % 2 ^ 64 := by
  unfold targets at h
  rw [if_neg hbase] at h
  dsimp only at h
  split at h
  · cases h
  · next hall =>
      simpa [Selects, and_assoc, toNat_id] using hall

/-- Where nothing wraps unseen the selected harts are the named ones. -/
lemma targets_names (h : ¬ Wraps count mask base) :
    (Exist count mask base → ∃ ids, targets count mask base = some ids ∧
      ∀ t, t ∈ ids ↔ Names count mask base t) ∧
    (¬ Exist count mask base → targets count mask base = none) := by
  by_cases hbase : base = ~~~0
  · have hall : Exist count mask base := by
      intro t ht
      rwa [Names, if_pos hbase] at ht
    refine ⟨fun _ => ⟨List.range count, if_pos hbase, fun t => ?_⟩, fun hno => absurd hall hno⟩
    rw [Names, if_pos hbase, List.mem_range]
  have hnames : ∀ t, Names count mask base t ↔ ∃ i, Selects mask i ∧ t = base.toNat + i := by
    intro t
    rw [Names, if_neg hbase]
  cases ht : targets count mask base with
  | none =>
    -- a number that is out of range after wrapping was so before
    obtain ⟨i, hi, hle⟩ := targets_none hbase ht
    refine ⟨fun hall => ?_, fun _ => rfl⟩
    have hlt := hall _ ((hnames _).mpr ⟨i, hi, rfl⟩)
    have hmod := Nat.mod_le (base.toNat + i) (2 ^ 64)
    omega
  | some ids =>
    obtain ⟨hmem, hlt⟩ := targets_some hbase ht
    have hsmall : ∀ i, Selects mask i → base.toNat + i < 2 ^ 64 := by
      intro i hi
      by_contra hbig
      exact h ⟨hbase, ⟨i, hi, Nat.not_lt.mp hbig⟩, fun k hk => hlt _ ((hmem _).mpr ⟨k, hk, rfl⟩)⟩
    have hsame : ∀ t, t ∈ ids ↔ Names count mask base t := by
      intro t
      rw [hmem, hnames]
      refine exists_congr fun i => and_congr_right fun hi => ?_
      rw [Nat.mod_eq_of_lt (hsmall i hi)]
    exact ⟨fun _ => ⟨ids, rfl, hsame⟩, fun hno => absurd (fun t ht => hlt t ((hsame t).mpr ht)) hno⟩

/-- Where they wrap the call is answered although a named hart does not exist. -/
lemma targets_wraps (hcount : count ≤ 2 ^ 64) (h : Wraps count mask base) :
    ¬ Exist count mask base ∧ (targets count mask base).isSome := by
  obtain ⟨hbase, ⟨i, hi, hbig⟩, hsmall⟩ := h
  constructor
  · intro hall
    have hlt := hall (base.toNat + i) (by rw [Names, if_neg hbase]; exact ⟨i, hi, rfl⟩)
    omega
  · cases ht : targets count mask base with
    | some ids => rfl
    | none =>
      obtain ⟨k, hk, hle⟩ := targets_none hbase ht
      have hlt := hsmall k hk
      omega

end Targets

/-! ## The two calls -/

/-- This hart has not been signalled. -/
structure NotReached (s s' : Hart) : Prop where
  csrs : s'.cpu.csrs = s.cpu.csrs
  mmu : s'.cpu.mmu = s.cpu.mmu
  dcache : s'.cpu.dcache = s.cpu.dcache

/-- What a call with a mask should do: signal the named harts if all of them exist, and no hart
otherwise. -/
structure Obeys (msg : Message) (s s' : Hart) : Prop where
  reached : Exist s.sys.numHarts s.call.a0 s.call.a1 →
    s'.cpu.lastWritten 10 = success ∧
    (∀ t, Names s.sys.numHarts s.call.a0 s.call.a1 t → if t = s.cpu.hartid then msg.Done s'.cpu
      else s'.sys.letters t = msg.post (s.sys.letters t)) ∧
    ∀ t, ¬ Names s.sys.numHarts s.call.a0 s.call.a1 t → s'.sys.letters t = s.sys.letters t ∧
      (t = s.cpu.hartid → NotReached s s')
  refused : ¬ Exist s.sys.numHarts s.call.a0 s.call.a1 →
    s'.cpu.lastWritten 10 = errInvalidParam ∧ s'.sys.letters = s.sys.letters ∧ NotReached s s'

/-- The calls that take a mask, and the message they send. -/
def TakesMask (s : Hart) (msg : Message) : Prop :=
  s.call.eid = extIpi ∧ s.call.fid = 0 ∧ msg = .ipi ∨
    s.call.eid = extRfence ∧ s.call.fid ≤ 2 ∧ msg = .fence

instance : IsPreorder Hart NotReached where
  refl _ := ⟨rfl, rfl, rfl⟩
  trans _ _ _ h g := ⟨g.csrs.trans h.csrs, g.mmu.trans h.mmu, g.dcache.trans h.dcache⟩

lemma notReached_read (s : Hart) (i : ℕ) : NotReached s { s with cpu := (s.cpu.getReg i).2 } := by
  have hread : (s.cpu.getReg i).2 = { s.cpu with regfile := (s.cpu.getReg i).2.regfile } := by
    unfold Cpu.getReg
    split
    · rfl
    · split <;> rfl
  rw [hread]
  exact ⟨rfl, rfl, rfl⟩

lemma notReached_setReturn (error value : U64) (s : Hart) :
    NotReached s (final (setReturn error value) s) := by
  have hwrite : ∀ (s : Hart) (i : ℕ) (v : U64),
    NotReached s { s with cpu := s.cpu.setReg i v } := by
    intro s i v
    rw [Cpu.setReg_eq]
    exact ⟨rfl, rfl, rfl⟩
  exact trans_of NotReached (hwrite s 10 error) (hwrite _ 11 value)

/-- What the answer to a call with a mask is. -/
structure MaskAnswer (msg : Message) (s s' : Hart) : Prop where
  some : ∀ ids, targets s.sys.numHarts s.call.a0 s.call.a1 = some ids →
    s'.cpu.lastWritten 10 = success ∧
    (∀ t, s'.sys.letters t =
      if t ∈ ids ∧ t ≠ s.cpu.hartid then msg.post (s.sys.letters t) else s.sys.letters t) ∧
    (s.cpu.hartid ∈ ids → msg.Done s'.cpu) ∧ (s.cpu.hartid ∉ ids → NotReached s s')
  none : targets s.sys.numHarts s.call.a0 s.call.a1 = none →
    s'.cpu.lastWritten 10 = errInvalidParam ∧ s'.sys.letters = s.sys.letters ∧ NotReached s s'

/-- The state in which a call has read its number and its first argument. -/
def entered (s : Hart) : Hart :=
  { s with cpu := (((s.cpu.getReg 17).2.getReg 16).2.getReg 10).2 }

lemma notReached_entered (s : Hart) : NotReached s (entered s) :=
  trans_of NotReached (trans_of NotReached (notReached_read s 17) (notReached_read _ 16))
    (notReached_read _ 10)

lemma maskAnswer {send : ℕ → HartM Unit} {own : Hart → Hart} {f : Mailbox → Mailbox} {msg : Message}
    (h : Signals send own f) (hpost : ∀ m, (f m).letters = msg.post m.letters)
    (hdone : ∀ s, msg.Done (own s).cpu) (hkind : msg = .ipi ∨ msg = .fence) (s : Hart) :
    MaskAnswer msg s (final (broadcast send s.call.a0) (entered s)) := by
  have hid : (entered s).cpu.hartid = s.cpu.hartid := by simp [entered]
  have hread := trans_of NotReached (notReached_entered s) (notReached_read (entered s) 11)
  have htargets : targets (entered s).sys.numHarts s.call.a0 ((entered s).cpu.getReg 11).1 =
      targets s.sys.numHarts s.call.a0 s.call.a1 := rfl
  rw [h.broadcast, hid, htargets]
  constructor
  · intro ids hids
    rw [hids]
    refine ⟨lastWritten_setReturn success 0 _, fun t => ?_, fun hself => ?_, fun hself => ?_⟩
    · refine (h.letters hpost _ _ ids t).trans ?_
      rw [Cpu.getReg_hartid, hid]
      rfl
    · dsimp only
      rw [if_pos hself]
      exact Message.done_setReg hkind 11 0 (Message.done_setReg hkind 10 success (hdone _))
    · dsimp only
      rw [if_neg hself]
      have hreturn := notReached_setReturn success 0
        (({ entered s with cpu := ((entered s).cpu.getReg 11).2 } : Hart).post ids f)
      exact ⟨hreturn.csrs.trans hread.csrs, hreturn.mmu.trans hread.mmu,
        hreturn.dcache.trans hread.dcache⟩
  · intro hids
    rw [hids]
    exact ⟨lastWritten_setReturn errInvalidParam 0 _, rfl,
      trans_of NotReached hread (notReached_setReturn errInvalidParam 0 _)⟩

lemma handleEcall_mask {s : Hart} {msg : Message} (h : TakesMask s msg) :
    MaskAnswer msg s (final handleEcall s) := by
  have hrun : final handleEcall s = final (dispatch s.call.eid s.call.fid s.call.a0) (entered s) :=
    rfl
  rw [hrun]
  rcases h with ⟨heid, hfid, rfl⟩ | ⟨heid, hfid, rfl⟩
  · rw [heid, hfid]
    exact maskAnswer signals_ipiTo (fun _ => rfl) raiseInterrupt_done (.inl rfl) s
  · have hcall : dispatch extRfence s.call.fid s.call.a0 = broadcast fenceTo s.call.a0 :=
      if_neg (BitVec.not_lt.mpr hfid)
    rw [heid, hcall]
    exact maskAnswer signals_fenceTo (fun _ => rfl) remoteFence_done (.inr rfl) s

/-- **Hart masks.**  A call with a mask does what it should unless a named number wraps to one of an
existing hart. -/
theorem mask_obeyed_iff {s : Hart} {msg : Message} (hcount : s.sys.numHarts ≤ 2 ^ 64)
    (h : TakesMask s msg) :
    Obeys msg s (final handleEcall s) ↔ ¬ Wraps s.sys.numHarts s.call.a0 s.call.a1 := by
  have hanswer := handleEcall_mask h
  constructor
  · intro hobeys hwraps
    obtain ⟨hno, hsome⟩ := targets_wraps hcount hwraps
    obtain ⟨ids, hids⟩ := Option.isSome_iff_exists.mp hsome
    exact absurd ((hanswer.some ids hids).1.symm.trans (hobeys.refused hno).1) (by decide)
  · intro hwraps
    obtain ⟨hreached, hrefused⟩ := targets_names hwraps
    constructor
    · intro hall
      obtain ⟨ids, hids, hmem⟩ := hreached hall
      obtain ⟨hcode, hletters, hown, hnot⟩ := hanswer.some ids hids
      refine ⟨hcode, fun t ht => ?_, fun t ht => ⟨?_, ?_⟩⟩
      · split
        · next hself => exact hown (hself ▸ (hmem t).mpr ht)
        · next hself => rw [hletters, if_pos ⟨(hmem t).mpr ht, hself⟩]
      · rw [hletters, if_neg fun hin => ht ((hmem t).mp hin.1)]
      · rintro rfl
        exact hnot fun hin => ht ((hmem _).mp hin)
    · intro hno
      exact hanswer.none (hrefused hno)

/-- A hart of two that is about to interrupt the other one. -/
def plainCall : Hart :=
  { cpu := (Cpu.new.setReg 17 extIpi).setReg 10 2
    sys := (Machine.init (.plain 2 4096 page_fits)).sys }

theorem mask_obeyed_sample : Obeys .ipi plainCall (final handleEcall plainCall) := by
  refine (mask_obeyed_iff (by decide) (.inl ⟨by decide, by decide, rfl⟩)).mpr ?_
  rintro ⟨-, ⟨i, ⟨hi, -⟩, hbig⟩, -⟩
  have hbase : plainCall.call.a1.toNat = 0 := by decide
  omega

/-- A guest with two harts asks for an interrupt of hart `base + 2` where the base is two less than
`2 ^ 64`.  There is no such hart; hart 0 gets the interrupt, and the answer is SUCCESS. -/
theorem wrapped_mask_signals :
    let m := (Machine.init (.plain 2 4096 page_fits)).run [.loadImage dramBase
      (codeBytes [0x007358b7, 0x04988893, 0x00400513, 0xffe00593, 0x00000073]),
      .enterSupervisor dramBase 0, .step 0, .step 0, .step 0, .step 0]
    let n := m.act (.step 0)
    ((m.hart 0).firmwareCall.isSome = true ∧ (m.harts 0).regs 17 = extIpi ∧
      (m.harts 0).regs 16 = 0 ∧ (m.harts 0).regs 10 = 4 ∧ (m.harts 0).regs 11 = -2) ∧
    (m.sys.numHarts = 2 ∧ ¬ ((m.harts 0).regs 11).toNat + 2 < m.sys.numHarts) ∧
    (n.harts 0).regs 10 = success ∧
    (m.harts 0).csrs.raw Csr.mip &&& Csr.mipSsip = 0 ∧
    (n.harts 0).csrs.raw Csr.mip &&& Csr.mipSsip ≠ 0 := by
  decide +kernel

end Sbi

end RiscvEmu
