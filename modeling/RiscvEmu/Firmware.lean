import Mathlib.Data.List.Nodup
import RiscvEmu.Shared

/-!
# Calls of the firmware

A supervisor asks the firmware to interrupt other harts, to make them drop what they cached, and to
start and stop them.  This is the only way one hart writes into the mailbox of another, reservations
apart: a step that makes no call leaves every letter alone (`letters_step`), and what a call does is
one of five answers (`answer_handleEcall`).
-/

namespace RiscvEmu

open Exec BitField Window

/-! ## Letters -/

/-- The mailboxes without the reservations. -/
def Sys.letters (s : Sys) (i : ℕ) : Mailbox := (s.mail i).letters

lemma DeviceMoves.mail {s t : Sys} (h : DeviceMoves s t) : t.mail = s.mail := by
  induction h with
  | refl => rfl
  | tail _ hstep ih =>
    cases hstep with
    | quiet hq => exact hq.mail.trans ih
    | dma _ => exact ih

lemma letters_of_mail {s t : Sys} (h : t.mail = s.mail) : t.letters = s.letters := by
  funext i
  rw [Sys.letters, h]
  rfl

lemma busStore_mail {addr : U64} {size : ℕ} {value : U64} {s s' : Sys}
    (h : Bus.store addr size value s = .ok () s') : s'.mail = s.mail := by
  rcases busStore_ok h with ⟨-, ram, -, rfl⟩ | ⟨-, hmoves, -⟩
  · rfl
  · exact hmoves.mail

lemma accessKeeps_letters : AccessKeeps (SameShared Sys.letters) where
  load pa size ty s := letters_of_mail (quiet_busLoad pa size ty s).mail
  stored _ _ _ s t h _ := letters_of_mail (s := s) (t := t) (busStore_mail h)
  writtenBack _ _ s t h _ := letters_of_mail (s := s) (t := t) (busStore_mail h)
  refused _ _ _ _ _ _ h := letters_of_mail (busStore_error h).2.mail
  record _ _ := rfl
  reserve _ _ h := funext h
  markCode _ _ := rfl

/-! ## Steps that call the firmware -/

/-- Does a hart in this state answer `inst` itself, as its firmware? -/
def Cpu.CallsFirmware (c : Cpu) (inst : DecodedInst) : Prop :=
  IsEcall inst ∧ inst.rd = 0 ∧ inst.rs1 = 0 ∧ c.priv.val = privSupervisor ∧ c.sbiEnabled = true

instance (c : Cpu) (inst : DecodedInst) : Decidable (c.CallsFirmware inst) :=
  inferInstanceAs
    (Decidable (((inst.opcode = Opcode.system ∧ inst.funct3 = 0) ∧ systemImm inst = 0) ∧
    inst.rd = 0 ∧ inst.rs1 = 0 ∧ c.priv.val = privSupervisor ∧ c.sbiEnabled = true))

/-- The state in which the next step of a hart answers a call, if it does. -/
def Hart.firmwareCall (s : Hart) : Option Hart :=
  if s.cpu.nextInterrupt.isSome then none
  else match nextInst s with
    | .error _ _ => none
    | .ok inst t => if t.cpu.CallsFirmware inst then some (t.begin inst) else none

/-- An ECALL is answered here or refused. -/
lemma execute_ecall {inst : DecodedInst} (h : IsEcall inst) (s : Hart) :
    (s.cpu.CallsFirmware inst → execute inst s = Sbi.handleEcall s) ∧
      (¬ s.cpu.CallsFirmware inst → ∃ t, execute inst s = .error t s) := by
  have hexec : execute inst =
      if inst.rd ≠ 0 ∨ inst.rs1 ≠ 0 then throw (illegal inst) else executeEcall := by
    rw [execute_system h.1.1, executeSystem, if_neg (not_not.mpr h.1.2), if_pos h.2]
  rw [hexec]
  constructor
  · rintro ⟨-, hrd, hrs1, hpriv, hsbi⟩
    rw [if_neg (by simp [hrd, hrs1])]
    change (if s.cpu.priv.val = privUser then _ else _ : HartM Unit) s = _
    rw [if_neg (by rw [hpriv]; decide), if_pos hpriv, if_pos hsbi]
  · intro hno
    by_cases hops : inst.rd ≠ 0 ∨ inst.rs1 ≠ 0
    · rw [if_pos hops]
      exact ⟨_, rfl⟩
    · rw [if_neg hops]
      change ∃ t, (if s.cpu.priv.val = privUser then _ else _ : HartM Unit) s = .error t s
      split
      · exact ⟨_, rfl⟩
      · split
        · next hpriv =>
            rw [if_neg fun hsbi => hno ⟨h, by tauto, by tauto, hpriv, hsbi⟩]
            exact ⟨_, rfl⟩
        · exact ⟨_, rfl⟩

lemma instrKeeps_letters {inst : DecodedInst} (h : ¬ IsEcall inst) :
    InstrKeeps inst (OnShared (SameShared Sys.letters)) :=
  { accessKeeps_letters.probe with
    update := fun f hf s => by
      cases hf with
      | sendIpi _ hcall | sendFence _ hcall | sendStart _ _ _ hcall | stop hcall =>
        exact absurd hcall h
      | _ => rfl
    csrWrite := fun _ v => accessKeeps_letters.csrWrite _ v }

lemma letters_execute (inst : DecodedInst) (s : Hart) (h : ¬ s.cpu.CallsFirmware inst) :
    (final (execute inst) s).sys.letters = s.sys.letters := by
  by_cases hcall : IsEcall inst
  · obtain ⟨t, ht⟩ := (execute_ecall hcall s).2 h
    rw [final_of_error ht]
  · exact (instrKeeps_letters hcall).execute s

lemma step_letters_eq (s : Hart) : s.step.sys.letters = (final stepCore s).sys.letters := by
  unfold Hart.step final
  cases stepCore s <;> rfl

variable {s s₃ : Hart} {send : ℕ → HartM Unit} {own : Hart → Hart} {f : Mailbox → Mailbox}
  {ids : List ℕ}

/-- A step that makes no call leaves the letters alone. -/
theorem letters_step (h : s.firmwareCall = none) : s.step.sys.letters = s.sys.letters := by
  rw [step_letters_eq]
  have hexec : ∀ inst s₁, nextInst s = .ok inst s₁ → s.cpu.nextInterrupt = none →
      (final (execute inst) (s₁.begin inst)).sys.letters = (s₁.begin inst).sys.letters := by
    intro inst s₁ hn hi
    refine letters_execute inst (s₁.begin inst) fun hcall => ?_
    rw [Hart.firmwareCall, hi, hn] at h
    exact absurd (h.symm.trans (if_pos hcall)) nofun
  cases stepEnd accessKeeps_letters.stepKeeps s fun inst s₁ e t hn hi he =>
    (final_of_error he ▸ hexec inst s₁ hn hi :) with
  | trapped _ hkept => exact hkept
  | retired hi hn he hfetch hfinal =>
    rw [hfinal]
    exact (final_of_ok he ▸ hexec _ _ hn hi :).trans hfetch

lemma final_handleEcall (s : Hart) : Sbi.handleEcall s = .ok () (final Sbi.handleEcall s) := by
  have hcall : Window.plain.Acts ecallInst Sbi.handleEcall := acts_handleEcall ⟨⟨rfl, rfl⟩, rfl⟩
  obtain ⟨_, t, ht⟩ := hcall.commit.total s
  rw [final_of_ok ht, ht]

/-- The step of a call is the answer to it. -/
theorem step_firmwareCall {t : Hart} (h : s.firmwareCall = some t) :
    s.step = (final Sbi.handleEcall t).retire.publishLive ∧ t.sys.letters = s.sys.letters ∧
      t.cpu.hartid = s.cpu.hartid := by
  unfold Hart.firmwareCall at h
  split at h
  · cases h
  next hi =>
  have hi : s.cpu.nextInterrupt = none := by simpa using hi
  split at h
  · cases h
  next inst s₁ hn =>
  split at h
  · next hcall =>
      cases h
      have hexec : execute inst (s₁.begin inst) = .ok () (final Sbi.handleEcall (s₁.begin inst)) :=
        ((execute_ecall hcall.1 (s₁.begin inst)).1 hcall).trans (final_handleEcall _)
      have hletters : s₁.sys.letters = s.sys.letters := accessKeeps_letters.nextInst.of_ok hn
      have hid : s₁.cpu.hartid = s.cpu.hartid := hartKeeps_sameId.nextInst.of_ok hn
      refine ⟨?_, hletters, hid⟩
      rw [Hart.step, stepCore_of_ok hi (instruction_of_ok hn hexec)]
  · cases h

/-! ## Registers of a call -/

/-- The value last written to a register that is kept in the array or by a backend. -/
def Cpu.lastWritten (c : Cpu) (i : ℕ) : U64 :=
  match c.regfile with
  | none => c.regs i
  | some rf => (rf.calls.findSome? fun
      | .write k v => if k = i then some v else none
      | .read _ => none).getD 0

lemma Cpu.lastWritten_setReg_self (c : Cpu) {i : ℕ} (v : U64) (h0 : i ≠ 0) (hi : i < numRegs) :
    (c.setReg i v).lastWritten i = v := by
  unfold lastWritten setReg
  rw [if_neg (by omega)]
  cases c.regfile with
  | none => simp
  | some rf => simp [RegFileBackend.write]

lemma Cpu.lastWritten_setReg_ne (c : Cpu) {i k : ℕ} (v : U64) (h : i ≠ k) :
    (c.setReg k v).lastWritten i = c.lastWritten i := by
  unfold lastWritten setReg
  by_cases hk : k = 0 ∨ k ≥ numRegs
  · rw [if_pos hk]
  · rw [if_neg hk]
    cases c.regfile with
    | none => simp [h]
    | some rf => simp [RegFileBackend.write, h.symm]

@[simp] lemma Cpu.getReg_hartid (c : Cpu) (i : ℕ) : (c.getReg i).2.hartid = c.hartid := by
  unfold getReg
  split
  · rfl
  · split <;> rfl

namespace Sbi

/-- The arguments of a call. -/
structure Call where
  eid : U64
  fid : U64
  a0 : U64
  a1 : U64
  a2 : U64

end Sbi

/-- The arguments in the order in which a call reads them. -/
def Hart.call (s : Hart) : Sbi.Call :=
  let eid := s.cpu.getReg 17
  let fid := eid.2.getReg 16
  let a0 := fid.2.getReg 10
  let a1 := a0.2.getReg 11
  ⟨eid.1, fid.1, a0.1, a1.1, (a1.2.getReg 12).1⟩

/-! ## Messages -/

/-- What a supervisor asks of a hart. -/
inductive Message where
  | ipi
  | fence
  | start (addr arg : U64)

namespace Message

/-- The flag in the mailbox. -/
def flag : Message → U32
  | ipi => mbIpi
  | fence => mbFence
  | start _ _ => mbStart

/-- Put a message in a mailbox. -/
def post : Message → Mailbox → Mailbox
  | ipi, m => m.sendIpi
  | fence, m => m.sendFence
  | start addr arg, m => m.sendStart addr arg

/-- A hart has done what a message asks for. -/
def Done (c : Cpu) : Message → Prop
  | ipi => c.csrs.raw Csr.mip &&& Csr.mipSsip ≠ 0
  | fence => (∀ i, (c.mmu.tlb i).tag = invalidTag) ∧ ∀ i, (c.dcache i).pc = ~~~0
  | start addr arg => c.pc = addr ∧ c.lastWritten 10 = BitVec.ofNat 64 c.hartid ∧
      c.lastWritten 11 = arg ∧ c.priv = .supervisor ∧ c.csrs.read Csr.satp = 0 ∧
      c.csrs.mstatus &&& (Csr.mstatusSie ||| Csr.mstatusSpie) = 0 ∧ c.waitingForInterrupt = false ∧
      c.reservationValid = false ∧ (∀ i, (c.mmu.tlb i).tag = invalidTag) ∧
      ∀ i, (c.dcache i).pc = ~~~0

end Message

namespace Sbi

/-- A call names a hart as one to get a message. -/
def Call.Asks (c : Call) (count : ℕ) : Message → ℕ → Prop
  | .ipi, t => c.eid = extIpi ∧ ∃ ids, targets count c.a0 c.a1 = some ids ∧ t ∈ ids
  | .fence, t => c.eid = extRfence ∧ ∃ ids, targets count c.a0 c.a1 = some ids ∧ t ∈ ids
  | .start addr arg, t => c.eid = extHsm ∧ c.fid = 0 ∧ c.a0.toNat = t ∧ c.a1 = addr ∧ c.a2 = arg

end Sbi

/-- The call asks for a message to `t`, and its answer is SUCCESS. -/
def Hart.Sends (s : Hart) (msg : Message) (t : ℕ) : Prop :=
  s.call.Asks s.sys.numHarts msg t ∧ (final Sbi.handleEcall s).cpu.lastWritten 10 = Sbi.success

/-! ## The answers -/

/-- Replace all mailboxes. -/
def Hart.setMail (s : Hart) (mail : ℕ → Mailbox) : Hart :=
  { s with sys := { s.sys with mail := mail } }

/-- Leave something in the mailboxes of the selected harts other than this one. -/
def Hart.post (s : Hart) (ids : List ℕ) (f : Mailbox → Mailbox) : Hart :=
  s.setMail fun t => if t ∈ ids ∧ t ≠ s.cpu.hartid then f (s.sys.mail t) else s.sys.mail t

/-- What the two messages that take a mask have in common: this hart acts on its own, the others
find it in their mailbox. -/
structure Signals (send : ℕ → HartM Unit) (own : Hart → Hart) (f : Mailbox → Mailbox) : Prop where
  apply : ∀ id s, send id s = .ok () (if id = s.cpu.hartid then own s else s.mapPeer id f)
  hartid : ∀ s, (own s).cpu.hartid = s.cpu.hartid
  mail : ∀ s mail, own (s.setMail mail) = (own s).setMail mail

lemma signals_ipiTo : Signals Sbi.ipiTo
    (fun s => { s with cpu := { s.cpu with csrs := s.cpu.csrs.raiseInterrupt Csr.mipSsip } })
    Mailbox.sendIpi where
  apply _ _ := rfl
  hartid _ := rfl
  mail _ _ := rfl

lemma signals_fenceTo : Signals Sbi.fenceTo Hart.remoteFence Mailbox.sendFence where
  apply _ _ := rfl
  hartid _ := rfl
  mail _ _ := rfl

lemma Signals.own_mail (h : Signals send own f) (s : Hart) : (own s).sys.mail = s.sys.mail := by
  have hsame : own s = (own s).setMail s.sys.mail := h.mail s s.sys.mail
  rw [hsame]
  rfl

lemma Hart.post_cons {id : ℕ} (f : Mailbox → Mailbox) (hid : id ∉ ids)
    (hne : id ≠ s.cpu.hartid) : (s.mapPeer id f).post ids f = s.post (id :: ids) f := by
  refine congrArg s.setMail (funext fun t => ?_)
  change (if t ∈ ids ∧ t ≠ s.cpu.hartid then f (Function.update s.sys.mail id _ t)
    else Function.update s.sys.mail id _ t) = _
  rcases eq_or_ne t id with rfl | ht
  · simp [hid, hne]
  · simp [ht]

/-- Every selected hart is reached once. -/
lemma Signals.forM (h : Signals send own f) (hids : ids.Nodup) (s : Hart) :
    ids.forM send s = .ok () ((if s.cpu.hartid ∈ ids then own s else s).post ids f) := by
  induction ids generalizing s with
  | nil => simp [Hart.post, Hart.setMail]
  | cons id ids ih =>
    obtain ⟨hid, hrest⟩ := List.nodup_cons.mp hids
    change (send id >>= fun _ => ids.forM send) s = _
    rw [bind_of_ok (h.apply id s)]
    rcases eq_or_ne id s.cpu.hartid with rfl | hne
    · rw [if_pos rfl, ih hrest, if_neg (by rwa [h.hartid]), if_pos List.mem_cons_self]
      refine congrArg (fun mail => EStateM.Result.ok () ((own s).setMail mail)) (funext fun t => ?_)
      simp only [h.hartid, List.mem_cons, or_and_right, and_not_self_iff, ne_eq, false_or]
    · have hown : own (s.mapPeer id f) = (own s).mapPeer id f := by
        change own (s.setMail _) = (own s).setMail _
        rw [h.mail, h.own_mail]
      have hmem : s.cpu.hartid ∈ id :: ids ↔ s.cpu.hartid ∈ ids := by simp [hne.symm]
      rw [if_neg hne, ih hrest]
      change EStateM.Result.ok () ((if s.cpu.hartid ∈ ids then _ else _ : Hart).post ids f) = _
      by_cases hself : s.cpu.hartid ∈ ids
      · rw [if_pos hself, if_pos (hmem.mpr hself), hown, Hart.post_cons f hid (by rwa [h.hartid])]
      · rw [if_neg hself, if_neg (hmem.not.mpr hself), Hart.post_cons f hid hne]

lemma Sbi.targets_nodup {count : ℕ} {mask base : U64}
    (h : targets count mask base = some ids) : ids.Nodup := by
  unfold targets at h
  split at h
  · cases h
    exact List.nodup_range
  · dsimp only at h
    split at h
    · cases h
      refine List.Nodup.map_on ?_ (List.nodup_range.filter _)
      intro i hi k hk heq
      have hi : i < 64 := by simpa using (List.mem_filter.mp hi).1
      have hk : k < 64 := by simpa using (List.mem_filter.mp hk).1
      bv_omega
    · cases h

/-- What an answer to a call does to the letters, and what it says. -/
inductive Sbi.Answer (s s' : Hart) : Prop
  /-- An interrupt or a fence for the harts of a mask. -/
  | signal (msg : Message) (hmsg : msg = .ipi ∧ s.call.eid = extIpi ∨ msg = .fence ∧
    s.call.eid = extRfence)
      (ids : List ℕ) (hids : targets s.sys.numHarts s.call.a0 s.call.a1 = some ids)
      (hletters : ∀ t, s'.sys.letters t =
        if t ∈ ids ∧ t ≠ s.cpu.hartid then msg.post (s.sys.letters t) else s.sys.letters t)
      (hown : s.cpu.hartid ∈ ids → msg.Done s'.cpu)
      (hcode : s'.cpu.lastWritten 10 = success)
  /-- A stopped hart is started. -/
  | start (hcall : s.call.eid = extHsm ∧ s.call.fid = 0) (ht : s.call.a0.toNat < s.sys.numHarts)
      (hparked : (s.sys.letters s.call.a0.toNat).parked = true)
      (hletters : s'.sys.letters = Function.update s.sys.letters s.call.a0.toNat
        ((s.sys.letters s.call.a0.toNat).sendStart s.call.a1 s.call.a2))
      (hcode : s'.cpu.lastWritten 10 = success)
  /-- The hart stops itself. -/
  | stop (hcall : s.call.eid = extHsm ∧ s.call.fid = 1)
      (hletters : s'.sys.letters = Function.update s.sys.letters s.cpu.hartid
        { s.sys.letters s.cpu.hartid with parked := true })
  | nothing (hletters : s'.sys.letters = s.sys.letters)
      (hcode : ∀ msg t, s.call.Asks s.sys.numHarts msg t → s'.cpu.lastWritten 10 ≠ success)

lemma Sbi.lastWritten_setReturn (error value : U64) (s : Hart) :
    (final (setReturn error value) s).cpu.lastWritten 10 = error := by
  change ((s.cpu.setReg 10 error).setReg 11 value).lastWritten 10 = error
  rw [Cpu.lastWritten_setReg_ne _ _ (by decide),
    Cpu.lastWritten_setReg_self _ _ (by decide) (by decide)]

/-- A call that could be made by another instruction leaves the letters alone. -/
lemma letters_of_commit {α : Type} {m : HartM α}
    (h : ∀ inst, IsPrivileged inst → Window.plain.Acts inst m)
    (s : Hart) : (final m s).sys.letters = s.sys.letters := by
  have hnot : ¬ IsEcall { ecallInst with imm := 1 } := by
    rintro ⟨-, himm⟩
    exact absurd himm (by decide)
  exact (h { ecallInst with imm := 1 } ⟨rfl, rfl⟩).commit.keeps (instrKeeps_letters hnot) s

variable {msg : Message}

lemma Message.done_setReg (hmsg : msg = .ipi ∨ msg = .fence) {c : Cpu} (i : ℕ)
    (v : U64) (h : msg.Done c) : msg.Done (c.setReg i v) := by
  rw [Cpu.setReg_eq]
  rcases hmsg with rfl | rfl
  · exact h
  · exact h

lemma letters_post
    (hpost : ∀ m, (f m).letters = msg.post m.letters) (s : Hart) (ids : List ℕ) (t : ℕ) :
    (s.post ids f).sys.letters t =
      if t ∈ ids ∧ t ≠ s.cpu.hartid then msg.post (s.sys.letters t) else s.sys.letters t := by
  change Mailbox.letters (if t ∈ ids ∧ t ≠ s.cpu.hartid then _ else _) = _
  split
  · exact hpost _
  · rfl

lemma Signals.broadcast (h : Signals send own f) (mask : U64) (s : Hart) :
    final (Sbi.broadcast send mask) s =
      let t : Hart := { s with cpu := (s.cpu.getReg 11).2 }
      match Sbi.targets s.sys.numHarts mask (s.cpu.getReg 11).1 with
      | some ids => final (Sbi.setReturn Sbi.success 0)
          ((if s.cpu.hartid ∈ ids then own t else t).post ids f)
      | none => final (Sbi.setReturn Sbi.errInvalidParam 0) t := by
  have hread : readReg 11 s = .ok (s.cpu.getReg 11).1 { s with cpu := (s.cpu.getReg 11).2 } := rfl
  unfold Sbi.broadcast
  rw [final, bind_of_ok hread, bind_of_ok (get_apply _)]
  dsimp only
  cases hids : Sbi.targets s.sys.numHarts mask (s.cpu.getReg 11).1 with
  | none => rfl
  | some ids =>
    dsimp only
    rw [bind_of_ok (h.forM (Sbi.targets_nodup hids) _)]
    dsimp only
    rw [Cpu.getReg_hartid]
    rfl

/-- Whether this hart acts or not, the others find the message. -/
lemma Signals.letters (h : Signals send own f) (hpost : ∀ m, (f m).letters = msg.post m.letters)
    (c : Prop) [Decidable c] (s : Hart) (ids : List ℕ) (t : ℕ) :
    ((if c then own s else s).post ids f).sys.letters t =
      if t ∈ ids ∧ t ≠ s.cpu.hartid then msg.post (s.sys.letters t) else s.sys.letters t := by
  split
  · rw [letters_post hpost, h.hartid, letters_of_mail (h.own_mail s)]
  · exact letters_post hpost s ids t

lemma Signals.answer (h : Signals send own f) (hpost : ∀ m, (f m).letters = msg.post m.letters)
    (hdone : ∀ s, msg.Done (own s).cpu)
    (hmsg : msg = .ipi ∧ s.call.eid = Sbi.extIpi ∨ msg = .fence ∧ s.call.eid = Sbi.extRfence)
    (hsys : s₃.sys = s.sys) (hid : s₃.cpu.hartid = s.cpu.hartid)
    (ha1 : (s₃.cpu.getReg 11).1 = s.call.a1) :
    Sbi.Answer s (final (Sbi.broadcast send s.call.a0) s₃) := by
  rw [h.broadcast, ha1, hsys, hid]
  cases hids : Sbi.targets s.sys.numHarts s.call.a0 s.call.a1 with
  | none =>
    refine .nothing ?_ fun _ _ _ => ?_
    · exact letters_of_commit (fun _ _ => acts_setReturn _ _) _
    · exact ne_of_eq_of_ne (Sbi.lastWritten_setReturn Sbi.errInvalidParam 0 _) (by decide)
  | some ids =>
    refine .signal msg hmsg ids hids (fun t => ?_) (fun hself => ?_)
      (Sbi.lastWritten_setReturn Sbi.success 0 _)
    · refine (h.letters hpost _ _ ids t).trans ?_
      rw [Cpu.getReg_hartid, hid]
    · dsimp only
      rw [if_pos hself]
      have hkind : msg = .ipi ∨ msg = .fence := hmsg.imp And.left And.left
      exact Message.done_setReg hkind 11 0 (Message.done_setReg hkind 10 Sbi.success (hdone _))

lemma Sbi.answer_quiet {m : HartM Unit} (h : ∀ inst, IsPrivileged inst → Window.plain.Acts inst m)
    (hsys : s₃.sys = s.sys) (hcode : ∀ msg t, s.call.Asks s.sys.numHarts msg t →
      (final m s₃).cpu.lastWritten 10 ≠ success) :
    Answer s (final m s₃) :=
  .nothing ((letters_of_commit h s₃).trans (by rw [hsys])) hcode

lemma Sbi.answer_hartStart (heid : s.call.eid = extHsm) (hfid : s.call.fid = 0)
    (hsys : s₃.sys = s.sys) (ha1 : (s₃.cpu.getReg 11).1 = s.call.a1)
    (ha2 : ((s₃.cpu.getReg 11).2.getReg 12).1 = s.call.a2) :
    Answer s (final (hartStart s.call.a0) s₃) := by
  let s₅ : Hart := { s₃ with cpu := ((s₃.cpu.getReg 11).2.getReg 12).2 }
  have hrun : final (hartStart s.call.a0) s₃ = final (
      if s.call.a0.toNat ≥ s₅.sys.numHarts then setReturn errInvalidParam 0
      else if ¬ (s₅.sys.mail s.call.a0.toNat).parked then setReturn errAlreadyAvailable 0
      else do
        modify fun s' => s'.mapPeer s.call.a0.toNat fun m => m.sendStart s.call.a1 s.call.a2
        setReturn success 0) s₅ := by
    rw [← ha1, ← ha2]
    rfl
  have hrefuse : ∀ code : U64, code ≠ success → Answer s (final (setReturn code 0) s₅) :=
    fun code hne =>
    answer_quiet (fun _ _ => acts_setReturn _ _) hsys fun _ _ _ =>
      ne_of_eq_of_ne (lastWritten_setReturn code 0 s₅) hne
  rw [hrun]
  split_ifs with hcount hparked
  · exact hrefuse errInvalidParam (by decide)
  · have hs₅ : s₅.sys = s.sys := hsys
    rw [hs₅] at hcount hparked
    refine .start ⟨heid, hfid⟩ (by omega) hparked ?_ (lastWritten_setReturn success 0 _)
    change Mailbox.letters ∘ Function.update s₅.sys.mail _ _ = _
    rw [hs₅, Function.comp_update]
    rfl
  · exact hrefuse errAlreadyAvailable (by decide)

lemma Sbi.answer_hartStop (heid : s.call.eid = extHsm) (hfid : s.call.fid = 1)
    (hsys : s₃.sys = s.sys) (hid : s₃.cpu.hartid = s.cpu.hartid) :
      Answer s (final hartStop s₃) := by
  refine .stop ⟨heid, hfid⟩ ?_
  change Mailbox.letters ∘ Function.update s₃.sys.mail s₃.cpu.hartid _ = _
  rw [hsys, hid, Function.comp_update]
  rfl

lemma Sbi.answer_hsm (heid : s.call.eid = extHsm) (hsys : s₃.sys = s.sys)
    (hid : s₃.cpu.hartid = s.cpu.hartid) (ha1 : (s₃.cpu.getReg 11).1 = s.call.a1)
    (ha2 : ((s₃.cpu.getReg 11).2.getReg 12).1 = s.call.a2) :
    Answer s (final (hsm s.call.fid s.call.a0) s₃) := by
  unfold hsm
  by_cases h0 : s.call.fid = 0
  · rw [if_pos h0]
    exact answer_hartStart heid h0 hsys ha1 ha2
  rw [if_neg h0]
  by_cases h1 : s.call.fid = 1
  · rw [if_pos h1]
    exact answer_hartStop heid h1 hsys hid
  rw [if_neg h1]
  refine answer_quiet (fun inst _ => ?_) hsys ?_
  · exact .branch (acts_hartGetStatus _) (.branch (acts_hartSuspend _) (acts_setReturn _ _))
  -- the other functions of this extension ask for no message
  rintro (_ | _ | _) t hasks
  · exact absurd (heid.symm.trans hasks.1) (by decide)
  · exact absurd (heid.symm.trans hasks.1) (by decide)
  · exact absurd hasks.2.1 h0

lemma Sbi.answer_signal
    (msg : Message) (h : Signals send own f) (hpost : ∀ m, (f m).letters = msg.post m.letters)
    (hdone : ∀ s, msg.Done (own s).cpu)
    (hmsg : msg = .ipi ∧ s.call.eid = Sbi.extIpi ∨ msg = .fence ∧ s.call.eid = Sbi.extRfence)
    (hsys : s₃.sys = s.sys) (hid : s₃.cpu.hartid = s.cpu.hartid)
    (ha1 : (s₃.cpu.getReg 11).1 = s.call.a1) (unsupported : Prop) [Decidable unsupported] :
    Answer s (final (if unsupported then setReturn errNotSupported 0
      else broadcast send s.call.a0) s₃) := by
  split
  · exact answer_quiet (fun _ _ => acts_setReturn _ _) hsys fun _ _ _ =>
      ne_of_eq_of_ne (lastWritten_setReturn errNotSupported 0 s₃) (by decide)
  · exact h.answer hpost hdone hmsg hsys hid ha1

lemma remoteFence_done (s : Hart) : Message.fence.Done s.remoteFence.cpu :=
  ⟨fun _ => rfl, fun _ => rfl⟩

lemma raiseInterrupt_done (s : Hart) : Message.ipi.Done
    { s.cpu with csrs := s.cpu.csrs.raiseInterrupt Csr.mipSsip } := by
  change (s.cpu.csrs.raiseInterrupt Csr.mipSsip).raw Csr.mip &&& Csr.mipSsip ≠ 0
  rw [CsrFile.raiseInterrupt, CsrFile.setRaw_raw_self]
  intro h
  have hbit := congrArg (fun v : U64 => v.getLsbD 1) h
  simp [Csr.mipSsip] at hbit

/-- **Every answer of the firmware** signals the harts of a mask, starts a hart, stops the caller,
or says no. -/
theorem answer_handleEcall (s : Hart) : Sbi.Answer s (final Sbi.handleEcall s) := by
  let s₃ : Hart := { s with cpu := (((s.cpu.getReg 17).2.getReg 16).2.getReg 10).2 }
  have hsys : s₃.sys = s.sys := rfl
  have hid : s₃.cpu.hartid = s.cpu.hartid := by simp [s₃]
  change Sbi.Answer s (final (Sbi.dispatch s.call.eid s.call.fid s.call.a0) s₃)
  by_cases hipi : s.call.eid = Sbi.extIpi
  · rw [hipi]
    exact Sbi.answer_signal .ipi signals_ipiTo (fun _ => rfl) raiseInterrupt_done
      (.inl ⟨rfl, hipi⟩) hsys hid rfl (s.call.fid ≠ 0)
  by_cases hfence : s.call.eid = Sbi.extRfence
  · rw [hfence]
    exact Sbi.answer_signal .fence signals_fenceTo (fun _ => rfl) remoteFence_done
      (.inr ⟨rfl, hfence⟩) hsys hid rfl (s.call.fid > 2)
  by_cases hhsm : s.call.eid = Sbi.extHsm
  · rw [hhsm]
    exact Sbi.answer_hsm hhsm hsys hid rfl rfl
  -- no other extension asks for a message
  refine Sbi.answer_quiet (fun inst h => ?_) hsys ?_
  · unfold Sbi.dispatch
    rw [if_neg hipi, if_neg hfence, if_neg hhsm]
    refine .branch (acts_setTimer h _) (.branch (.pure _) (.branch acts_consoleGetchar ?_))
    refine .branch acts_shutdown (.branch (acts_base _ _) (.branch (acts_time h _ _) ?_))
    exact .branch (acts_srst _) (acts_setReturn _ _)
  · rintro (_ | _ | _) t hasks
    · exact absurd hasks.1 hipi
    · exact absurd hasks.1 hfence
    · exact absurd hasks.1 hhsm

/-! ## What follows for one mailbox -/

/-- A message waits in a mailbox. -/
def Mailbox.Holds (m : Mailbox) (msg : Message) : Prop := m.pending &&& msg.flag ≠ 0

lemma Mailbox.not_holds {m : Mailbox} (h : m.pending = 0) (msg : Message) : ¬ m.Holds msg := by
  simp [Holds, h]

lemma Message.post_pending (msg : Message) (m : Mailbox) :
    (msg.post m).pending = m.pending ||| msg.flag := by
  cases msg <;> rfl

lemma Message.flag_and (msg msg' : Message) :
    msg.flag &&& msg'.flag ≠ 0 ↔ msg.flag = msg'.flag := by
  cases msg <;> cases msg' <;> simp [flag, mbIpi, mbFence, mbStart]

lemma Message.holds_post (msg msg' : Message) (m : Mailbox) :
    (msg.post m).Holds msg' ↔ m.Holds msg' ∨ msg.flag = msg'.flag := by
  unfold Mailbox.Holds
  rw [post_pending, BitVec.and_or_distrib_right, ← flag_and]
  simp [-not_and, not_and_or]

lemma Sbi.Call.Asks.unique {c : Call} {count t t' : ℕ} {msg' : Message} (h : c.Asks count msg t)
    (h' : c.Asks count msg' t') : msg = msg' := by
  have heid : ∀ {a b : U64}, a ≠ b → c.eid = a → c.eid ≠ b :=
    fun hne ha hb => hne (ha.symm.trans hb)
  cases msg <;> cases msg'
  case ipi.ipi | fence.fence => rfl
  case start.start =>
    obtain ⟨-, -, -, rfl, rfl⟩ := h
    obtain ⟨-, -, -, rfl, rfl⟩ := h'
    rfl
  all_goals exact absurd h'.1 (heid (by decide) h.1)

/-- What the answer to a call does to the mailbox of one hart. -/
inductive Receives (s : Hart) (t : ℕ) (s' : Hart) : Prop
  /-- The message sent to the hart is put there. -/
  | posted (msg : Message) (hsent : s.Sends msg t)
      (hstart : ∀ addr arg, msg = .start addr arg → (s.sys.letters t).parked = true)
      (hother : t = s.cpu.hartid → ∃ addr arg, msg = .start addr arg)
      (hletters : s'.sys.letters t = msg.post (s.sys.letters t))
  /-- The hart stops itself. -/
  | stopped (ht : t = s.cpu.hartid) (hnone : ∀ msg, ¬ s.Sends msg t)
      (hletters : s'.sys.letters t = { s.sys.letters t with parked := true })
  /-- Nothing is put there: what the hart sent to itself is done. -/
  | same (hown : ∀ msg, s.Sends msg t →
        t = s.cpu.hartid ∧ (msg = .ipi ∨ msg = .fence) ∧ msg.Done s'.cpu)
      (hletters : s'.sys.letters t = s.sys.letters t)

theorem receives_handleEcall (s : Hart) (t : ℕ) : Receives s t (final Sbi.handleEcall s) := by
  cases answer_handleEcall s with
  | signal msg hmsg ids hids hletters hown hcode =>
    have hasks : ∀ id ∈ ids, s.call.Asks s.sys.numHarts msg id := by
      intro id hid
      rcases hmsg with ⟨rfl, heid⟩ | ⟨rfl, heid⟩ <;> exact ⟨heid, ids, hids, hid⟩
    by_cases hmem : t ∈ ids ∧ t ≠ s.cpu.hartid
    · have hnot : ∀ addr arg, msg ≠ .start addr arg := by
        rcases hmsg with ⟨rfl, -⟩ | ⟨rfl, -⟩ <;> simp
      refine .posted msg ⟨hasks t hmem.1, hcode⟩ (fun addr arg h => absurd h (hnot addr arg))
        (fun h => absurd h hmem.2) ?_
      rw [hletters, if_pos hmem]
    · refine .same (fun msg' hsent => ?_) (by rw [hletters, if_neg hmem])
      have hboth : t ∈ ids ∧ msg' = msg := by
        rcases hmsg with ⟨rfl, heid⟩ | ⟨rfl, heid⟩ <;> cases msg'
        case inl.ipi | inr.fence =>
          obtain ⟨-, ids', hids', hin⟩ := hsent.1
          cases hids.symm.trans hids'
          exact ⟨hin, rfl⟩
        all_goals exact absurd (heid.symm.trans hsent.1.1) (by decide)
      obtain ⟨hin, rfl⟩ := hboth
      have hself : t = s.cpu.hartid := not_not.mp fun hne => hmem ⟨hin, hne⟩
      exact ⟨hself, hmsg.imp And.left And.left, hown (hself ▸ hin)⟩
  | start hcall hcount hparked hletters hcode =>
    have hasks : s.call.Asks s.sys.numHarts (.start s.call.a1 s.call.a2) s.call.a0.toNat :=
      ⟨hcall.1, hcall.2, rfl, rfl, rfl⟩
    rcases eq_or_ne t s.call.a0.toNat with rfl | hne
    · exact .posted _ ⟨hasks, hcode⟩ (fun _ _ _ => hparked) (fun _ => ⟨_, _, rfl⟩)
        (by rw [hletters, Function.update_self]; rfl)
    · refine .same (fun msg hsent => ?_) (by rw [hletters, Function.update_of_ne hne])
      obtain rfl := hasks.unique hsent.1
      exact absurd hsent.1.2.2.1.symm hne
  | stop hcall hletters =>
    have hnone : ∀ msg, ¬ s.Sends msg t := by
      rintro (_ | _ | _) ⟨hasks, -⟩
      · exact absurd (hcall.1.symm.trans hasks.1) (by decide)
      · exact absurd (hcall.1.symm.trans hasks.1) (by decide)
      · exact absurd (hcall.2.symm.trans hasks.2.1) (by decide)
    rcases eq_or_ne t s.cpu.hartid with rfl | hne
    · exact .stopped rfl hnone (by rw [hletters, Function.update_self])
    · exact .same (fun msg hsent => absurd hsent (hnone msg))
        (by rw [hletters, Function.update_of_ne hne])
  | nothing hletters hno =>
    exact .same (fun msg hsent => absurd hsent.2 (hno msg t hsent.1)) (by rw [hletters])

/-! ## Reading the mailbox -/

lemma letters_startAt (s : Hart) (addr arg : U64) :
    (s.startAt addr arg).sys.letters = Function.update s.sys.letters s.cpu.hartid
      { s.sys.letters s.cpu.hartid with parked := false } := by
  refine (funext fun i => letters_reserve _ noRes i).trans ?_
  change Mailbox.letters ∘ Function.update s.sys.mail s.cpu.hartid
    { s.sys.mail s.cpu.hartid with parked := false } = _
  rw [Function.comp_update]
  rfl

/-- The interrupt and the fence among the messages. -/
def Hart.takeSignals (s : Hart) : Hart :=
  let flags := (s.sys.mail s.cpu.hartid).pending
  let s := s.mapMail fun m => { m with pending := 0 }
  let s := if flags &&& mbIpi ≠ 0 then
      { s with cpu := { s.cpu with csrs := s.cpu.csrs.raiseInterrupt Csr.mipSsip } }
    else s
  if flags &&& mbFence ≠ 0 then s.remoteFence else s

lemma applyMailbox_eq (h : (s.sys.mail s.cpu.hartid).pending ≠ 0) :
    s.applyMailbox = if (s.sys.mail s.cpu.hartid).pending &&& mbStart ≠ 0 then
        let m := s.takeSignals.sys.mail s.takeSignals.cpu.hartid
        s.takeSignals.startAt m.startAddr m.startOpaque
      else s.takeSignals := by
  rw [Hart.applyMailbox]
  exact if_neg h

lemma takeSignals_hartid (s : Hart) : s.takeSignals.cpu.hartid = s.cpu.hartid := by
  unfold Hart.takeSignals
  dsimp only
  split_ifs <;> rfl

lemma letters_takeSignals (s : Hart) :
    s.takeSignals.sys.letters = Function.update s.sys.letters s.cpu.hartid
      { s.sys.letters s.cpu.hartid with pending := 0 } := by
  have hmail : s.takeSignals.sys.mail = Function.update s.sys.mail s.cpu.hartid
      { s.sys.mail s.cpu.hartid with pending := 0 } := by
    unfold Hart.takeSignals
    dsimp only
    split_ifs <;> rfl
  change Mailbox.letters ∘ s.takeSignals.sys.mail = _
  rw [hmail, Function.comp_update]
  rfl

/-- Applying the mailbox empties it, and a start among the messages releases the hart. -/
lemma letters_applyMailbox (s : Hart) :
    s.applyMailbox.sys.letters = Function.update s.sys.letters s.cpu.hartid
      { s.sys.letters s.cpu.hartid with
        pending := 0
        parked := if (s.sys.mail s.cpu.hartid).pending &&& mbStart = 0 then
          (s.sys.mail s.cpu.hartid).parked else false } := by
  by_cases hflags : (s.sys.mail s.cpu.hartid).pending = 0
  · rw [show s.applyMailbox = s from if_pos hflags, hflags, if_pos (by decide), ← hflags]
    exact (Function.update_eq_self s.cpu.hartid s.sys.letters).symm
  · rw [applyMailbox_eq hflags]
    by_cases hstart : (s.sys.mail s.cpu.hartid).pending &&& mbStart = 0
    · rw [if_neg (not_not.mpr hstart), if_pos hstart, letters_takeSignals]
      rfl
    · rw [if_pos hstart, if_neg hstart, letters_startAt, letters_takeSignals, takeSignals_hartid,
        Function.update_idem, Function.update_self]

lemma applyMailbox_hartid (s : Hart) : s.applyMailbox.cpu.hartid = s.cpu.hartid :=
  keeps_applyMailbox (R := SameId) (fun _ => rfl) (fun _ => rfl) (fun _ => rfl)
    (fun s addr arg => hartKeeps_sameId.move _ (.startAt addr arg) s) s

/-- Asking a hart whether it can run applies its mailbox. -/
lemma runnable_sys (s : Hart) : s.runnable.2.sys = s.applyMailbox.sys := by
  unfold Hart.runnable
  dsimp only
  split_ifs <;> rfl

lemma runnable_cpu (s : Hart) : s.runnable.2.cpu = s.applyMailbox.cpu ∨
    s.runnable.2.cpu = { s.applyMailbox.cpu with waitingForInterrupt := false } := by
  unfold Hart.runnable
  dsimp only
  split_ifs
  · exact .inl rfl
  · exact .inl rfl
  · exact .inr rfl
  · exact .inl rfl

/-- The registers and the CSRs of a hart that starts. -/
def Cpu.started (c : Cpu) (addr arg : U64) : Cpu :=
  let csrs := c.csrs.write Csr.satp 0
  ({ c with
    waitingForInterrupt := false
    priv := .supervisor
    pc := addr
    csrs := csrs.setMstatus (csrs.mstatus &&& ~~~(Csr.mstatusSie ||| Csr.mstatusSpie)) }.setReg 10
      (BitVec.ofNat 64 c.hartid)).setReg 11 arg

lemma startAt_cpu (s : Hart) (addr arg : U64) :
    (s.startAt addr arg).cpu =
      let c := s.cpu.started addr arg
      { c with
        reservationValid := false
        mmu := c.mmu.flush
        dcache := fun i => { c.dcache i with pc := ~~~0 } } := rfl

lemma startAt_done (s : Hart) (addr arg : U64) :
    (Message.start addr arg).Done (s.startAt addr arg).cpu := by
  have hcsrs := s.startAt_csrs addr arg
  have hsatp : (s.cpu.csrs.write Csr.satp 0).raw Csr.satp = 0 := CsrFile.setRaw_raw_self _ _ _
  rw [startAt_cpu] at hcsrs ⊢
  refine ⟨?_, ?_, ?_, ?_, ?_, ?_, ?_, rfl, fun _ => rfl, fun _ => rfl⟩
  · change (s.cpu.started addr arg).pc = addr
    simp [Cpu.started]
  · change (s.cpu.started addr arg).lastWritten 10 = BitVec.ofNat 64 (s.cpu.started addr arg).hartid
    unfold Cpu.started
    rw [Cpu.lastWritten_setReg_ne _ _ (by decide),
      Cpu.lastWritten_setReg_self _ _ (by decide) (by decide), Cpu.setReg_hartid, Cpu.setReg_hartid]
  · exact Cpu.lastWritten_setReg_self _ _ (by decide) (by decide)
  · change (s.cpu.started addr arg).priv = _
    simp [Cpu.started]
  · refine (congrArg (fun c : CsrFile => c.read Csr.satp) hcsrs).trans ?_
    exact (CsrFile.setMstatus_raw_ne _ _ (by decide)).trans hsatp
  · refine (congrArg (fun c : CsrFile => c.mstatus &&& _) hcsrs).trans ?_
    rw [CsrFile.mstatus_and _ (by decide), CsrFile.setMstatus_raw, merge_and_of_subset (by decide),
      BitVec.and_assoc]
    simp
  · change (s.cpu.started addr arg).waitingForInterrupt = false
    simp [Cpu.started]

/-- An interrupt that was raised stays raised over what else is in the mailbox. -/
lemma startAt_mip (s : Hart) (addr arg : U64) :
    (s.startAt addr arg).cpu.csrs.raw Csr.mip = s.cpu.csrs.raw Csr.mip := by
  rw [Hart.startAt_csrs, CsrFile.setMstatus_raw_ne _ _ (by decide),
    CsrFile.write_raw_of_ne _ _ (by decide)]

lemma takeSignals_done (s : Hart) (hmsg : msg = .ipi ∨ msg = .fence)
    (h : (s.sys.mail s.cpu.hartid).Holds msg) : msg.Done s.takeSignals.cpu := by
  unfold Hart.takeSignals
  rcases hmsg with rfl | rfl
  · have hflag : (s.sys.mail s.cpu.hartid).pending &&& mbIpi ≠ 0 := h
    dsimp only
    rw [if_pos hflag]
    split
    · exact raiseInterrupt_done _
    · exact raiseInterrupt_done _
  · have hflag : (s.sys.mail s.cpu.hartid).pending &&& mbFence ≠ 0 := h
    dsimp only
    rw [if_pos hflag]
    exact remoteFence_done _

/-- What waits in the mailbox is done when it is applied. -/
lemma applyMailbox_done (s : Hart) (h : (s.sys.mail s.cpu.hartid).Holds msg)
    (hstart : ∀ addr arg, msg = .start addr arg →
      (s.sys.mail s.cpu.hartid).startAddr = addr ∧ (s.sys.mail s.cpu.hartid).startOpaque = arg) :
    msg.Done s.applyMailbox.cpu := by
  have hpending : (s.sys.mail s.cpu.hartid).pending ≠ 0 := fun h0 => Mailbox.not_holds h0 msg h
  have hmail : (s.takeSignals.sys.letters s.takeSignals.cpu.hartid) =
      { s.sys.letters s.cpu.hartid with pending := 0 } := by
    rw [letters_takeSignals, takeSignals_hartid, Function.update_self]
  rw [applyMailbox_eq hpending]
  cases msg with
  | ipi =>
    have hdone := takeSignals_done s (.inl rfl) h
    split
    · exact ne_of_eq_of_ne (congrArg (· &&& Csr.mipSsip) (startAt_mip _ _ _)) hdone
    · exact hdone
  | fence =>
    split
    · exact ⟨fun _ => rfl, fun _ => rfl⟩
    · exact takeSignals_done s (.inr rfl) h
  | start addr arg =>
    obtain ⟨rfl, rfl⟩ := hstart addr arg rfl
    rw [if_pos (show (s.sys.mail s.cpu.hartid).pending &&& mbStart ≠ 0 from h)]
    have haddr : (s.takeSignals.sys.mail s.takeSignals.cpu.hartid).startAddr =
        (s.sys.mail s.cpu.hartid).startAddr := (congrArg Mailbox.startAddr hmail :)
    have harg : (s.takeSignals.sys.mail s.takeSignals.cpu.hartid).startOpaque =
        (s.sys.mail s.cpu.hartid).startOpaque := (congrArg Mailbox.startOpaque hmail :)
    rw [← haddr, ← harg]
    exact startAt_done _ _ _

/-- **What waits in the mailbox is done when the hart is asked.** -/
theorem runnable_done (s : Hart) (h : (s.sys.mail s.cpu.hartid).Holds msg)
    (hstart : ∀ addr arg, msg = .start addr arg →
      (s.sys.mail s.cpu.hartid).startAddr = addr ∧ (s.sys.mail s.cpu.hartid).startOpaque = arg) :
    msg.Done s.runnable.2.cpu := by
  have hdone := applyMailbox_done s h hstart
  rcases runnable_cpu s with hcpu | hcpu
  · rwa [hcpu]
  · rw [hcpu]
    cases msg with
    | ipi | fence => exact hdone
    | start addr arg =>
      obtain ⟨hpc, ha0, ha1, hpriv, hsatp, hstatus, -, hrest⟩ := hdone
      exact ⟨hpc, ha0, ha1, hpriv, hsatp, hstatus, rfl, hrest⟩

end RiscvEmu
