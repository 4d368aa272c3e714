import RiscvEmu.Runs
import RiscvEmu.MmuEffects

/-!
# What harts do to the state they share

A hart reaches the shared state by accesses over the bus, by its history and the mailboxes, and by
a few devices it holds a handle on.  A relation between shared states that each of these keeps is
kept by every operation on a hart, and along every run if changes from outside keep it too.

The accesses come first (`AccessKeeps`): they are all an instruction does to the shared state unless
it calls the firmware, and the only mark they leave on a mailbox is its reservation.
-/

namespace RiscvEmu

open Exec

/-- Neither a load-reserved nor the end of a store-conditional. -/
def Event.ordinary : Event → Bool
  | .loadReserved .. | .scDone .. => false
  | _ => true

/-- A relation between shared states that the memory accesses of a hart keep, atomics apart. -/
structure PlainKeeps (R : Sys → Sys → Prop) : Prop where
  load : ∀ pa size ty, Keeps R (Bus.load pa size ty)
  stored : ∀ pa size v s t, Bus.store pa size v s = .ok () t → ∀ hart,
    R s (t.emit (.store hart pa size))
  writtenBack : ∀ pa v s t, Bus.store pa 8 v s = .ok () t →
    ∀ hart, R s (t.emit (.pteUpdate hart pa))
  refused : ∀ pa size v s t e, Bus.store pa size v s = .error e t → R s t
  emit : ∀ s (e : Event), e.ordinary → R s (Sys.emit s e)
  reserve : ∀ (s : Sys) (mail : ℕ → Mailbox), (∀ i, (mail i).letters = (s.mail i).letters) →
    R s { s with mail := mail }
  markCode : ∀ (s : Sys) (offset : ℕ), R s { s with ram := s.ram.markCodePage offset }

/-- A relation between shared states that the memory accesses of a hart keep. -/
structure AccessKeeps (R : Sys → Sys → Prop) : Prop extends PlainKeeps R where
  record : ∀ s e, R s (Sys.emit s e)
  emit := fun s e _ => record s e

/-- A relation between shared states that everything a hart does to them keeps. -/
structure SharedKeeps (R : Sys → Sys → Prop) : Prop extends AccessKeeps R where
  mail : ∀ (s : Sys) (mail : ℕ → Mailbox), R s { s with mail := mail }
  reserve := fun s m _ => mail s m
  live : ∀ (s : Sys) (n : U64), R s (s.mapClock fun c => { c with live := n })
  setTimer : ∀ (s : Sys) (deadline : U64) (csrs : CsrFile) (hart : ℕ),
    R s { s with clint := (s.clint.setTimer deadline csrs hart).2 }
  uart : ∀ (s : Sys) (u : Uart), R s { s with uart := u }
  drive : ∀ (s : Sys) (csrs : CsrFile) (hart : ℕ),
    R s { s with plic := (s.plic.update csrs hart).2 }

/-- A relation between shared states that devices keep and that says nothing of RAM, the clock and
the mailboxes. -/
structure SysKeeps (R : Sys → Sys → Prop) : Prop extends DeviceKeeps R where
  count : ∀ s, R s (Sys.countAccess s)
  ram : ∀ (s : Sys) (ram : Dram), R s { s with ram := ram }
  record : ∀ s e, R s (Sys.emit s e)
  mail : ∀ (s : Sys) (mail : ℕ → Mailbox), R s { s with mail := mail }
  drive : ∀ (s : Sys) (csrs : CsrFile) (hart : ℕ),
    R s { s with plic := (s.plic.update csrs hart).2 }
  hostTime : ∀ (s : Sys) (ns : U64), R s { s with rtc := { s.rtc with hostNs := ns } }

/-- A relation between shared states, as one between harts. -/
def OnShared (R : Sys → Sys → Prop) (s t : Hart) : Prop := R s.sys t.sys

/-- The same for what a translation works on. -/
def OnBus (R : Sys → Sys → Prop) (s t : MmuSys) : Prop := R s.sys t.sys

/-- A part of the shared state is the same. -/
def SameShared {α : Type} (part : Sys → α) (s t : Sys) : Prop := part t = part s

instance {α : Type} (part : Sys → α) : IsPreorder Sys (SameShared part) where
  refl _ := rfl
  trans _ _ _ h g := Eq.trans g h

section Keeps

variable {R : Sys → Sys → Prop} [IsPreorder Sys R]

instance : IsPreorder Hart (OnShared R) where
  refl s := refl_of R s.sys
  trans _ _ _ h g := trans_of R h g

instance : IsPreorder MmuSys (OnBus R) where
  refl s := refl_of R s.sys
  trans _ _ _ h g := trans_of R h g

lemma letters_reserve (s : Hart) (g : U64) (i : ℕ) :
    ((s.mapMail fun m => { m with reservation := g }).sys.mail i).letters =
      (s.sys.mail i).letters := by
  unfold Hart.mapMail
  dsimp only
  rcases eq_or_ne i s.cpu.hartid with rfl | hi
  · rw [Function.update_self]
    rfl
  · rw [Function.update_of_ne hi]

lemma letters_noteStore (t : Sys) (hart : ℕ) (pa : U64) (size i : ℕ) :
    ((t.noteStore hart pa size).mail i).letters = (t.mail i).letters := by
  unfold Sys.noteStore
  dsimp only
  split <;> rfl

namespace PlainKeeps

variable (h : PlainKeeps R)

include h

/-! ## Memory -/

omit [IsPreorder Sys R] in
lemma writeBack (t : Sys) (hart : ℕ) (pteAddr value : U64) :
    R t (t.writeBack hart pteAddr value) := by
  unfold Sys.writeBack
  split
  · next heq => exact h.writtenBack _ _ _ _ heq hart
  · next heq => exact h.refused _ _ _ _ _ _ heq

lemma storeAt (pa : U64) (size : ℕ) (v : U64) : Keeps (OnShared R) (storeAt pa size v) := by
  refine keeps_of_cases (fun s _ t hst => ?_) fun s e t hst => ?_
  · obtain ⟨w, hw, rfl⟩ := storeAt_eq_ok.mp hst
    have hstored := h.stored pa size v s.sys w hw s.cpu.hartid
    unfold OnShared Hart.stored
    dsimp only
    split
    · exact trans_of R hstored (h.reserve _ _ (letters_noteStore _ _ _ _))
    · exact hstored
  · obtain ⟨w, hw, rfl⟩ := storeAt_eq_error.mp hst
    exact h.refused _ _ _ _ _ _ hw

lemma translateKeeps (hart : ℕ) : TranslateKeeps hart (OnBus R) where
  countHit s := refl_of R s.sys
  walked s csrs va := keeps_walkFrom h.load csrs va s.sys
  setSlot s _ _ := refl_of R s.sys
  writeBack s _ _ := h.writeBack s.sys hart _ _

lemma memKeeps : MemKeeps (OnShared R) where
  translate va ty p s := by
    rw [OnShared, final_translateFor]
    exact (h.translateKeeps s.cpu.hartid).translate s.cpu.csrs va ty p ⟨s.cpu.mmu, s.sys⟩
  load pa size ty s := by
    rw [OnShared, final_liftSys]
    exact h.load pa size ty s.sys
  store := h.storeAt

lemma checkEpoch (s : Hart) : OnShared R s s.checkEpoch := by
  unfold Hart.checkEpoch
  split
  · exact h.emit _ _ rfl
  · exact refl_of (OnShared R) s

lemma fillEntry (s : Hart) (pa : U64) (inst : DecodedInst) : OnShared R s (s.fillEntry pa inst) :=
  trans_of R (h.markCode _ _) (h.emit _ _ rfl)

lemma nextInst : Keeps (OnShared R) nextInst := h.memKeeps.nextInst h.checkEpoch h.fillEntry

/-! ## CSRs and traps -/

lemma csrCommit (addr : CsrAddr) (v : U64) : Keeps (OnShared R) (csrCommit addr v) := by
  refine .modify fun s => ?_
  dsimp only
  split
  · exact trans_of R (h.emit _ _ rfl) (h.emit _ _ rfl)
  · exact h.emit _ _ rfl

lemma csrWrite (addr : CsrAddr) (v : U64) : Keeps (OnShared R) (csrWrite addr v) :=
  keeps_csrWrite (fun s => refl_of R s.sys) h.csrCommit

lemma enterTrap (s : Hart) (cause tval epc : U64) (isInterrupt : Bool) :
    OnShared R s (s.enterTrap cause tval epc isInterrupt) :=
  trans_of R (h.emit s.sys _ rfl) (h.reserve _ _ (letters_reserve _ noRes))

lemma stepKeeps : StepKeeps (OnShared R) where
  nextInst := h.nextInst
  begin s _ := refl_of R s.sys
  lastTrap s _ := refl_of R s.sys
  enterTrap := h.enterTrap

end PlainKeeps

namespace AccessKeeps

variable (h : AccessKeeps R)

include h

/-! ## Reservations -/

/-- Record an event and set or give up the reservation. -/
lemma recordReserve (s : Hart) (e : Event) (g : U64) :
    OnShared R s ({ s with sys := s.sys.emit e }.mapMail fun m => { m with reservation := g }) :=
  trans_of R (h.record s.sys e) (h.reserve _ _ (letters_reserve _ g))

lemma loadReserved (va : U64) (size : ℕ) : Keeps (OnShared R) (loadReserved va size) := by
  refine .bind (h.memKeeps.memLoad va size .load) fun v => .bind (.modify fun s => ?_)
    fun _ => .bind .get fun s => ?_
  · exact refl_of (OnShared R) s
  refine .bind (.attempt (h.memKeeps.translate _ _ _)) fun r => ?_
  exact .bind (.modify fun s => h.recordReserve s _ _) fun _ => .pure _

lemma storeConditional (va : U64) (size rs2 : ℕ) :
    Keeps (OnShared R) (storeConditional va size rs2) := by
  refine .bind .get fun s => .bind (.modify fun s => h.record _ _) fun _ => ?_
  refine .bind (.modify fun s => refl_of (OnShared R) s) fun _ => ?_
  refine .bind (fun s => refl_of (OnShared R) s) fun src => ?_
  split
  · refine .bind (h.memKeeps.memStore _ _ _) fun _ => ?_
    exact .bind (.modify fun s => h.recordReserve s _ _) fun _ => .pure _
  · exact .bind (.modify fun s => h.reserve _ _ (letters_reserve s _)) fun _ => .pure _

lemma probe : ProbeKeeps (OnShared R) where
  readReg _ s := refl_of (OnShared R) s
  alu _ _ _ s := refl_of (OnShared R) s
  nextPc s _ := refl_of (OnShared R) s
  memLoad va size := h.memKeeps.memLoad va size .load
  memStore va size v := h.memKeeps.memStore va size v
  loadReserved := h.loadReserved
  storeConditional := h.storeConditional

end AccessKeeps

/-! ## Everything a hart does -/

namespace SharedKeeps

variable (h : SharedKeeps R)

include h

lemma startAt (s : Hart) (addr arg : U64) : OnShared R s (s.startAt addr arg) :=
  trans_of R (trans_of R (trans_of R (h.mail _ _) (h.record _ _)) (h.mail _ _)) (h.record _ _)

lemma hartKeeps : HartKeeps (OnShared R) where
  probe := h.probe
  nextInst := h.nextInst
  update inst f hf s := by
    cases hf with
    | fence | fenceI => exact h.record _ _
    | setTimer deadline => exact h.setTimer _ _ _ _
    | takeInput u => exact h.uart _ _
    | sendIpi | sendFence | sendStart | stop => exact h.mail _ _
    | _ => exact refl_of R s.sys
  csrWrite := h.csrWrite
  move f hf s := by
    cases hf with
    | enterTrap => exact h.enterTrap s _ _ _ _
    | publishLive | beginRound => exact h.live _ _
    | takeMail => exact h.mail _ _
    | startAt => exact h.startAt s _ _
    | drive => exact h.drive s.sys _ _
    | _ => exact refl_of R s.sys

end SharedKeeps

/-! ## What says nothing of RAM -/

namespace SysKeeps

variable (h : SysKeeps R)

include h

lemma busLoad (pa : U64) (size : ℕ) (ty : AccessType) : Keeps R (Bus.load pa size ty) := by
  intro s
  rw [final_busLoad]
  split
  · exact refl_of R s
  · exact trans_of R (h.count s) (h.load _ _ _ _)

lemma busStore (pa : U64) (size : ℕ) (v : U64) : Keeps R (Bus.store pa size v) := by
  intro s
  rcases final_busStore pa size v s with ⟨ram, -, -, heq⟩ | heq
  · rw [heq]
    exact h.ram s ram
  rw [heq]
  split
  · exact refl_of R s
  · exact trans_of R (h.count s) (h.store _ _ _ _ _)

lemma shared : SharedKeeps R where
  load := h.busLoad
  stored pa size v _ _ hst _ := trans_of R ((h.busStore pa size v).of_ok hst) (h.record _ _)
  writtenBack pa v _ _ hst _ := trans_of R ((h.busStore pa 8 v).of_ok hst) (h.record _ _)
  refused pa size v _ _ _ hst := (h.busStore pa size v).of_error hst
  record := h.record
  mail := h.mail
  markCode s _ := h.ram s _
  live s _ := h.clint s _
  setTimer s _ _ _ := h.clint s _
  uart := h.uart
  drive := h.drive

end SysKeeps

end Keeps

end RiscvEmu
