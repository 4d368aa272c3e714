import RiscvEmu.Cpu.Precise
import RiscvEmu.Firmware
import RiscvEmu.Platform.Protocol

/-!
# Messages between harts

A hart leaves its message in the mailbox of another, and the scheduler makes the other one look
before its turn.  Whatever the order of calls and turns, a message that was answered with SUCCESS is
carried out before its addressee executes another instruction, and carried out once.

The argument needs little of the scheduler: a hart only steps with an empty mailbox and while it is
not stopped (`Fits`).  All calls of `run` keep to this (`Session.disciplined`).
-/

namespace RiscvEmu

open Exec

/-! ## Operations and mailboxes -/

/-- The next step of hart `j` is a call that sends a message to hart `t`. -/
def Machine.Posts (m : Machine) (j : ℕ) (msg : Message) (t : ℕ) : Prop :=
  ∃ s, (m.hart j).firmwareCall = some s ∧ s.Sends msg t

/-- The operations that may change a mailbox. -/
def Label.TouchesMail : Label → Prop
  | .step _ | .runnable _ | .enterSupervisor _ _ => True
  | _ => False

variable {l : Label} {m : Machine} {j quantum : ℕ} {cfg : Config}

lemma letters_act (h : ¬ l.TouchesMail) (m : Machine) :
    (m.act l).sys.letters = m.sys.letters := by
  have hharts : ∀ (f : Hart → Hart), (∀ s, (f s).sys.mail = s.sys.mail) → ∀ m : Machine,
      (m.onHarts f).sys.letters = m.sys.letters := fun f hf m =>
    keeps_onHarts (R := SameShared Sys.letters) (fun s => letters_of_mail (hf s)) m
  have hhart : ∀ (f : Hart → Hart), (∀ s, (f s).sys.mail = s.sys.mail) → ∀ i : ℕ,
      (m.onHart i f).sys.letters = m.sys.letters := fun f hf i =>
    keeps_onHart (R := SameShared Sys.letters) (fun s => letters_of_mail (hf s)) m i
  cases l with
  | step | runnable | enterSupervisor => exact absurd trivial h
  | beginRound i => exact hhart Hart.beginRound (fun _ => rfl) i
  | pollDevices host =>
    have hpoll : (m.sys.pollAll host).letters = m.sys.letters :=
      letters_of_mail (pollFrame_pollAll m.sys host).mail
    exact (hharts Hart.drive (fun _ => rfl) (m.mapSys fun s => s.pollAll host)).trans hpoll
  | halt shutdown =>
    exact hhart (fun s => { s with cpu := { s.cpu with halted := true, sbiShutdown := shutdown } })
      (fun _ => rfl) 0
  | htif addr => exact letters_of_mail (quiet_busLoad addr 8 .load m.sys).mail
  | idleOnWfi on =>
    exact hharts (fun s => { s with cpu := { s.cpu with idleOnWfi := on } }) (fun _ => rfl) m
  | loadImage addr bytes =>
    change (m.loadImage addr bytes).sys.letters = _
    unfold Machine.loadImage
    split <;> rfl
  | writeBytes addr bytes =>
    change (m.writeBytes addr bytes).sys.letters = _
    unfold Machine.writeBytes
    split <;> rfl
  | host e => cases e <;> rfl
  | _ => rfl

section Harts

variable {m : Machine} {i j t : ℕ}

/-- Asking a hart empties its mailbox, and no other one. -/
lemma letters_runnable (hi : i < m.sys.numHarts) (hid : (m.harts i).hartid = i) :
    (m.act (.runnable i)).sys.letters = Function.update m.sys.letters i
      { m.sys.letters i with
        pending := 0
        parked := if (m.sys.mail i).pending &&& mbStart = 0 then (m.sys.mail i).parked
          else false } := by
  have hsys : (m.act (.runnable i)).sys = (m.hart i).applyMailbox.sys :=
    (act_hart hi).1.trans (runnable_sys _)
  have hletters := letters_applyMailbox (m.hart i)
  rw [show (m.hart i).cpu.hartid = i from hid] at hletters
  rw [hsys, hletters]
  rfl

/-- A hart that says it can run has nothing in its mailbox and is not stopped. -/
lemma runnable_ready (hi : i < m.sys.numHarts) (hid : (m.harts i).hartid = i)
    (h : (m.hart i).runnable.1 = true) :
    ((m.act (.runnable i)).sys.mail i).pending = 0 ∧
      ((m.act (.runnable i)).sys.mail i).parked = false := by
  have hletters := congrFun (letters_runnable hi hid) i
  rw [Function.update_self] at hletters
  refine ⟨congrArg Mailbox.pending hletters, ?_⟩
  have hsys : (m.act (.runnable i)).sys = (m.hart i).applyMailbox.sys :=
    (act_hart hi).1.trans (runnable_sys _)
  rw [hsys]
  unfold Hart.runnable at h
  dsimp only at h
  split at h
  · cases h
  · next hparked =>
      rw [applyMailbox_hartid, show (m.hart i).cpu.hartid = i from hid] at hparked
      simpa using hparked

/-- A message carried out by the call itself stays so until the instruction has retired. -/
lemma Message.done_retire {msg : Message} (hmsg : msg = .ipi ∨ msg = .fence) {s : Hart}
    (h : msg.Done s.cpu) : msg.Done s.retire.publishLive.cpu := by
  rcases hmsg with rfl | rfl
  · exact ne_of_eq_of_ne (congrArg (· &&& Csr.mipSsip) (retire_raw s _ (by decide) (by decide))) h
  · exact h

/-- What a step of hart `j` does to the mailbox of hart `t`. -/
inductive Machine.Receives (m : Machine) (j t : ℕ) : Prop
  | posted (msg : Message) (hsent : m.Posts j msg t)
      (hstart : ∀ addr arg, msg = .start addr arg → (m.sys.mail t).parked = true)
      (hother : t = j → ∃ addr arg, msg = .start addr arg)
      (hletters : (m.act (.step j)).sys.letters t = msg.post (m.sys.letters t))
  | stopped (ht : t = j) (hnone : ∀ msg, ¬ m.Posts j msg t)
      (hletters : (m.act (.step j)).sys.letters t = { m.sys.letters t with parked := true })
  | same (hown : ∀ msg, m.Posts j msg t →
        t = j ∧ (msg = .ipi ∨ msg = .fence) ∧ msg.Done ((m.act (.step j)).harts j))
      (hletters : (m.act (.step j)).sys.letters t = m.sys.letters t)

lemma receives_step (hj : j < m.sys.numHarts) (hid : (m.harts j).hartid = j) (t : ℕ) :
    m.Receives j t := by
  obtain ⟨hsys, hcpu⟩ := act_hart (f := Hart.step) hj
  cases hcall : (m.hart j).firmwareCall with
  | none =>
    refine .same ?_ ?_
    · rintro msg ⟨s, hs, -⟩
      rw [hcall] at hs
      cases hs
    · change (m.onHart j Hart.step).sys.letters t = _
      rw [hsys, letters_step hcall]
      rfl
  | some s =>
    obtain ⟨hstep, hfetch, hsame⟩ := step_firmwareCall hcall
    have hletters : (m.act (.step j)).sys.letters = (final Sbi.handleEcall s).sys.letters := by
      change (m.onHart j Hart.step).sys.letters = _
      rw [hsys, hstep]
      rfl
    have hbefore : s.sys.letters = m.sys.letters := hfetch
    have hself : s.cpu.hartid = j := hsame.trans hid
    have hposts : ∀ msg, m.Posts j msg t → s.Sends msg t := by
      rintro msg ⟨s', hs', hsends⟩
      rw [hcall] at hs'
      cases hs'
      exact hsends
    cases receives_handleEcall s t with
    | posted msg hsent hstart hother hpost =>
      rw [hbefore] at hstart hpost
      exact .posted msg ⟨s, hcall, hsent⟩ hstart (fun ht => hother (ht.trans hself.symm))
        (by rw [hletters, hpost])
    | stopped ht hnone hpost =>
      rw [hbefore] at hpost
      exact .stopped (ht.trans hself) (fun msg hp => hnone msg (hposts msg hp))
        (by rw [hletters, hpost])
    | same hown hpost =>
      rw [hbefore] at hpost
      refine .same (fun msg hp => ?_) (by rw [hletters, hpost])
      obtain ⟨ht, hkind, hdone⟩ := hown msg (hposts msg hp)
      refine ⟨ht.trans hself, hkind, ?_⟩
      change msg.Done ((m.onHart j Hart.step).harts j)
      rw [hcpu, hstep]
      exact Message.done_retire hkind hdone

end Harts

/-! ## The discipline of the scheduler -/

/-- A hart steps with an empty mailbox and while it is not stopped. -/
def Fits (m : Machine) : Label → Prop
  | .step j => j < m.sys.numHarts ∧ (m.sys.mail j).pending = 0 ∧ (m.sys.mail j).parked = false
  | .runnable i => i < m.sys.numHarts
  | .enterSupervisor _ _ => False
  | _ => True

/-- Every operation of a trace fits the state in which it is performed. -/
def Disciplined (m : Machine) : List Label → Prop
  | [] => True
  | l :: ls => Disciplined m ls ∧ Fits (m.replay ls) l

lemma Disciplined.append {ls ls' : List Label} (h : Disciplined m ls)
    (h' : Disciplined (m.replay ls) ls') : Disciplined m (ls' ++ ls) := by
  induction ls' with
  | nil => exact h
  | cons l ls' ih =>
    have hlast := h'.2
    rw [← Machine.replay_append] at hlast
    exact ⟨ih h'.1, hlast⟩

lemma Disciplined.of_append {ls ls' : List Label} (h : Disciplined m (ls' ++ ls)) :
    Disciplined m ls ∧ Disciplined (m.replay ls) ls' := by
  induction ls' with
  | nil => exact ⟨h, trivial⟩
  | cons l ls' ih =>
    have hlast : Fits (m.replay (ls' ++ ls)) l := h.2
    rw [Machine.replay_append] at hlast
    exact ⟨(ih h.1).1, (ih h.1).2, hlast⟩

/-- The hart whose turn it is has nothing in its mailbox and is not stopped. -/
def TurnReady (m : Machine) : Phase → Prop
  | .admitted i _ | .running i _ _ | .touched i _ _ =>
    i < m.sys.numHarts ∧ (m.sys.mail i).pending = 0 ∧ (m.sys.mail i).parked = false
  | _ => True

lemma TurnReady.of_letters {m' : Machine} (hletters : m'.sys.letters = m.sys.letters)
    (hnum : m'.sys.numHarts = m.sys.numHarts) {φ : Phase} (h : TurnReady m φ) : TurnReady m' φ := by
  have hpending : ∀ i, (m'.sys.mail i).pending = (m.sys.mail i).pending := fun i =>
    (congrArg Mailbox.pending (congrFun hletters i) :)
  have hparked : ∀ i, (m'.sys.mail i).parked = (m.sys.mail i).parked := fun i =>
    (congrArg Mailbox.parked (congrFun hletters i) :)
  cases φ with
  | admitted | running | touched =>
    exact ⟨hnum ▸ h.1, (hpending _).trans h.2.1, (hparked _).trans h.2.2⟩
  | _ => trivial

/-- A hart puts nothing in its own mailbox. -/
lemma step_pending (h : Fits m (.step j)) (hid : (m.harts j).hartid = j) :
    ((m.act (.step j)).sys.mail j).pending = 0 := by
  obtain ⟨hj, hpending, hparked⟩ := h
  cases receives_step hj hid j with
  | posted msg _ hstart hother _ =>
    obtain ⟨addr, arg, hmsg⟩ := hother rfl
    rw [hstart addr arg hmsg] at hparked
    cases hparked
  | stopped _ _ hletters => exact (congrArg Mailbox.pending hletters :).trans hpending
  | same _ hletters => exact (congrArg Mailbox.pending hletters :).trans hpending

lemma Next.turnReady {φ φ' : Phase}
    (h : Next quantum φ m (some l) φ') (hid : ∀ i, (m.harts i).hartid = i) (hφ : TurnReady m φ) :
    Fits m l ∧ TurnReady (m.act l) φ' := by
  have hquiet : ∀ {l : Label} {ψ : Phase}, ¬ l.TouchesMail → TurnReady m ψ →
    TurnReady (m.act l) ψ :=
    fun hl hψ => hψ.of_letters (letters_act hl m) (act_numHarts m _)
  cases h with
  | host e => exact ⟨trivial, hquiet id hφ⟩
  | refuse hi => exact ⟨hi, trivial⟩
  | enter hi hask => exact ⟨hi, (act_numHarts m _).symm ▸ hi, runnable_ready hi (hid _) hask⟩
  | begin => exact ⟨trivial, hquiet id hφ⟩
  | sleep => exact ⟨hφ.1, trivial⟩
  | wake hask => exact ⟨hφ.1, (act_numHarts m _).symm ▸ hφ.1, runnable_ready hφ.1 (hid _) hask⟩
  | @step _ i used roundMax _ _ =>
    refine ⟨hφ, ?_⟩
    have hnum : i < (m.act (.step i)).sys.numHarts := (act_numHarts m _).symm ▸ hφ.1
    have hpending := step_pending hφ (hid i)
    unfold afterStep
    dsimp only
    split
    · trivial
    split
    · trivial
    next hout =>
    have hparked : ((m.act (.step i)).sys.mail i).parked = false := by
      rw [not_or] at hout
      simpa using hout.2
    split <;> exact ⟨hnum, hpending, hparked⟩
  | poll host => exact ⟨trivial, hquiet id hφ⟩
  | _ => exact ⟨trivial, trivial⟩

lemma Next.turnReady_silent {φ φ' : Phase}
    (h : Next quantum φ m none φ') : TurnReady m φ' := by
  cases h <;> trivial

lemma Path.disciplined {φ ψ : Phase} {ls : List Label}
    (h : Path quantum m φ ls ψ) (hm : Reachable cfg m) (hφ : TurnReady m φ) :
    Disciplined m ls ∧ TurnReady (m.replay ls) ψ := by
  induction h with
  | nil => exact ⟨trivial, hφ⟩
  | @act ls ψ ψ' l _ hnext ih =>
    have hone := hnext.turnReady (hartid_reachable (reachable_replay hm ls)) ih.2
    exact ⟨⟨ih.1, hone.1⟩, hone.2⟩
  | silent _ hnext ih => exact ⟨ih.1, hnext.turnReady_silent⟩

namespace Platform

/-- The platforms to which calls of `run` lead, one after the other. -/
inductive Session (p : Platform) : Platform → Prop
  | start : Session p p
  | run {q : Platform} (h : Session p q) (maxSteps rounds : ℕ) : Session p (q.run maxSteps rounds).2

/-- The operations of a session keep to the discipline. -/
theorem Session.disciplined {cfg : Config} {p q : Platform} (h : p.Session q)
    (hp : Reachable cfg p.machine) : ∃ ls, q.trace = ls ++ p.trace ∧
      q.machine = p.machine.replay ls ∧ Disciplined p.machine ls := by
  induction h with
  | start => exact ⟨[], rfl, rfl, trivial⟩
  | @run q h maxSteps rounds ih =>
    obtain ⟨ls, htrace, hmachine, hdisc⟩ := ih
    obtain ⟨φ, -, -, ls', htrace', hmachine', hpath⟩ := run_follows maxSteps rounds q
    rw [hmachine] at hmachine' hpath
    refine ⟨ls' ++ ls, by rw [htrace', htrace, List.append_assoc],
      by rw [hmachine', Machine.replay_append], hdisc.append ?_⟩
    exact (hpath.disciplined (reachable_replay hp ls) trivial).1

end Platform

/-! ## One operation -/

/-- The ways an operation that fits treats the mailbox of hart `t`. -/
inductive MailStep (m : Machine) (t : ℕ) : Label → Prop
  | asked (ht : t < m.sys.numHarts)
      (h : (m.act (.runnable t)).sys.letters t =
        { m.sys.letters t with
          pending := 0
          parked := if (m.sys.mail t).pending &&& mbStart = 0 then (m.sys.mail t).parked
            else false }) : MailStep m t (.runnable t)
  | stepped {j : ℕ} (hfits : Fits m (.step j)) (h : m.Receives j t) : MailStep m t (.step j)
  | other {l : Label} (hl : l ≠ .runnable t) (h : (m.act l).sys.letters t = m.sys.letters t) :
      MailStep m t l

lemma mailStep (hid : ∀ i, (m.harts i).hartid = i) (h : Fits m l) (t : ℕ) :
    MailStep m t l := by
  cases l with
  | step j => exact .stepped h (receives_step h.1 (hid j) t)
  | runnable i =>
    have hletters := letters_runnable h (hid i)
    rcases eq_or_ne t i with rfl | hne
    · exact .asked h (by rw [hletters, Function.update_self])
    · refine .other (fun heq => hne (Label.runnable.inj heq).symm) ?_
      rw [hletters, Function.update_of_ne hne]
  | enterSupervisor => exact h.elim
  | _ => exact .other (by simp) (congrFun (letters_act id m) t)

/-- No stopped hart has a start waiting for it. -/
def Orderly (m : Machine) : Prop :=
  ∀ t, (m.sys.mail t).parked = true → (m.sys.mail t).pending &&& mbStart = 0

section Operation

variable {m : Machine} {l : Label} {t : ℕ} {msg : Message}

/-- Until the hart is asked its messages wait. -/
lemma MailStep.holds (h : MailStep m t l) (hl : l ≠ .runnable t) (hold : (m.sys.mail t).Holds msg) :
    ((m.act l).sys.mail t).Holds msg := by
  have hsame : ∀ {n : Machine}, (n.sys.letters t).pending = (m.sys.letters t).pending →
      (n.sys.mail t).Holds msg := by
    intro n hn
    unfold Mailbox.Holds
    rw [show (n.sys.mail t).pending = (m.sys.mail t).pending from hn]
    exact hold
  cases h with
  | asked => exact absurd rfl hl
  | stepped _ h =>
    cases h with
    | posted msg' _ _ _ hletters =>
      have hpost := (msg'.holds_post msg (m.sys.letters t)).mpr (.inl hold)
      rw [← hletters] at hpost
      exact hpost
    | stopped _ _ hletters => exact hsame (by rw [hletters])
    | same _ hletters => exact hsame (by rw [hletters])
  | other _ h => exact hsame (by rw [h])

/-- A message comes from a call. -/
lemma MailStep.origin (h : MailStep m t l) (hold : ((m.act l).sys.mail t).Holds msg) :
    (m.sys.mail t).Holds msg ∨ ∃ j msg', l = .step j ∧ m.Posts j msg' t ∧ msg'.flag = msg.flag ∧
      (m.act l).sys.letters t = msg'.post (m.sys.letters t) := by
  have hsame : ((m.act l).sys.letters t).pending = (m.sys.letters t).pending →
      (m.sys.mail t).Holds msg := by
    intro hn
    unfold Mailbox.Holds at hold ⊢
    rwa [show ((m.act l).sys.mail t).pending = (m.sys.mail t).pending from hn] at hold
  cases h with
  | asked _ h => exact absurd hold (Mailbox.not_holds (congrArg Mailbox.pending h :) msg)
  | stepped _ h =>
    cases h with
    | posted msg' hsent _ _ hletters =>
      have hpost : ((m.act _).sys.letters t).Holds msg := hold
      rw [hletters, Message.holds_post] at hpost
      exact hpost.imp id fun hflag => ⟨_, msg', rfl, hsent, hflag, hletters⟩
    | stopped _ _ hletters => exact .inl (hsame (by rw [hletters]))
    | same _ hletters => exact .inl (hsame (by rw [hletters]))
  | other _ h => exact .inl (hsame (by rw [h]))

/-- A stopped hart stays stopped unless it is started. -/
lemma MailStep.stopped (h : MailStep m t l) (hm : Orderly m)
    (hparked : (m.sys.mail t).parked = true) :
    ((m.act l).sys.mail t).parked = true ∨
      ∃ j addr arg, l = .step j ∧ m.Posts j (.start addr arg) t := by
  cases h with
  | asked _ h =>
    refine .inl ((congrArg Mailbox.parked h :).trans ?_)
    rw [if_pos (hm t hparked)]
    exact hparked
  | stepped _ h =>
    cases h with
    | posted msg hsent _ _ hletters =>
      cases msg with
      | ipi | fence => exact .inl ((congrArg Mailbox.parked hletters :).trans hparked)
      | start addr arg => exact .inr ⟨_, addr, arg, rfl, hsent⟩
    | stopped _ _ hletters => exact .inl (congrArg Mailbox.parked hletters :)
    | same _ hletters => exact .inl ((congrArg Mailbox.parked hletters :).trans hparked)
  | other _ h => exact .inl ((congrArg Mailbox.parked h :).trans hparked)

/-- The arguments of a start stay until it is applied: a second start finds the hart started. -/
lemma MailStep.arguments (h : MailStep m t l) (hm : Orderly m) (hl : l ≠ .runnable t)
    (hold : (m.sys.mail t).pending &&& mbStart ≠ 0) :
    ((m.act l).sys.mail t).startAddr = (m.sys.mail t).startAddr ∧
      ((m.act l).sys.mail t).startOpaque = (m.sys.mail t).startOpaque := by
  have hsame : ∀ {x : Mailbox}, (m.act l).sys.letters t = x →
      x.startAddr = (m.sys.mail t).startAddr → x.startOpaque = (m.sys.mail t).startOpaque →
      ((m.act l).sys.mail t).startAddr = (m.sys.mail t).startAddr ∧
        ((m.act l).sys.mail t).startOpaque = (m.sys.mail t).startOpaque := by
    rintro x hx haddr harg
    exact ⟨(congrArg Mailbox.startAddr hx :).trans haddr,
      (congrArg Mailbox.startOpaque hx :).trans harg⟩
  cases h with
  | asked => exact absurd rfl hl
  | stepped _ h =>
    cases h with
    | posted msg _ hstart _ hletters =>
      cases msg with
      | ipi | fence => exact hsame hletters rfl rfl
      | start addr arg => exact absurd (hm t (hstart addr arg rfl)) hold
    | stopped _ _ hletters => exact hsame hletters rfl rfl
    | same _ hletters => exact hsame hletters rfl rfl
  | other _ h => exact hsame h rfl rfl

/-- A hart that is stopped now was so before, or it has just stopped itself. -/
lemma MailStep.parked (h : MailStep m t l) (hparked : ((m.act l).sys.mail t).parked = true) :
    (m.sys.mail t).parked = true ∨ (m.sys.mail t).pending = 0 := by
  have hsame : (m.act l).sys.letters t = m.sys.letters t → (m.sys.mail t).parked = true := fun h =>
    (congrArg Mailbox.parked h :).symm.trans hparked
  cases h with
  | asked _ h =>
    have hwas := (congrArg Mailbox.parked h :).symm.trans hparked
    dsimp only at hwas
    split at hwas
    · exact .inl hwas
    · cases hwas
  | stepped hfits h =>
    cases h with
    | posted msg _ hstart _ hletters =>
      cases msg with
      | ipi | fence => exact .inl ((congrArg Mailbox.parked hletters :).symm.trans hparked)
      | start addr arg => exact .inl (hstart addr arg rfl)
    | stopped ht _ _ =>
      subst ht
      exact .inr hfits.2.1
    | same _ hletters => exact .inl (hsame hletters)
  | other _ h => exact .inl (hsame h)

lemma MailStep.orderly (h : ∀ t, MailStep m t l) (hm : Orderly m) : Orderly (m.act l) := by
  intro t hparked
  by_contra hold
  -- the start that waits was there before, or it came from a call, which released the hart
  rcases (h t).origin (show ((m.act l).sys.mail t).Holds (.start 0 0) from hold) with hbefore |
    ⟨j, msg', rfl, -, hflag, hletters⟩
  · rcases (h t).parked hparked with hwas | hempty
    · exact hbefore (hm t hwas)
    · exact Mailbox.not_holds hempty _ hbefore
  · cases msg' with
    | ipi | fence => exact absurd hflag (by decide)
    | start addr arg =>
      have hreleased : ((m.act (.step j)).sys.mail t).parked = false :=
        (congrArg Mailbox.parked hletters :)
      rw [hreleased] at hparked
      cases hparked

end Operation

/-! ## Whole traces -/

section Trace

variable {cfg : Config} {m : Machine} {ls : List Label} {t : ℕ} {msg : Message}

lemma Disciplined.orderly (h : Disciplined m ls) (hm : Reachable cfg m) (hord : Orderly m) :
    Orderly (m.replay ls) := by
  induction ls with
  | nil => exact hord
  | cons l ls ih =>
    exact MailStep.orderly (mailStep (hartid_reachable (reachable_replay hm ls)) h.2) (ih h.1)

lemma Disciplined.holds (h : Disciplined m ls) (hm : Reachable cfg m) (hasked : .runnable t ∉ ls)
    (hold : (m.sys.mail t).Holds msg) : ((m.replay ls).sys.mail t).Holds msg := by
  induction ls with
  | nil => exact hold
  | cons l ls ih =>
    rw [List.mem_cons, not_or] at hasked
    exact (mailStep (hartid_reachable (reachable_replay hm ls)) h.2 t).holds (Ne.symm hasked.1)
      (ih h.1 hasked.2)

lemma Disciplined.arguments (h : Disciplined m ls) (hm : Reachable cfg m) (hord : Orderly m)
    (hasked : .runnable t ∉ ls) (hold : (m.sys.mail t).pending &&& mbStart ≠ 0) :
    ((m.replay ls).sys.mail t).startAddr = (m.sys.mail t).startAddr ∧
      ((m.replay ls).sys.mail t).startOpaque = (m.sys.mail t).startOpaque := by
  induction ls with
  | nil => exact ⟨rfl, rfl⟩
  | cons l ls ih =>
    rw [List.mem_cons, not_or] at hasked
    have hrest := ih h.1 hasked.2
    have hwaits : ((m.replay ls).sys.mail t).Holds (.start 0 0) := h.1.holds hm hasked.2 hold
    have hone := (mailStep (hartid_reachable (reachable_replay hm ls)) h.2 t).arguments
      (h.1.orderly hm hord) (Ne.symm hasked.1) hwaits
    exact ⟨hone.1.trans hrest.1, hone.2.trans hrest.2⟩

/-- The last occurrence in a trace, which is the first in time. -/
lemma exists_first_of_mem {α : Type} {x : α} {xs : List α} (h : x ∈ xs) :
    ∃ after before, xs = after ++ x :: before ∧ x ∉ before := by
  obtain ⟨before, after, heq, hnot⟩ := List.eq_append_cons_of_mem (List.mem_reverse.mpr h)
  refine ⟨after.reverse, before.reverse, ?_, by simpa using hnot⟩
  rw [← List.reverse_reverse xs, heq]
  simp

/-- What waits when a hart is asked is carried out. -/
lemma asked_done (hid : (m.harts t).hartid = t) (ht : t < m.sys.numHarts)
    (hold : (m.sys.mail t).Holds msg)
    (hargs : ∀ addr arg, msg = .start addr arg →
      (m.sys.mail t).startAddr = addr ∧ (m.sys.mail t).startOpaque = arg) :
    msg.Done ((m.act (.runnable t)).harts t) := by
  have hmail : (m.hart t).sys.mail (m.hart t).cpu.hartid = m.sys.mail t := by
    rw [show (m.hart t).cpu.hartid = t from hid]
    rfl
  have hcpu : (m.act (.runnable t)).harts t = (m.hart t).runnable.2.cpu := (act_hart ht).2
  rw [hcpu]
  exact runnable_done (m.hart t) (by rwa [hmail]) (by rwa [hmail])

/-- A mailbox that is empty in the end has been applied in between. -/
lemma Disciplined.applied (h : Disciplined m ls) (hm : Reachable cfg m) (hord : Orderly m)
    (hold : (m.sys.mail t).Holds msg)
    (hargs : ∀ addr arg, msg = .start addr arg →
      (m.sys.mail t).startAddr = addr ∧ (m.sys.mail t).startOpaque = arg)
    (hempty : ((m.replay ls).sys.mail t).pending = 0) :
    ∃ after before, ls = after ++ .runnable t :: before ∧ .runnable t ∉ before ∧
      msg.Done (((m.replay before).act (.runnable t)).harts t) := by
  by_cases hasked : .runnable t ∈ ls
  · obtain ⟨after, before, rfl, hfirst⟩ := exists_first_of_mem hasked
    obtain ⟨⟨hbefore, hfits⟩, -⟩ := h.of_append
    refine ⟨after, before, rfl, hfirst, ?_⟩
    refine asked_done (hartid_reachable (reachable_replay hm before) t) hfits
      (hbefore.holds hm hfirst hold) fun addr arg hmsg => ?_
    subst hmsg
    have hkept := hbefore.arguments hm hord hfirst hold
    exact ⟨hkept.1.trans (hargs addr arg rfl).1, hkept.2.trans (hargs addr arg rfl).2⟩
  · exact absurd (h.holds hm hasked hold) (Mailbox.not_holds hempty msg)

/-- What waits in the end was sent since the hart was last asked. -/
lemma Disciplined.origin (h : Disciplined m ls) (hm : Reachable cfg m) (hord : Orderly m)
    (hempty : ¬ (m.sys.mail t).Holds msg) (hold : ((m.replay ls).sys.mail t).Holds msg) :
    ∃ since before j msg', ls = since ++ .step j :: before ∧ .runnable t ∉ since ∧
      (m.replay before).Posts j msg' t ∧ msg'.flag = msg.flag ∧
      ∀ addr arg, msg' = .start addr arg → ((m.replay ls).sys.mail t).startAddr = addr ∧
        ((m.replay ls).sys.mail t).startOpaque = arg := by
  induction ls with
  | nil => exact absurd hold hempty
  | cons l ls ih =>
    have hone := mailStep (hartid_reachable (reachable_replay hm ls)) h.2 t
    rcases hone.origin hold with hbefore | ⟨j, msg', rfl, hsent, hflag, hletters⟩
    · obtain ⟨since, before, j, msg', rfl, hsince, hsent, hflag, hargs⟩ := ih h.1 hbefore
      have hne : l ≠ .runnable t := by
        rintro rfl
        cases hone with
        | asked _ hletters =>
          exact Mailbox.not_holds (congrArg Mailbox.pending hletters :) msg hold
        | other hne => exact hne rfl
      refine ⟨l :: since, before, j, msg', rfl, by simp [hsince, hne.symm], hsent, hflag, ?_⟩
      rintro addr arg rfl
      have hstart :
          ((m.replay (since ++ .step j :: before)).sys.mail t).pending &&& mbStart ≠ 0 := by
        have hflag : mbStart = msg.flag := hflag
        rw [hflag]
        exact hbefore
      have hkept := hone.arguments (h.1.orderly hm hord) hne hstart
      exact ⟨hkept.1.trans (hargs addr arg rfl).1, hkept.2.trans (hargs addr arg rfl).2⟩
    · refine ⟨[], ls, j, msg', rfl, List.not_mem_nil, hsent, hflag, ?_⟩
      rintro addr arg rfl
      exact ⟨(congrArg Mailbox.startAddr hletters :), (congrArg Mailbox.startOpaque hletters :)⟩

/-- A stopped hart stays stopped until a start for it succeeds. -/
lemma Disciplined.stopped (h : Disciplined m ls) (hm : Reachable cfg m) (hord : Orderly m)
    (hparked : (m.sys.mail t).parked = true) : ((m.replay ls).sys.mail t).parked = true ∨
      ∃ after before j addr arg, ls = after ++ .step j :: before ∧
        (m.replay before).Posts j (.start addr arg) t := by
  induction ls with
  | nil => exact .inl hparked
  | cons l ls ih =>
    rcases ih h.1 with hstill | ⟨after, before, j, addr, arg, rfl, hsent⟩
    · have hone := mailStep (hartid_reachable (reachable_replay hm ls)) h.2 t
      rcases hone.stopped (h.1.orderly hm hord) hstill with hlast | ⟨j, addr, arg, rfl, hsent⟩
      · exact .inl hlast
      · exact .inr ⟨[], ls, j, addr, arg, rfl, hsent⟩
    · exact .inr ⟨l :: after, before, j, addr, arg, rfl, hsent⟩

end Trace

/-! ## The law -/

/-- The operations before the first turn. -/
def Label.IsSetup : Label → Prop
  | .enterSupervisor _ _ | .loadImage _ _ | .writeBytes _ _ | .idleOnWfi _ |
    .setInstructionsPerTick _ | .host _ => True
  | _ => False

/-- The machines that are ready to run. -/
def Booted (cfg : Config) (m : Machine) : Prop :=
  ∃ ls, (∀ l ∈ ls, l.IsSetup) ∧ m = (Machine.init cfg).run ls

lemma Booted.reachable (h : Booted cfg m) : Reachable cfg m :=
  ⟨h.choose, h.choose_spec.2⟩

lemma setup_pending (hl : l.IsSetup) (m : Machine) (t : ℕ) :
    ((m.act l).sys.mail t).pending = (m.sys.mail t).pending := by
  by_cases htouch : l.TouchesMail
  · cases l with
    | enterSupervisor entry dtbAddr =>
      refine keeps_enterSupervisor (R := SameShared fun s => (s.mail t).pending)
        (fun _ => rfl) (fun _ _ _ => rfl) (fun s => ?_) m entry dtbAddr
      -- parking a hart leaves what waits for it
      change (Function.update s.sys.mail s.cpu.hartid _ t).pending = (s.sys.mail t).pending
      rcases eq_or_ne t s.cpu.hartid with rfl | hne
      · rw [Function.update_self]
      · rw [Function.update_of_ne hne]
    | step | runnable => exact hl.elim
    | _ => exact htouch.elim
  · exact (congrArg Mailbox.pending (congrFun (letters_act htouch m) t) :)

/-- No message is left before the first turn. -/
lemma Booted.pending (h : Booted cfg m) (t : ℕ) :
    (m.sys.mail t).pending = 0 := by
  have hrun : ∀ (ls : List Label) (m : Machine), (∀ l ∈ ls, l.IsSetup) →
      ((m.run ls).sys.mail t).pending = (m.sys.mail t).pending := by
    intro ls
    induction ls with
    | nil => exact fun _ _ => rfl
    | cons l ls ih =>
      intro m hls
      have hrest := ih (m.act l) fun k hk => hls k (List.mem_cons_of_mem l hk)
      exact hrest.trans (setup_pending (hls l List.mem_cons_self) m t)
  obtain ⟨ls, hls, rfl⟩ := h
  exact hrun ls _ hls

/-- What holds of the messages in a trace of operations on a machine, the last one first. -/
structure MessagesInTime (m : Machine) (trace : List Label) : Prop where
  /-- A hart steps with nothing left in its mailbox, and while it is not stopped. -/
  ready : ∀ newer j older, trace = newer ++ .step j :: older →
    ((m.replay older).sys.mail j).pending = 0 ∧ ((m.replay older).sys.mail j).parked = false
  /-- Between a state in which a hart is stopped and its next step a start for it succeeds. -/
  stopped : ∀ later t between older, trace = later ++ .step t :: (between ++ older) →
    ((m.replay older).sys.mail t).parked = true →
    ∃ after before j addr arg, between = after ++ .step j :: before ∧
      (m.replay (before ++ older)).Posts j (.start addr arg) t
  /-- A start succeeds only for a hart that is stopped with no start outstanding. -/
  startable : ∀ newer j older t addr arg, trace = newer ++ .step j :: older →
    (m.replay older).Posts j (.start addr arg) t →
    ((m.replay older).sys.mail t).parked = true ∧
      ¬ ((m.replay older).sys.mail t).Holds (.start addr arg)
  /-- What a hart sends to itself is done by the call. -/
  own : ∀ newer j older msg, trace = newer ++ .step j :: older → (m.replay older).Posts j msg j →
    msg.Done (((m.replay older).act (.step j)).harts j)
  /-- What it sends to another one is done when that one is first asked, before its next step. -/
  applied : ∀ later t between j older msg,
    trace = later ++ .step t :: (between ++ .step j :: older) →
      (m.replay older).Posts j msg t → t ≠ j →
    ∃ after before, between = after ++ .runnable t :: before ∧ .runnable t ∉ before ∧
      msg.Done (((m.replay (before ++ .step j :: older)).act (.runnable t)).harts t)
  /-- Whatever is done when a hart is asked was sent since it was last asked. -/
  once : ∀ newer t older msg, trace = newer ++ .runnable t :: older →
    ((m.replay older).sys.mail t).Holds msg →
    ∃ since before j msg', older = since ++ .step j :: before ∧ .runnable t ∉ since ∧
      (m.replay before).Posts j msg' t ∧ msg'.flag = msg.flag ∧
      msg'.Done (((m.replay older).act (.runnable t)).harts t)

lemma Machine.Posts.unique {t t' : ℕ} {msg msg' : Message} (h : m.Posts j msg t)
    (h' : m.Posts j msg' t') : msg = msg' := by
  obtain ⟨s, hs, hsends⟩ := h
  obtain ⟨s', hs', hsends'⟩ := h'
  cases hs.symm.trans hs'
  exact hsends.1.unique hsends'.1

/-- What a message that was sent does at once. -/
lemma Machine.Posts.effect {t : ℕ} {msg : Message} (hsent : m.Posts j msg t)
    (hfits : Fits m (.step j)) (hid : (m.harts j).hartid = j) :
    ((∀ addr arg, msg = .start addr arg → (m.sys.mail t).parked = true) ∧
      (t = j → ∃ addr arg, msg = .start addr arg) ∧
      (m.act (.step j)).sys.letters t = msg.post (m.sys.letters t)) ∨
    (t = j ∧ (msg = .ipi ∨ msg = .fence) ∧ msg.Done ((m.act (.step j)).harts j)) := by
  cases receives_step hfits.1 hid t with
  | posted msg' hsent' hstart hother hletters =>
    obtain rfl := hsent.unique hsent'
    exact .inl ⟨hstart, hother, hletters⟩
  | stopped _ hnone _ => exact absurd hsent (hnone msg)
  | same hown _ => exact .inr (hown msg hsent)

/-- **Messages are applied once and in time**, in every session of a booted machine. -/
theorem messages_in_time {cfg : Config} {m : Machine} (hm : Booted cfg m) (quantum : ℕ)
    (world : List Label → List HostEvent) {q : Platform}
    (hq : (Platform.new m quantum world).Session q) : MessagesInTime m q.trace := by
  obtain ⟨ls, htrace, -, hdisc⟩ := hq.disciplined hm.reachable
  have hls : q.trace = ls := htrace.trans (List.append_nil ls)
  rw [hls]
  have hstart : Orderly m := fun t _ => by
    rw [hm.pending t]
    decide
  have hreach : ∀ older, Reachable cfg (m.replay older) := reachable_replay hm.reachable
  have hid : ∀ older i, ((m.replay older).harts i).hartid = i := fun older =>
    hartid_reachable (hreach older)
  -- what the discipline says at an operation of the trace and about any stretch before it
  have hcut : ∀ later l between older, ls = later ++ l :: (between ++ older) →
      Disciplined m older ∧ Orderly (m.replay older) ∧ Disciplined (m.replay older) between ∧
        Fits (m.replay (between ++ older)) l := by
    rintro later l between older rfl
    obtain ⟨⟨hrest, hlast⟩, -⟩ := hdisc.of_append
    obtain ⟨hold, hbetween⟩ := hrest.of_append
    exact ⟨hold, hold.orderly hm.reachable hstart, hbetween, hlast⟩
  constructor
  case ready =>
    intro newer j older heq
    exact (hcut newer _ [] older heq).2.2.2.2
  case stopped =>
    intro later t between older heq hparked
    obtain ⟨-, hord, hbetween, hlast⟩ := hcut later _ between older heq
    rcases hbetween.stopped (hreach older) hord hparked with hstill | hstarted
    · rw [← Machine.replay_append, hlast.2.2] at hstill
      cases hstill
    · simpa only [Machine.replay_append] using hstarted
  case startable =>
    intro newer j older t addr arg heq hsent
    obtain ⟨-, hord, -, hfits⟩ := hcut newer _ [] older heq
    rcases hsent.effect hfits (hid older j) with ⟨hparked, -, -⟩ | ⟨-, hmsg, -⟩
    · have hstopped := hparked addr arg rfl
      exact ⟨hstopped, not_not.mpr (hord t hstopped)⟩
    · simp at hmsg
  case own =>
    intro newer j older msg heq hsent
    obtain ⟨-, -, -, hfits⟩ := hcut newer _ [] older heq
    rcases hsent.effect hfits (hid older j) with ⟨hparked, hself, -⟩ | ⟨-, -, hdone⟩
    · -- a hart cannot start itself: it is not stopped
      obtain ⟨addr, arg, hmsg⟩ := hself rfl
      have hstopped := hparked addr arg hmsg
      have hrunning : ((m.replay older).sys.mail j).parked = false := hfits.2.2
      rw [hrunning] at hstopped
      cases hstopped
    · exact hdone
  case applied =>
    intro later t between j older msg heq hsent hne
    obtain ⟨-, hord, hbetween, hlast⟩ := hcut later _ between (.step j :: older) heq
    have hfits : Fits (m.replay older) (.step j) :=
      (hcut (later ++ .step t :: between) _ [] older (by simpa using heq)).2.2.2
    rcases hsent.effect hfits (hid older j) with ⟨-, -, hletters⟩ | ⟨hself, -⟩
    · have hold : ((m.replay (.step j :: older)).sys.letters t).Holds msg := by
        rw [Machine.replay_cons, hletters]
        exact (Message.holds_post msg msg _).mpr (.inr rfl)
      have hargs : ∀ addr arg, msg = .start addr arg →
          ((m.replay (.step j :: older)).sys.mail t).startAddr = addr ∧
            ((m.replay (.step j :: older)).sys.mail t).startOpaque = arg := by
        rintro addr arg rfl
        exact ⟨(congrArg Mailbox.startAddr hletters :), (congrArg Mailbox.startOpaque hletters :)⟩
      rw [Machine.replay_append] at hlast
      simpa only [Machine.replay_append] using
        hbetween.applied (hreach _) hord hold hargs hlast.2.1
    · exact absurd hself hne
  case once =>
    intro newer t older msg heq hold
    obtain ⟨hdone, -, -, hfits⟩ := hcut newer _ [] older heq
    obtain ⟨since, before, j, msg', hsplit, hsince, hsent, hflag, hargs⟩ :=
      hdone.origin hm.reachable hstart (Mailbox.not_holds (hm.pending t) msg) hold
    refine ⟨since, before, j, msg', hsplit, hsince, hsent, hflag, ?_⟩
    refine asked_done (hid older t) hfits ?_ hargs
    unfold Mailbox.Holds
    rw [hflag]
    exact hold

/-- Two harts in supervisor mode; the first one asks for an interrupt of the second. -/
def caller : Machine :=
  (Machine.init (.plain 2 4096 page_fits)).run [.loadImage dramBase
    (codeBytes [0x007358b7, 0x04988893, 0x00200513, 0x00000593, 0x00000073, 0x0000006f]),
    .enterSupervisor dramBase 0]

/-- Its fifth step sends the message, which waits for the turn of the second hart. -/
theorem messages_in_time_sample :
    MessagesInTime caller ((Platform.new caller 8 fun _ => []).run 20 4).2.trace ∧
      let m := caller.replay [.step 0, .step 0, .step 0, .step 0, .beginRound 0, .runnable 0]
      (m.hart 0).firmwareCall.isSome = true ∧ ((m.act (.step 0)).sys.mail 1).pending = mbIpi := by
  have hbooted : Booted (.plain 2 4096 page_fits) caller :=
    ⟨_, by simp [Label.IsSetup], rfl⟩
  exact ⟨messages_in_time hbooted 8 (fun _ => []) (.run .start 20 4), by decide +kernel⟩

end RiscvEmu
