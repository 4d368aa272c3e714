import RiscvEmu.Cpu.ViewSteps
import RiscvEmu.Machine

/-!
# Execution backends

`backends.rs`: a register file and an ALU that stand in for the array and the host's arithmetic.  A
backend that answers as those do cannot be told from them: a machine with such backends, seen with
the registers that `read_reg` returns in the array and without backends, runs as the plain machine
does.

The view is followed through every instruction by `Cpu/ViewSteps`; this file adds the operations of
the platform, and what a run leaves of the calls and of the array.
-/

namespace RiscvEmu

open Exec

/-! ## Honest backends -/

/-- The value a register has after a history of calls, the latest first. -/
def lastWritten (init : ℕ → U64) : List RegCall → ℕ → U64
  | [] => init
  | .read _ :: calls => lastWritten init calls
  | .write i x :: calls => Function.update (lastWritten init calls) i x

/-- A read returns the last value written, or the initial one. -/
def RegFileBackend.Honest (b : RegFileBackend) (init : ℕ → U64) : Prop :=
  ∀ calls i, 1 ≤ i → i ≤ 31 → b.respond calls i = lastWritten init calls i

/-- Every answer is that of the plain ALU. -/
def AluBackend.Honest (b : AluBackend) : Prop :=
  ∀ calls op x y, b.respond calls op x y = aluReference op x y

/-- The register a call is about. -/
def RegCall.index : RegCall → ℕ
  | .read i => i
  | .write i _ => i

/-- The calls are about registers that exist. -/
def RegFileBackend.CalledWell (b : RegFileBackend) : Prop :=
  ∀ call ∈ b.calls, 1 ≤ call.index ∧ call.index ≤ 31

/-- A hart with a register file as `hooked` says, whose backends are honest; its register file has
been called well, and the array beside it is as it was. -/
structure Honestly (init : ℕ → U64) (hooked : Bool) (regs : ℕ → U64)
    (regfile : Option RegFileBackend) (aluBackend : Option AluBackend) : Prop where
  hooked : regfile.isSome = hooked
  file : ∀ b, regfile = some b → b.Honest init ∧ b.CalledWell ∧ regs = init
  alu : ∀ b, aluBackend = some b → b.Honest

/-! ## The plain hart -/

namespace View

/-- The registers as `read_reg` returns them, in the array, and no backends. -/
def plain : View where
  regs r regfile i :=
    if i = 0 ∨ i ≥ numRegs then 0
    else match regfile with
      | some b => b.respond b.calls i
      | none => r i
  regfile _ := none
  aluBackend _ := none
  fregs := id
  csrs := id
  csrs_raw := @raw_id
  csrs_setRaw := @setRaw_id

lemma showsFp_plain : plain.ShowsFp := ⟨rfl, rfl⟩

lemma plain_regs (c : Cpu) (i : ℕ) : (plain.cpu c).regs i = (c.getReg i).1 := by
  unfold Cpu.getReg
  show (if i = 0 ∨ i ≥ numRegs then 0 else _) = _
  split
  · rfl
  · cases c.regfile <;> rfl

lemma plain_regs_zero (c : Cpu) {i : ℕ} (hi : i = 0 ∨ i ≥ numRegs) : (plain.cpu c).regs i = 0 :=
  if_pos hi

lemma plain_regs_none {c : Cpu} (h : c.regfile = none) {i : ℕ} (hi : ¬ (i = 0 ∨ i ≥ numRegs)) :
    (plain.cpu c).regs i = c.regs i := by
  rw [plain_regs, Cpu.getReg, if_neg hi, h]

variable {init : ℕ → U64} {hooked : Bool}

/-- The registers of an honest file, by its history. -/
lemma plain_regs_some {c : Cpu} {b : RegFileBackend} (hb : b.Honest init) (h : c.regfile = some b)
    {i : ℕ} (hi : ¬ (i = 0 ∨ i ≥ numRegs)) : (plain.cpu c).regs i = lastWritten init b.calls i := by
  rw [plain_regs, Cpu.getReg, if_neg hi, h]
  unfold numRegs at hi
  exact hb b.calls i (by omega) (by omega)

lemma plain_getReg (c : Cpu) (i : ℕ) :
    (plain.cpu c).getReg i = ((c.getReg i).1, plain.cpu c) := by
  rw [← plain_regs]
  unfold Cpu.getReg
  by_cases hi : i = 0 ∨ i ≥ numRegs
  · rw [if_pos hi, plain_regs_zero c hi]
  · rw [if_neg hi]
    rfl

/-- A change of registers and backends shows in the registers that exist only. -/
lemma plain_cpu_of_regs {c d : Cpu} (h : d = { c with
      regs := d.regs, regfile := d.regfile, aluBackend := d.aluBackend }) {r : ℕ → U64}
    (hzero : ∀ i, i = 0 ∨ i ≥ numRegs → r i = 0)
    (hregs : ∀ i, ¬ (i = 0 ∨ i ≥ numRegs) → (plain.cpu d).regs i = r i) :
    { plain.cpu c with regs := r } = plain.cpu d := by
  have hcpu : plain.cpu d = { plain.cpu c with regs := (plain.cpu d).regs } := by
    rw [h]
    rfl
  have hr : (plain.cpu d).regs = r := by
    funext i
    by_cases hi : i = 0 ∨ i ≥ numRegs
    · rw [plain_regs_zero d hi, hzero i hi]
    · exact hregs i hi
  rw [hcpu, hr]

/-- A call to a register file leaves the hart honest. -/
lemma backed_call {c : Cpu} {b : RegFileBackend} (hc : c.Backed (Honestly init hooked))
    (h : c.regfile = some b) (call : RegCall) (hcall : ¬ (call.index = 0 ∨ call.index ≥ numRegs)) :
    Cpu.Backed (Honestly init hooked)
      { c with regfile := some { b with calls := call :: b.calls } } := by
  obtain ⟨hhonest, hwell, hregs⟩ := hc.file b h
  unfold numRegs at hcall
  refine ⟨(congrArg Option.isSome h).symm.trans hc.hooked, fun b' hb' => ?_, hc.alu⟩
  cases hb'
  refine ⟨hhonest, fun c' hc' => ?_, hregs⟩
  rcases List.mem_cons.mp hc' with rfl | hold
  · omega
  · exact hwell c' hold

lemma exact_plain_getReg {c : Cpu} (i : ℕ) (hc : c.Backed (Honestly init hooked)) :
    (plain.cpu c).getReg i = ((c.getReg i).1, plain.cpu (c.getReg i).2) ∧
      (c.getReg i).2.Backed (Honestly init hooked) := by
  rw [plain_getReg]
  by_cases hi : i = 0 ∨ i ≥ numRegs
  · rw [Cpu.getReg, if_pos hi]
    exact ⟨rfl, hc⟩
  cases h : c.regfile with
  | none =>
    have hget : c.getReg i = (c.regs i, c) := by rw [Cpu.getReg, if_neg hi, h]
    rw [hget]
    exact ⟨rfl, hc⟩
  | some b =>
    have hget : c.getReg i = ((b.read i).1, { c with regfile := some (b.read i).2 }) := by
      rw [Cpu.getReg, if_neg hi, h]
    rw [hget]
    refine ⟨congrArg (Prod.mk _) ?_, backed_call hc h (.read i) hi⟩
    -- the history of writes is the same
    refine plain_cpu_of_regs rfl (fun j hj => plain_regs_zero c hj) fun j hj => ?_
    rw [plain_regs_some (b := (b.read i).2) (hc.file b h).1 rfl hj]
    exact (plain_regs_some (hc.file b h).1 h hj).symm

lemma update_apply_congr {f g : ℕ → U64} (i : ℕ) (x : U64) {j : ℕ} (h : f j = g j) :
    Function.update f i x j = Function.update g i x j := by
  simp only [Function.update_apply, h]

lemma exact_plain_setReg {c : Cpu} (i : ℕ) (x : U64) (hc : c.Backed (Honestly init hooked)) :
    (plain.cpu c).setReg i x = plain.cpu (c.setReg i x) ∧
      (c.setReg i x).Backed (Honestly init hooked) := by
  by_cases hi : i = 0 ∨ i ≥ numRegs
  · rw [Cpu.setReg, Cpu.setReg, if_pos hi, if_pos hi]
    exact ⟨rfl, hc⟩
  have hplain : (plain.cpu c).setReg i x =
      { plain.cpu c with regs := Function.update (plain.cpu c).regs i x } := if_neg hi
  have hzero : ∀ j, j = 0 ∨ j ≥ numRegs → Function.update (plain.cpu c).regs i x j = 0 := by
    intro j hj
    have hne : j ≠ i := fun he => hi (he ▸ hj)
    rw [Function.update_of_ne hne, plain_regs_zero c hj]
  rw [hplain]
  cases h : c.regfile with
  | none =>
    have hset : c.setReg i x = { c with regs := Function.update c.regs i x } := by
      rw [Cpu.setReg, if_neg hi, h]
    rw [hset]
    refine ⟨plain_cpu_of_regs rfl hzero fun j hj => ?_, hc.hooked, fun b hb => ?_, hc.alu⟩
    · refine (plain_regs_none (c := { c with regs := Function.update c.regs i x }) h hj).trans ?_
      exact update_apply_congr i x (plain_regs_none h hj).symm
    · rw [show c.regfile = some b from hb] at h
      cases h
  | some b =>
    have hset : c.setReg i x = { c with regfile := some (b.write i x) } := by
      rw [Cpu.setReg, if_neg hi, h]
    rw [hset]
    refine ⟨plain_cpu_of_regs rfl hzero fun j hj => ?_, backed_call hc h (.write i x) hi⟩
    rw [plain_regs_some (b := b.write i x) (hc.file b h).1 rfl hj]
    exact update_apply_congr i x (plain_regs_some (hc.file b h).1 h hj).symm

lemma exact_plain_runAlu {c : Cpu} (op : AluOp) (x y : U64) (hc : c.Backed (Honestly init hooked)) :
    (plain.cpu c).runAlu op x y = ((c.runAlu op x y).1, plain.cpu (c.runAlu op x y).2) ∧
      (c.runAlu op x y).2.Backed (Honestly init hooked) := by
  have hplain : (plain.cpu c).runAlu op x y = (aluReference op x y, plain.cpu c) := rfl
  rw [hplain, Cpu.runAlu]
  cases h : c.aluBackend with
  | none => exact ⟨rfl, hc⟩
  | some b =>
    have hb : b.Honest := hc.alu b h
    refine ⟨Prod.ext (hb b.calls op x y).symm rfl, hc.hooked, hc.file, fun b' hb' => ?_⟩
    cases hb'
    exact hb

/-- A hart with honest backends has the registers of the plain hart. -/
lemma exact_plain : plain.Exact (Honestly init hooked) where
  getReg _ i hc := exact_plain_getReg i hc
  setReg _ i x hc := exact_plain_setReg i x hc
  runAlu _ op x y hc := exact_plain_runAlu op x y hc

end View

/-! ## Operations on a hart -/

/-- What asking whether it can run does to a hart, after the mailbox. -/
def Hart.wake (s : Hart) : Hart :=
  if (s.sys.mail s.cpu.hartid).parked then s
  else if s.cpu.waitingForInterrupt then
    if s.cpu.csrs.pendingEnabled = 0 then s
    else { s with cpu := { s.cpu with waitingForInterrupt := false } }
  else s

lemma Hart.runnable_snd (s : Hart) : s.runnable.2 = s.applyMailbox.wake := by
  unfold Hart.runnable Hart.wake
  dsimp only
  rw [apply_ite Prod.snd, apply_ite Prod.snd, apply_ite Prod.snd]

/-- An operation that does to the plain hart what it does to the hart. -/
def Follows (f : Hart → Hart) : Prop :=
  ∀ init hooked s, Backed (Honestly init hooked) s →
    f (View.plain.hart s) = View.plain.hart (f s) ∧ Backed (Honestly init hooked) (f s)

namespace Follows

variable {f g : Hart → Hart}

lemma comp (hg : Follows g) (hf : Follows f) : Follows fun s => g (f s) := by
  intro init hooked s hs
  obtain ⟨hplain, hok⟩ := hf init hooked s hs
  obtain ⟨hplain', hok'⟩ := hg init hooked (f s) hok
  exact ⟨(congrArg g hplain).trans hplain', hok'⟩

lemma ite {p : Hart → Prop} [DecidablePred p] (hp : ∀ s, p (View.plain.hart s) ↔ p s)
    (hf : Follows f) (hg : Follows g) : Follows fun s => if p s then f s else g s := by
  intro init hooked s hs
  by_cases h : p s
  · simp only [if_pos h, if_pos ((hp s).mpr h)]
    exact hf init hooked s hs
  · simp only [if_neg h, if_neg fun hq => h ((hp s).mp hq)]
    exact hg init hooked s hs

lemma id : Follows fun s => s := fun _ _ _ hs => ⟨rfl, hs⟩

lemma setReg (i : ℕ) (x : Hart → U64) (hx : ∀ s, x (View.plain.hart s) = x s) :
    Follows fun s => { s with cpu := s.cpu.setReg i (x s) } := by
  intro init hooked s hs
  obtain ⟨hplain, hok⟩ := View.exact_plain.setReg s.cpu i (x s) hs
  refine ⟨?_, hok⟩
  dsimp only
  rw [hx]
  exact congrArg (Hart.mk · s.sys) hplain

lemma remoteFence : Follows Hart.remoteFence := fun _ _ _ hs => ⟨rfl, hs⟩

lemma startAt (addr arg : Hart → U64) (haddr : ∀ s, addr (View.plain.hart s) = addr s)
    (harg : ∀ s, arg (View.plain.hart s) = arg s) :
    Follows fun s => s.startAt (addr s) (arg s) := by
  intro init hooked s hs
  dsimp only
  rw [haddr, harg]
  -- the registers are written between two parts that do not look at them
  let enter (t : Hart) : Hart :=
    let t := t.mapMail fun m => { m with parked := false }
    let csrs := t.cpu.csrs.write Csr.satp 0
    { t with cpu := { t.cpu with
        waitingForInterrupt := false
        priv := .supervisor
        pc := addr s
        csrs := csrs.setMstatus (csrs.mstatus &&& ~~~(Csr.mstatusSie ||| Csr.mstatusSpie)) } }
  have henter : Follows enter := fun _ _ _ hs => ⟨rfl, hs⟩
  have hleave : Follows fun t : Hart =>
      { t with sys := t.sys.emit (.start t.cpu.hartid) }.clearReservation.remoteFence :=
    fun _ _ _ hs => ⟨rfl, hs⟩
  exact (hleave.comp ((setReg 11 (fun _ => arg s) fun _ => rfl).comp
    ((setReg 10 (fun t => BitVec.ofNat 64 t.cpu.hartid) fun _ => rfl).comp henter))) init
      hooked s hs

lemma applyMailbox : Follows Hart.applyMailbox := by
  have hclear : Follows fun s : Hart => s.mapMail fun m => { m with pending := 0 } :=
    fun _ _ _ hs => ⟨rfl, hs⟩
  have hraise : Follows fun s : Hart =>
      { s with cpu := { s.cpu with csrs := s.cpu.csrs.raiseInterrupt Csr.mipSsip } } :=
    fun _ _ _ hs => ⟨rfl, hs⟩
  have hstart : Follows fun s : Hart => s.startAt (s.sys.mail s.cpu.hartid).startAddr
      (s.sys.mail s.cpu.hartid).startOpaque := startAt _ _ (fun _ => rfl) fun _ => rfl
  intro init hooked s hs
  -- the flags are those read before the mailbox is emptied
  let flags := (s.sys.mail s.cpu.hartid).pending
  have hip := hraise.ite (p := fun _ => flags &&& mbIpi ≠ 0) (fun _ => Iff.rfl) id
  have hfence := remoteFence.ite (p := fun _ => flags &&& mbFence ≠ 0) (fun _ => Iff.rfl) id
  have hgo := hstart.ite (p := fun _ => flags &&& mbStart ≠ 0) (fun _ => Iff.rfl) id
  exact (id.ite (p := fun _ => flags = 0) (fun _ => Iff.rfl)
    (hgo.comp (hfence.comp (hip.comp hclear)))) init hooked s hs

lemma runnable : Follows fun s => s.runnable.2 := by
  have hwake : Follows Hart.wake :=
    id.ite (fun _ => Iff.rfl) (ite (fun _ => Iff.rfl)
      (id.ite (fun _ => Iff.rfl) fun _ _ _ hs => ⟨rfl, hs⟩) id)
  rw [show (fun s : Hart => s.runnable.2) = fun s => s.applyMailbox.wake from
    funext Hart.runnable_snd]
  exact hwake.comp applyMailbox

lemma step : Follows Hart.step := by
  intro init hooked s hs
  have hhidden : View.plain.Hidden (Honestly init hooked) s := ⟨hs, fun _ => View.showsFp_plain⟩
  obtain ⟨hrun, hok⟩ := View.mirrors_stepCore View.exact_plain s hhidden
  unfold Hart.step
  rw [hrun]
  rw [final] at hok
  cases h : stepCore s with
  | ok a t =>
    rw [h] at hok
    exact ⟨rfl, hok⟩
  | error e t =>
    rw [h] at hok
    exact ⟨rfl, hok⟩

lemma enterKernel (entry dtbAddr : U64) : Follows (Hart.enterKernel entry dtbAddr) := by
  have henter : Follows fun s : Hart =>
      { s with cpu := { s.cpu with priv := .supervisor, pc := entry } } := fun _ _ _ hs => ⟨rfl, hs⟩
  exact (setReg 11 (fun _ => dtbAddr) fun _ => rfl).comp
    ((setReg 10 (fun _ => 0) fun _ => rfl).comp henter)

end Follows

/-! ## Runs of a machine -/

/-- The machine with plain harts. -/
def Machine.plain (m : Machine) : Machine := ⟨fun h => View.plain.cpu (m.harts h), m.sys⟩

/-- `p` is the plain machine of `m`, whose backends are honest about the registers `init`. -/
structure PlainOf (init : ℕ → ℕ → U64) (hooked : ℕ → Bool) (m p : Machine) : Prop where
  plain : p = m.plain
  honest : ∀ h, (m.harts h).Backed (Honestly (init h) (hooked h))

namespace PlainOf

variable {init : ℕ → ℕ → U64} {hooked : ℕ → Bool} {m p : Machine} {f : Hart → Hart}

lemma onHart (hf : Follows f) (h : ℕ) (hm : PlainOf init hooked m p) :
    PlainOf init hooked (m.onHart h f) (p.onHart h f) := by
  obtain ⟨rfl, hhonest⟩ := hm
  unfold Machine.onHart
  by_cases hlt : h < m.sys.numHarts
  · obtain ⟨hplain, hok⟩ := hf (init h) (hooked h) (m.hart h) (hhonest h)
    have hrun : f (m.plain.hart h) = View.plain.hart (f (m.hart h)) := hplain
    rw [if_pos hlt, if_pos (show h < m.plain.sys.numHarts from hlt), hrun]
    refine ⟨congrArg (Machine.mk · _) (funext fun i => ?_), fun i => ?_⟩
    · by_cases hi : i = h
      · subst hi
        rw [Function.update_self]
        exact (congrArg View.plain.cpu (Function.update_self ..)).symm
      · rw [Function.update_of_ne hi]
        exact (congrArg View.plain.cpu (Function.update_of_ne hi ..)).symm
    · show Cpu.Backed _ (Function.update m.harts h (f (m.hart h)).cpu i)
      by_cases hi : i = h
      · subst hi
        rw [Function.update_self]
        exact hok
      · rw [Function.update_of_ne hi]
        exact hhonest i
  · rw [if_neg hlt, if_neg (show ¬ h < m.plain.sys.numHarts from hlt)]
    exact ⟨rfl, hhonest⟩

lemma mapSys (g : Sys → Sys) (hm : PlainOf init hooked m p) :
    PlainOf init hooked (m.mapSys g) (p.mapSys g) := by
  obtain ⟨rfl, hhonest⟩ := hm
  exact ⟨rfl, hhonest⟩

lemma foldl (hf : Follows f) (hs : List ℕ) (hm : PlainOf init hooked m p) :
    PlainOf init hooked (hs.foldl (fun m h => m.onHart h f) m)
      (hs.foldl (fun m h => m.onHart h f) p) := by
  induction hs generalizing m p with
  | nil => exact hm
  | cons h hs ih => exact ih (hm.onHart hf h)

lemma sys_eq (hm : PlainOf init hooked m p) : p.sys = m.sys := by
  rw [hm.plain]
  rfl

lemma onHarts (hf : Follows f) (hm : PlainOf init hooked m p) :
    PlainOf init hooked (m.onHarts f) (p.onHarts f) := by
  unfold Machine.onHarts
  rw [hm.sys_eq]
  exact hm.foldl hf _

lemma enterSupervisor (entry dtbAddr : U64) (hm : PlainOf init hooked m p) :
    PlainOf init hooked (m.enterSupervisor entry dtbAddr) (p.enterSupervisor entry dtbAddr) := by
  have hdelegate : Follows Hart.delegate := fun _ _ _ hs => ⟨rfl, hs⟩
  have hpark : Follows Hart.park := fun _ _ _ hs => ⟨rfl, hs⟩
  have hboot := (hm.onHarts hdelegate).onHart (.enterKernel entry dtbAddr) 0
  unfold Machine.enterSupervisor
  dsimp only
  rw [hboot.sys_eq]
  exact hboot.foldl hpark _

lemma loadImage (addr : U64) (bytes : List U8) (hm : PlainOf init hooked m p) :
    PlainOf init hooked (m.loadImage addr bytes) (p.loadImage addr bytes) := by
  unfold Machine.loadImage
  rw [hm.sys_eq]
  cases m.sys.ram.loadImage addr bytes with
  | none => exact hm
  | some ram => exact hm.mapSys _

lemma writeBytes (addr : U64) (bytes : List U8) (hm : PlainOf init hooked m p) :
    PlainOf init hooked (m.writeBytes addr bytes) (p.writeBytes addr bytes) := by
  unfold Machine.writeBytes
  rw [hm.sys_eq]
  cases m.sys.ram.writeBytes addr bytes with
  | none => exact hm
  | some ram => exact hm.mapSys _

/-- Every operation of the platform does the same to the plain machine. -/
lemma act (l : Label) (hm : PlainOf init hooked m p) : PlainOf init hooked (m.act l) (p.act l) := by
  have hbegin : Follows Hart.beginRound := fun _ _ _ hs => ⟨rfl, hs⟩
  have hdrive : Follows Hart.drive := fun _ _ _ hs => ⟨rfl, hs⟩
  have hhalt : ∀ shutdown, Follows fun s =>
    { s with cpu := { s.cpu with halted := true, sbiShutdown := shutdown } } :=
    fun _ _ _ _ hs => ⟨rfl, hs⟩
  have hidle : ∀ on, Follows fun s => { s with cpu := { s.cpu with idleOnWfi := on } } :=
    fun _ _ _ _ hs => ⟨rfl, hs⟩
  cases l with
  | step h => exact hm.onHart .step h
  | runnable h => exact hm.onHart .runnable h
  | beginRound h => exact hm.onHart hbegin h
  | tick n => exact hm.mapSys fun s => s.mapClock fun c => c.tick n
  | resetLive => exact hm.mapSys fun s => s.mapClock fun c => { c with live := 0 }
  | advanceTo t => exact hm.mapSys fun s => s.mapClock fun c => c.advanceTo t
  | setInstructionsPerTick n =>
    exact hm.mapSys fun s => s.mapClock fun c => c.setInstructionsPerTick n
  | pollDevices host => exact (hm.mapSys fun s => s.pollAll host).onHarts hdrive
  | halt shutdown => exact hm.onHart (hhalt shutdown) 0
  | htif addr => exact hm.mapSys fun s => final (Bus.load addr 8 .load) s
  | idleOnWfi on => exact hm.onHarts (hidle on)
  | enterSupervisor entry dtbAddr => exact hm.enterSupervisor entry dtbAddr
  | loadImage addr bytes => exact hm.loadImage addr bytes
  | writeBytes addr bytes => exact hm.writeBytes addr bytes
  | host e => exact hm.mapSys fun s => s.host e

lemma run (ls : List Label) (hm : PlainOf init hooked m p) :
    PlainOf init hooked (m.run ls) (p.run ls) := by
  induction ls generalizing m p with
  | nil => exact hm
  | cons l ls ih => exact ih (hm.act l)

end PlainOf

/-! ## Transparency -/

/-- No hart has a backend. -/
def Machine.Unhooked (m : Machine) : Prop :=
  ∀ h, (m.harts h).regfile = none ∧ (m.harts h).aluBackend = none

/-- The machine with backends installed in its harts. -/
def Machine.install (m : Machine) (regfile : ℕ → Option RegFileBackend)
    (aluBackend : ℕ → Option AluBackend) : Machine :=
  { m with harts := fun h =>
      { m.harts h with regfile := regfile h, aluBackend := aluBackend h } }

/-- Two machines that cannot be told apart but by the way registers are kept: `read_reg` returns the
same, every other part of a hart is the same, so is all that the harts share, and the next step of a
hart ends the same way. -/
structure Alike (m p : Machine) : Prop where
  regs : ∀ h i, ((m.harts h).getReg i).1 = ((p.harts h).getReg i).1
  rest : ∀ h, { m.harts h with
    regs := (p.harts h).regs
    regfile := (p.harts h).regfile
    aluBackend := (p.harts h).aluBackend } = p.harts h
  sys : m.sys = p.sys
  step : ∀ h, outcome stepCore (m.hart h) = outcome stepCore (p.hart h)

lemma PlainOf.outcome_eq {init : ℕ → ℕ → U64} {hooked : ℕ → Bool} {m p : Machine}
    (hm : PlainOf init hooked m p) (h : ℕ) :
    outcome stepCore (p.hart h) = outcome stepCore (m.hart h) := by
  obtain ⟨rfl, hhonest⟩ := hm
  exact (View.mirrors_stepCore View.exact_plain).outcome_eq
    (s := m.hart h) ⟨hhonest h, fun _ => View.showsFp_plain⟩

/-- Machines with the same plain machine are alike. -/
lemma alike_of_plainOf {init init' : ℕ → ℕ → U64} {hooked hooked' : ℕ → Bool} {m p q : Machine}
    (hm : PlainOf init hooked m q) (hp : PlainOf init' hooked' p q) : Alike m p := by
  have hharts : ∀ h, View.plain.cpu (m.harts h) = View.plain.cpu (p.harts h) := fun h =>
    congrArg (fun x : Machine => x.harts h) (hm.plain.symm.trans hp.plain)
  refine ⟨fun h i => ?_, fun h => ?_, hm.sys_eq.symm.trans hp.sys_eq, fun h =>
    (hm.outcome_eq h).symm.trans (hp.outcome_eq h)⟩
  · rw [← View.plain_regs, ← View.plain_regs, hharts h]
  · exact congrArg (fun c : Cpu => { c with
      regs := (p.harts h).regs
      regfile := (p.harts h).regfile
      aluBackend := (p.harts h).aluBackend }) (hharts h)

section Transparent

variable {p : Machine} {regfile : ℕ → Option RegFileBackend} {aluBackend : ℕ → Option AluBackend}

lemma plainOf_unhooked (hp : p.Unhooked) :
    PlainOf (fun h => (p.harts h).regs) (fun _ => false) p p.plain where
  plain := rfl
  honest h := by
    obtain ⟨hregfile, halu⟩ := hp h
    exact ⟨congrArg Option.isSome hregfile,
      fun b hb => absurd (hregfile.symm.trans hb) (Option.some_ne_none b).symm,
      fun b hb => absurd (halu.symm.trans hb) (Option.some_ne_none b).symm⟩

lemma plainOf_install (hp : p.Unhooked)
    (hregs : ∀ h b, regfile h = some b → b.calls = [] ∧ b.Honest (p.harts h).regs)
    (halu : ∀ h b, aluBackend h = some b → b.Honest) :
    PlainOf (fun h => (p.harts h).regs) (fun h => (regfile h).isSome)
      (p.install regfile aluBackend) p.plain where
  plain := by
    refine congrArg (Machine.mk · p.sys) (funext fun h => ?_)
    refine View.plain_cpu_of_regs rfl (fun i hi => View.plain_regs_zero _ hi) fun i hi => ?_
    have hown : (View.plain.cpu (p.harts h)).regs i = (p.harts h).regs i :=
      View.plain_regs_none (hp h).1 hi
    refine Eq.trans ?_ hown.symm
    cases hb : regfile h with
    | none => exact View.plain_regs_none (c := (p.install regfile aluBackend).harts h) hb hi
    | some b =>
      obtain ⟨hfresh, hhonest⟩ := hregs h b hb
      rw [View.plain_regs_some (c := (p.install regfile aluBackend).harts h) hhonest hb hi, hfresh]
      rfl
  honest h := by
    refine ⟨rfl, fun b hb => ?_, fun b hb => halu h b hb⟩
    obtain ⟨hfresh, hhonest⟩ := hregs h b hb
    refine ⟨hhonest, fun call hcall => ?_, rfl⟩
    rw [hfresh] at hcall
    cases hcall

end Transparent

/-- **Backends are transparent.**  Install in the harts of any machine register files that return
the last value written, at first the hart's own register, and ALUs that answer as the plain one
does.  After any run the machine is like the one without backends after the same run; a register
file is still in its place, it has been called for x1 to x31 only, and the array beside it is
untouched. -/
theorem backends_transparent (p : Machine) (regfile : ℕ → Option RegFileBackend)
    (aluBackend : ℕ → Option AluBackend) (hp : p.Unhooked)
    (hregs : ∀ h b, regfile h = some b → b.calls = [] ∧ b.Honest (p.harts h).regs)
    (halu : ∀ h b, aluBackend h = some b → b.Honest) (ls : List Label) :
    Alike ((p.install regfile aluBackend).run ls) (p.run ls) ∧
      ∀ h, (regfile h).isSome → ∃ b,
        (((p.install regfile aluBackend).run ls).harts h).regfile = some b ∧ b.CalledWell ∧
          (((p.install regfile aluBackend).run ls).harts h).regs = (p.harts h).regs := by
  have hinstalled := (plainOf_install hp hregs halu).run ls
  refine ⟨alike_of_plainOf hinstalled ((plainOf_unhooked hp).run ls), fun h hsome => ?_⟩
  have hhart := hinstalled.honest h
  obtain ⟨b, hb⟩ := Option.isSome_iff_exists.mp (hhart.hooked.trans hsome)
  obtain ⟨-, hwell, harray⟩ := hhart.file b hb
  exact ⟨b, hb, hwell, harray⟩

/-- A register file that does no more than remember. -/
def recorder (init : ℕ → U64) : RegFileBackend := ⟨[], lastWritten init⟩

/-- An ALU that does no more than compute. -/
def calculator : AluBackend := ⟨[], fun _ => aluReference⟩

/-- Load `addi x1, x0, 5` and `add x2, x1, x1`, and run them. -/
def sumRun : List Label :=
  [.loadImage dramBase (codeBytes [0x00500093, 0x00108133]), .step 0, .step 0]

/-- A machine out of reset with both backends, after this run. -/
def recorded : Machine :=
  ((Machine.init (.plain 1 4096 page_fits)).install (fun _ => some (recorder fun _ => 0))
    fun _ => some calculator).run sumRun

/-- The sum is in the register file that was installed, which was called for it, and not in the
array; a machine without backends has it too. -/
theorem backends_transparent_recorder :
    Alike recorded ((Machine.init (.plain 1 4096 page_fits)).run sumRun) ∧
      ((recorded.harts 0).getReg 2).1 = 10 ∧
      ∃ b, (recorded.harts 0).regfile = some b ∧ b.CalledWell ∧ b.calls ≠ [] ∧
        (recorded.harts 0).regs = ((Machine.init (.plain 1 4096 page_fits)).harts 0).regs := by
  have hboth := backends_transparent (Machine.init (.plain 1 4096 page_fits))
    (fun _ => some (recorder fun _ => 0)) (fun _ => some calculator) (fun _ => ⟨rfl, rfl⟩)
      ?_ ?_ sumRun
  · obtain ⟨b, hb, hwell, harray⟩ := hboth.2 0 rfl
    have hcalls : (recorded.harts 0).regfile.map (·.calls.isEmpty) = some false := by
      decide +kernel
    refine ⟨hboth.1, by decide +kernel, b, hb, hwell, fun hnil => ?_, harray⟩
    rw [recorded, hb, Option.map_some, hnil] at hcalls
    cases hcalls
  · intro h b hb
    cases hb
    exact ⟨rfl, fun _ _ _ _ => rfl⟩
  · intro h b hb
    cases hb
    exact fun _ _ _ _ => rfl

end RiscvEmu
