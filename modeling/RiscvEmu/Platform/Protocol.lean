import RiscvEmu.Platform
import RiscvEmu.Wiring

/-!
# The protocol of the scheduler

The loops of `Platform::run` perform the operations of a machine in an order that a small automaton
describes: turns of the harts one after the other, each begun by asking the hart, then the clock,
then the devices.  Every run follows the automaton (`run_follows`), so a law about the order of
operations is proved along paths of the automaton and not again for each of the nested loops.
-/

namespace RiscvEmu

open Exec

/-- The machine after the operations of a trace, whose first element is the last one performed. -/
def Machine.replay (m : Machine) : List Label → Machine
  | [] => m
  | l :: ls => (m.replay ls).act l

@[simp] lemma Machine.replay_cons (m : Machine) (l : Label) (ls : List Label) :
    m.replay (l :: ls) = (m.replay ls).act l := rfl

lemma Machine.replay_append (m : Machine) (ls ls' : List Label) :
    m.replay (ls' ++ ls) = (m.replay ls).replay ls' := by
  induction ls' with
  | nil => rfl
  | cons l ls' ih => simp [ih]

@[simp] lemma Machine.replay_numHarts (m : Machine) (ls : List Label) :
    (m.replay ls).sys.numHarts = m.sys.numHarts := by
  induction ls with
  | nil => rfl
  | cons l ls ih => simp [ih]

lemma reachable_replay {cfg : Config} {m : Machine} (hm : Reachable cfg m) (ls : List Label) :
    Reachable cfg (m.replay ls) := by
  induction ls with
  | nil => exact hm
  | cons l ls ih =>
    obtain ⟨setup, hsetup⟩ := ih
    refine ⟨setup ++ [l], ?_⟩
    rw [Machine.run, List.foldl_append, Machine.replay_cons, hsetup]
    rfl

/-! ## The automaton -/

/-- Where the scheduler is. -/
inductive Phase where
  /-- Between two turns: the hart to ask next, the longest turn so far, and whether one ran. -/
  | round (next roundMax : ℕ) (anyRan : Bool)
  /-- A hart has said that it can run. -/
  | admitted (i roundMax : ℕ)
  /-- A hart has its turn, and has used a number of steps. -/
  | running (i used roundMax : ℕ)
  /-- Its last step reached a device. -/
  | touched (i used roundMax : ℕ)
  /-- The turns are over and the clock is to move. -/
  | ticking (roundMax : ℕ)
  /-- The devices are to be polled. -/
  | polling
  /-- The stop conditions are to be checked. -/
  | checking
  | stopped

/-- What a step of hart `i` leads to. -/
def afterStep (m : Machine) (i used roundMax : ℕ) : Phase :=
  let n := m.act (.step i)
  if (failure stepCore (m.hart i)).isSome then .stopped
  else if (n.harts i).halted ∨
    (n.sys.mail i).parked then .round (i + 1) (max roundMax (used + 1)) true
  else if n.sys.mmioEpoch ≠ m.sys.mmioEpoch then .touched i (used + 1) roundMax
  else .running i (used + 1) roundMax

/-- The transitions, with the operation they perform if there is one. -/
inductive Next (quantum : ℕ) : Phase → Machine → Option Label → Phase → Prop
  | host {φ : Phase} {m : Machine} (e : HostEvent) : Next quantum φ m (some (.host e)) φ
  | refuse {m : Machine} {i roundMax : ℕ} {anyRan : Bool} (hi : i < m.sys.numHarts)
      (h : (m.hart i).runnable.1 = false) :
      Next quantum (.round i roundMax anyRan) m (some (.runnable i))
        (.round (i + 1) roundMax anyRan)
  | enter {m : Machine} {i roundMax : ℕ} {anyRan : Bool} (hi : i < m.sys.numHarts)
      (h : (m.hart i).runnable.1 = true) :
      Next quantum (.round i roundMax anyRan) m (some (.runnable i)) (.admitted i roundMax)
  | begin {m : Machine} {i roundMax : ℕ} :
      Next quantum (.admitted i roundMax) m (some (.beginRound i)) (.running i 0 roundMax)
  | sleep {m : Machine} {i used roundMax : ℕ} (h : (m.hart i).runnable.1 = false) :
      Next quantum (.running i used roundMax) m (some (.runnable i))
        (.round (i + 1) (max roundMax used) true)
  | wake {m : Machine} {i used roundMax : ℕ} (h : (m.hart i).runnable.1 = true) :
      Next quantum (.running i used roundMax) m (some (.runnable i)) (.running i used roundMax)
  | step {m : Machine} {i used roundMax : ℕ} (hused : used < quantum)
      (hawake : (m.harts i).waitingForInterrupt = false) :
      Next quantum (.running i used roundMax) m (some (.step i)) (afterStep m i used roundMax)
  | poll {m : Machine} {i used roundMax : ℕ} (host : Bool) :
      Next quantum (.touched i used roundMax) m (some (.pollDevices host))
        (.running i used roundMax)
  | finish {m : Machine} {i used roundMax : ℕ} :
      Next quantum (.running i used roundMax) m none (.round (i + 1) (max roundMax used) true)
  | reset {m : Machine} {i roundMax : ℕ} :
      Next quantum (.round i roundMax true) m (some .resetLive) (.ticking roundMax)
  | tick {m : Machine} {roundMax : ℕ} :
      Next quantum (.ticking roundMax) m (some (.tick (BitVec.ofNat 64 roundMax))) .polling
  | idleTick {m : Machine} {i roundMax : ℕ} (n : U64) (hn : n ≤ 10000) :
      Next quantum (.round i roundMax false) m (some (.tick n)) .polling
  | jump {m : Machine} {i roundMax : ℕ} (t : U64) :
      Next quantum (.round i roundMax false) m (some (.advanceTo t)) .polling
  | idle {m : Machine} {i roundMax : ℕ} : Next quantum (.round i roundMax false) m none .polling
  | pollAll {m : Machine} (host : Bool) : Next quantum .polling m
    (some (.pollDevices host)) .checking
  | htif {m : Machine} (addr : U64) : Next quantum .checking m (some (.htif addr)) .checking
  | halt {m : Machine} (shutdown : Bool) : Next quantum .checking m (some (.halt shutdown)) .stopped
  | again {m : Machine} : Next quantum .checking m none (.round 0 0 false)

/-- Paths of the automaton from a phase and a machine, with the trace they leave. -/
inductive Path (quantum : ℕ) (m : Machine) (φ : Phase) : List Label → Phase → Prop
  | nil : Path quantum m φ [] φ
  | act {ls : List Label} {ψ ψ' : Phase} {l : Label} (h : Path quantum m φ ls ψ)
      (hnext : Next quantum ψ (m.replay ls) (some l) ψ') : Path quantum m φ (l :: ls) ψ'
  | silent {ls : List Label} {ψ ψ' : Phase} (h : Path quantum m φ ls ψ)
      (hnext : Next quantum ψ (m.replay ls) none ψ') : Path quantum m φ ls ψ'

section Paths

variable {quantum : ℕ} {m : Machine} {φ ψ χ : Phase} {ls ls' : List Label}

lemma Path.append (h : Path quantum m φ ls ψ) (h' : Path quantum (m.replay ls) ψ ls' χ) :
    Path quantum m φ (ls' ++ ls) χ := by
  induction h' with
  | nil => exact h
  | act _ hnext ih =>
    rw [← Machine.replay_append] at hnext
    exact ih.act hnext
  | silent _ hnext ih =>
    rw [← Machine.replay_append] at hnext
    exact ih.silent hnext

/-- A path can be cut before any of its operations. -/
lemma Path.split {l : Label} (h : Path quantum m φ (ls' ++ l :: ls) χ) :
    ∃ ψ ψ', Path quantum m φ ls ψ ∧ Next quantum ψ (m.replay ls) (some l) ψ' ∧
      Path quantum (m.replay (l :: ls)) ψ' ls' χ := by
  generalize hall : ls' ++ l :: ls = all at h
  induction h generalizing ls' with
  | nil => simp at hall
  | @act rest ψ ψ' k h hnext ih =>
    cases ls' with
    | nil =>
      obtain ⟨rfl, rfl⟩ := List.cons.inj hall
      exact ⟨ψ, ψ', h, hnext, .nil⟩
    | cons k' ls' =>
      rw [List.cons_append] at hall
      obtain ⟨rfl, rfl⟩ := List.cons.inj hall
      obtain ⟨χ, χ', hpath, hl, hrest⟩ := ih rfl
      rw [Machine.replay_append] at hnext
      exact ⟨χ, χ', hpath, hl, hrest.act hnext⟩
  | silent h hnext ih =>
    obtain ⟨χ, χ', hpath, hl, hrest⟩ := ih hall
    subst hall
    rw [Machine.replay_append] at hnext
    exact ⟨χ, χ', hpath, hl, hrest.silent hnext⟩

end Paths

namespace Platform

/-! ## Following the automaton -/

/-- The operations that led from `p` to `p'` are a path from phase `φ` to phase `φ'`. -/
def Follows (p : Platform) (φ : Phase) (p' : Platform) (φ' : Phase) : Prop :=
  p'.quantum = p.quantum ∧ p'.world = p.world ∧
    ∃ ls, p'.trace = ls ++ p.trace ∧ p'.machine = p.machine.replay ls ∧
      Path p.quantum p.machine φ ls φ'

variable {p p' p'' : Platform} {φ φ' φ'' : Phase}

lemma Follows.quantum (h : p.Follows φ p' φ') : p'.quantum = p.quantum := h.1

lemma Follows.world (h : p.Follows φ p' φ') : p'.world = p.world := h.2.1

lemma Follows.refl (p : Platform) (φ : Phase) : p.Follows φ p φ := ⟨rfl, rfl, [], rfl, rfl, .nil⟩

lemma Follows.trans (h : p.Follows φ p' φ') (h' : p'.Follows φ' p'' φ'') :
    p.Follows φ p'' φ'' := by
  obtain ⟨hq, hw, ls, htr, hm, hpath⟩ := h
  obtain ⟨hq', hw', ls', htr', hm', hpath'⟩ := h'
  rw [hq, hm] at hpath'
  refine ⟨hq'.trans hq, hw'.trans hw, ls' ++ ls, ?_, ?_, hpath.append hpath'⟩
  · rw [htr', htr, List.append_assoc]
  · rw [hm', hm, Machine.replay_append]

lemma Follows.act {l : Label} (h : Next p.quantum φ p.machine (some l) φ') :
    p.Follows φ (p.act l) φ' :=
  ⟨rfl, rfl, [l], rfl, rfl, Path.act .nil h⟩

lemma Follows.silent (h : Next p.quantum φ p.machine none φ') : p.Follows φ p φ' :=
  ⟨rfl, rfl, [], rfl, rfl, Path.silent .nil h⟩

lemma Follows.numHarts (h : p.Follows φ p' φ') :
    p'.machine.sys.numHarts = p.machine.sys.numHarts := by
  obtain ⟨-, -, ls, -, hm, -⟩ := h
  rw [hm, Machine.replay_numHarts]

/-! ## The parts of a turn -/

lemma follows_outside (p : Platform) (φ : Phase) : p.Follows φ p.outside φ := by
  unfold outside
  generalize p.world p.trace = es
  induction es generalizing p with
  | nil => exact .refl p φ
  | cons e es ih => exact (Follows.act (.host e)).trans (ih _)

/-- What the outside world does to a machine. -/
structure Outside (m m' : Machine) : Prop where
  harts : m'.harts = m.harts
  mmioEpoch : m'.sys.mmioEpoch = m.sys.mmioEpoch
  mail : m'.sys.mail = m.sys.mail

lemma outside_outside (p : Platform) : Outside p.machine p.outside.machine := by
  unfold outside
  generalize p.world p.trace = es
  induction es generalizing p with
  | nil => exact ⟨rfl, rfl, rfl⟩
  | cons e es ih =>
    have hrest := ih (p.act (.host e))
    have hone : Outside p.machine (p.act (.host e)).machine := by
      cases e <;> exact ⟨rfl, rfl, rfl⟩
    exact ⟨hrest.harts.trans hone.harts, hrest.mmioEpoch.trans hone.mmioEpoch,
      hrest.mail.trans hone.mail⟩

lemma runnable_mmioEpoch (s : Hart) : s.runnable.2.sys.mmioEpoch = s.sys.mmioEpoch :=
  keeps_runnable (R := OnShared (SameShared Sys.mmioEpoch))
    (keeps_applyMailbox (fun _ => rfl) (fun _ => rfl) (fun _ => rfl) fun _ _ _ => rfl)
    (fun _ => rfl) s

lemma act_runnable_mmioEpoch (m : Machine) (i : ℕ) :
    (m.act (.runnable i)).sys.mmioEpoch = m.sys.mmioEpoch := by
  change (m.onHart i fun s => s.runnable.2).sys.mmioEpoch = _
  unfold Machine.onHart
  split
  · exact runnable_mmioEpoch (m.hart i)
  · rfl

/-- A hart that can run does not wait. -/
lemma runnable_awake {s : Hart} (h : s.runnable.1 = true) :
    s.runnable.2.cpu.waitingForInterrupt = false := by
  unfold Hart.runnable at h ⊢
  dsimp only at h ⊢
  split_ifs at h ⊢ with hparked hwait hpending
  · rfl
  · simpa using hwait

/-- Before a step a hart that waits is asked again. -/
lemma follows_wake {i : ℕ} (used roundMax : ℕ) (hi : i < p.machine.sys.numHarts) :
    ((p.wake i).1 = true → p.Follows (.running i used roundMax) (p.wake i).2
      (.running i used roundMax) ∧ ((p.wake i).2.machine.harts i).waitingForInterrupt = false) ∧
    ((p.wake i).1 = false → p.Follows (.running i used roundMax) (p.wake i).2
      (.round (i + 1) (max roundMax used) true)) ∧
    (p.wake i).2.machine.sys.mmioEpoch = p.machine.sys.mmioEpoch := by
  unfold wake
  split
  · refine ⟨fun h => ⟨Follows.act (.wake h), ?_⟩, fun h => Follows.act (.sleep h),
      act_runnable_mmioEpoch p.machine i⟩
    have hact : (p.machine.act (.runnable i)).harts i = (p.machine.hart i).runnable.2.cpu := by
      change (p.machine.onHart i fun s => s.runnable.2).harts i = _
      simp [Machine.onHart, hi, Machine.setHart]
    exact (congrArg Cpu.waitingForInterrupt hact).trans (runnable_awake h)
  · next hawake => exact ⟨fun _ => ⟨.refl _ _, by simpa using hawake⟩, by simp, rfl⟩

/-- Where a call of `run_core` leads, after `used` steps of the turn. -/
def coreEnd (i used roundMax : ℕ) (r : CoreRun) : Phase :=
  if r.fault.isSome then .stopped
  else if r.touched then .touched i used roundMax
  else .round (i + 1) (max roundMax used) true

/-- `run_core` follows the automaton.  `base` steps of the turn came before the call. -/
lemma follows_runCoreLoop {i before : ℕ} (base roundMax left n : ℕ) (p : Platform)
    (hi : i < p.machine.sys.numHarts) (hbefore : p.machine.sys.mmioEpoch = before)
    (hleft : base + n + left ≤ p.quantum) :
    let r := runCoreLoop i before left n p
    p.Follows (.running i (base + n) roundMax) r.2 (coreEnd i (base + r.1.done) roundMax r.1) ∧
      n ≤ r.1.done ∧ r.1.done ≤ n + left ∧
      (r.1.touched = true → (r.2.machine.harts i).halted = false ∧ r.2.parked i = false) := by
  induction left generalizing n p with
  | zero => exact ⟨.silent .finish, Nat.le_refl _, Nat.le_refl _, by simp [runCoreLoop]⟩
  | succ left ih =>
    obtain ⟨hrun, hsleep, hepoch⟩ := follows_wake (base + n) roundMax hi
    unfold runCoreLoop
    rcases hwake : p.wake i with ⟨b, p₁⟩
    rw [hwake] at hrun hsleep hepoch
    cases b with
    | false => exact ⟨hsleep rfl, Nat.le_refl _, Nat.le_add_right _ _, by simp⟩
    | true =>
      obtain ⟨hfollows, hawake⟩ := hrun rfl
      have hout := outside_outside p₁
      have hturn := hfollows.trans (follows_outside p₁ (.running i (base + n) roundMax))
      -- the step itself, in the machine the outside world left
      have hquantum : base + n < p₁.outside.quantum := by
        have := hturn.quantum
        omega
      have hstep := hturn.trans (Follows.act (.step hquantum (by rw [hout.harts]; exact hawake)))
      have hcount : p₁.outside.machine.sys.mmioEpoch = before :=
        hout.mmioEpoch.trans (hepoch.trans hbefore)
      dsimp only [stepHart]
      cases hfail : failure stepCore (p₁.outside.machine.hart i) with
      | some t =>
        refine ⟨?_, Nat.le_refl _, Nat.le_add_right _ _, by simp⟩
        simpa [coreEnd, afterStep, hfail] using hstep
      | none =>
        dsimp only
        by_cases hstop : ((p₁.outside.act (.step i)).machine.harts i).halted ∨
            (p₁.outside.act (.step i)).parked i
        · rw [if_pos hstop]
          refine ⟨?_, Nat.le_succ n, by dsimp only; omega, by simp⟩
          have hphase : afterStep p₁.outside.machine i (base + n) roundMax =
              .round (i + 1) (max roundMax (base + (n + 1))) true := by
            unfold afterStep
            rw [hfail]
            exact if_pos hstop
          rwa [hphase] at hstep
        rw [if_neg hstop]
        by_cases htouched : (p₁.outside.act (.step i)).machine.sys.mmioEpoch ≠ before
        · rw [if_pos htouched]
          refine ⟨?_, Nat.le_succ n, by dsimp only; omega, fun _ => by simpa using hstop⟩
          have hphase : afterStep p₁.outside.machine i (base + n) roundMax =
              .touched i (base + (n + 1)) roundMax := by
            unfold afterStep
            rw [hfail, hcount]
            exact (if_neg hstop).trans (if_pos htouched)
          rwa [hphase] at hstep
        · rw [if_neg htouched]
          have hphase : afterStep p₁.outside.machine i (base + n) roundMax =
              .running i (base + (n + 1)) roundMax := by
            unfold afterStep
            rw [hfail, hcount]
            exact (if_neg hstop).trans (if_neg htouched)
          rw [hphase] at hstep
          have hquantum' : (p₁.outside.act (.step i)).quantum = p.quantum := hstep.quantum
          have hrest := ih (n + 1) (p₁.outside.act (.step i)) (by rw [hstep.numHarts]; exact hi)
            (not_not.mp htouched) (by rw [hquantum']; omega)
          refine ⟨hstep.trans hrest.1, ?_, ?_, hrest.2.2.2⟩
          · exact Nat.le_of_succ_le hrest.2.1
          · have := hrest.2.2.1
            omega

lemma follows_pollDevices (hnext : ∀ host m, Next p.quantum φ m (some (.pollDevices host)) φ') :
    p.Follows φ p.pollDevices φ' := by
  have hout := follows_outside p φ
  have hquantum : p.outside.quantum = p.quantum := hout.quantum
  have hpoll : ∀ host, p.Follows φ (p.outside.act (.pollDevices host)) φ' := fun host =>
    hout.trans (Follows.act (by rw [hquantum]; exact hnext host _))
  unfold pollDevices
  dsimp only
  by_cases hhost : hostPollInterval ≤ if (p.outside.machine.sys.uart.takeYieldRequest.1 &&
      p.outside.hostInputActive) = true then hostPollInterval else p.outside.sinceHostPoll
  · rw [if_pos hhost]
    exact hpoll true
  · rw [if_neg hhost]
    exact hpoll false

/-- Where a turn leads. -/
def turnEnd (i used roundMax : ℕ) (fault : Option Trap) : Phase :=
  if fault.isSome then .stopped else .round (i + 1) (max roundMax used) true

lemma follows_quantumLoop {i : ℕ} (roundMax fuel budget used : ℕ) (p : Platform)
    (hi : i < p.machine.sys.numHarts) (hbudget : used + budget ≤ p.quantum) :
    let r := quantumLoop i fuel budget used p
    p.Follows (.running i used roundMax) r.2.2 (turnEnd i r.1 roundMax r.2.1) := by
  induction fuel generalizing budget used p with
  | zero => exact .silent .finish
  | succ fuel ih =>
    unfold quantumLoop
    by_cases hzero : budget = 0
    · rw [if_pos hzero]
      exact .silent .finish
    rw [if_neg hzero]
    have hcore := follows_runCoreLoop used roundMax budget 0 p hi rfl
      (by omega)
    rw [Nat.add_zero] at hcore
    unfold runCore
    rcases hrun : runCoreLoop i p.machine.sys.mmioEpoch budget 0 p with ⟨r, p₁⟩
    rw [hrun] at hcore
    obtain ⟨hfollows, -, hdone, hstop⟩ := hcore
    dsimp only at hfollows hdone hstop ⊢
    cases hfault : r.fault with
    | some t =>
      have hphase : coreEnd i (used + r.done) roundMax r = .stopped := by simp [coreEnd, hfault]
      rw [hphase] at hfollows
      exact hfollows
    | none =>
      dsimp only
      by_cases hend : ((p₁.count r.done).machine.harts i).halted ∨ (p₁.count r.done).parked i ∨
          (!r.touched) = true
      · rw [if_pos hend]
        have htouched : r.touched = false := by
          by_contra htouched
          have hgo := hstop (by simpa using htouched)
          rcases hend with h | h | h
          · exact absurd (h.symm.trans hgo.1) (by decide)
          · exact absurd (h.symm.trans hgo.2) (by decide)
          · exact htouched (by simpa using h)
        have hphase : coreEnd i (used + r.done) roundMax r =
            turnEnd i (used + r.done) roundMax none := by
          simp [coreEnd, turnEnd, hfault, htouched]
        rw [hphase] at hfollows
        exact hfollows
      · rw [if_neg hend]
        have htouched : r.touched = true := by
          by_contra htouched
          exact hend (Or.inr (Or.inr (by simpa using htouched)))
        have hphase : coreEnd i (used + r.done) roundMax r =
            .touched i (used + r.done) roundMax := by
          simp [coreEnd, hfault, htouched]
        rw [hphase] at hfollows
        have hcounted : p.Follows (.running i used roundMax) (p₁.count r.done)
            (.touched i (used + r.done) roundMax) := hfollows
        have hpolled := hcounted.trans (follows_pollDevices fun host _ => .poll host)
        refine hpolled.trans (ih _ _ _ ?_ ?_)
        · rw [hpolled.numHarts]
          exact hi
        · rw [hpolled.quantum]
          omega

/-! ## Rounds -/

section Turns

variable {maxSteps i roundMax used : ℕ} {rest : List ℕ} {anyRan : Bool} {t : Trap} {p₁ : Platform}

lemma turns_of_refuse (h : (p.machine.hart i).runnable.1 = false) :
    turns maxSteps (i :: rest) roundMax anyRan p =
      turns maxSteps rest roundMax anyRan (p.act (.runnable i)) := by
  rw [turns, runnable, h]

lemma turns_of_fault (h : (p.machine.hart i).runnable.1 = true)
    (hturn : (p.act (.runnable i)).runQuantum i (min p.quantum (maxSteps - p.retired)) =
      (used, some t, p₁)) :
    turns maxSteps (i :: rest) roundMax anyRan p = (.fault t, p₁) := by
  rw [turns, runnable, h]
  change (p.act (.runnable i)).runQuantum i (min (p.act (.runnable i)).quantum
    (maxSteps - (p.act (.runnable i)).retired)) = _ at hturn
  dsimp only
  rw [hturn]

lemma turns_of_turn (h : (p.machine.hart i).runnable.1 = true)
    (hturn : (p.act (.runnable i)).runQuantum i (min p.quantum (maxSteps - p.retired)) =
      (used, none, p₁)) :
    turns maxSteps (i :: rest) roundMax anyRan p =
      if p₁.retired ≥ maxSteps then (.ended (max roundMax used) true, p₁)
      else turns maxSteps rest (max roundMax used) true p₁ := by
  rw [turns, runnable, h]
  change (p.act (.runnable i)).runQuantum i (min (p.act (.runnable i)).quantum
    (maxSteps - (p.act (.runnable i)).retired)) = _ at hturn
  dsimp only
  rw [hturn]

end Turns

/-- Where the turns of a round lead. -/
def TurnsFollow (p : Platform) (φ : Phase) (r : Turns × Platform) : Prop :=
  match r.1 with
  | .fault _ => p.Follows φ r.2 .stopped
  | .ended roundMax anyRan => ∃ j, p.Follows φ r.2 (.round j roundMax anyRan)

lemma TurnsFollow.of_follows {r : Turns × Platform} (h : p.Follows φ p' φ')
    (h' : p'.TurnsFollow φ' r) : p.TurnsFollow φ r := by
  unfold TurnsFollow at h' ⊢
  split at h'
  · exact h.trans h'
  · obtain ⟨j, hj⟩ := h'
    exact ⟨j, h.trans hj⟩

lemma follows_turns (maxSteps k : ℕ) (i roundMax : ℕ) (anyRan : Bool) (p : Platform)
    (hk : i + k = p.machine.sys.numHarts) :
    p.TurnsFollow (.round i roundMax anyRan)
      (turns maxSteps (List.range' i k) roundMax anyRan p) := by
  induction k generalizing i roundMax anyRan p with
  | zero => exact ⟨i, .refl _ _⟩
  | succ k ih =>
    have hi : i < p.machine.sys.numHarts := by omega
    rw [List.range'_succ]
    cases hask : (p.machine.hart i).runnable.1 with
    | false =>
      have hrefuse : p.Follows (.round i roundMax anyRan) (p.act (.runnable i))
          (.round (i + 1) roundMax anyRan) := .act (.refuse hi hask)
      rw [turns_of_refuse hask]
      exact .of_follows hrefuse (ih _ _ _ _ (by rw [hrefuse.numHarts]; omega))
    | true =>
      have hbegin : p.Follows (.round i roundMax anyRan)
          ((p.act (.runnable i)).act (.beginRound i)) (.running i 0 roundMax) :=
        (Follows.act (.enter hi hask)).trans (.act .begin)
      have hturn := follows_quantumLoop roundMax
        (min p.quantum (maxSteps - p.retired)) (min p.quantum (maxSteps - p.retired)) 0
        ((p.act (.runnable i)).act (.beginRound i)) (by rw [hbegin.numHarts]; exact hi)
        (by rw [hbegin.quantum]; omega)
      rcases hloop : (p.act (.runnable i)).runQuantum i (min p.quantum (maxSteps - p.retired))
        with ⟨used, fault, p₁⟩
      rw [runQuantum] at hloop
      rw [hloop] at hturn
      have hall := hbegin.trans hturn
      cases fault with
      | some t =>
        rw [turns_of_fault hask hloop]
        exact hall
      | none =>
        rw [turns_of_turn hask hloop]
        split
        · exact ⟨i + 1, hall⟩
        · exact .of_follows hall (ih _ _ _ _ (by rw [hall.numHarts]; omega))

/-- The stop conditions are looked at without acting on the machine, but for a read of `tohost`
and the verdict. -/
lemma follows_checkStop (p : Platform) :
    ∃ φ, p.Follows .checking p.checkStop.2 φ ∧ (p.checkStop.1 = false → φ = .checking) := by
  have hnote : p.Follows .checking p.noteStop .checking := .refl p _
  have hload : p.Follows .checking (p.noteStop.act (.htif p.htifTohostAddr)) .checking :=
    hnote.trans (.act (.htif _))
  have hread : p.Follows .checking p.noteStop.readTohost .checking := by
    unfold readTohost
    split
    · exact hnote
    · split
      · dsimp only
        split <;> exact hload
      · exact hload
  unfold checkStop
  dsimp only
  split
  · next h =>
      exact ⟨.stopped, hread.trans (.act (.halt _)), fun h' => absurd (h.symm.trans h') (by decide)⟩
  · exact ⟨.checking, hread, fun _ => rfl⟩

/-- Where a round leads: to the next one, or to the end. -/
def RoundFollows (p : Platform) (φ : Phase) (r : RoundEnd × Platform) : Prop :=
  match r.1 with
  | .next _ _ => p.Follows φ r.2 (.round 0 0 false)
  | _ => ∃ φ', p.Follows φ r.2 φ'

lemma RoundFollows.of_follows {r : RoundEnd × Platform} (h : p.Follows φ p' φ')
    (h' : p'.RoundFollows φ' r) : p.RoundFollows φ r := by
  unfold RoundFollows at h' ⊢
  split at h'
  · exact h.trans h'
  · obtain ⟨ψ, hψ⟩ := h'
    exact ⟨ψ, h.trans hψ⟩

lemma follows_finishRound (consecutive idle : ℕ) (p : Platform) :
    p.RoundFollows .polling (p.finishRound consecutive idle) := by
  have hpoll : p.Follows .polling p.pollDevices .checking :=
    follows_pollDevices fun host _ => .pollAll host
  obtain ⟨ψ, hcheck, hgo⟩ := follows_checkStop p.pollDevices
  unfold finishRound
  rcases hstop : p.pollDevices.checkStop with ⟨b, p₁⟩
  rw [hstop] at hcheck hgo
  cases b with
  | true => exact ⟨ψ, hpoll.trans hcheck⟩
  | false =>
    obtain rfl := hgo rfl
    exact (hpoll.trans hcheck).trans (.silent .again)

lemma follows_idleRound (maxSteps consecutive idle : ℕ) {i roundMax : ℕ} (p : Platform) :
    p.RoundFollows (.round i roundMax false) (p.idleRound maxSteps consecutive idle) := by
  unfold idleRound
  dsimp only
  split
  · exact ⟨_, .refl _ _⟩
  -- only the count of instructions since the last look at the host differs
  generalize hq : ({ p with sinceHostPoll := p.sinceHostPoll + 64 } : Platform) = q
  have hp : p.Follows (.round i roundMax false) q (.round i roundMax false) := by
    subst hq
    exact .refl p _
  refine .of_follows hp ?_
  clear hp hq
  have hstay : ∀ c n (q' : Platform),
    q.Follows (.round i roundMax false) q' (.round i roundMax false) →
      q.RoundFollows (.round i roundMax false) (q'.finishRound c n) := fun c n q' h =>
    .of_follows (h.trans (.silent .idle)) (follows_finishRound c n q')
  split
  · exact .of_follows (.act (.idleTick 2000 (by decide))) (follows_finishRound _ _ _)
  split
  · have htick : q.Follows (.round i roundMax false) (q.act (.tick 10000)) .polling :=
      .act (.idleTick 10000 (by decide))
    exact .of_follows htick (follows_finishRound _ _ _)
  unfold fastForwardIdle
  by_cases hjump : q.nextDeadline = ~~~0
  · rw [if_pos hjump]
    dsimp only
    split_ifs
    · exact ⟨_, .refl q _⟩
    · exact hstay _ _ q (.refl q _)
  · rw [if_neg hjump]
    exact .of_follows (.act (.jump _)) (follows_finishRound _ _ _)

lemma follows_round (maxSteps consecutive idle : ℕ) (p : Platform) :
    p.RoundFollows (.round 0 0 false) (p.round maxSteps consecutive idle) := by
  have hturns := follows_turns maxSteps p.machine.sys.numHarts 0 0 false p (Nat.zero_add _)
  rw [← List.range_eq_range'] at hturns
  unfold round
  rcases hr : turns maxSteps (List.range p.machine.sys.numHarts) 0 false p with ⟨r, p₁⟩
  rw [hr] at hturns
  cases r with
  | fault t => exact ⟨_, hturns⟩
  | ended roundMax anyRan =>
    obtain ⟨j, hj⟩ := hturns
    cases anyRan with
    | true =>
      have hclock := (hj.trans (Follows.act .reset)).trans (Follows.act .tick)
      exact .of_follows hclock (follows_finishRound _ _ _)
    | false => exact .of_follows hj (follows_idleRound _ _ _ p₁)

/-- Every run of the scheduler follows the automaton. -/
theorem run_follows (maxSteps rounds : ℕ) (p : Platform) :
    ∃ φ, p.Follows (.round 0 0 false) (p.run maxSteps rounds).2 φ := by
  have hloop : ∀ rounds consecutive idle (p : Platform),
      ∃ φ, p.Follows (.round 0 0 false) (runLoop maxSteps rounds consecutive idle p).2 φ := by
    intro rounds
    induction rounds with
    | zero =>
      intro consecutive idle p
      unfold runLoop
      split <;> exact ⟨_, .refl _ _⟩
    | succ rounds ih =>
      intro consecutive idle p
      unfold runLoop
      split
      · exact ⟨_, .refl _ _⟩
      have hround := follows_round maxSteps consecutive idle p
      rcases hr : p.round maxSteps consecutive idle with ⟨r, p₁⟩
      rw [hr] at hround
      cases r with
      | next c n =>
        obtain ⟨φ, hφ⟩ := ih c n p₁
        exact ⟨φ, Follows.trans hround hφ⟩
      | stop => exact hround
      | fault t => exact hround
  exact hloop rounds 0 0 p

end Platform

end RiscvEmu
