import RiscvEmu.Platform.Protocol

/-!
# The scheduler returns

A round in which a hart ran retires a step, and idle rounds have a count of their own, so twice the
budget bounds the rounds of a run.  The count of idle rounds is a machine word that is compared
with the budget: at the largest budget the comparison never fires, and a machine that sleeps with
a console attached is scheduled for ever.
-/

namespace RiscvEmu

open Exec

namespace Platform

/-! ## What the parts of a round retire -/

@[simp] lemma act_retired (p : Platform) (l : Label) : (p.act l).retired = p.retired := rfl

@[simp] lemma outside_retired (p : Platform) : p.outside.retired = p.retired := by
  unfold outside
  generalize p.world p.trace = es
  induction es generalizing p with
  | nil => rfl
  | cons e es ih => exact (ih _).trans (act_retired p _)

@[simp] lemma pollDevices_retired (p : Platform) : p.pollDevices.retired = p.retired := by
  have hout := outside_retired p
  unfold pollDevices
  dsimp only
  split_ifs <;> exact hout

@[simp] lemma checkStop_retired (p : Platform) : p.checkStop.2.retired = p.retired := by
  have hread : p.noteStop.readTohost.retired = p.retired := by
    unfold readTohost
    split
    · rfl
    · split
      · dsimp only
        split <;> rfl
      · rfl
  unfold checkStop
  dsimp only
  split <;> exact hread

/-- The end of a round stops the run or goes on with the counts it was given. -/
lemma finishRound_cases (consecutive idle : ℕ) (p : Platform) :
    ((p.finishRound consecutive idle).1 = .stop ∨
      (p.finishRound consecutive idle).1 = .next consecutive idle) ∧
    (p.finishRound consecutive idle).2.retired = p.retired := by
  have hretired := checkStop_retired p.pollDevices
  unfold finishRound
  rcases hstop : p.pollDevices.checkStop with ⟨b, p₁⟩
  rw [hstop] at hretired
  cases b with
  | true => exact ⟨Or.inl rfl, by simpa using hretired⟩
  | false => exact ⟨Or.inr rfl, by simpa using hretired⟩

/-! ## A turn makes progress -/

lemma wake_retired (p : Platform) (i : ℕ) : (p.wake i).2.retired = p.retired := by
  unfold wake
  split <;> rfl

/-- A call of `run_core` takes at most the steps it is given.  It takes one if the hart is awake,
and if it ends at a device. -/
lemma runCoreLoop_done (i before left n : ℕ) (p : Platform) :
    let r := runCoreLoop i before left n p
    r.2.retired = p.retired ∧ n ≤ r.1.done ∧ r.1.done ≤ n + left ∧
      (r.1.touched = true → n < r.1.done) ∧
      (0 < left → (p.machine.harts i).waitingForInterrupt = false → r.1.fault = none →
        n < r.1.done) := by
  induction left generalizing n p with
  | zero => exact ⟨rfl, Nat.le_refl _, Nat.le_refl _, by simp [runCoreLoop], by simp⟩
  | succ left ih =>
    have hwaked := wake_retired p i
    unfold runCoreLoop
    rcases hwake : p.wake i with ⟨b, p₁⟩
    rw [hwake] at hwaked
    cases b with
    | false =>
      refine ⟨hwaked, Nat.le_refl _, Nat.le_add_right _ _, by simp, fun _ hawake => ?_⟩
      -- a hart that is awake is not asked
      simp [wake, hawake] at hwake
    | true =>
      have hstepped : (p₁.outside.act (.step i)).retired = p.retired := by simpa using hwaked
      dsimp only [stepHart]
      cases failure stepCore (p₁.outside.machine.hart i) with
      | some t => exact ⟨hstepped, Nat.le_refl _, Nat.le_add_right _ _, by simp, by simp⟩
      | none =>
        dsimp only
        split
        · exact ⟨hstepped, Nat.le_succ n, by dsimp only; omega, by simp, by simp⟩
        split
        · exact ⟨hstepped, Nat.le_succ n, by dsimp only; omega, by simp, by simp⟩
        · obtain ⟨hret, hlow, hhigh, -, -⟩ := ih (n + 1) (p₁.outside.act (.step i))
          exact ⟨hret.trans hstepped, by omega, by omega, fun _ => by omega, fun _ _ _ => by omega⟩

/-- A turn counts its steps, keeps to its budget, and takes a step if the hart is awake. -/
lemma quantumLoop_used (i fuel budget used : ℕ) (p : Platform) :
    let r := quantumLoop i fuel budget used p
    r.2.2.retired + used = p.retired + r.1 ∧ used ≤ r.1 ∧ r.1 ≤ used + budget ∧
      (0 < fuel → 0 < budget → (p.machine.harts i).waitingForInterrupt = false →
        r.2.1 = none → used < r.1) := by
  induction fuel generalizing budget used p with
  | zero => exact ⟨rfl, Nat.le_refl _, Nat.le_add_right _ _, by simp⟩
  | succ fuel ih =>
    unfold quantumLoop
    by_cases hzero : budget = 0
    · rw [if_pos hzero]
      exact ⟨rfl, Nat.le_refl _, Nat.le_add_right _ _, fun _ h => absurd hzero (by omega)⟩
    rw [if_neg hzero]
    have hcore := runCoreLoop_done i p.machine.sys.mmioEpoch budget 0 p
    unfold runCore
    rcases hrun : runCoreLoop i p.machine.sys.mmioEpoch budget 0 p with ⟨r, p₁⟩
    rw [hrun] at hcore
    obtain ⟨hret, -, hdone, htouched, hawake⟩ := hcore
    dsimp only at hret hdone htouched hawake ⊢
    have hcount : (p₁.count r.done).retired = p.retired + r.done := by
      rw [← hret]
      rfl
    cases hfault : r.fault with
    | some t =>
      refine ⟨?_, Nat.le_add_right _ _, by dsimp only; omega, by simp⟩
      change (p₁.count r.done).retired + used = p.retired + (used + r.done)
      omega
    | none =>
      dsimp only
      split
      · refine ⟨by dsimp only; omega, Nat.le_add_right _ _, by dsimp only; omega,
          fun _ _ haw _ => ?_⟩
        have := hawake (by omega) haw hfault
        dsimp only
        omega
      · next hend =>
          have hgo : 0 < r.done := by
            refine htouched ?_
            by_contra h
            exact hend (Or.inr (Or.inr (by simpa using h)))
          obtain ⟨h₁, h₂, h₃, -⟩ := ih (budget - min budget r.done) (used + r.done)
            (p₁.count r.done).pollDevices
          rw [pollDevices_retired, hcount] at h₁
          exact ⟨by omega, by omega, by omega, fun _ _ _ _ => by omega⟩

/-! ## Rounds -/

variable {p : Platform}

/-- A hart that said it can run is awake at the begin of its turn. -/
lemma awake_of_runnable {i : ℕ} (hi : i < p.machine.sys.numHarts)
    (h : (p.machine.hart i).runnable.1 = true) :
    (((p.act (.runnable i)).act (.beginRound i)).machine.harts i).waitingForInterrupt = false := by
  have hrun : ((p.machine.act (.runnable i)).harts i) = (p.machine.hart i).runnable.2.cpu := by
    change (p.machine.onHart i fun s => s.runnable.2).harts i = _
    simp [Machine.onHart, hi, Machine.setHart]
  have hi' : i < (p.machine.act (.runnable i)).sys.numHarts := by rwa [act_numHarts]
  change (((p.machine.act (.runnable i)).onHart i Hart.beginRound).harts i).waitingForInterrupt = _
  rw [Machine.onHart, if_pos hi']
  simp only [Machine.setHart, Function.update_self, Hart.beginRound, Machine.hart]
  rw [hrun]
  exact runnable_awake h

/-- The turns of a round stay within the budget, and a step is retired if a hart ran. -/
lemma turns_retired (maxSteps : ℕ) (is : List ℕ) (roundMax : ℕ) (anyRan : Bool) (p : Platform)
    (hq : 1 ≤ p.quantum) (hmax : p.retired < maxSteps)
    (his : ∀ i ∈ is, i < p.machine.sys.numHarts) :
    let r := turns maxSteps is roundMax anyRan p
    p.retired ≤ r.2.retired ∧ r.2.retired ≤ maxSteps ∧
      (∀ R, r.1 = .ended R true → anyRan = true ∨ p.retired < r.2.retired) ∧
      (∀ R, r.1 = .ended R false → anyRan = false ∧ r.2.retired = p.retired) := by
  induction is generalizing roundMax anyRan p with
  | nil =>
    refine ⟨Nat.le_refl _, Nat.le_of_lt hmax, fun R h => ?_, fun R h => ?_⟩
    · cases h
      exact Or.inl rfl
    · cases h
      exact ⟨rfl, rfl⟩
  | cons i is ih =>
    have hi := his i List.mem_cons_self
    cases hask : (p.machine.hart i).runnable.1 with
    | false =>
      rw [turns_of_refuse hask]
      exact ih roundMax anyRan (p.act (.runnable i)) hq hmax fun j hj => by
        change j < (p.machine.act (.runnable i)).sys.numHarts
        rw [act_numHarts]
        exact his j (List.mem_cons_of_mem _ hj)
    | true =>
      have hawake := awake_of_runnable hi hask
      let start := (p.act (.runnable i)).act (.beginRound i)
      let budget := min p.quantum (maxSteps - p.retired)
      have hused := quantumLoop_used i budget budget 0 start
      have hnum : start.machine.sys.numHarts = p.machine.sys.numHarts :=
        (act_numHarts _ _).trans (act_numHarts _ _)
      have hfollows := follows_quantumLoop (i := i) 0 budget budget 0 start
        (by rwa [hnum]) (by change 0 + budget ≤ p.quantum; omega)
      rcases hloop : (p.act (.runnable i)).runQuantum i budget with ⟨used, fault, p₁⟩
      rw [runQuantum] at hloop
      rw [hloop] at hused hfollows
      obtain ⟨hcount, -, hbound, hprogress⟩ := hused
      have hstart : start.retired = p.retired := rfl
      dsimp only at hcount hbound hprogress
      cases fault with
      | some t =>
        rw [turns_of_fault hask hloop]
        exact ⟨by dsimp only; omega, by dsimp only; omega, by simp, by simp⟩
      | none =>
        have hpos : 0 < used := hprogress (by omega) (by omega) hawake rfl
        rw [turns_of_turn hask hloop]
        dsimp only
        split
        · exact ⟨by dsimp only; omega, by dsimp only; omega,
            fun R _ => Or.inr (by dsimp only; omega), by simp⟩
        · next hmore =>
            obtain ⟨h₁, h₂, -, h₄⟩ :=
              ih (max roundMax used) true p₁ (by rw [hfollows.quantum]; exact hq)
              (by omega) fun j hj => by
                rw [hfollows.numHarts, hnum]
                exact his j (List.mem_cons_of_mem _ hj)
            exact ⟨by omega, h₂, fun R _ => Or.inr (by omega),
              fun R hR => absurd (h₄ R hR).1 (by decide)⟩

/-- An idle round retires nothing; a run with too many of them stops. -/
lemma idleRound_cases (maxSteps consecutive idle : ℕ) (p : Platform) :
    (p.idleRound maxSteps consecutive idle).2.retired = p.retired ∧
      ∀ c n, (p.idleRound maxSteps consecutive idle).1 = .next c n → n = idle ∧
        idle ≤ maxSteps := by
  unfold idleRound
  split
  · exact ⟨rfl, by simp⟩
  next hle =>
  dsimp only
  generalize hq : ({ p with sinceHostPoll := p.sinceHostPoll + 64 } : Platform) = q
  have hret : q.retired = p.retired := by rw [← hq]
  have hfinish : ∀ (c : ℕ) (q' : Platform), q'.retired = q.retired →
      (q'.finishRound c idle).2.retired = p.retired ∧
        ∀ c' n, (q'.finishRound c idle).1 = .next c' n → n = idle ∧ idle ≤ maxSteps := by
    intro c q' hq'
    obtain ⟨hcases, hfin⟩ := finishRound_cases c idle q'
    refine ⟨hfin.trans (hq'.trans hret), fun c' n hnext => ?_⟩
    rcases hcases with h | h <;> rw [h] at hnext <;> cases hnext
    exact ⟨rfl, by omega⟩
  split
  · exact hfinish 0 _ rfl
  split
  · exact hfinish 0 _ rfl
  unfold fastForwardIdle
  by_cases hjump : q.nextDeadline = ~~~0
  · rw [if_pos hjump]
    dsimp only
    split_ifs
    · exact ⟨hret, by simp⟩
    · exact hfinish _ q rfl
  · rw [if_neg hjump]
    exact hfinish _ _ rfl

/-- A round in which a hart ran retires a step; an idle round raises the count of idle rounds. -/
lemma round_progress (maxSteps consecutive idle : ℕ) (p : Platform) (hq : 1 ≤ p.quantum)
    (hmax : p.retired < maxSteps) :
    let r := p.round maxSteps consecutive idle
    r.2.retired ≤ maxSteps ∧ ∀ c n, r.1 = .next c n →
      (n = idle ∧ p.retired < r.2.retired) ∨
      (n = (idle + 1) % 2 ^ 64 ∧ n ≤ maxSteps ∧ r.2.retired = p.retired) := by
  have hturns := turns_retired maxSteps (List.range p.machine.sys.numHarts) 0 false p hq hmax
    fun i hi => List.mem_range.mp hi
  unfold round
  rcases hr : turns maxSteps (List.range p.machine.sys.numHarts) 0 false p with ⟨r, p₁⟩
  rw [hr] at hturns
  obtain ⟨hlow, hhigh, hran, hidle⟩ := hturns
  dsimp only at hlow hhigh hran hidle
  cases r with
  | fault t => exact ⟨hhigh, by simp⟩
  | ended roundMax anyRan =>
    cases anyRan with
    | true =>
      dsimp only
      generalize hclock : (p₁.act .resetLive).act (.tick (BitVec.ofNat 64 roundMax)) = p₂
      have hret : p₂.retired = p₁.retired := by rw [← hclock]; rfl
      obtain ⟨hcases, hfin⟩ := finishRound_cases 0 idle p₂
      have hstep : p.retired < p₁.retired := (hran roundMax rfl).resolve_left (by decide)
      refine ⟨by omega, fun c n hnext => Or.inl ?_⟩
      rcases hcases with h | h <;> rw [h] at hnext <;> cases hnext
      exact ⟨rfl, by omega⟩
    | false =>
      dsimp only
      have hsame := (hidle roundMax rfl).2
      obtain ⟨hret, hnext⟩ := idleRound_cases maxSteps consecutive ((idle + 1) % 2 ^ 64) p₁
      refine ⟨by omega, fun c n h => Or.inr ?_⟩
      obtain ⟨rfl, hle⟩ := hnext c n h
      exact ⟨rfl, hle, hret.trans hsame⟩

/-! ## Runs -/

/-- While the count of idle rounds does not wrap, the steps and the idle rounds still allowed
bound the rounds of a run. -/
lemma runLoop_returns {maxSteps : ℕ} (hword : maxSteps + 1 < 2 ^ 64) (rounds consecutive idle : ℕ)
    (p : Platform) (hq : 1 ≤ p.quantum) (hidle : idle ≤ maxSteps)
    (hrounds : (maxSteps - p.retired) + (maxSteps - idle) ≤ rounds) :
    (runLoop maxSteps (rounds + 1) consecutive idle p).1.isSome := by
  induction rounds generalizing consecutive idle p with
  | zero =>
    unfold runLoop
    rw [if_pos (by omega)]
    rfl
  | succ rounds ih =>
    rw [runLoop]
    split
    · rfl
    next hmore =>
    have hprogress := round_progress maxSteps consecutive idle p hq (by omega)
    have hfollows := follows_round maxSteps consecutive idle p
    rcases hr : p.round maxSteps consecutive idle with ⟨r, p₁⟩
    rw [hr] at hprogress hfollows
    cases r with
    | stop => rfl
    | fault t => rfl
    | next c n =>
      have hquantum : p₁.quantum = p.quantum := Follows.quantum hfollows
      obtain ⟨hbound, hcases⟩ := hprogress
      dsimp only at hbound
      rcases hcases c n rfl with ⟨rfl, hret⟩ | ⟨hn, hle, hret⟩
      · exact ih c n p₁ (by omega) hidle (by dsimp only at hret; omega)
      · rw [Nat.mod_eq_of_lt (by omega)] at hn
        exact ih c n p₁ (by omega) hle (by dsimp only at hret; omega)

lemma runLoop_retired (maxSteps rounds consecutive idle : ℕ) (p : Platform) (hq : 1 ≤ p.quantum) :
    (runLoop maxSteps rounds consecutive idle p).2.retired ≤ max p.retired maxSteps := by
  induction rounds generalizing consecutive idle p with
  | zero =>
    unfold runLoop
    split <;> exact Nat.le_max_left _ _
  | succ rounds ih =>
    rw [runLoop]
    split
    · exact Nat.le_max_left _ _
    next hmore =>
    have hprogress := round_progress maxSteps consecutive idle p hq (by omega)
    have hfollows := follows_round maxSteps consecutive idle p
    rcases hr : p.round maxSteps consecutive idle with ⟨r, p₁⟩
    rw [hr] at hprogress hfollows
    have hbound : p₁.retired ≤ maxSteps := hprogress.1
    cases r with
    | stop => exact Nat.le_trans hbound (Nat.le_max_right _ _)
    | fault t => exact Nat.le_trans hbound (Nat.le_max_right _ _)
    | next c n =>
      have hrest := ih c n p₁ (by rw [hfollows.quantum]; exact hq)
      dsimp only
      omega

/-! ## The largest budget -/

/-- The only hart sleeps in WFI with no interrupt enabled, and a quiet console is attached. -/
def Asleep (m : Machine) : Prop :=
  m.sys.numHarts = 1 ∧ (m.harts 0).waitingForInterrupt = true ∧ (m.harts 0).hartid = 0 ∧
    (m.harts 0).csrs.raw Csr.mie = 0 ∧ (m.harts 0).halted = false ∧ (m.sys.mail 0).pending = 0 ∧
    (m.sys.uart.hostRx = some [] ∧ m.sys.uart.hostClosed = false ∧ m.sys.uart.hostEof = false ∧
      m.sys.uart.exitRequested = false) ∧
    (m.sys.syscon.poweroff = false ∧ m.sys.syscon.reboot = false) ∧
    ∀ r ∈ m.sys.ranges, r.2.2 ≠ DevId.net

instance (m : Machine) : Decidable (Asleep m) := by
  unfold Asleep
  infer_instance

section Asleep

variable {m : Machine}

lemma Asleep.runnable (h : Asleep m) : (m.hart 0).runnable = (false, m.hart 0) := by
  obtain ⟨-, hwait, hid, hmie, -, hmail, -⟩ := h
  have happly : (m.hart 0).applyMailbox = m.hart 0 := by
    unfold Hart.applyMailbox
    rw [if_pos]
    change (m.sys.mail (m.harts 0).hartid).pending = 0
    rw [hid, hmail]
  have hpending : (m.hart 0).cpu.csrs.pendingEnabled = 0 := by
    change (m.harts 0).csrs.raw Csr.mip &&& (m.harts 0).csrs.raw Csr.mie = 0
    simp [hmie]
  have hwaiting : (m.hart 0).cpu.waitingForInterrupt = true := hwait
  unfold Hart.runnable
  simp only [happly, hwaiting, hpending, if_true]
  split <;> rfl

lemma Asleep.act_runnable (h : Asleep m) : m.act (.runnable 0) = m := by
  change m.onHart 0 (fun s => s.runnable.2) = m
  rw [Machine.onHart, if_pos (by rw [h.1]; decide)]
  simp only [h.runnable, Machine.setHart]
  exact congrArg (fun harts => Machine.mk harts m.sys) (Function.update_eq_self 0 m.harts)

lemma Asleep.tick (h : Asleep m) (n : U64) : Asleep (m.act (.tick n)) := h

lemma Asleep.poll (h : Asleep m) : Asleep (m.act (.pollDevices true)) := by
  obtain ⟨hone, hwait, hid, hmie, hrun, hmail, ⟨hrx, hclosed, heof, hexit⟩, hsyscon, hnet⟩ := h
  have hframe := pollFrame_pollAll m.sys true
  let polled := m.mapSys fun s => s.pollAll true
  have hact : m.act (.pollDevices true) = polled.setHart 0 (polled.hart 0).drive := by
    change polled.onHarts Hart.drive = _
    have hnum : polled.sys.numHarts = 1 := hframe.numHarts.trans hone
    rw [Machine.onHarts, hnum]
    simp [List.range_succ, Machine.onHart, hnum]
  have hcpu : (m.act (.pollDevices true)).harts 0 = (polled.hart 0).drive.cpu := by
    rw [hact]
    exact Function.update_self 0 (polled.hart 0).drive.cpu polled.harts
  have huart : (m.act (.pollDevices true)).sys.uart = (m.sys.lookAtHost true).uart := by
    rw [hact]
    exact pollAll_uart m.sys true
  have hlook : (m.sys.lookAtHost true).uart.hostRx = some [] ∧
      (m.sys.lookAtHost true).uart.hostClosed = false ∧
      (m.sys.lookAtHost true).uart.hostEof = false ∧
      (m.sys.lookAtHost true).uart.exitRequested = false := by
    simp only [Sys.lookAtHost, Uart.takeYieldRequest, if_true]
    split <;> simp [Uart.pollHostInput, hrx, heof, hclosed, hexit, Uart.takeChunks]
  refine ⟨?_, ?_, ?_, ?_, ?_, ?_, ?_, ?_, ?_⟩
  · rw [hact]
    exact hframe.numHarts.trans hone
  · rw [hcpu]
    exact hwait
  · rw [hcpu]
    exact hid
  · rw [hcpu, Hart.drive, Plic.update_raw _ _ _ (by decide), Clint.update_raw _ _ _ (by decide)]
    exact hmie
  · rw [hcpu]
    exact hrun
  · rw [hact]
    change ((m.sys.pollAll true).mail 0).pending = 0
    rw [hframe.mail, hmail]
  · rw [huart]
    exact hlook
  · rw [hact]
    change (m.sys.pollAll true).syscon.poweroff = false ∧ (m.sys.pollAll true).syscon.reboot = false
    rw [hframe.syscon]
    exact hsyscon
  · rw [hact]
    change ∀ r ∈ (m.sys.pollAll true).ranges, r.2.2 ≠ DevId.net
    rw [hframe.ranges]
    exact hnet

end Asleep

/-- A platform with such a machine, on which nothing happens from outside. -/
structure Sleeps (p : Platform) : Prop where
  machine : Asleep p.machine
  tohost : p.htifTohostAddr = 0
  running : p.halted = false
  quiet : ∀ ls, p.world ls = []

lemma Sleeps.outside (h : p.Sleeps) : p.outside = p := by
  rw [Platform.outside, h.quiet]
  rfl

lemma Sleeps.noteStop (h : p.Sleeps) : p.noteStop.Sleeps := by
  obtain ⟨hone, -, -, -, hrun, -, ⟨-, -, -, hexit⟩, ⟨hoff, hreboot⟩, -⟩ := h.machine
  have hharts : p.harts = [p.machine.harts 0] := by
    rw [Platform.harts, hone]
    rfl
  refine ⟨h.machine, h.tohost, ?_, h.quiet⟩
  simp [Platform.noteStop, h.running, hharts, hrun, hoff, hreboot, hexit]

lemma Sleeps.checkStop (h : p.Sleeps) : p.checkStop = (false, p.noteStop) := by
  have hread : p.noteStop.readTohost = p.noteStop := by
    rw [readTohost]
    exact if_pos h.tohost
  rw [Platform.checkStop, hread, h.noteStop.running]
  simp

/-- A round in which all sleep: the largest budget bounds no count of idle rounds. -/
lemma Sleeps.round (h : p.Sleeps) (consecutive idle : ℕ) :
    ∃ p', p.round (2 ^ 64 - 1) consecutive idle = (.next 0 ((idle + 1) % 2 ^ 64), p') ∧
      p'.Sleeps ∧ p'.retired = p.retired := by
  have hone := h.machine.1
  have hask := h.machine.runnable
  let asked := p.act (.runnable 0)
  have hturns : turns (2 ^ 64 - 1) (List.range p.machine.sys.numHarts) 0 false p =
      (.ended 0 false, asked) := by
    rw [hone]
    change turns _ [0] 0 false p = _
    rw [turns]
    simp only [Platform.runnable, hask]
    rfl
  have hasked : Asleep asked.machine := by
    change Asleep (p.machine.act (.runnable 0))
    rw [h.machine.act_runnable]
    exact h.machine
  let ticked : Platform :=
    { { asked with sinceHostPoll := asked.sinceHostPoll + 64 }.act (.tick 10000)
    with sinceHostPoll := hostPollInterval }
  let polled : Platform := { ticked.act (.pollDevices true) with sinceHostPoll := 0 }
  have hticked : ticked.Sleeps := ⟨hasked.tick 10000, h.tohost, h.running, h.quiet⟩
  have hpolled : polled.Sleeps := ⟨(hasked.tick 10000).poll, h.tohost, h.running, h.quiet⟩
  have hpoll : ticked.pollDevices = polled := by
    rw [pollDevices, hticked.outside]
    exact if_pos (by split <;> exact Nat.le_refl _)
  have hfinish : ticked.finishRound 0 ((idle + 1) % 2 ^ 64) =
      (.next 0 ((idle + 1) % 2 ^ 64), polled.noteStop) := by
    rw [finishRound, hpoll, hpolled.checkStop]
  have hstop : ¬ (idle + 1) % 2 ^ 64 > 2 ^ 64 - 1 := by
    have := Nat.mod_lt (idle + 1) (show 0 < 2 ^ 64 by decide)
    omega
  have hpending : ({ asked with sinceHostPoll := asked.sinceHostPoll + 64 } : Platform).ioPending =
      false := by
    refine List.any_eq_false.mpr fun r hr => ?_
    have hr' : r.2.2 ≠ DevId.net := hasked.2.2.2.2.2.2.2.2 r hr
    revert hr'
    cases r.2.2 <;> simp
  have hactive :
    ({ asked with sinceHostPoll := asked.sinceHostPoll + 64 } : Platform).hostInputActive =
      true := by
    obtain ⟨-, -, -, -, -, -, ⟨hrx, -, heof, -⟩, -⟩ := hasked
    change asked.machine.sys.uart.hostInputActive = true
    simp [Uart.hostInputActive, hrx, heof]
  refine ⟨polled.noteStop, ?_, ?_, rfl⟩
  · rw [Platform.round, hturns]
    dsimp only
    rw [idleRound, if_neg hstop]
    dsimp only
    rw [hpending, hactive]
    simp only [Bool.false_eq_true, if_false, if_true]
    exact hfinish
  · exact hpolled.noteStop

/-- With the largest budget the run of a sleeping machine never returns. -/
lemma Sleeps.runLoop (h : p.Sleeps) (hret : p.retired < 2 ^ 64 - 1)
    (rounds consecutive idle : ℕ) :
    (runLoop (2 ^ 64 - 1) rounds consecutive idle p).1 = none := by
  induction rounds generalizing p consecutive idle with
  | zero =>
    rw [Platform.runLoop, if_neg (by omega)]
  | succ rounds ih =>
    obtain ⟨p', hround, hsleeps, hret'⟩ := h.round consecutive idle
    rw [Platform.runLoop, if_neg (by omega), hround]
    exact ih hsleeps (by omega) _ _

/-- A guest that executes WFI and nothing else, with the console attached. -/
def sleeper : Platform :=
  .new ((Machine.init (.plain 1 4096 page_fits)).run
    [.idleOnWfi true, .loadImage dramBase (codeBytes [0x10500073]), .host .attachStdin]) 256
    fun _ => []

/-- The round ended with the hart asleep after its first step. -/
def endsAsleep (r : RoundEnd × Platform) : Bool :=
  match r.1 with
  | .next _ _ => r.2.retired = 1 ∧ Asleep r.2.machine ∧ r.2.htifTohostAddr = 0 ∧ r.2.halted = false
  | _ => false

lemma endsAsleep_sleeper : endsAsleep (sleeper.round (2 ^ 64 - 1) 0 0) = true := by decide +kernel

lemma sleeper_runs_forever (rounds : ℕ) : (sleeper.run (2 ^ 64 - 1) rounds).1 = none := by
  have hend := endsAsleep_sleeper
  have hfollows := follows_round (2 ^ 64 - 1) 0 0 sleeper
  cases rounds with
  | zero => rfl
  | succ rounds =>
    rw [run, runLoop, if_neg (by decide)]
    rcases hr : sleeper.round (2 ^ 64 - 1) 0 0 with ⟨r, p⟩
    rw [hr] at hend hfollows
    cases r with
    | next c n =>
      obtain ⟨hret, hasleep, htohost, hrun⟩ := of_decide_eq_true hend
      have hsleeps : p.Sleeps := ⟨hasleep, htohost, hrun, fun ls => by rw [hfollows.world]; rfl⟩
      have hbudget : p.retired < 2 ^ 64 - 1 := by
        change p.retired = 1 at hret
        omega
      exact hsleeps.runLoop hbudget _ _ _
    | stop => cases hend
    | fault t => cases hend

/-- With the largest budget the run of the sleeping guest does not return. -/
theorem largest_budget_never_returns :
    1 ≤ sleeper.quantum ∧ ¬ ∃ rounds, (sleeper.run (2 ^ 64 - 1) rounds).1.isSome = true := by
  refine ⟨by decide, ?_⟩
  rintro ⟨rounds, h⟩
  rw [sleeper_runs_forever] at h
  cases h

/-- A run with a budget that fits a machine word returns within twice the budget, unless the budget
is the largest word; and it never retires more than the budget. -/
theorem run_returns_iff {maxSteps : ℕ} (hword : maxSteps < 2 ^ 64) :
    (∀ p : Platform, 1 ≤ p.quantum →
      (p.run maxSteps (2 * maxSteps + 2)).1.isSome ∧
        ∀ rounds, (p.run maxSteps rounds).2.retired ≤ max p.retired maxSteps) ↔
      maxSteps ≠ 2 ^ 64 - 1 := by
  constructor
  · rintro h rfl
    have hreturns := (h sleeper (by decide)).1
    rw [sleeper_runs_forever] at hreturns
    cases hreturns
  · intro hmax p hq
    refine ⟨?_, fun rounds => runLoop_retired maxSteps rounds 0 0 p hq⟩
    exact runLoop_returns (by omega) (2 * maxSteps + 1) 0 0 p hq (Nat.zero_le _) (by omega)

/-- The same guest under an ordinary budget. -/
theorem run_returns_thousand :
    (sleeper.run 1000 2002).1.isSome = true ∧ (sleeper.run 1000 2002).2.retired ≤ 1000 := by
  have h := (run_returns_iff (by decide : 1000 < 2 ^ 64)).mpr (by decide) sleeper (by decide)
  exact ⟨h.1, h.2 2002⟩

end Platform

end RiscvEmu
