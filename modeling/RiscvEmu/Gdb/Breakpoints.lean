import RiscvEmu.Gdb.Session

/-!
# No breakpoint is missed

A hart that comes to a breakpoint is stopped there by the hook, and the reply names it.  The hook
lets a hart off once at every resume if its pc is on a breakpoint then, and it does not ask whether
this hart was the one reported: in a round that another hart's stop cuts short, it was not.  So
breakpoints are missed, but not by a debugger that resumes only when no hart is owed a stop.
-/

namespace RiscvEmu

open Exec

namespace Gdb

/-! ## Between instructions -/

/-- Nothing was executed, and no hart is owed a stop that was not owed one before. -/
structure Quiet (s t : Session) : Prop where
  breakpoints : t.stub.breakpoints = s.stub.breakpoints
  missed : t.missed = s.missed
  leaving : t.leaving ⊆ s.leaving
  owed : ∀ h ∈ t.owed, h ∈ s.owed ∧ t.pc h = s.pc h

instance : IsPreorder Session Quiet where
  refl _ := ⟨rfl, rfl, Finset.Subset.refl _, fun _ h => ⟨h, rfl⟩⟩
  trans _ _ _ h g :=
    ⟨g.breakpoints.trans h.breakpoints, g.missed.trans h.missed, g.leaving.trans h.leaving,
      fun i hi =>
        ⟨(h.owed i (g.owed i hi).1).1, (g.owed i hi).2.trans (h.owed i (g.owed i hi).1).2⟩⟩

lemma quiet_moved (s : Session) (p : Platform) : Quiet s (s.moved p) where
  breakpoints := rfl
  missed := rfl
  leaving := Finset.Subset.refl _
  owed _ howed := Finset.mem_filter.mp howed

lemma quiet_mapStub (s : Session) {f : Stub → Stub}
    (hf : (f s.stub).breakpoints = s.stub.breakpoints) :
    Quiet s (s.mapStub f) :=
  ⟨hf, rfl, Finset.Subset.refl _, fun _ h => ⟨h, rfl⟩⟩

variable {α : Type} {s t : Session}

lemma quiet_onPlatform (f : Platform → α × Platform) : Keeps Quiet (onPlatform f) :=
  fun s => quiet_moved s _

lemma quiet_modifyPlatform (f : Platform → Platform) : Keeps Quiet (modifyPlatform f) :=
  .modify fun s => quiet_moved s _

lemma quiet_hartAt (i : ℕ) : Keeps Quiet (hartAt i) := by
  refine .bind .get fun s => ?_
  split
  · exact .pure _
  · exact .throw _

lemma quiet_readMemory (i : ℕ) (vaddr : U64) (len : ℕ) : Keeps Quiet (readMemory i vaddr len) := by
  refine .bind (quiet_hartAt i) fun h => ?_
  split
  · exact .throw _
  · exact .bind (.modify fun s => quiet_moved s _) fun _ => .pure _

lemma quiet_checkWatches (i : ℕ) : Keeps Quiet (checkWatches i) := by
  refine .bind .get fun s => ?_
  split
  · exact .throw _
  · refine .bind (.modify fun t => ?_) fun _ => .pure _
    exact trans_of Quiet (quiet_moved t _) (quiet_mapStub _ rfl)

lemma quiet_pollInterrupt : Keeps Quiet pollInterrupt := by
  have hquiet (s : Session) (calls asked : ℕ) : Quiet s { s with calls := calls, asked := asked } :=
    ⟨rfl, rfl, Finset.Subset.refl _, fun _ h => ⟨h, rfl⟩⟩
  refine .bind (.modify fun s => hquiet s _ s.asked) fun _ => .bind .get fun s => ?_
  split
  · exact .bind (.modify fun s => hquiet s s.calls _) fun _ => .pure _
  · exact .pure _

lemma quiet_advancePc (i : ℕ) (n : U64) : Keeps Quiet (advancePc i n) := by
  refine .get_bind fun s => ?_
  cases Checked.add (s.pc i) n with
  | ok pc => exact quiet_moved s _
  | error e => exact refl_of Quiet s

lemma quiet_skipEbreakIfStoppedOnOne (i : ℕ) : Keeps Quiet (skipEbreakIfStoppedOnOne i) := by
  refine .bind .get fun s => ?_
  split
  · exact .pure _
  refine .bind (quiet_hartAt i) fun h => .bind (quiet_readMemory _ _ _) fun insn => ?_
  split
  · dsimp only
    split_ifs
    · exact quiet_advancePc i 4
    · exact quiet_advancePc i 2
    · exact .pure _
  · exact .throw _
  · exact .pure _

lemma quiet_skipEbreaks (is : List ℕ) : Keeps Quiet (skipEbreaks is) := by
  induction is with
  | nil => exact .pure _
  | cons i is ih => exact .bind (quiet_skipEbreakIfStoppedOnOne i) fun _ => ih

lemma quiet_refreshWatches : Keeps Quiet refreshWatches := by
  refine .bind (.bind .get fun s => .pure _) fun h => ?_
  cases h with
  | none => exact .pure _
  | some i =>
    refine .bind (quiet_hartAt i) fun h => .bind .get fun s => ?_
    dsimp only
    split
    · exact .throw _
    · exact .modify fun t => trans_of Quiet (quiet_moved t _) (quiet_mapStub _ rfl)

/-! ## A run with the hook -/

/-- Nothing was missed so far, and whoever is owed a stop will get it from the hook. -/
structure Tracked (B : Finset U64) (s : Session) : Prop where
  breakpoints : s.stub.breakpoints = B
  owed : ∀ h ∈ s.owed, s.pc h ∈ B ∧ h ∉ s.leaving
  missed : s.missed = []

/-- The hook has let hart `i` go on. -/
structure Passed (B : Finset U64) (i : ℕ) (s : Session) : Prop extends Tracked B s where
  free : i ∉ s.owed
  left : i ∉ s.leaving

/-- If the target stopped at a breakpoint, the hart the stub names is on one. -/
structure Named (B : Finset U64) (s : Session) : Prop extends Tracked B s where
  at_breakpoint : s.stub.stop = .breakpoint → s.pc s.stub.stopHart ∈ B ∧ s.stub.signal = 5

variable {B : Finset U64} {i : ℕ}

lemma Quiet.tracked (h : Quiet s t) (hs : Tracked B s) : Tracked B t where
  breakpoints := h.breakpoints.trans hs.breakpoints
  owed j hj := by
    obtain ⟨howed, hpc⟩ := h.owed j hj
    exact ⟨hpc ▸ (hs.owed j howed).1, fun hmem => (hs.owed j howed).2 (h.leaving hmem)⟩
  missed := h.missed.trans hs.missed

lemma Quiet.passed (h : Quiet s t) (hs : Passed B i s) : Passed B i t where
  toTracked := h.tracked hs.toTracked
  free howed := hs.free (h.owed i howed).1
  left := fun hmem => hs.left (h.leaving hmem)

lemma tracked_of_quiet {m : StubM α} (h : Keeps Quiet m) :
    Ensures (Tracked B) m fun _ => Tracked B :=
  fun _ hs _ _ hm => (h.of_ok hm).tracked hs

lemma passed_of_quiet {m : StubM α} (h : Keeps Quiet m) :
    Ensures (Passed B i) m fun _ => Passed B i :=
  fun _ hs _ _ hm => (h.of_ok hm).passed hs

/-- A hart that the hook lets go is not owed a stop: either it is let off, and then it was not, or
it is on no breakpoint. -/
lemma hook_spec (i : ℕ) :
    Ensures (Tracked B) (hook i) fun stop s => if stop then Named B s else Passed B i s := by
  refine .bind (tracked_of_quiet quiet_pollInterrupt) fun asked => ?_
  cases asked with
  | true =>
    refine .bind (.modify fun s hs => ?_) fun _ => .pure fun _ h => h
    exact ⟨(quiet_mapStub s rfl).tracked hs, by simp [Session.mapStub]⟩
  | false =>
    refine .bind (tracked_of_quiet (quiet_checkWatches i)) fun hit => ?_
    cases hit with
    | some addr =>
      refine .bind (.modify fun s hs => ?_) fun _ => .pure fun _ h => h
      exact ⟨(quiet_mapStub s rfl).tracked hs, by simp [Session.mapStub]⟩
    | none =>
      intro s hs stop t ht
      have hleaves : leaves i s =
        .ok (decide (i ∈ s.leaving)) { s with leaving := s.leaving.erase i } := rfl
      have hquiet : Quiet s { s with leaving := s.leaving.erase i } :=
        ⟨rfl, rfl, Finset.erase_subset _ _, fun _ h => ⟨h, rfl⟩⟩
      dsimp only at ht
      rw [bind_of_ok hleaves, bind_of_ok (get_apply _)] at ht
      split at ht
      · next h =>
          cases ht
          exact ⟨(quiet_mapStub _ rfl).tracked (hquiet.tracked hs), fun _ =>
            ⟨hs.breakpoints ▸ h.2, rfl⟩⟩
      · next h =>
          cases ht
          refine ⟨hquiet.tracked hs, ?_, Finset.notMem_erase _ _⟩
          intro howed
          obtain ⟨hpc, hleft⟩ := hs.owed i howed
          exact h ⟨by simp [hleft], hs.breakpoints.symm ▸ hpc⟩

/-- An instruction of a hart that is not owed a stop misses nothing. -/
lemma stepHart_spec (i : ℕ) : Ensures (Passed B i) (stepHart i) fun _ => Tracked B := by
  intro s hs fault t ht
  cases ht
  have hmoved := (quiet_moved s (s.platform.stepHart i).2).tracked hs.toTracked
  refine ⟨hs.breakpoints, fun h howed => ?_, ?_⟩
  · unfold Session.stepped at howed
    dsimp only at howed
    split at howed
    · next hat =>
        rcases Finset.mem_insert.mp howed with rfl | hmem
        · exact ⟨hs.breakpoints ▸ hat.2, hs.left⟩
        · exact hmoved.owed h hmem
    · exact hmoved.owed h (Finset.mem_of_mem_erase howed)
  · exact (if_neg fun h => hs.free h.1).trans hs.missed

lemma runCore_spec (i : ℕ) : Ensures (Passed B i) (runCore i) fun _ => Tracked B := by
  refine .get_bind fun s _ => .bind (passed_of_quiet (quiet_onPlatform _)) fun awake => ?_
  cases awake with
  | false => exact .pure fun _ h => h.toTracked
  | true =>
    refine .bind (stepHart_spec i) fun fault => ?_
    cases fault with
    | some e => exact .pure fun _ h => h
    | none =>
      refine .get_bind fun t _ => ?_
      split_ifs <;> exact .pure fun _ h => h

/-- How a quantum or a run leaves the session. -/
def EndsWell (B : Finset U64) (e : Ended) (s : Session) : Prop :=
  Tracked B s ∧ (e = .hooked → Named B s)

lemma quantumLoop_spec (i turns budget used : ℕ) :
    Ensures (Tracked B) (quantumLoop i turns budget used) fun r => EndsWell B r.2 := by
  induction turns generalizing budget used with
  | zero => exact .pure fun _ h => ⟨h, by simp⟩
  | succ turns ih =>
    unfold quantumLoop
    split
    · exact .pure fun _ h => ⟨h, by simp⟩
    refine .bind (hook_spec i) fun stop => ?_
    cases stop with
    | true => exact .pure fun _ h => ⟨h.toTracked, fun _ => h⟩
    | false =>
      refine .bind (runCore_spec i) fun r =>
        .bind (tracked_of_quiet (quiet_modifyPlatform _)) fun _ => ?_
      cases r.fault with
      | some e =>
        exact .bind (tracked_of_quiet (quiet_modifyPlatform _)) fun _ => .pure fun _ h =>
          ⟨h, by simp⟩
      | none =>
        refine .get_bind fun s _ => ?_
        split
        · exact .pure fun _ h => ⟨h, by simp⟩
        · exact .bind (tracked_of_quiet (quiet_modifyPlatform _)) fun _ => ih _ _

lemma turns_spec (maxSteps : ℕ) (is : List ℕ) (roundMax : ℕ) (anyRan : Bool) :
    Ensures (Tracked B) (turns maxSteps is roundMax anyRan) fun r => EndsWell B r.1 := by
  induction is generalizing roundMax anyRan with
  | nil => exact .pure fun _ h => ⟨h, by simp⟩
  | cons i is ih =>
    unfold turns
    refine .bind (tracked_of_quiet (quiet_onPlatform _)) fun able => ?_
    cases able with
    | false => exact ih _ _
    | true =>
      refine .bind (tracked_of_quiet (quiet_modifyPlatform _)) fun _ => .get_bind fun s _ =>
        .bind (quantumLoop_spec _ _ _ _) fun r => ?_
      obtain ⟨used, e⟩ := r
      cases e with
      | hooked => exact .pure fun _ h => h
      | fault e => exact .pure fun _ h => h
      | ended =>
        refine .mono ?_ (fun _ h => h.1) fun _ _ h => h
        refine .get_bind fun t _ => ?_
        split
        · exact .pure fun _ h => ⟨h, by simp⟩
        · exact ih _ _

lemma runLoop_spec (maxSteps rounds consecutiveIdle idleRounds : ℕ) :
    Ensures (Tracked B) (runLoop maxSteps rounds consecutiveIdle idleRounds) fun r s =>
      Tracked B s ∧ (r = some .hooked → Named B s) := by
  induction rounds generalizing consecutiveIdle idleRounds with
  | zero =>
    unfold runLoop
    refine .get_bind fun s _ => ?_
    split
    · exact .pure fun _ h => ⟨h, by simp⟩
    · exact .pure fun _ h => ⟨h, by simp⟩
  | succ rounds ih =>
    unfold runLoop
    refine .get_bind fun s _ => ?_
    split
    · exact .pure fun _ h => ⟨h, by simp⟩
    refine .get_bind fun t _ => .bind (turns_spec _ _ _ _) fun r => ?_
    obtain ⟨e, roundMax, anyRan⟩ := r
    cases e with
    | hooked => exact .pure fun _ h => ⟨h.1, fun _ => h.2 rfl⟩
    | fault e => exact .pure fun _ h => ⟨h.1, by simp⟩
    | ended =>
      refine .mono ?_ (fun _ h => h.1) fun _ _ h => h
      refine .bind (tracked_of_quiet (quiet_onPlatform _)) fun next => ?_
      cases next with
      | next c n => exact ih _ _
      | stop => exact .pure fun _ h => ⟨h, by simp⟩
      | fault e => exact .pure fun _ h => ⟨h, by simp⟩

/-! ## Resuming -/

/-- No hart is owed a stop. -/
def Session.Settled (s : Session) : Prop := s.owed = ∅

/-- No hart is owed a stop and none was missed. -/
structure Clear (B : Finset U64) (s : Session) : Prop where
  breakpoints : s.stub.breakpoints = B
  settled : s.Settled
  missed : s.missed = []

lemma Quiet.clear (h : Quiet s t) (hs : Clear B s) : Clear B t where
  breakpoints := h.breakpoints.trans hs.breakpoints
  settled := by
    refine Finset.eq_empty_of_forall_notMem fun j howed => ?_
    have hbefore := (h.owed j howed).1
    rw [hs.settled] at hbefore
    exact Finset.notMem_empty j hbefore
  missed := h.missed.trans hs.missed

lemma clear_of_quiet {m : StubM α} (h : Keeps Quiet m) : Ensures (Clear B) m fun _ => Clear B :=
  fun _ hs _ _ hm => (h.of_ok hm).clear hs

lemma Clear.tracked (h : Clear B s) : Tracked B s where
  breakpoints := h.breakpoints
  owed j hj := by
    rw [h.settled] at hj
    exact absurd hj (Finset.notMem_empty j)
  missed := h.missed

/-- Letting the harts leave their breakpoints takes away no stop that is owed. -/
lemma letLeave_spec : Ensures (Clear B) letLeave fun _ => Tracked B :=
  .modify fun s hs =>
    Clear.tracked (s := { s with leaving := _, calls := _ }) ⟨hs.breakpoints, hs.settled, hs.missed⟩

/-- A run that has come to its end, or is still going on. -/
def RanWell (B : Finset U64) (r : Option Unit) (s : Session) : Prop :=
  Tracked B s ∧ (r.isSome → Named B s)

lemma named_of_stop {f : Stub → Stub} (hs : Tracked B s)
    (hf : (f s.stub).breakpoints = s.stub.breakpoints) (hstop : (f s.stub).stop ≠ .breakpoint) :
    Named B (s.mapStub f) :=
  ⟨(quiet_mapStub s hf).tracked hs, fun h => absurd h hstop⟩

/-- A stop for another reason. -/
lemma stop_spec {f : Session → Stub → Stub}
    (hf : ∀ s, (f s s.stub).breakpoints = s.stub.breakpoints)
    (hstop : ∀ s, (f s s.stub).stop ≠ .breakpoint) :
    Ensures (Tracked B) (do modify fun s => s.mapStub (f s); pure (some ()) : StubM (Option Unit))
      (RanWell B) := by
  refine .bind (Q := fun _ => Named B) (.modify fun s h => named_of_stop h (hf s) (hstop s))
    fun _ => ?_
  exact .pure fun _ h => ⟨h.toTracked, fun _ => h⟩

lemma classifyEnd_spec (e : Option Ended) :
    Ensures (fun s => Tracked B s ∧ (e = some .hooked → Named B s)) (classifyEnd e)
      (RanWell B) := by
  rcases e with _ | (_ | t | _)
  · exact .pure fun _ h => ⟨h.1, by simp⟩
  · exact .pure fun _ h => ⟨h.1, fun _ => h.2 rfl⟩
  · exact (stop_spec (fun _ => rfl) fun _ => by simp).mono (fun _ h => h.1) fun _ _ h => h
  · refine .mono ?_ (fun _ h => h.1) fun _ _ h => h
    refine .get_bind fun s _ => stop_spec (fun _ => ?_) fun _ => ?_
    · split <;> rfl
    · split <;> simp

lemma runAll_spec (rounds : ℕ) : Ensures (Clear B) (runAll rounds) (RanWell B) := by
  refine .get_bind fun s _ => .bind (clear_of_quiet (quiet_skipEbreaks _)) fun _ =>
    .bind (clear_of_quiet quiet_refreshWatches) fun _ => .bind letLeave_spec fun _ =>
      .get_bind fun t _ => ?_
  dsimp only
  split
  · exact .throw _
  · exact .bind (runLoop_spec _ _ _ _) classifyEnd_spec

lemma runUntilStop_spec (rounds : ℕ) :
    Ensures (Clear B) (runUntilStop none false rounds) (RanWell B) := by
  refine .get_bind fun s _ => ?_
  split
  · exact (stop_spec (fun _ => rfl) fun _ => by simp).mono (fun _ h => h.tracked) fun _ _ h => h
  · exact runAll_spec rounds

/-- The reply to a stop at a breakpoint. -/
def breakpointReply (h : ℕ) : Str := "T05thread:".toList ++ hex (h + 1) ++ ";".toList

lemma stopReply_breakpoint {st : Stub} {reply : Str} (hstop : st.stop = .breakpoint)
    (hsignal : st.signal = 5)
    (h : stopReply st = .ok reply) : reply = breakpointReply st.stopHart := by
  unfold stopReply threadId at h
  rw [hstop, hsignal] at h
  dsimp only at h
  split at h
  · cases h
    rfl
  · cases h

/-- What a resume leaves: nothing was missed, and a stop at a breakpoint names a hart that is on
one. -/
structure Resumed (B : Finset U64) (r : Option Str) (s : Session) : Prop where
  missed : s.missed = []
  named : ∀ reply, r = some reply → s.stub.stop = .breakpoint →
    s.pc s.stub.stopHart ∈ B ∧ reply = breakpointReply s.stub.stopHart

lemma resume_spec (rounds : ℕ) : Ensures (Clear B) (resume false none rounds) (Resumed B) := by
  refine .bind (runUntilStop_spec rounds) fun r => ?_
  cases r with
  | none => exact .pure fun _ h => ⟨h.1.missed, by simp⟩
  | some _ =>
    intro s hs r t ht
    dsimp only at ht
    rw [bind_of_ok (get_apply s)] at ht
    cases hreply : stopReply s.stub with
    | error e =>
      rw [hreply] at ht
      cases ht
    | ok reply =>
      rw [hreply] at ht
      cases ht
      refine ⟨by rw [Session.report_missed, hs.1.missed], fun reply' heq hstop => ?_⟩
      cases heq
      rw [Session.report_stub] at hstop ⊢
      obtain ⟨hpc, hsignal⟩ := (hs.2 rfl).at_breakpoint hstop
      rw [Session.pc, Session.report_platform]
      exact ⟨hpc, stopReply_breakpoint hstop hsignal hreply⟩

lemma resumeAt_spec (addr : Option U64) (rounds : ℕ) :
    Ensures (Clear B) (resumeAt false addr rounds) (Resumed B) := by
  cases addr with
  | none => exact resume_spec rounds
  | some pc =>
    refine .get_bind fun s _ => .bind (clear_of_quiet (quiet_hartAt _)) fun h => ?_
    exact .bind (clear_of_quiet (.modify fun s => quiet_moved s _)) fun _ => resume_spec rounds

/-! ## A debugger's session -/

/-- The states of a session between two resumes.  The debugger may change what the stub remembers,
and it lets the target run on only if no hart is owed a stop. -/
inductive Continued (s₀ : Session) : Session → Prop
  | start : Continued s₀ s₀
  | edit {s : Session} (h : Continued s₀ s) (f : Stub → Stub) : Continued s₀ (s.mapStub f)
  | resume {s t : Session} {addr : Option U64} {rounds : ℕ} {reply : Str} (h : Continued s₀ s)
    (hs : s.Settled)
      (hrun : resumeAt false addr rounds s = .ok (some reply) t) : Continued s₀ t

lemma Continued.missed {s₀ : Session} (h : Continued s₀ s) (h₀ : s₀.missed = []) :
    s.missed = [] := by
  induction h with
  | start => exact h₀
  | edit _ _ ih => exact ih
  | resume _ hs hrun ih => exact ((resumeAt_spec _ _).of_ok ⟨rfl, hs, ih⟩ hrun).missed

/-- In a session that resumes the target only when no hart is owed a stop, no hart ever executes the
instruction at a breakpoint it came to before a reply has named it there; and the reply to a stop at
a breakpoint names a hart that is on one. -/
theorem breakpoints_not_missed {s₀ s t : Session} (h₀ : s₀.missed = []) (h : Continued s₀ s)
    (hs : s.Settled) {addr : Option U64} {rounds : ℕ} {r : Option Str}
    (hrun : resumeAt false addr rounds s = .ok r t) :
    t.missed = [] ∧ ∀ reply, r = some reply → t.stub.stop = .breakpoint →
      t.pc t.stub.stopHart ∈ s.stub.breakpoints ∧ reply = breakpointReply t.stub.stopHart := by
  have hresumed := (resumeAt_spec addr rounds).of_ok ⟨rfl, hs, h.missed h₀⟩ hrun
  exact ⟨hresumed.missed, hresumed.named⟩

/-- Four instructions that do nothing, and a breakpoint at the second and at the third of them. -/
def nopSession (harts : ℕ) : Session :=
  (Session.new (.new (Machine.loaded harts [0x13, 0x13, 0x13, 0x13]) 2 fun _ => []) fun _ =>
    false).mapStub fun st =>
    { st with breakpoints := {dramBase + 4, dramBase + 8} }

/-- Two harts come to the first breakpoint in the same round.  The reply names one of them, and when
the target is resumed the other one goes on without ever having been named. -/
theorem breakpoint_missed :
    let s := final (resumeAt false none 2) (nopSession 2)
    let t := final (resumeAt false none 2) s
    (s.stub.stop = .breakpoint ∧ s.stub.stopHart = 0) ∧
    (t.stub.stop = .breakpoint ∧ t.stub.stopHart = 0) ∧
      t.missed = [(1, dramBase + 4)] := by
  decide +kernel

/-- Two harts that take different ways, with a breakpoint on the way of each. -/
def forkSession : Session :=
  let code :=
    [0xf14020f3, 0x00009663,            -- csrr x1, mhartid; bne x1, x0, 12
     0x13, 0x13, 0x13, 0x13, 0x13, 0x13]
  (Session.new (.new (Machine.loaded 2 code) 2 fun _ => []) fun _ => false).mapStub fun st =>
    { st with breakpoints := {dramBase + 12, dramBase + 24} }

/-- The session after `n` resumes. -/
def forkStops : ℕ → Session
  | 0 => forkSession
  | n + 1 => final (resumeAt false none 4) (forkStops n)

lemma forkStops_succ (n : ℕ) (reply : Str)
    (h : (outcome (resumeAt false none 4) (forkStops n)).toOption = some (some reply)) :
    resumeAt false none 4 (forkStops n) = .ok (some reply) (forkStops (n + 1)) :=
  eq_ok_of_outcome h

-- a membership below would otherwise be evaluated, with the whole session
attribute [irreducible] forkStops

/-- The first resume stops hart 0 at its breakpoint while hart 1 is on none, and the second one
stops hart 1 at its own; nothing is missed. -/
theorem breakpoints_not_missed_two_harts :
    resumeAt false none 4 (forkStops 0) = .ok (some (breakpointReply 0)) (forkStops 1) ∧
      resumeAt false none 4 (forkStops 1) = .ok (some (breakpointReply 1)) (forkStops 2) ∧
      (forkStops 2).missed = [] ∧ (forkStops 2).pc 1 ∈ (forkStops 1).stub.breakpoints := by
  have hfirst := forkStops_succ 0 (breakpointReply 0) (by decide +kernel)
  have hsecond := forkStops_succ 1 (breakpointReply 1) (by decide +kernel)
  have hstart : (forkStops 0).owed = ∅ ∧ (forkStops 0).missed = [] := by decide +kernel
  have hsettled : (forkStops 1).owed = ∅ := by decide +kernel
  have hstop : (forkStops 2).stub.stop = .breakpoint ∧ (forkStops 2).stub.stopHart = 1 := by
    decide +kernel
  have hnone := breakpoints_not_missed hstart.2 (.resume .start hstart.1 hfirst) hsettled hsecond
  obtain ⟨hpc, -⟩ := hnone.2 _ rfl hstop.1
  rw [hstop.2] at hpc
  exact ⟨hfirst, hsecond, hnone.1, hpc⟩

end Gdb

end RiscvEmu
