import RiscvEmu.Cpu.Moves
import RiscvEmu.BusEffects
import RiscvEmu.Lib.RelyGuarantee

/-!
# Runs of a machine

Every label is a sequence of elementary moves: an operation on one hart, or a change of the shared
state from outside.  An assertion about a hart and what it shares that its own operations keep, and
that is stable under what the other harts guarantee, holds in every reachable state.
-/

namespace RiscvEmu

open Exec RelyGuarantee

/-! ## Changes from outside -/

/-- What happens to the shared state outside the harts: devices move, images are loaded. -/
inductive OuterStep : Sys → Sys → Prop
  | device {s t : Sys} (h : DeviceStep s t) : OuterStep s t
  | image {s : Sys} {ram : Dram} {addr : U64} {bytes : List U8}
      (h : s.ram.loadImage addr bytes = some ram) :
      OuterStep s ({ s with ram := ram }.emit (.image addr bytes.length))

/-- What a hart does, as a relation. -/
def Own (i : ℕ) (p q : Cpu × Sys) : Prop :=
  i < p.2.numHarts ∧ ∃ f, HartOp f ∧ f ⟨p.1, p.2⟩ = ⟨q.1, q.2⟩

/-- A machine as components that share a state. -/
def Machine.world (m : Machine) : World ℕ Cpu Sys := ⟨m.harts, m.sys⟩

/-- Any number of moves of a machine. -/
def Moves (m m' : Machine) : Prop := Relation.ReflTransGen (Step Own OuterStep) m.world m'.world

lemma Moves.refl (m : Machine) : Moves m m := Relation.ReflTransGen.refl

lemma Moves.trans {m₁ m₂ m₃ : Machine} (h : Moves m₁ m₂) (h' : Moves m₂ m₃) : Moves m₁ m₃ :=
  Relation.ReflTransGen.trans h h'

lemma moves_onHart (m : Machine) (h : ℕ) {f : Hart → Hart} (hf : HartOp f) :
    Moves m (m.onHart h f) := by
  unfold Machine.onHart
  split
  · next hlt => exact .single (Step.own (w := m.world) h ⟨hlt, f, hf, rfl⟩)
  · exact .refl m

lemma moves_foldl (m : Machine) (hs : List ℕ) {f : Hart → Hart} (hf : HartOp f) :
    Moves m (hs.foldl (fun m h => m.onHart h f) m) := by
  induction hs generalizing m with
  | nil => exact .refl m
  | cons h hs ih => exact (moves_onHart m h hf).trans (ih _)

lemma moves_onHarts (m : Machine) {f : Hart → Hart} (hf : HartOp f) : Moves m (m.onHarts f) :=
  moves_foldl m _ hf

lemma moves_mapSys (m : Machine) {f : Sys → Sys}
    (hf : Relation.ReflTransGen OuterStep m.sys (f m.sys)) : Moves m (m.mapSys f) := by
  unfold Machine.mapSys
  generalize f m.sys = t at hf
  induction hf with
  | refl => exact .refl m
  | tail _ hstep ih => exact Relation.ReflTransGen.tail ih (.outer hstep)

lemma outer_of_moves {s t : Sys} (h : DeviceMoves s t) : Relation.ReflTransGen OuterStep s t :=
  Relation.ReflTransGen.mono (fun _ _ h => OuterStep.device h) _ _ h

lemma outer_of_quiet {s t : Sys} (h : SysQuiet s t) : Relation.ReflTransGen OuterStep s t :=
  outer_of_moves h.moves

/-! ## Labels -/

lemma DeviceKeeps.pollDevice {R : Sys → Sys → Prop} (h : DeviceKeeps R) (id : DevId) (s : Sys) :
    R s (s.pollDevice id) := by
  cases id with
  | blk => exact h.blk s _ fun _ hR => hR.poll (virtioSlot Sys.blk s)
  | net => exact h.net s _ fun _ hR => hR.poll (virtioSlot Sys.net s)
  | rng => exact h.rng s _ fun _ hR => hR.poll (virtioSlot Sys.rng s)
  | rtc => exact h.rtcPoll s
  | uart | clint | plic | syscon => exact h.uart s s.uart

/-- What the console is when the devices are polled. -/
def Sys.lookAtHost (s : Sys) (host : Bool) : Sys :=
  let uart := s.uart.takeYieldRequest.2
  { s with uart := if host then uart.pollHostInput else uart }

lemma DeviceKeeps.pollAll {R : Sys → Sys → Prop} [IsPreorder Sys R] (h : DeviceKeeps R) (s : Sys)
    (host : Bool) : R s (s.pollAll host) := by
  have hlist : ∀ (ids : List DevId) (t : Sys), R t (ids.foldl Sys.pollDevice t) := by
    intro ids
    induction ids with
    | nil => exact fun t => refl_of R t
    | cons id ids ih => exact fun t => trans_of R (h.pollDevice id t) (ih _)
  have hpolled : R s (s.lookAtHost host).pollDevices := trans_of R (h.uart s _) (hlist _ _)
  exact trans_of R hpolled (h.signal _ _)

lemma moves_enterSupervisor (m : Machine) (entry dtbAddr : U64) :
    Moves m (m.enterSupervisor entry dtbAddr) := by
  unfold Machine.enterSupervisor
  exact ((moves_onHarts m (.move .delegate)).trans
    (moves_onHart _ 0 (.move (.enterKernel entry dtbAddr)))).trans (moves_foldl _ _ .park)

lemma moves_loadImage (m : Machine) (addr : U64) (bytes : List U8) :
    Moves m (m.loadImage addr bytes) := by
  unfold Machine.loadImage
  split
  · next ram h => exact moves_mapSys m (.single (.image h))
  · exact .refl m

lemma moves_writeBytes (m : Machine) (addr : U64) (bytes : List U8) :
    Moves m (m.writeBytes addr bytes) := by
  unfold Machine.writeBytes
  split
  · next ram h => exact moves_mapSys m (.single (.device (.dma h)))
  · exact .refl m

/-- A label is a sequence of moves. -/
lemma moves_act (m : Machine) (l : Label) : Moves m (m.act l) := by
  cases l with
  | step h => exact moves_onHart m h .step
  | runnable h => exact moves_onHart m h .runnable
  | beginRound h => exact moves_onHart m h (.move .beginRound)
  | tick n => exact moves_mapSys m (outer_of_quiet ⟨rfl, rfl, rfl, rfl, rfl⟩)
  | resetLive => exact moves_mapSys m (outer_of_quiet ⟨rfl, rfl, rfl, rfl, rfl⟩)
  | advanceTo t => exact moves_mapSys m (outer_of_quiet ⟨rfl, rfl, rfl, rfl, rfl⟩)
  | setInstructionsPerTick n => exact moves_mapSys m (outer_of_quiet ⟨rfl, rfl, rfl, rfl, rfl⟩)
  | pollDevices host =>
    exact (moves_mapSys m (outer_of_moves (deviceKeeps_moves.pollAll m.sys host))).trans
      (moves_onHarts _ (.move .drive))
  | halt shutdown => exact moves_onHart m 0 (.move (.halt shutdown))
  | htif addr => exact moves_mapSys m (outer_of_quiet (quiet_busLoad addr 8 .load m.sys))
  | idleOnWfi on => exact moves_onHarts m (.move (.idleOnWfi on))
  | enterSupervisor entry dtbAddr => exact moves_enterSupervisor m entry dtbAddr
  | loadImage addr bytes => exact moves_loadImage m addr bytes
  | writeBytes addr bytes => exact moves_writeBytes m addr bytes
  | host e =>
    cases e <;> exact moves_mapSys m (outer_of_quiet ⟨rfl, rfl, rfl, rfl, rfl⟩)

lemma moves_run (m : Machine) (ls : List Label) : Moves m (m.run ls) := by
  induction ls generalizing m with
  | nil => exact .refl m
  | cons l ls ih => exact (moves_act m l).trans (ih _)

/-! ## Parts of a hart -/

/-! ## Invariants -/

/-- An assertion about a hart and what it shares, with what a hart guarantees to the others. -/
structure HartInv (P : ℕ → Hart → Prop) (G : ℕ → Sys → Sys → Prop) : Prop where
  keeps : ∀ i f s, HartOp f → s.cpu.hartid = i → P i s → P i (f s)
  guarantees : ∀ i f s, HartOp f → s.cpu.hartid = i → P i s → G i s.sys (f s).sys
  stable : ∀ i j c s s', i ≠ j → P i ⟨c, s⟩ → G j s s' → P i ⟨c, s'⟩
  outer : ∀ i c s s', P i ⟨c, s⟩ → OuterStep s s' → P i ⟨c, s'⟩

/-- No operation changes the number of a hart. -/
def SameId : Hart → Hart → Prop := Same Cpu.hartid

instance : IsPreorder Hart SameId := inferInstanceAs (IsPreorder Hart (Same Cpu.hartid))

lemma hartKeeps_sameId : HartKeeps SameId where
  probe := untouched_hartid.probeKeeps
  nextInst := untouched_hartid.nextInst
  update inst f hf s := by
    cases hf with
    | setReg i v => exact Cpu.setReg_hartid ..
    | _ => rfl
  csrWrite addr v := keeps_csrWrite (R := SameId) (fun _ => rfl) fun addr v s => by
    unfold csrCommit SameId Same final
    dsimp only [modify_apply]
    split_ifs <;> rfl
  move f hf s := by
    cases hf with
    | startAt addr arg => exact (Cpu.setReg_hartid ..).trans (Cpu.setReg_hartid ..)
    | enterKernel entry dtbAddr => exact (Cpu.setReg_hartid ..).trans (Cpu.setReg_hartid ..)
    | _ => rfl

/-- An invariant holds of every hart in every reachable state. -/
theorem HartInv.reachable {P : ℕ → Hart → Prop} {G : ℕ → Sys → Sys → Prop} (h : HartInv P G)
    {cfg : Config} (hinit : ∀ i, P i ((Machine.init cfg).hart i)) {m : Machine}
    (hm : Reachable cfg m) (i : ℕ) : (m.harts i).hartid = i ∧ P i (m.hart i) := by
  have hrule : Rule Own OuterStep (fun i c s => c.hartid = i ∧ P i ⟨c, s⟩) G := by
    refine ⟨?_, ?_, ?_, ?_⟩
    · rintro i c s c' s' ⟨-, f, hf, heq⟩ ⟨hid, hP⟩
      have hkeep := h.keeps i f ⟨c, s⟩ hf hid hP
      have hsame := hartKeeps_sameId.op hf ⟨c, s⟩
      rw [heq] at hkeep hsame
      exact ⟨hsame.trans hid, hkeep⟩
    · rintro i c s c' s' ⟨-, f, hf, heq⟩ ⟨hid, hP⟩
      have hg := h.guarantees i f ⟨c, s⟩ hf hid hP
      rwa [heq] at hg
    · rintro i j c s s' hne ⟨hid, hP⟩ hg
      exact ⟨hid, h.stable i j c s s' hne hP hg⟩
    · rintro i c s s' ⟨hid, hP⟩ ho
      exact ⟨hid, h.outer i c s s' hP ho⟩
  obtain ⟨ls, rfl⟩ := hm
  exact hrule.run (w := (Machine.init cfg).world) (fun j => ⟨rfl, hinit j⟩) (moves_run _ ls) i

/-- No operation changes the number of a hart. -/
lemma hartid_reachable {cfg : Config} {m : Machine} (hm : Reachable cfg m) (h : ℕ) :
    (m.harts h).hartid = h :=
  (HartInv.reachable (P := fun _ _ => True) (G := fun _ _ _ => True)
    ⟨fun _ _ _ _ _ _ => trivial, fun _ _ _ _ _ _ => trivial, fun _ _ _ _ _ _ _ _ => trivial,
      fun _ _ _ _ _ _ => trivial⟩ (fun _ => trivial) hm h).1

end RiscvEmu
