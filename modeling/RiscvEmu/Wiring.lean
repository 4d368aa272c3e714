import RiscvEmu.Shared

/-!
# What stays as it was wired

The number of harts, the ranges of the devices and the size of the interruptor are fixed when a
machine is built, and the count of device accesses never goes down.  A poll of the devices reaches
neither these nor the interruptor.
-/

namespace RiscvEmu

open Exec

/-! ## The layout -/

/-- The harts and the ranges are the same, and device accesses were only added. -/
structure Layout (s t : Sys) : Prop where
  numHarts : t.numHarts = s.numHarts
  ranges : t.ranges = s.ranges
  mmioEpoch : s.mmioEpoch ≤ t.mmioEpoch

instance : IsPreorder Sys Layout where
  refl _ := ⟨rfl, rfl, Nat.le_refl _⟩
  trans _ _ _ h g := ⟨g.numHarts.trans h.numHarts, g.ranges.trans h.ranges,
    Nat.le_trans h.mmioEpoch g.mmioEpoch⟩

lemma sysKeeps_layout : SysKeeps Layout where
  uart _ _ := ⟨rfl, rfl, Nat.le_refl _⟩
  clint _ _ := ⟨rfl, rfl, Nat.le_refl _⟩
  syscon _ _ := ⟨rfl, rfl, Nat.le_refl _⟩
  plicLoad _ _ _ := ⟨rfl, rfl, Nat.le_refl _⟩
  plicStore _ _ _ _ := ⟨rfl, rfl, Nat.le_refl _⟩
  signal _ _ := ⟨rfl, rfl, Nat.le_refl _⟩
  rtcLoad _ _ _ := ⟨rfl, rfl, Nat.le_refl _⟩
  rtcStore _ _ _ _ := ⟨rfl, rfl, Nat.le_refl _⟩
  rtcPoll _ := ⟨rfl, rfl, Nat.le_refl _⟩
  blk _ _ _ := ⟨rfl, rfl, Nat.le_refl _⟩
  net _ _ _ := ⟨rfl, rfl, Nat.le_refl _⟩
  rng _ _ _ := ⟨rfl, rfl, Nat.le_refl _⟩
  count _ := ⟨rfl, rfl, Nat.le_succ _⟩
  ram _ _ := ⟨rfl, rfl, Nat.le_refl _⟩
  record _ _ := ⟨rfl, rfl, Nat.le_refl _⟩
  mail _ _ := ⟨rfl, rfl, Nat.le_refl _⟩
  drive _ _ _ := ⟨rfl, rfl, Nat.le_refl _⟩
  hostTime _ _ := ⟨rfl, rfl, Nat.le_refl _⟩

/-! ## Polling -/

/-- What a poll of the devices does not reach. -/
structure PollFrame (s t : Sys) : Prop where
  numHarts : t.numHarts = s.numHarts
  ranges : t.ranges = s.ranges
  mmioEpoch : t.mmioEpoch = s.mmioEpoch
  clint : t.clint = s.clint
  mail : t.mail = s.mail
  syscon : t.syscon = s.syscon

instance : IsPreorder Sys PollFrame where
  refl _ := ⟨rfl, rfl, rfl, rfl, rfl, rfl⟩
  trans _ _ _ h g := ⟨g.numHarts.trans h.numHarts, g.ranges.trans h.ranges,
    g.mmioEpoch.trans h.mmioEpoch, g.clint.trans h.clint, g.mail.trans h.mail,
    g.syscon.trans h.syscon⟩

lemma pollFrame_pollDevice (id : DevId) (s : Sys) :
    PollFrame s (s.pollDevice id) ∧ (s.pollDevice id).uart = s.uart := by
  cases id <;> exact ⟨⟨rfl, rfl, rfl, rfl, rfl, rfl⟩, rfl⟩

lemma pollFrame_pollDevices (s : Sys) :
    PollFrame s s.pollDevices ∧ s.pollDevices.uart = s.uart := by
  unfold Sys.pollDevices
  generalize s.ranges.map (fun r => r.2.2) = ids
  induction ids generalizing s with
  | nil => exact ⟨refl_of PollFrame s, rfl⟩
  | cons id ids ih =>
    have hone := pollFrame_pollDevice id s
    have hrest := ih (s.pollDevice id)
    exact ⟨trans_of PollFrame hone.1 hrest.1, hrest.2.trans hone.2⟩

lemma pollFrame_pollAll (s : Sys) (host : Bool) : PollFrame s (s.pollAll host) := by
  have hlook : PollFrame s (s.lookAtHost host) := ⟨rfl, rfl, rfl, rfl, rfl, rfl⟩
  have hpolled := (pollFrame_pollDevices (s.lookAtHost host)).1
  have hline : PollFrame (s.lookAtHost host).pollDevices (s.pollAll host) :=
    ⟨rfl, rfl, rfl, rfl, rfl, rfl⟩
  exact trans_of PollFrame (trans_of PollFrame hlook hpolled) hline

lemma pollAll_uart (s : Sys) (host : Bool) : (s.pollAll host).uart = (s.lookAtHost host).uart :=
  (pollFrame_pollDevices (s.lookAtHost host)).2

/-! ## Operations on a machine -/

lemma act_hart {m : Machine} {i : ℕ} {f : Hart → Hart} (hi : i < m.sys.numHarts) :
    (m.onHart i f).sys = (f (m.hart i)).sys ∧ (m.onHart i f).harts i = (f (m.hart i)).cpu := by
  simp [Machine.onHart, hi, Machine.setHart]

section Machine

variable {R : Sys → Sys → Prop} [IsPreorder Sys R]

variable {f : Hart → Hart}

lemma keeps_onHart (hf : ∀ s, OnShared R s (f s)) (m : Machine) (i : ℕ) :
    R m.sys (m.onHart i f).sys := by
  unfold Machine.onHart
  split
  · exact hf (m.hart i)
  · exact refl_of R m.sys

lemma keeps_onHartList (hf : ∀ s, OnShared R s (f s)) (m : Machine)
    (is : List ℕ) : R m.sys (is.foldl (fun m i => m.onHart i f) m).sys := by
  induction is generalizing m with
  | nil => exact refl_of R m.sys
  | cons i is ih => exact trans_of R (keeps_onHart hf m i) (ih _)

lemma keeps_onHarts (hf : ∀ s, OnShared R s (f s)) (m : Machine) :
    R m.sys (m.onHarts f).sys :=
  keeps_onHartList hf m _

lemma keeps_enterSupervisor (hdelegate : ∀ s : Hart, OnShared R s s.delegate)
    (henter : ∀ (s : Hart) (entry dtbAddr : U64), OnShared R s (s.enterKernel entry dtbAddr))
    (hpark : ∀ s : Hart, OnShared R s s.park) (m : Machine) (entry dtbAddr : U64) :
    R m.sys (m.enterSupervisor entry dtbAddr).sys :=
  trans_of R (trans_of R (keeps_onHarts hdelegate m) (keeps_onHart (henter · entry dtbAddr) _ 0))
    (keeps_onHartList hpark _ _)

lemma SharedKeeps.onHart (h : SharedKeeps R) (m : Machine) (i : ℕ)
    (hf : HartOp f) : R m.sys (m.onHart i f).sys :=
  keeps_onHart (h.hartKeeps.op hf) m i

lemma SharedKeeps.onHarts (h : SharedKeeps R) (m : Machine) (hf : HartOp f) :
    R m.sys (m.onHarts f).sys :=
  keeps_onHarts (h.hartKeeps.op hf) m

/-- What remains to be checked of a relation for all operations on a machine. -/
theorem SharedKeeps.act (h : SharedKeeps R)
    (hclock : ∀ (s : Sys) f, R s (s.mapClock f))
    (hpoll : ∀ (s : Sys) host, R s (s.pollAll host))
    (hram : ∀ (s : Sys) (ram : Dram), R s { s with ram := ram })
    (hrtc : ∀ (s : Sys) (ns : U64), R s { s with rtc := { s.rtc with hostNs := ns } })
    (m : Machine) (l : Label) : R m.sys (m.act l).sys := by
  cases l with
  | step i => exact h.onHart m i .step
  | runnable i => exact h.onHart m i .runnable
  | beginRound i => exact h.onHart m i (.move .beginRound)
  | tick n => exact hclock m.sys fun c => c.tick n
  | resetLive => exact hclock m.sys fun c => { c with live := 0 }
  | advanceTo t => exact hclock m.sys fun c => c.advanceTo t
  | setInstructionsPerTick n => exact hclock m.sys fun c => c.setInstructionsPerTick n
  | pollDevices host =>
    have hdrive := h.onHarts (m.mapSys fun s => s.pollAll host) (.move .drive)
    exact trans_of R (hpoll m.sys host) hdrive
  | halt shutdown => exact h.onHart m 0 (.move (.halt shutdown))
  | htif addr => exact h.load addr 8 .load m.sys
  | idleOnWfi on => exact h.onHarts m (.move (.idleOnWfi on))
  | enterSupervisor entry dtbAddr =>
    exact keeps_enterSupervisor (h.hartKeeps.op (.move .delegate))
      (fun s entry dtbAddr => h.hartKeeps.op (.move (.enterKernel entry dtbAddr)) s)
      (h.hartKeeps.op .park) m entry dtbAddr
  | loadImage addr bytes =>
    change R m.sys (m.loadImage addr bytes).sys
    unfold Machine.loadImage
    split
    · exact trans_of R (hram _ _) (h.record _ _)
    · exact refl_of R m.sys
  | writeBytes addr bytes =>
    change R m.sys (m.writeBytes addr bytes).sys
    unfold Machine.writeBytes
    split
    · exact trans_of R (hram _ _) (h.record _ _)
    · exact refl_of R m.sys
  | host e =>
    cases e with
    | timeOfDay ns => exact hrtc _ ns
    | _ => exact h.uart _ _

theorem SysKeeps.act (h : SysKeeps R) (m : Machine) (l : Label) : R m.sys (m.act l).sys :=
  h.shared.act (fun s _ => h.clint s _) h.pollAll h.ram h.hostTime m l

end Machine

/-- No operation changes the layout. -/
lemma layout_act (m : Machine) (l : Label) : Layout m.sys (m.act l).sys :=
  sysKeeps_layout.act m l

@[simp] lemma act_numHarts (m : Machine) (l : Label) : (m.act l).sys.numHarts = m.sys.numHarts :=
  (layout_act m l).numHarts

@[simp] lemma run_numHarts (m : Machine) (ls : List Label) :
    (m.run ls).sys.numHarts = m.sys.numHarts := by
  induction ls generalizing m with
  | nil => rfl
  | cons l ls ih => exact (ih _).trans (act_numHarts m l)

end RiscvEmu
