import RiscvEmu.Platform.Protocol
import RiscvEmu.PlicMoves

/-!
# Device accesses take effect at once

After an instruction that reached a device the devices are polled before any other instruction
executes, and a poll brings the interrupt bits of all harts up to date.  What counts is an access
that a device claims: an access to an address that belongs to nothing raises its fault and is not
counted, so no poll follows it.
-/

namespace RiscvEmu

open Exec

/-! ## What a poll leaves -/

/-- A bit of the `mip` of hart `h` is set. -/
def Machine.Pending (m : Machine) (h : ℕ) (mipBit : U64) : Prop :=
  (m.harts h).csrs.raw Csr.mip &&& mipBit ≠ 0

/-- The interrupt bits of hart `h` are what the devices say. -/
structure UpToDate (m : Machine) (h : ℕ) : Prop where
  mtip : h < m.sys.clint.harts →
    (m.Pending h Csr.mipMtip ↔ m.sys.clint.mtimecmp h ≤ m.sys.clint.clock.mtime)
  msip : h < m.sys.clint.harts → (m.Pending h Csr.mipMsip ↔ m.sys.clint.msip h &&& 1 ≠ 0)
  meip : m.Pending h Csr.mipMeip ↔ m.sys.plic.scan (2 * h) ≠ 0
  seip : m.Pending h Csr.mipSeip ↔ m.sys.plic.scan (2 * h + 1) ≠ 0

/-- Only the kept answers of the controller may differ. -/
structure Refreshed (s t : Sys) : Prop where
  clint : t.clint = s.clint
  uart : t.uart = s.uart
  line : t.plic.line = s.plic.line
  scan : ∀ c, t.plic.scan c = s.plic.scan c
  inv : s.plic.Inv → t.plic.Inv

instance : IsPreorder Sys Refreshed where
  refl _ := ⟨rfl, rfl, rfl, fun _ => rfl, id⟩
  trans _ _ _ h g := ⟨g.clint.trans h.clint, g.uart.trans h.uart, g.line.trans h.line,
    fun c => (g.scan c).trans (h.scan c), g.inv ∘ h.inv⟩

/-- The bits a poll drives, one after the other. -/
lemma drive_bits {s : Hart} {h : ℕ} (hid : s.cpu.hartid = h) (hinv : s.sys.plic.Inv) :
    let mip := s.drive.cpu.csrs.raw Csr.mip
    (h < s.sys.clint.harts →
      (mip &&& Csr.mipMtip ≠ 0 ↔ s.sys.clint.mtimecmp h ≤ s.sys.clint.clock.mtime) ∧
      (mip &&& Csr.mipMsip ≠ 0 ↔ s.sys.clint.msip h &&& 1 ≠ 0)) ∧
    (mip &&& Csr.mipMeip ≠ 0 ↔ s.sys.plic.scan (2 * h) ≠ 0) ∧
    (mip &&& Csr.mipSeip ≠ 0 ↔ s.sys.plic.scan (2 * h + 1) ≠ 0) := by
  subst hid
  intro mip
  have hmip : mip = (Plic.drive (Plic.drive (s.sys.clint.update s.cpu.csrs s.cpu.hartid) Csr.mipMeip
      (s.sys.plic.scan (2 * s.cpu.hartid) != 0)) Csr.mipSeip
      (s.sys.plic.scan (2 * s.cpu.hartid + 1) != 0)).raw Csr.mip := by
    change ((s.sys.plic.update _ _).1).raw Csr.mip = _
    rw [hinv.update_eq]
  refine ⟨fun hh => ?_, ?_, ?_⟩
  · have hclint : ∀ b : U64, Csr.mipMeip &&& b = 0 → Csr.mipSeip &&& b = 0 → Csr.mipStip &&& b = 0 →
        mip &&& b = (Plic.drive (Plic.drive s.cpu.csrs Csr.mipMtip
          (s.sys.clint.clock.mtime ≥ s.sys.clint.mtimecmp s.cpu.hartid)) Csr.mipMsip
          (s.sys.clint.msip s.cpu.hartid &&& 1 != 0)).raw Csr.mip &&& b := by
      intro b h₁ h₂ h₃
      rw [hmip, Plic.drive_and_of_disjoint _ h₂, Plic.drive_and_of_disjoint _ h₁]
      unfold Clint.update
      rw [if_neg (by omega)]
      dsimp only
      split_ifs
      · exact Plic.drive_and_of_disjoint _ h₃ _
      · exact Plic.drive_and_of_disjoint _ h₃ _
      · rfl
    constructor
    · rw [hclint _ (by decide) (by decide) (by decide), Plic.drive_and_of_disjoint _ (by decide),
        Plic.drive_and _ (by decide)]
      simp
    · rw [hclint _ (by decide) (by decide) (by decide), Plic.drive_and _ (by decide)]
      simp
  · rw [hmip, Plic.drive_and_of_disjoint _ (by decide), Plic.drive_and _ (by decide)]
    simp
  · rw [hmip, Plic.drive_and _ (by decide)]
    simp

lemma refreshed_drive {s : Hart} (hinv : s.sys.plic.Inv) : Refreshed s.sys s.drive.sys := by
  have hplic : s.drive.sys.plic = s.sys.plic.refresh.refresh := by
    unfold Hart.drive
    dsimp only
    rw [hinv.update_eq]
  refine ⟨rfl, rfl, ?_, fun c => ?_, fun _ => ?_⟩
  · rw [hplic, Plic.refresh_line, Plic.refresh_line]
  · rw [hplic, Plic.refresh_scan, Plic.refresh_scan]
  · rw [hplic]
    exact hinv.refresh.refresh

/-- Every hart of a list is driven once, from the same levels. -/
lemma driven_list (is : List ℕ) (m : Machine) (hinv : m.sys.plic.Inv) (hnodup : is.Nodup)
    (his : ∀ i ∈ is, i < m.sys.numHarts) :
    let n := is.foldl (fun m i => m.onHart i Hart.drive) m
    Refreshed m.sys n.sys ∧ (∀ h, h ∉ is → n.harts h = m.harts h) ∧
      ∀ h ∈ is, ∃ t, Refreshed m.sys t ∧ n.harts h = (Hart.drive ⟨m.harts h, t⟩).cpu := by
  induction is generalizing m with
  | nil => exact ⟨refl_of Refreshed _, fun _ _ => rfl, by simp⟩
  | cons i is ih =>
    obtain ⟨hi, hnodup⟩ := List.nodup_cons.mp hnodup
    have hlt := his i List.mem_cons_self
    let m₁ := m.onHart i Hart.drive
    have hone : m₁ = m.setHart i (m.hart i).drive := by
      change (if i < m.sys.numHarts then _ else _) = _
      rw [if_pos hlt]
    have hsys : m₁.sys = (m.hart i).drive.sys := by rw [hone]; rfl
    have hfirst : Refreshed m.sys m₁.sys := by
      rw [hsys]
      exact refreshed_drive (s := m.hart i) hinv
    obtain ⟨hrest, hsame, hdriven⟩ := ih m₁ (hfirst.inv hinv) hnodup fun j hj => by
      rw [hsys]
      exact his j (List.mem_cons_of_mem _ hj)
    refine ⟨trans_of Refreshed hfirst hrest, fun h hh => ?_, fun h hh => ?_⟩
    · rw [List.mem_cons, not_or] at hh
      refine (hsame h hh.2).trans ?_
      rw [hone]
      exact Function.update_of_ne hh.1 _ _
    · rcases List.mem_cons.mp hh with rfl | hmem
      · refine ⟨m.sys, refl_of Refreshed _, (hsame h hi).trans ?_⟩
        rw [hone]
        exact Function.update_self h (m.hart h).drive.cpu m.harts
      · obtain ⟨t, ht, heq⟩ := hdriven h hmem
        refine ⟨t, trans_of Refreshed hfirst ht, heq.trans ?_⟩
        have hne : h ≠ i := fun hhi => hi (hhi ▸ hmem)
        have hcpu : m₁.harts h = m.harts h := by
          rw [hone]
          exact Function.update_of_ne hne _ _
        rw [hcpu]

/-- A poll brings the interrupt bits of all harts up to date, and the line of the console. -/
theorem upToDate_poll {cfg : Config} {m : Machine} (hm : Reachable cfg m) (host : Bool) :
    let n := m.act (.pollDevices host)
    (∀ h < n.sys.numHarts, UpToDate n h) ∧
      (n.sys.plic.line.getLsbD uart0Irq = true ↔ n.sys.uart.interrupting = true) := by
  intro n
  let polled := m.mapSys fun s => s.pollAll host
  have hinv : polled.sys.plic.Inv := by
    obtain ⟨ops, hops⟩ := sysKeeps_plicStep.pollAll m.sys host
    have hsound := plicSound_reachable hm
    have hrefines := (Plic.Refines.mk hsound.inv hsound.numContexts rfl).after ops
    rw [← hops] at hrefines
    exact hrefines.inv
  have hnum : n.sys.numHarts = polled.sys.numHarts := by
    rw [act_numHarts]
    exact (pollFrame_pollAll m.sys host).numHarts.symm
  obtain ⟨hfresh, -, hdriven⟩ := driven_list (List.range polled.sys.numHarts) polled hinv
    List.nodup_range fun i hi => List.mem_range.mp hi
  change Refreshed polled.sys n.sys at hfresh
  constructor
  · intro h hh
    obtain ⟨t, ht, hcpu⟩ := hdriven h (List.mem_range.mpr (hnum ▸ hh))
    change n.harts h = _ at hcpu
    obtain ⟨hcl, hme, hse⟩ := drive_bits (s := ⟨m.harts h, t⟩) (hartid_reachable hm h) (ht.inv hinv)
    refine ⟨fun hc => ?_, fun hc => ?_, ?_, ?_⟩
    · rw [hfresh.clint] at hc ⊢
      rw [Machine.Pending, hcpu, ← ht.clint]
      exact (hcl (ht.clint ▸ hc)).1
    · rw [hfresh.clint] at hc ⊢
      rw [Machine.Pending, hcpu, ← ht.clint]
      exact (hcl (ht.clint ▸ hc)).2
    · rw [Machine.Pending, hcpu, hfresh.scan, ← ht.scan]
      exact hme
    · rw [Machine.Pending, hcpu, hfresh.scan, ← ht.scan]
      exact hse
  · rw [hfresh.line, hfresh.uart]
    change ((m.sys.lookAtHost host).pollDevices.plic.setPending uart0Irq
      (m.sys.lookAtHost host).pollDevices.uart.interrupting).line.getLsbD uart0Irq = true ↔
        (m.sys.lookAtHost host).pollDevices.uart.interrupting = true
    rw [Plic.setPending_line (by decide)]
    cases (m.sys.lookAtHost host).pollDevices.uart.interrupting <;> simp

/-! ## The order of operations -/

/-- What the outside world does. -/
def Label.IsHost (l : Label) : Prop := ∃ e, l = .host e

section Paths

variable {quantum : ℕ} {m : Machine} {φ : Phase} {ls : List Label}

/-- After a fatal trap or a stop the scheduler does nothing. -/
lemma Path.of_stopped (h : Path quantum m .stopped ls φ) : φ = .stopped ∧ ∀ l ∈ ls, l.IsHost := by
  induction h with
  | nil => exact ⟨rfl, by simp⟩
  | act _ hnext ih =>
    obtain ⟨rfl, hls⟩ := ih
    cases hnext with
    | host e =>
      refine ⟨rfl, fun l hl => ?_⟩
      rcases List.mem_cons.mp hl with rfl | hl
      · exact ⟨e, rfl⟩
      · exact hls l hl
  | silent _ hnext ih =>
    obtain ⟨rfl, -⟩ := ih
    cases hnext

/-- After a step that reached a device the scheduler polls the devices before it does anything
else. -/
lemma Path.of_touched {i used roundMax : ℕ} (h : Path quantum m (.touched i used roundMax) ls φ) :
    (φ = .touched i used roundMax ∧ ∀ l ∈ ls, l.IsHost) ∨
    ∃ host before after, ls = after ++ .pollDevices host :: before ∧ ∀ l ∈ before, l.IsHost := by
  induction h with
  | nil => exact Or.inl ⟨rfl, by simp⟩
  | @act ls ψ ψ' l _ hnext ih =>
    rcases ih with ⟨rfl, hls⟩ | ⟨host, before, after, rfl, hbefore⟩
    · cases hnext with
      | host e =>
        refine Or.inl ⟨rfl, fun l hl => ?_⟩
        rcases List.mem_cons.mp hl with rfl | hl
        · exact ⟨e, rfl⟩
        · exact hls l hl
      | poll host => exact Or.inr ⟨host, ls, [], rfl, hls⟩
    · exact Or.inr ⟨host, before, l :: after, rfl, hbefore⟩
  | silent _ hnext ih =>
    rcases ih with ⟨rfl, -⟩ | hpoll
    · cases hnext
    · exact Or.inr hpoll

end Paths

namespace Platform

/-- Between an instruction that reached a device, and neither halted nor parked its hart, and the
next instruction of any hart the devices are polled, before anything else is done to the machine;
the poll brings the interrupt bits of all harts up to date. -/
theorem device_access_polled {cfg : Config} {p : Platform} (hp : Reachable cfg p.machine)
    (maxSteps rounds : ℕ) {i j : ℕ} {newer between older : List Label}
    (htrace : (p.run maxSteps rounds).2.trace =
      (newer ++ .step j :: (between ++ .step i :: older)) ++ p.trace)
    (haccess : (p.machine.replay (.step i :: older)).sys.mmioEpoch ≠
      (p.machine.replay older).sys.mmioEpoch)
    (hhalted : ((p.machine.replay (.step i :: older)).harts i).halted = false)
    (hparked : ((p.machine.replay (.step i :: older)).sys.mail i).parked = false) :
    ∃ host before after, between = after ++ .pollDevices host :: before ∧
      (∀ l ∈ before, l.IsHost) ∧
      let polled := p.machine.replay (.pollDevices host :: (before ++ .step i :: older))
      (∀ h < polled.sys.numHarts, UpToDate polled h) ∧
        (polled.sys.plic.line.getLsbD uart0Irq = true ↔ polled.sys.uart.interrupting = true) := by
  obtain ⟨φ, -, -, ls, htr, -, hpath⟩ := run_follows maxSteps rounds p
  obtain rfl : ls = newer ++ .step j :: (between ++ .step i :: older) :=
    List.append_cancel_right (htr.symm.trans htrace)
  obtain ⟨ψ, ψ', hto, hnext, -⟩ := hpath.split
  obtain ⟨χ, χ', -, hstep, hbetween⟩ := hto.split
  cases hstep with
  | @step m i used roundMax _ _ =>
    obtain ⟨used', roundMax', rfl⟩ : ∃ u r, ψ = .running j u r := by
      cases hnext
      exact ⟨_, _, rfl⟩
    rw [Machine.replay_cons] at haccess hhalted hparked
    have hafter : afterStep (p.machine.replay older) i used roundMax = .stopped ∨
        afterStep (p.machine.replay older) i used roundMax = .touched i (used + 1) roundMax := by
      unfold afterStep
      dsimp only
      split
      · exact Or.inl rfl
      · have hgo : ¬ ((((p.machine.replay older).act (.step i)).harts i).halted = true ∨
            (((p.machine.replay older).act (.step i)).sys.mail i).parked = true) := by
          simp [hhalted, hparked]
        exact Or.inr (if_neg hgo)
    rcases hafter with hstop | htouched
    · rw [hstop] at hbetween
      cases hbetween.of_stopped.1
    · rw [htouched] at hbetween
      rcases hbetween.of_touched with ⟨hφ, -⟩ | ⟨host, before, after, rfl, hbefore⟩
      · cases hφ
      · exact ⟨host, before, after, rfl, hbefore,
          upToDate_poll (reachable_replay hp (before ++ .step i :: older)) host⟩

/-- A guest that writes a register of the interruptor. -/
def toucher : Platform :=
  .new (.loaded 1 [0x020002b7, 0x0002a023, 0x00000013]) 256 fun _ => []

/-- The poll after the store of that guest. -/
theorem device_access_polled_sample :
    ∃ host before after, ([.pollDevices false] : List Label) =
      after ++ .pollDevices host :: before ∧
      (∀ l ∈ before, l.IsHost) ∧
      let polled := toucher.machine.replay (.pollDevices host ::
        (before ++ .step 0 :: [.step 0, .beginRound 0, .runnable 0]))
      (∀ h < polled.sys.numHarts, UpToDate polled h) ∧
        (polled.sys.plic.line.getLsbD uart0Irq = true ↔ polled.sys.uart.interrupting = true) :=
  have hstart : Reachable (.plain 1 4096 page_fits) toucher.machine := ⟨_, rfl⟩
  have htrace : (toucher.run 3 1).2.trace =
      ([.pollDevices false, .tick 3, .resetLive] ++ .step 0 :: ([.pollDevices false] ++
        .step 0 :: [.step 0, .beginRound 0, .runnable 0])) ++ toucher.trace := by decide +kernel
  device_access_polled hstart 3 1 htrace (by decide +kernel) (by decide +kernel) (by decide +kernel)

/-- A guest that installs a handler and loads from address 0, where there is nothing. -/
def stray : Platform :=
  .new (.loaded 1 [0x00000297, 0x01028293, 0x30529073, 0x00002303, 0x00000013]) 256 fun _ => []

/-- Its load goes over the bus to an address outside RAM and faults into the handler, but it reaches
no device, and the next instruction executes without a poll. -/
theorem stray_access_not_polled :
    let older : List Label := [.step 0, .step 0, .step 0, .beginRound 0, .runnable 0]
    let m := stray.machine.replay older
    let n := m.act (.step 0)
    (¬ InRam m.sys.ram 0 4 ∧ m.sys.device 0 = none ∧
      outcome (memLoad 0 4 .load) (m.hart 0) = .error ⟨.loadAccessFault, 0⟩) ∧
    ((n.harts 0).lastTrap = some ⟨.loadAccessFault, 0⟩ ∧ (n.harts 0).pc = dramBase + 16 ∧
      (n.harts 0).halted = false ∧ (n.sys.mail 0).parked = false) ∧
    (stray.run 5 1).2.trace =
      [.pollDevices false, .tick 5, .resetLive] ++ .step 0 :: .step 0 :: older := by
  decide +kernel

end Platform

end RiscvEmu
