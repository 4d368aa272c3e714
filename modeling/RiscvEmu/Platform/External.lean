import RiscvEmu.Platform.DeviceAccess
import RiscvEmu.Virtio.Lines
import RiscvEmu.Cpu.Interrupts

/-!
# External interrupts from device to hart
-/

namespace RiscvEmu

open Csr

lemma Plic.Inv.scan_ne_zero {p : Plic} (h : p.Inv) (c : ℕ) :
    p.scan c ≠ 0 ↔ ∃ s, p.view.Eligible c s := by
  rcases scan_spec h c with ⟨hz, hnone⟩ | ⟨hne, hbest⟩
  · exact iff_of_false (not_not.mpr hz) fun ⟨s, hs⟩ => hnone s hs
  · exact iff_of_true hne ⟨_, hbest.1⟩

lemma Plic.view_eligible_iff {p : Plic} {c s : ℕ} : p.view.Eligible c s ↔
    p.line.getLsbD s = true ∧ ¬ p.claimed.getLsbD s = true ∧
      (c < p.numContexts ∧ (p.contexts c).enabled.getLsbD s = true) ∧
      0 < (p.priority s).toNat ∧ (p.contexts c).threshold.toNat < (p.priority s).toNat :=
  Iff.rfl

/-- In machine mode the machine external interrupt comes first. -/
lemma nextInterrupt_machineExternal {c : Cpu} (hb : c.csrs.Built)
    (hd : ¬ c.Delegated .machineExternal) :
    c.nextInterrupt = some .machineExternal ↔ c.Ready .machineExternal ∧ c.machineOpen := by
  have hmem := mem_candidates_iff hb .machineExternal
  rw [targetOf_not_delegated hd, and_iff_left fun j _ => targetOf_le c j,
    takable_not_delegated hd] at hmem
  rw [← hmem, nextInterrupt_eq]
  exact ⟨fun h => by simpa using List.find?_some h, fun h => List.find?_cons_of_pos h⟩

/-- The devices decide, through the arbiter `p`, which external interrupts hart `h` has and
takes. -/
structure ExternalExact (m : Machine) (p : Arbiter ℕ ℕ) (h : ℕ) : Prop where
  meip : m.Pending h mipMeip ↔ ∃ s, p.Eligible (2 * h) s
  seip : m.Pending h mipSeip ↔ ∃ s, p.Eligible (2 * h + 1) s
  blk : virtio0Irq ∈ p.asserted ↔ m.sys.blk.core.interruptStatus ≠ 0
  net : virtioNetIrq ∈ p.asserted ↔ m.sys.net.core.interruptStatus ≠ 0
  rng : virtioRngIrq ∈ p.asserted ↔ m.sys.rng.core.interruptStatus ≠ 0
  uart : uart0Irq ∈ p.asserted ↔ m.sys.uart.interrupting = true
  taken : ¬ (m.harts h).Delegated .machineExternal →
    ((m.harts h).nextInterrupt = some .machineExternal ↔
    (∃ s, p.Eligible (2 * h) s) ∧ ((m.harts h).csrs.raw mie).getLsbD 11 = true ∧
    (m.harts h).machineOpen)

/-- After every poll of every run, a hart has an external interrupt exactly if its context has an
eligible source, and takes it in machine mode exactly if it is open to it. -/
theorem external_interrupts_exact {cfg : Config} {m : Machine} (hm : Reachable cfg m)
    (host : Bool) {h : ℕ} (hh : h < m.sys.numHarts) :
    let n := m.act (.pollDevices host); ExternalExact n n.sys.plic.view h := by
  obtain ⟨hup, huart⟩ := upToDate_poll hm host
  have hn : Reachable cfg (m.act (.pollDevices host)) := reachable_replay hm [.pollDevices host]
  have hinv := (plicSound_reachable hn).inv
  have hlinked := linked_reachable hn
  have hbits := hup h ((act_numHarts m _).symm ▸ hh)
  have hmeip := hbits.meip.trans (hinv.scan_ne_zero _)
  refine ⟨hmeip, hbits.seip.trans (hinv.scan_ne_zero _), hlinked.blk.2, hlinked.net.2,
    hlinked.rng.2, huart, fun hd => ?_⟩
  rw [nextInterrupt_machineExternal (built_reachable hn h) hd, ← hmeip, Cpu.Ready, and_assoc]
  exact and_congr_left' (and_bit_ne_zero _ .machineExternal).symm

/-- The driver of the entropy device, which then enables the machine external interrupt and opens
the hart to interrupts. -/
def entropyListener : List U32 :=
  entropyDriver ++
    [0x000015b7, 0x80058593,  -- lui x11, 1; addi x11, x11, -2048
     0x3045a073, 0x30046073]  -- csrs mie, x11; csrsi mstatus, 8

/-- The machine after these instructions and a poll of the devices. -/
def entropyPolled : Machine := (entropyRun entropyListener 22).act (.pollDevices false)

/-- The first request is finished: the source of the device is eligible, the hart has the interrupt
and takes it. -/
theorem external_interrupts_exact_raised :
    entropyPolled.sys.plic.view.Eligible 0 virtioRngIrq ∧ entropyPolled.Pending 0 mipMeip ∧
      (entropyPolled.harts 0).nextInterrupt = some .machineExternal := by
  have hhart : 0 < (entropyRun entropyListener 22).sys.numHarts := by decide +kernel
  have hexact := external_interrupts_exact (entropyRun_reachable entropyListener 22) false hhart
  rw [← entropyPolled] at hexact
  have heligible : entropyPolled.sys.plic.view.Eligible 0 virtioRngIrq := by
    rw [Plic.view_eligible_iff]
    decide +kernel
  have hopen : ¬ ((entropyPolled.harts 0).csrs.raw mideleg).getLsbD 11 = true ∧
      ((entropyPolled.harts 0).csrs.raw mie).getLsbD 11 = true ∧
      (entropyPolled.harts 0).machineOpen := by
    decide +kernel
  exact ⟨heligible, hexact.meip.mpr ⟨_, heligible⟩,
    (hexact.taken hopen.1).mpr ⟨⟨_, heligible⟩, hopen.2⟩⟩

end RiscvEmu
