import RiscvEmu.PlicMoves
import RiscvEmu.Virtio.Rings

/-!
# Interrupt lines and interrupt status

A virtio device asserts its line at the controller exactly while its interrupt status is not zero.
Lines are changed by their device alone: claims, completions and the other registers of the
controller leave them, and the lines of the other devices are other bits.  With the invariant of the
controller, by which an asserted source that is not in service is pending, no interrupt is lost.
-/

namespace RiscvEmu

open Exec Virtio

/-! ## The controller -/

namespace Plic

variable (p : Plic)

lemma claim_line (c : ℕ) : (p.claim c).2.line = p.line := by
  unfold claim bestIrq
  dsimp only
  generalize (if c < p.refresh.numContexts then p.refresh.best c else 0) = irq
  split
  · exact refresh_line p
  · exact refresh_line p

lemma load_line (offset size : ℕ) : (final (load offset size) p).line = p.line := by
  rw [final_load]
  split
  · split
    · exact p.claim_line _
    · rfl
  · rfl

lemma complete_line (irq : ℕ) : (p.complete irq).line = p.line := by
  unfold complete
  split <;> rfl

lemma store_line (offset size : ℕ) (value : U64) :
    (final (store offset size value) p).line = p.line := by
  by_cases hsize : size = 4
  · subst hsize
    rw [final_store]
    split
    · rfl
    · rfl
    · rfl
    · exact p.complete_line _
    · rfl
  · rw [final_store_width hsize]

lemma update_line (csrs : CsrFile) (hart : ℕ) : (p.update csrs hart).2.line = p.line := by
  change p.refresh.refresh.line = p.line
  rw [refresh_line, refresh_line]

/-- A line that rises or falls is the only one that changes. -/
lemma setPending_line_ne {irq s : ℕ} (hs : s ≠ irq) (on : Bool) :
    (p.setPending irq on).line.getLsbD s = p.line.getLsbD s := by
  by_cases h : 0 < irq ∧ irq < maxIrqs
  · rw [Bool.eq_iff_iff, setPending_line h]
    cases on <;> simp [hs]
  · rw [setPending, if_pos (by omega)]

lemma setPending_line_self {irq : ℕ} (h : 0 < irq ∧ irq < maxIrqs) (on : Bool) :
    (p.setPending irq on).line.getLsbD irq = on := by
  rw [Bool.eq_iff_iff, setPending_line h]
  cases on <;> simp

end Plic

/-- No line but one changed. -/
def LinesKept (own : ℕ) (p q : Plic) : Prop := ∀ s, s ≠ own → q.line.getLsbD s = p.line.getLsbD s

lemma LinesKept.of_line {own : ℕ} {p q : Plic} (h : q.line = p.line) : LinesKept own p q :=
  fun _ _ => by rw [h]

/-! ## One device -/

namespace Virtio

/-- The device has the source `irq`, and asserts its line exactly while its status is not zero. -/
def Core.Linked (c : Core) (p : Plic) (irq : ℕ) : Prop :=
  c.irq = some irq ∧ (p.line.getLsbD irq = true ↔ c.interruptStatus ≠ 0)

lemma Core.Linked.of_line {c : Core} {p q : Plic} {irq : ℕ} (h : c.Linked p irq)
    (hl : q.line.getLsbD irq = p.line.getLsbD irq) : c.Linked q irq :=
  ⟨h.1, by rw [hl]; exact h.2⟩

/-- The line of a device went along with its status, and no other line changed. -/
def Tracks (irq : ℕ) (e e' : Dma) : Prop :=
  e.core.Linked e.plic irq → e'.core.Linked e'.plic irq ∧ LinesKept irq e.plic e'.plic

section Tracks

variable {irq : ℕ}

instance : IsPreorder Dma (Tracks irq) where
  refl _ h := ⟨h, fun _ _ => rfl⟩
  trans _ _ _ h g hl :=
    ⟨(g (h hl).1).1, fun s hs => ((g (h hl).1).2 s hs).trans ((h hl).2 s hs)⟩

variable {e e' : Dma} {queue : ℕ}

lemma Tracks.of_same (hirq : e'.core.irq = e.core.irq)
    (hstatus : e'.core.interruptStatus = e.core.interruptStatus) (hplic : e'.plic = e.plic) :
    Tracks irq e e' := by
  intro h
  refine ⟨?_, .of_line (by rw [hplic])⟩
  rw [Core.Linked, hirq, hstatus, hplic]
  exact h

/-- A new status, and the line driven to match it. -/
lemma tracks_drive (hrange : 0 < irq ∧ irq < maxIrqs) (e : Dma) {c : Core}
    (hirq : c.irq = e.core.irq) {on : Bool} (hon : on = true ↔ c.interruptStatus ≠ 0) :
    Tracks irq e (Dma.setLine { e with core := c } on) := by
  intro h
  have hsome : c.irq = some irq := hirq.trans h.1
  have heq : Dma.setLine { e with core := c } on =
      { e with core := c, plic := e.plic.setPending irq on } := by
    rw [Dma.setLine, hsome]
  rw [heq]
  refine ⟨⟨hsome, ?_⟩, fun s hs => Plic.setPending_line_ne _ hs on⟩
  rw [Plic.setPending_line_self _ hrange]
  exact hon

lemma or_one_ne_zero (v : U32) : v ||| 1 ≠ 0 := by
  intro h
  have hbit : (v ||| 1).getLsbD 0 = false := by rw [h]; rfl
  rw [BitVec.getLsbD_or] at hbit
  simp at hbit

lemma tracks_raiseInterrupt (hrange : 0 < irq ∧ irq < maxIrqs) (e : Dma) :
    Tracks irq e e.raiseInterrupt :=
  tracks_drive hrange e (c := { e.core with interruptStatus := e.core.interruptStatus ||| 1 }) rfl
    (iff_of_true rfl (or_one_ne_zero _))

/-- Bits of the status were acknowledged, but not the last one. -/
lemma tracks_acknowledge {v : U32} (h : ¬ e.core.interruptStatus &&& ~~~v = 0) :
    Tracks irq e
      { e with core := { e.core with interruptStatus := e.core.interruptStatus &&& ~~~v } } := by
  intro hl
  have hbefore : e.core.interruptStatus ≠ 0 := by
    intro h₀
    rw [h₀] at h
    exact h BitVec.zero_and
  exact ⟨⟨hl.1, iff_of_true (hl.2.mpr hbefore) h⟩, fun _ _ => rfl⟩

lemma tracks_signalUsed (hrange : 0 < irq ∧ irq < maxIrqs) (e : Dma) (queue : ℕ) :
    Tracks irq e (e.signalUsed queue) := by
  unfold Dma.signalUsed
  dsimp only
  split_ifs
  · exact refl_of (Tracks irq) e
  · exact refl_of (Tracks irq) e
  · exact tracks_raiseInterrupt hrange e

lemma Round.Valid.tracks {r : Round} (h : r.Valid queue) : Tracks irq r.before r.after := by
  have hcore : r.after.core = (r.before.taken queue).core := h.core
  have hplic : r.after.plic = r.before.plic := (Pass.cons h (.nil _)).plic
  exact .of_same (by rw [hcore]; rfl) (by rw [hcore]; rfl) hplic

lemma Pass.tracks {rs : List Round} (h : Pass queue e rs e') :
    Tracks irq e e' := by
  induction h with
  | nil e => exact refl_of (Tracks irq) e
  | cons hr _ ih => exact trans_of (Tracks irq) hr.tracks ih

lemma Serves.tracks (hrange : 0 < irq ∧ irq < maxIrqs) {rs : List Round}
    (h : Serves queue e rs e') : Tracks irq e e' := by
  obtain ⟨mid, hpass, rfl | rfl⟩ := h
  · exact hpass.tracks
  · exact trans_of (Tracks irq) hpass.tracks (tracks_signalUsed hrange mid queue)

end Tracks

lemma slotKeeps_tracks {irq : ℕ} (hrange : 0 < irq ∧ irq < maxIrqs) : SlotKeeps (Tracks irq) where
  serves h := h.tracks hrange
  registers _ _ hirq hstatus := .of_same hirq hstatus rfl
  drive e _ _ hirq hon := tracks_drive hrange e hirq hon
  acknowledge _ _ h := tracks_acknowledge h

end Virtio

/-! ## The machine -/

/-- Every device of the machine has a source of its own, and the virtio devices drive theirs as
their status says. -/
structure Linked (s : Sys) : Prop where
  blk : s.blk.core.Linked s.plic virtio0Irq
  net : s.net.core.Linked s.plic virtioNetIrq
  rng : s.rng.core.Linked s.plic virtioRngIrq
  rtc : s.rtc.irq = some rtcIrq

variable {s t : Sys}

lemma Linked.of_lines (h : Linked s) (hblk : t.blk.core = s.blk.core)
    (hnet : t.net.core = s.net.core) (hrng : t.rng.core = s.rng.core) (hrtc : t.rtc.irq = s.rtc.irq)
    (hlines : ∀ irq ∈ [virtio0Irq, virtioNetIrq, virtioRngIrq],
      t.plic.line.getLsbD irq = s.plic.line.getLsbD irq) : Linked t where
  blk := by rw [hblk]; exact h.blk.of_line (hlines _ (by decide))
  net := by rw [hnet]; exact h.net.of_line (hlines _ (by decide))
  rng := by rw [hrng]; exact h.rng.of_line (hlines _ (by decide))
  rtc := hrtc.trans h.rtc

/-- Status and lines still match. -/
def KeepsLinked (s t : Sys) : Prop := Linked s → Linked t

instance : IsPreorder Sys KeepsLinked where
  refl _ h := h
  trans _ _ _ h g hs := g (h hs)

/-- Neither a line nor the status of a device changed. -/
lemma KeepsLinked.of_plic (hblk : t.blk.core = s.blk.core) (hnet : t.net.core = s.net.core)
    (hrng : t.rng.core = s.rng.core) (hrtc : t.rtc.irq = s.rtc.irq)
    (hline : t.plic.line = s.plic.line) : KeepsLinked s t :=
  fun h => h.of_lines hblk hnet hrng hrtc fun _ _ => by rw [hline]

/-- What a device does to its own slot leaves the others as they were. -/
lemma keepsLinked_putBlk {slot : Slot Blk}
    (h : Virtio.Tracks virtio0Irq (virtioSlot Sys.blk s).env slot.env) :
      KeepsLinked s (putBlk slot s) := by
  intro hs
  obtain ⟨hblk, hkept⟩ := h hs.blk
  exact ⟨hblk, hs.net.of_line (hkept _ (by decide)), hs.rng.of_line (hkept _ (by decide)), hs.rtc⟩

lemma keepsLinked_putNet {slot : Slot Net}
    (h : Virtio.Tracks virtioNetIrq (virtioSlot Sys.net s).env slot.env) :
      KeepsLinked s (putNet slot s) := by
  intro hs
  obtain ⟨hnet, hkept⟩ := h hs.net
  exact ⟨hs.blk.of_line (hkept _ (by decide)), hnet, hs.rng.of_line (hkept _ (by decide)), hs.rtc⟩

lemma keepsLinked_putRng {slot : Slot Rng}
    (h : Virtio.Tracks virtioRngIrq (virtioSlot Sys.rng s).env slot.env) :
      KeepsLinked s (putRng slot s) := by
  intro hs
  obtain ⟨hrng, hkept⟩ := h hs.rng
  exact ⟨hs.blk.of_line (hkept _ (by decide)), hs.net.of_line (hkept _ (by decide)), hrng, hs.rtc⟩

/-- The clock drives a line of its own. -/
lemma Linked.setLine (h : Linked s) {r : Rtc} (hr : r.irq = some rtcIrq) {on : Bool}
    (hblk : t.blk.core = s.blk.core) (hnet : t.net.core = s.net.core)
    (hrng : t.rng.core = s.rng.core)
    (hrtc : t.rtc.irq = s.rtc.irq) (hplic : t.plic = r.setLine s.plic on) : Linked t := by
  refine h.of_lines hblk hnet hrng hrtc fun irq hirq => ?_
  have hne : irq ≠ rtcIrq := by
    rintro rfl
    exact absurd hirq (by decide)
  rw [hplic, Rtc.setLine, hr]
  exact Plic.setPending_line_ne _ hne on

lemma keepsLinked_rtcStore (offset size : ℕ) (value : U64) (s : Sys) (h : Linked s) :
    Linked { s with
      rtc := (final (Rtc.store offset size value) (s.rtc, s.plic)).1
      plic := (final (Rtc.store offset size value) (s.rtc, s.plic)).2 } := by
  unfold final Rtc.store
  dsimp only
  split_ifs
  all_goals
    first
    | exact h.of_lines rfl rfl rfl rfl fun _ _ => rfl
    | exact h.setLine h.rtc rfl rfl rfl rfl rfl

lemma sysKeeps_linked : SysKeeps KeepsLinked where
  uart _ _ := .of_plic rfl rfl rfl rfl rfl
  clint _ _ := .of_plic rfl rfl rfl rfl rfl
  syscon _ _ := .of_plic rfl rfl rfl rfl rfl
  plicLoad s offset size := .of_plic rfl rfl rfl rfl (s.plic.load_line offset size)
  plicStore s offset size v := .of_plic rfl rfl rfl rfl (s.plic.store_line offset size v)
  signal s on h := by
    refine h.of_lines rfl rfl rfl rfl fun irq hirq => ?_
    have hne : irq ≠ uart0Irq := by
      rintro rfl
      exact absurd hirq (by decide)
    exact Plic.setPending_line_ne _ hne _
  rtcLoad s offset size := by
    have hirq : (final (Rtc.load offset size) s.rtc).irq = s.rtc.irq := by
      unfold final Rtc.load
      split_ifs <;> rfl
    exact .of_plic rfl rfl rfl hirq rfl
  rtcStore s offset size v := keepsLinked_rtcStore offset size v s
  rtcPoll s h := by
    unfold Rtc.poll
    split
    · exact h.setLine h.rtc rfl rfl rfl rfl rfl
    · exact h.of_lines rfl rfl rfl rfl fun _ _ => rfl
  blk _ _ h := keepsLinked_putBlk (h _ (slotKeeps_tracks (by decide)))
  net _ _ h := keepsLinked_putNet (h _ (slotKeeps_tracks (by decide)))
  rng _ _ h := keepsLinked_putRng (h _ (slotKeeps_tracks (by decide)))
  count _ := .of_plic rfl rfl rfl rfl rfl
  ram _ _ := .of_plic rfl rfl rfl rfl rfl
  record _ _ := .of_plic rfl rfl rfl rfl rfl
  mail _ _ := .of_plic rfl rfl rfl rfl rfl
  drive s csrs hart := .of_plic rfl rfl rfl rfl (s.plic.update_line csrs hart)
  hostTime _ _ := .of_plic rfl rfl rfl rfl rfl

lemma keepsLinked_act (m : Machine) (l : Label) : KeepsLinked m.sys (m.act l).sys :=
  sysKeeps_linked.act m l

/-- Lines and status match in every state that can be reached. -/
lemma linked_reachable {cfg : Config} {m : Machine} (hm : Reachable cfg m) : Linked m.sys := by
  obtain ⟨ls, rfl⟩ := hm
  have hinit : Linked (Machine.init cfg).sys := by
    have hline : ∀ irq, (Machine.init cfg).sys.plic.line.getLsbD irq ≠ true := fun irq =>
      ne_true_of_eq_false (BitVec.getLsbD_zero)
    exact ⟨⟨rfl, iff_of_false (hline _) fun h => h rfl⟩,
      ⟨rfl, iff_of_false (hline _) fun h => h rfl⟩,
      ⟨rfl, iff_of_false (hline _) fun h => h rfl⟩, rfl⟩
  generalize Machine.init cfg = m at hinit ⊢
  induction ls generalizing m with
  | nil => exact hinit
  | cons l ls ih => exact ih _ (keepsLinked_act m l hinit)

/-- The interrupt of a device is not lost: its line says whether its status is set, and while it is
set and not in service it is pending. -/
def Virtio.Core.InterruptKept (c : Core) (p : Plic) (irq : ℕ) : Prop :=
  c.irq = some irq ∧ (p.line.getLsbD irq = true ↔ c.interruptStatus ≠ 0) ∧
    (c.interruptStatus ≠ 0 → p.claimed.getLsbD irq = false → p.pending.getLsbD irq = true)

lemma Virtio.Core.Linked.interruptKept {c : Core} {p : Plic} {irq : ℕ} (h : c.Linked p irq)
    (hp : p.Inv) : c.InterruptKept p irq :=
  ⟨h.1, h.2, fun hstatus hclaimed => hp.pending_of_line irq (h.2.mpr hstatus) (by simp [hclaimed])⟩

/-- No virtio interrupt is lost, whatever the harts, the devices and the outside world do. -/
theorem virtio_interrupts_kept (cfg : Config) (m : Machine) (hm : Reachable cfg m) :
    m.sys.blk.core.InterruptKept m.sys.plic virtio0Irq ∧
      m.sys.net.core.InterruptKept m.sys.plic virtioNetIrq ∧
      m.sys.rng.core.InterruptKept m.sys.plic virtioRngIrq := by
  have hlinked := linked_reachable hm
  have hinv := (plicSound_reachable hm).inv
  exact ⟨hlinked.blk.interruptKept hinv, hlinked.net.interruptKept hinv,
    hlinked.rng.interruptKept hinv⟩

/-! ## A driver of the entropy device -/

/-- A machine with an entropy device. -/
def entropyConfig : Config := { Config.plain 1 4096 page_fits with rng := some ⟨1⟩, fuel := 4 }

/-- A driver that gives the device its queue, makes the first request and enables the device's
source in the PLIC. -/
def entropyDriver : List U32 :=
  [0x100030b7, 0x00000117, 0x1fc10113,  -- lui x1, 0x10003; auipc x2, 0; addi x2, x2, 0x1fc
   0x00200193, 0x0230ac23,              -- addi x3, x0, 2; sw x3, 0x38(x1)
   0x0820a023,                          -- sw x2, 0x80(x1)
   0x04010213, 0x0840a823,              -- addi x4, x2, 0x40; sw x4, 0x90(x1)
   0x08010213, 0x0a40a023,              -- addi x4, x2, 0x80; sw x4, 0xa0(x1)
   0x00100293, 0x0450a223,              -- addi x5, x0, 1; sw x5, 0x44(x1)
   0x0400a823,                          -- sw x0, 0x50(x1)
   0x0c000337, 0x00532623,              -- lui x6, 0xc000; sw x5, 12(x6)
   0x0c0023b7, 0x00800413, 0x0083a023]  -- lui x7, 0xc002; addi x8, x0, 8; sw x8, 0(x7)

/-- A handler that claims the interrupt, acknowledges it, makes the second request and completes
the interrupt. -/
def entropyHandler : List U32 :=
  [0x0c2004b7, 0x0044a503,              -- lui x9, 0xc200; lw x10, 4(x9)
   0x0650a223,                          -- sw x5, 0x64(x1)
   0x04311123, 0x0400a823,              -- sh x3, 0x42(x2); sw x0, 0x50(x1)
   0x00a4a223]                          -- sw x10, 4(x9)

/-- The machine after `n` instructions of the code.  Its descriptor table has one buffer of four
bytes for the device to write, and one request is available. -/
def entropyRun (code : List U32) (n : ℕ) : Machine :=
  (Machine.init entropyConfig).run
    (.loadImage dramBase (codeBytes code) ::
      .writeBytes (dramBase + 0x200) [0, 3, 0, 0x80, 0, 0, 0, 0, 4, 0, 0, 0, 2, 0, 0, 0] ::
      .writeBytes (dramBase + 0x240) [0, 0, 1, 0, 0, 0, 0, 0] :: List.replicate n (.step 0))

lemma entropyRun_reachable (code : List U32) (n : ℕ) :
    Reachable entropyConfig (entropyRun code n) :=
  ⟨_, rfl⟩

/-- A completion between the claim of an interrupt and its completion: the interrupt that was
acknowledged is raised again while it is in service, and pending after it. -/
theorem virtio_interrupts_kept_claimed :
    let served := entropyRun (entropyDriver ++ entropyHandler)
    ((served 22).sys.plic.claimed.getLsbD virtioRngIrq = true ∧
      (served 22).sys.rng.core.interruptStatus = 0) ∧
    ((served 23).sys.plic.claimed.getLsbD virtioRngIrq = true ∧
      (served 23).sys.rng.core.interruptStatus ≠ 0) ∧
    ((served 24).sys.plic.claimed.getLsbD virtioRngIrq = false ∧
      (served 24).sys.rng.core.interruptStatus ≠ 0 ∧
      (served 24).sys.plic.line.getLsbD virtioRngIrq = true ∧
      (served 24).sys.plic.pending.getLsbD virtioRngIrq = true) := by
  intro served
  have hstatus : (served 24).sys.plic.claimed.getLsbD virtioRngIrq = false ∧
      (served 24).sys.rng.core.interruptStatus ≠ 0 := by decide +kernel
  obtain ⟨-, -, -, hline, hpending⟩ :=
    virtio_interrupts_kept _ (served 24) (entropyRun_reachable _ 24)
  refine ⟨by decide +kernel, by decide +kernel, hstatus.1, hstatus.2, ?_, ?_⟩
  · exact hline.mpr hstatus.2
  · exact hpending hstatus.2 hstatus.1

end RiscvEmu
