import RiscvEmu.Wiring
import RiscvEmu.Device.ArbitrationRun

/-!
# The interrupt controller in a machine

Whatever happens to a machine, its interrupt controller changes by operations of its own: lines
that rise and fall, register accesses, and the polls that drive the external-interrupt bits.  So
the kept answers of the arbitration are right in every state a machine can reach.
-/

namespace RiscvEmu

open Exec Virtio

/-- The controller changed by operations of its own. -/
def PlicMoves (p q : Plic) : Prop := ∃ ops, q = p.after ops

namespace PlicMoves

lemma refl (p : Plic) : PlicMoves p p := ⟨[], rfl⟩

lemma trans {p q r : Plic} (h : PlicMoves p q) (h' : PlicMoves q r) : PlicMoves p r := by
  obtain ⟨ops, rfl⟩ := h
  obtain ⟨ops', rfl⟩ := h'
  exact ⟨ops ++ ops', (List.foldl_append ..).symm⟩

lemma of_eq {p q : Plic} (h : q = p) : PlicMoves p q := h ▸ refl p

lemma single (p : Plic) (op : PlicOp) : PlicMoves p (p.apply op) := ⟨[op], rfl⟩

end PlicMoves

/-! ## Virtio devices -/

namespace Virtio

namespace Dma

variable (e : Dma)

lemma writeGuestBytes_plic (addr : U64) (src : List U8) :
    (e.writeGuestBytes addr src).2.plic = e.plic := by
  unfold writeGuestBytes
  split <;> rfl

lemma writeGuest_plic (addr : U64) (size : ℕ) (value : U64) :
    (e.writeGuest addr size value).plic = e.plic :=
  e.writeGuestBytes_plic _ _

lemma pushUsed_plic (queue : ℕ) (head : U16) (written : ℕ) :
    (e.pushUsed queue head written).plic = e.plic := by
  unfold pushUsed
  dsimp only
  split
  · rfl
  · simp only [writeGuest_plic]

lemma plicMoves_setLine (on : Bool) : PlicMoves e.plic (e.setLine on).plic := by
  unfold setLine
  split
  · next irq _ => exact .single _ (.setPending irq on)
  · exact .refl _

lemma plicMoves_signalUsed (queue : ℕ) : PlicMoves e.plic (e.signalUsed queue).plic := by
  unfold signalUsed
  dsimp only
  split_ifs
  · exact .refl _
  · exact .refl _
  · exact plicMoves_setLine _ true

end Dma

section Rounds

variable {queue : ℕ} {segs : List Segment} {rs : List Round} {e e' : Dma}

lemma Grants.plic (h : Grants segs e e') : e'.plic = e.plic := by
  induction h with
  | refl => rfl
  | tail _ hlast ih =>
    cases hlast
    rw [Dma.writeGuestBytes_plic, ih]

lemma Pass.plic (h : Pass queue e rs e') : e'.plic = e.plic := by
  induction h with
  | nil => rfl
  | @cons r rs e' hr _ ih =>
    obtain ⟨filled, written, -, hfill, -, hafter⟩ := hr
    rw [ih, hafter, Dma.pushUsed_plic, hfill.plic]
    rfl

lemma Serves.plicMoves (h : Serves queue e rs e') : PlicMoves e.plic e'.plic := by
  obtain ⟨mid, hpass, rfl | rfl⟩ := h
  · exact .of_eq hpass.plic
  · exact (PlicMoves.of_eq hpass.plic).trans (mid.plicMoves_signalUsed queue)

end Rounds

lemma slotKeeps_plicMoves : SlotKeeps fun e e' => PlicMoves e.plic e'.plic where
  serves h := h.plicMoves
  registers e _ _ _ := .refl e.plic
  drive e c on _ _ := Dma.plicMoves_setLine { e with core := c } on
  acknowledge e _ _ := .refl e.plic

end Virtio

/-! ## The clock -/

lemma Rtc.plicMoves_setLine (r : Rtc) (p : Plic) (on : Bool) : PlicMoves p (r.setLine p on) := by
  unfold Rtc.setLine
  split
  · next irq _ => exact .single p (.setPending irq on)
  · exact .refl p

lemma Rtc.plicMoves_store (offset size : ℕ) (value : U64) (d : Rtc × Plic) :
    PlicMoves d.2 (final (Rtc.store offset size value) d).2 := by
  obtain ⟨r, p⟩ := d
  unfold final Rtc.store
  dsimp only
  split_ifs
  all_goals first | exact .refl p | exact r.plicMoves_setLine p false

lemma Rtc.plicMoves_poll (r : Rtc) (p : Plic) : PlicMoves p (r.poll p).2 := by
  unfold Rtc.poll
  split
  · exact r.plicMoves_setLine p true
  · exact .refl p

/-! ## The shared state -/

/-- The controller of a shared state changed by operations of its own. -/
def PlicStep (s t : Sys) : Prop := PlicMoves s.plic t.plic

instance : IsPreorder Sys PlicStep where
  refl s := .refl s.plic
  trans _ _ _ h g := PlicMoves.trans h g

lemma sysKeeps_plicStep : SysKeeps PlicStep where
  uart s _ := .refl s.plic
  clint s _ := .refl s.plic
  syscon s _ := .refl s.plic
  plicLoad s offset size := .single s.plic (.load offset size)
  plicStore s offset size v := .single s.plic (.store offset size v)
  signal s on := .single s.plic (.setPending uart0Irq on)
  rtcLoad s _ _ := .refl s.plic
  rtcStore s offset size v := Rtc.plicMoves_store offset size v (s.rtc, s.plic)
  rtcPoll s := s.rtc.plicMoves_poll s.plic
  blk _ _ h := h _ slotKeeps_plicMoves
  net _ _ h := h _ slotKeeps_plicMoves
  rng _ _ h := h _ slotKeeps_plicMoves
  count s := .refl s.plic
  ram s _ := .refl s.plic
  record s _ := .refl s.plic
  mail s _ := .refl s.plic
  drive s csrs hart := .single s.plic (.update csrs hart)
  hostTime s _ := .refl s.plic

/-- Every operation on a machine changes the controller by operations of its own. -/
lemma plicStep_act (m : Machine) (l : Label) : PlicStep m.sys (m.act l).sys :=
  sysKeeps_plicStep.act m l

/-- The kept answers are right, and there are two contexts for every hart. -/
structure PlicSound (s : Sys) : Prop where
  inv : s.plic.Inv
  numContexts : s.plic.numContexts = 2 * max s.numHarts 1

lemma PlicSound.act {m : Machine} (h : PlicSound m.sys) (l : Label) : PlicSound (m.act l).sys := by
  obtain ⟨ops, hops⟩ := plicStep_act m l
  have hrefines := (Plic.Refines.mk h.inv h.numContexts rfl).after ops
  rw [← hops] at hrefines
  exact ⟨hrefines.inv, by rw [act_numHarts]; exact hrefines.numContexts⟩

/-- The controller of every machine that can be reached is sound. -/
theorem plicSound_reachable {cfg : Config} {m : Machine} (hm : Reachable cfg m) :
    PlicSound m.sys := by
  obtain ⟨ls, rfl⟩ := hm
  have hinit : PlicSound (Machine.init cfg).sys :=
    ⟨(Plic.refines_new cfg.numHarts).inv, (Plic.refines_new cfg.numHarts).numContexts⟩
  generalize Machine.init cfg = m at hinit ⊢
  induction ls generalizing m with
  | nil => exact hinit
  | cons l ls ih => exact ih _ (hinit.act l)

end RiscvEmu
