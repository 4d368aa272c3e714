import RiscvEmu.Lib.Exec
import RiscvEmu.Virtio.Service

/-!
# What a virtio device does to guest RAM

However a device walks its queues, RAM changes by `Dram::write_bytes` only, and every such write
is in the history.
-/

namespace RiscvEmu

open Exec

namespace Virtio

/-- One write of a device, on RAM and the history. -/
inductive DmaStep : Dram × List Event → Dram × List Event → Prop
  | write {ram ram' : Dram} {log : List Event} {addr : U64} {src : List U8}
      (h : ram.writeBytes addr src = some ram') :
      DmaStep (ram, log) (ram', .dma addr src.length :: log)

/-- Any number of writes. -/
abbrev DmaMoves : Dram × List Event → Dram × List Event → Prop := Relation.ReflTransGen DmaStep

/-- What a device shares with the harts. -/
def Dma.shared (e : Dma) : Dram × List Event := (e.ram, e.log)

namespace Dma

variable (e : Dma)

lemma moves_writeGuestBytes (addr : U64) (src : List U8) :
    DmaMoves e.shared (e.writeGuestBytes addr src).2.shared := by
  unfold writeGuestBytes
  split
  · next ram h => exact .single (.write h)
  · exact .refl

lemma moves_writeGuest (addr : U64) (size : ℕ) (value : U64) :
    DmaMoves e.shared (e.writeGuest addr size value).shared :=
  e.moves_writeGuestBytes _ _

lemma setLine_shared (on : Bool) : (e.setLine on).shared = e.shared := by
  unfold setLine
  split <;> rfl

lemma raiseInterrupt_shared : e.raiseInterrupt.shared = e.shared := setLine_shared _ _

lemma signalUsed_shared (queue : ℕ) : (e.signalUsed queue).shared = e.shared := by
  unfold signalUsed
  dsimp only
  split_ifs
  · rfl
  · rfl
  · exact e.raiseInterrupt_shared

lemma moves_pushUsed (queue : ℕ) (head : U16) (written : ℕ) :
    DmaMoves e.shared (e.pushUsed queue head written).shared := by
  unfold pushUsed
  dsimp only
  split
  · exact .refl
  · exact ((e.moves_writeGuest _ _ _).trans (moves_writeGuest _ _ _ _)).trans
      (moves_writeGuest _ _ _ _)

end Dma

/-! ## Rounds and calls -/

section Rounds

variable {queue : ℕ} {segs : List Segment} {rs : List Round} {e e' : Dma}

lemma Grants.moves (h : Grants segs e e') : DmaMoves e.shared e'.shared := by
  induction h with
  | refl => exact .refl
  | tail _ hlast ih =>
    cases hlast
    exact ih.trans (Dma.moves_writeGuestBytes _ _ _)

lemma Round.Valid.moves {r : Round} (h : r.Valid queue) :
    DmaMoves r.before.shared r.after.shared := by
  obtain ⟨filled, written, -, hfill, -, hafter⟩ := h
  have hpush := filled.moves_pushUsed queue r.head written
  rw [← hafter] at hpush
  exact hfill.moves.trans hpush

lemma Pass.moves (h : Pass queue e rs e') : DmaMoves e.shared e'.shared := by
  induction h with
  | nil => exact .refl
  | cons hr _ ih => exact hr.moves.trans ih

lemma Serves.moves (h : Serves queue e rs e') : DmaMoves e.shared e'.shared := by
  obtain ⟨mid, hpass, rfl | rfl⟩ := h
  · exact hpass.moves
  · rw [Dma.signalUsed_shared]
    exact hpass.moves

end Rounds

/-! ## Slots -/

/-- A relation that every access to the registers of a slot keeps: it holds of the calls of a
device, of registers that have nothing to do with its interrupt, and of a line that is driven as the
status says. -/
structure SlotKeeps (R : Dma → Dma → Prop) : Prop where
  serves : ∀ {queue : ℕ} {e e' : Dma} {rs : List Round}, Serves queue e rs e' → R e e'
  registers : ∀ (e : Dma) (c : Core), c.irq = e.core.irq → c.interruptStatus =
    e.core.interruptStatus →
    R e { e with core := c }
  drive : ∀ (e : Dma) (c : Core) (on : Bool), c.irq = e.core.irq →
    (on = true ↔ c.interruptStatus ≠ 0) →
    R e (Dma.setLine { e with core := c } on)
  acknowledge : ∀ (e : Dma) (v : U32), ¬ e.core.interruptStatus &&& ~~~v = 0 →
    R e { e with core := { e.core with interruptStatus := e.core.interruptStatus &&& ~~~v } }

namespace SlotKeeps

variable {R : Dma → Dma → Prop} (h : SlotKeeps R) {D : Type} [VirtioDevice D]

include h

lemma same (e : Dma) : R e e := h.registers e e.core rfl rfl

omit [VirtioDevice D] in
lemma mapSelected (s : Slot D) (f : Queue → Queue) : R s.env (s.mapSelected f).env := by
  unfold Slot.mapSelected
  dsimp only
  split
  · exact h.registers _ _ rfl rfl
  · exact h.same _

variable [QueueDevice D]

lemma writeReg (s : Slot D) (offset : ℕ) (v : U32) : R s.env (s.writeReg offset v).env := by
  have hite : ∀ {c : Prop} [Decidable c] {a b : Slot D}, R s.env a.env → R s.env b.env →
      R s.env (if c then a else b).env := by
    intro c _ a b ha hb
    split
    · exact ha
    · exact hb
  have hcore : ∀ c : Core, c.irq = s.env.core.irq → c.interruptStatus = s.env.core.interruptStatus →
      R s.env { s.env with core := c } := h.registers s.env
  have hselected : ∀ f, R s.env (s.mapSelected f).env := h.mapSelected s
  have hsame : R s.env s.env := h.same _
  obtain ⟨rs, hrs⟩ := QueueDevice.notify s.dev s.env v.toNat
  unfold Slot.writeReg
  refine hite (hcore _ rfl rfl)
    (hite (hcore _ rfl rfl) (hite (hcore _ rfl rfl) (hite (hcore _ rfl rfl) ?_)))
  refine hite (hselected _) (hite (hselected _) (hite (hselected _) (hite (hselected _) ?_)))
  refine hite (hselected _) (hite (hselected _) (hite (hselected _) (hite (hselected _) ?_)))
  refine hite (hite (h.serves hrs) hsame) (hite ?_ (hite (hite ?_ (hcore _ rfl rfl)) hsame))
  · dsimp only
    split
    · next hzero =>
        exact h.drive s.env _ false rfl (iff_of_false Bool.false_ne_true (not_not.mpr hzero))
    · next hmore => exact h.acknowledge s.env v hmore
  · exact h.drive s.env _ false rfl (iff_of_false Bool.false_ne_true (not_not.mpr rfl))

lemma store (s : Slot D) (offset size : ℕ) (value : U64) :
    R s.env (final (Slot.store offset size value) s).env := by
  unfold final Slot.store
  by_cases h₁ : offset ≥ Slot.config
  · simp only [if_pos h₁]
    exact h.same _
  by_cases h₂ : size ≠ 4
  · simp only [if_neg h₁, if_pos h₂]
    exact h.same _
  · simp only [if_neg h₁, if_neg h₂]
    exact h.writeReg s _ _

lemma poll (s : Slot D) : R s.env s.poll.env := by
  obtain ⟨rs, hrs⟩ := QueueDevice.poll s.dev s.env
  exact h.serves hrs

end SlotKeeps

/-- What an access to a slot or a call of its device does, to every rule. -/
def SlotMoved (e e' : Dma) : Prop := ∀ R : Dma → Dma → Prop, SlotKeeps R → R e e'

/-- Of the registers only the doorbell makes the device reach RAM. -/
lemma slotKeeps_moves : SlotKeeps fun e e' => DmaMoves e.shared e'.shared where
  serves h := h.moves
  registers _ _ _ _ := .refl
  drive _ _ _ _ _ := by
    rw [Dma.setLine_shared]
    exact .refl
  acknowledge _ _ _ := .refl

end Virtio

end RiscvEmu
