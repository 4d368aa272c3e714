import RiscvEmu.Shared
import RiscvEmu.Cpu.Precise

/-!
# The history only grows

Nothing that happens to a machine removes an event, so a condition on the history of a run is a
condition on every state the run went through.
-/

namespace RiscvEmu

open Exec

/-! ## The shared state -/

lemma SysQuiet.suffix {s t : Sys} (h : SysQuiet s t) : s.log <:+ t.log :=
  h.log ▸ List.suffix_refl t.log

lemma DeviceStep.suffix {s t : Sys} (h : DeviceStep s t) : s.log <:+ t.log := by
  cases h with
  | quiet hq => exact hq.suffix
  | dma _ => exact List.suffix_cons _ _

lemma DeviceMoves.suffix {s t : Sys} (h : DeviceMoves s t) : s.log <:+ t.log := by
  induction h with
  | refl => exact List.suffix_refl _
  | tail _ hstep ih => exact ih.trans hstep.suffix

lemma OuterStep.suffix {s t : Sys} (h : OuterStep s t) : s.log <:+ t.log := by
  cases h with
  | device hd => exact hd.suffix
  | image _ => exact List.suffix_cons _ _

/-- The history of `t` extends that of `s`. -/
def HistoryGrows (s t : Sys) : Prop := s.log <:+ t.log

instance : IsPreorder Sys HistoryGrows where
  refl _ := List.suffix_refl _
  trans _ _ _ h g := h.trans g

lemma sysKeeps_history : SysKeeps HistoryGrows where
  uart _ _ := List.suffix_refl _
  clint _ _ := List.suffix_refl _
  syscon _ _ := List.suffix_refl _
  plicLoad _ _ _ := List.suffix_refl _
  plicStore _ _ _ _ := List.suffix_refl _
  signal _ _ := List.suffix_refl _
  rtcLoad _ _ _ := List.suffix_refl _
  rtcStore _ _ _ _ := List.suffix_refl _
  rtcPoll _ := List.suffix_refl _
  blk s slot h := (deviceKeeps_moves.blk s slot h).suffix
  net s slot h := (deviceKeeps_moves.net s slot h).suffix
  rng s slot h := (deviceKeeps_moves.rng s slot h).suffix
  count _ := List.suffix_refl _
  ram _ _ := List.suffix_refl _
  record _ _ := List.suffix_cons _ _
  mail _ _ := List.suffix_refl _
  drive _ _ _ := List.suffix_refl _
  hostTime _ _ := List.suffix_refl _

lemma sharedKeeps_history : SharedKeeps HistoryGrows := sysKeeps_history.shared

/-! ## Harts -/

/-- The history of `t` extends that of `s`. -/
def LogGrows (s t : Hart) : Prop := s.sys.log <:+ t.sys.log

instance : IsPreorder Hart LogGrows := inferInstanceAs (IsPreorder Hart (OnShared HistoryGrows))

lemma logGrows_emit {s t : Hart} {e : Event} (h : t.sys.log = e :: s.sys.log) : LogGrows s t := by
  rw [LogGrows, h]
  exact List.suffix_cons _ _

lemma logGrows_csrCommit (addr : CsrAddr) (v : U64) : Keeps LogGrows (csrCommit addr v) :=
  sharedKeeps_history.csrCommit addr v

lemma hartKeeps_logGrows : HartKeeps LogGrows := sharedKeeps_history.hartKeeps

/-! ## Writes of a register -/

/-- The event is no write of register `a`, or one of a value with `P`. -/
def Event.writesOnly (a : CsrAddr) (P : U64 → Prop) [DecidablePred P] : Event → Bool
  | .csrWrite _ b v => b = a → P v
  | _ => true

lemma csrWrite_of_writesOnly {log : List Event} {a : CsrAddr} {P : U64 → Prop} [DecidablePred P]
    (h : log.all (Event.writesOnly a P) = true) (i : ℕ) (v : U64)
    (hv : .csrWrite i a v ∈ log) : P v := by
  have hwrite := List.all_eq_true.mp h _ hv
  simpa [Event.writesOnly] using hwrite

end RiscvEmu
