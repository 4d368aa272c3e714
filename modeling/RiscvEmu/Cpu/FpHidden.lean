import RiscvEmu.Cpu.ViewSteps
import RiscvEmu.Machine

/-!
# Floating-point state while the unit is off

With `mstatus.FS` Off a step cannot tell apart two harts that differ in their f registers and in
`fcsr`, and it leaves both alone.  The second hart is the first one through a view that puts other
floating-point state in place.
-/

namespace RiscvEmu

open Exec

/-- The hart with other f registers and another `fcsr`. -/
def Hart.withFp (s : Hart) (fregs : ℕ → U64) (fcsr : U64) : Hart :=
  { s with cpu := { s.cpu with fregs := fregs, csrs := s.cpu.csrs.setRaw Csr.fcsr fcsr } }

/-- The two harts agree on everything but the f registers and `fcsr`. -/
def SameButFp (s t : Hart) : Prop := ∃ fregs fcsr, t = s.withFp fregs fcsr

/-- The f registers and `fcsr` are unchanged. -/
def SameFp (s t : Hart) : Prop :=
  t.cpu.fregs = s.cpu.fregs ∧ t.cpu.csrs.raw Csr.fcsr = s.cpu.csrs.raw Csr.fcsr

lemma Hart.withFp_self (s : Hart) : s.withFp s.cpu.fregs (s.cpu.csrs.raw Csr.fcsr) = s := by
  unfold Hart.withFp CsrFile.setRaw
  rw [Function.update_eq_self]

lemma Hart.withFp_sameFp (s t : Hart) (h : s.withFp t.cpu.fregs (t.cpu.csrs.raw Csr.fcsr) = s) :
    SameFp t s := by
  have hfregs := congrArg (fun u : Hart => u.cpu.fregs) h
  have hfcsr := congrArg (fun u : Hart => u.cpu.csrs.raw Csr.fcsr) h
  exact ⟨hfregs.symm, hfcsr.symm.trans (CsrFile.setRaw_raw_self _ _ _)⟩

namespace View

/-- Put the given floating-point state in place of the hart's. -/
def fp (fregs : ℕ → U64) (fcsr : U64) : View where
  regs r _ := r
  regfile := id
  aluBackend := id
  fregs _ := fregs
  csrs c := c.setRaw Csr.fcsr fcsr
  csrs_raw c _ h := c.setRaw_raw_ne fcsr h
  csrs_setRaw c _ x h := by
    unfold CsrFile.setRaw
    rw [Function.update_comm h]

variable (fregs : ℕ → U64) (fcsr : U64)

lemma exact_fp : (fp fregs fcsr).Exact fun _ _ _ => True := exact_of_plain rfl rfl rfl

lemma hidden_fp {s : Hart} (hoff : s.cpu.csrs.fpuEnabled = false) :
    (fp fregs fcsr).Hidden (fun _ _ _ => True) s :=
  ⟨trivial, fun hon => absurd (hoff ▸ hon) Bool.false_ne_true⟩

end View

/-- A program that, while the unit is off, does the same whatever the floating-point state is. -/
def FpBlind (m : HartM Unit) : Prop :=
  ∀ s fregs fcsr, s.cpu.csrs.fpuEnabled = false →
    outcome m (s.withFp fregs fcsr) = outcome m s ∧
      final m (s.withFp fregs fcsr) = (final m s).withFp fregs fcsr

lemma fpBlind_of_mirrors {m : HartM Unit} {Q : Hart → Prop}
    (h : ∀ fregs fcsr, Mirrors (View.fp fregs fcsr).hart
      ((View.fp fregs fcsr).Hidden fun _ _ _ => True) m m Q) : FpBlind m :=
  fun _ fregs fcsr hoff => ⟨(h fregs fcsr).outcome_eq (View.hidden_fp fregs fcsr hoff),
    (h fregs fcsr).final_eq (View.hidden_fp fregs fcsr hoff)⟩

lemma fpBlind_execute (inst : DecodedInst) : FpBlind (execute inst) :=
  fpBlind_of_mirrors fun fregs fcsr => View.mirrors_execute (View.exact_fp fregs fcsr)

lemma fpBlind_stepCore : FpBlind stepCore :=
  fpBlind_of_mirrors fun fregs fcsr => View.mirrors_stepCore (View.exact_fp fregs fcsr)

/-- With its own state put in place, a hart is itself: so it keeps that state. -/
lemma FpBlind.sameFp {m : HartM Unit} (h : FpBlind m) {s : Hart}
    (hoff : s.cpu.csrs.fpuEnabled = false) : SameFp s (final m s) := by
  have hfinal := (h s s.cpu.fregs (s.cpu.csrs.raw Csr.fcsr) hoff).2
  rw [s.withFp_self] at hfinal
  exact Hart.withFp_sameFp _ _ hfinal.symm

lemma fpuEnabled_withFp (s : Hart) (fregs : ℕ → U64) (fcsr : U64) :
    (s.withFp fregs fcsr).cpu.csrs.fpuEnabled = s.cpu.csrs.fpuEnabled :=
  (View.fp fregs fcsr).csrs_fpuEnabled s.cpu.csrs

/-- **Floating-point state is invisible while the unit is off.**  Two harts that agree on all but
the f registers and `fcsr`, with `mstatus.FS` Off, execute any instruction, and make any step, with
the same trap or success; they again agree on all but that state, which neither has changed. -/
theorem fp_state_invisible (m : HartM Unit) (hm : m = stepCore ∨ ∃ inst, m = execute inst)
    {s t : Hart} (hst : SameButFp s t) (hoff : s.cpu.csrs.fpuEnabled = false) :
    outcome m s = outcome m t ∧ SameButFp (final m s) (final m t) ∧ SameFp s (final m s) ∧
      SameFp t (final m t) := by
  have hblind : FpBlind m := by
    rcases hm with rfl | ⟨inst, rfl⟩
    · exact fpBlind_stepCore
    · exact fpBlind_execute inst
  obtain ⟨fregs, fcsr, rfl⟩ := hst
  obtain ⟨houtcome, hfinal⟩ := hblind s fregs fcsr hoff
  exact ⟨houtcome.symm, ⟨fregs, fcsr, hfinal⟩, hblind.sameFp hoff,
    hblind.sameFp ((fpuEnabled_withFp s fregs fcsr).trans hoff)⟩

/-- A hart out of reset, whose unit is off, and one with other f registers and flags, before
`fadd.s ft0, ft1, ft2`. -/
theorem fp_state_invisible_fadd :
    ((Machine.init (.plain 1 4096 page_fits)).hart 0).cpu.csrs.fpuEnabled = false ∧
      outcome (execute (decode 0x0020f053))
          ((Machine.init (.plain 1 4096 page_fits)).hart 0) =
        outcome (execute (decode 0x0020f053))
          (((Machine.init (.plain 1 4096 page_fits)).hart 0).withFp (fun _ => 7) 1) := by
  have hoff : ((Machine.init (.plain 1 4096 page_fits)).hart 0).cpu.csrs.fpuEnabled = false := by
    decide
  exact ⟨hoff, (fp_state_invisible (execute (decode 0x0020f053)) (.inr ⟨_, rfl⟩)
    (s := (Machine.init (.plain 1 4096 page_fits)).hart 0) ⟨fun _ => 7, 1, rfl⟩ hoff).1⟩

end RiscvEmu
