import RiscvEmu.Cpu.Interrupts
import RiscvEmu.History

/-!
# The interrupts of machine mode

The machine timer, software and external interrupts go where `mideleg` sends them.  One that is not
delegated stays in machine mode.  The register file lets a write delegate them like any other, and
`enter_supervisor` delegates every interrupt; in a run without either they are not delegated.
-/

namespace RiscvEmu

open Exec BitField

/-- The machine timer, software and external interrupts. -/
def Interrupt.MachineLevel (i : Interrupt) : Prop :=
  i = .machineTimer ∨ i = .machineSoftware ∨ i = .machineExternal

/-- The bits of these interrupts. -/
def machineBits : U64 := Csr.mipMsip ||| Csr.mipMtip ||| Csr.mipMeip

/-- No CSR instruction has written one of them to `mideleg`. -/
def NoMachineDelegation (log : List Event) : Prop :=
  ∀ h v, Event.csrWrite h Csr.mideleg v ∈ log → v &&& machineBits = 0

lemma NoMachineDelegation.of_suffix {l l' : List Event} (h : NoMachineDelegation l')
    (hl : l <:+ l') : NoMachineDelegation l := fun i v hv => h i v (hl.subset hv)

/-- What the next step of a hart does with an interrupt: it does not go to another mode, and if it
is ready and machine mode is open, the step takes an interrupt into machine mode. -/
def StaysInMachine (s : Hart) (i : Interrupt) : Prop :=
  (s.cpu.nextInterrupt = some i → (s.takeInterrupt i).cpu.priv = .machine) ∧
    (s.cpu.Ready i → s.cpu.machineOpen →
      ∃ j, stepCore s = .ok () (s.takeInterrupt j) ∧ (s.takeInterrupt j).cpu.priv = .machine)

/-- What it does with an interrupt that is delegated: it goes to supervisor mode, and not from
machine mode. -/
def GoesToSupervisor (s : Hart) (i : Interrupt) : Prop :=
  s.cpu.nextInterrupt = some i →
    (s.takeInterrupt i).cpu.priv = .supervisor ∧ s.cpu.priv ≠ .machine

/-! ## One step -/

lemma not_delegated_of_clear {c : Cpu} (h : c.csrs.raw Csr.mideleg &&& machineBits = 0)
    {i : Interrupt} (hi : i.MachineLevel) : ¬ c.Delegated i := by
  intro hd
  have hbit : i.bit &&& machineBits = i.bit := by
    rcases hi with rfl | rfl | rfl <;> decide
  have hzero : c.csrs.raw Csr.mideleg &&& i.bit = 0 := by
    rw [← hbit, BitVec.and_comm i.bit, ← BitVec.and_assoc, h]
    exact BitVec.zero_and
  exact (and_bit_ne_zero _ i).mpr hd hzero

lemma stepCore_takeInterrupt {s : Hart} {i : Interrupt} (hi : s.cpu.nextInterrupt = some i) :
    stepCore s = .ok () (s.takeInterrupt i) := by
  unfold stepCore
  rw [bind_of_ok (get_apply s)]
  simp only [hi]
  rfl

lemma staysInMachine_of_not_delegated {s : Hart} (hb : s.cpu.csrs.Built) {i : Interrupt}
    (hnot : ¬ s.cpu.Delegated i) : StaysInMachine s i := by
  constructor
  · intro hnext
    have hfirst := nextInterrupt_eq_some hb hnext
    rw [(delivered_takeInterrupt hfirst.1).priv, targetOf_not_delegated hnot]
  · intro hready hopen
    have htak := (takable_not_delegated hnot).mpr ⟨hready, hopen⟩
    obtain ⟨j, hj⟩ : ∃ j, s.cpu.nextInterrupt = some j := by
      rw [← Option.isSome_iff_exists, Option.isSome_iff_ne_none]
      exact fun hnone => (nextInterrupt_eq_none hb).mp hnone i htak
    have hfirst := nextInterrupt_eq_some hb hj
    refine ⟨j, stepCore_takeInterrupt hj, ?_⟩
    rw [(delivered_takeInterrupt hfirst.1).priv]
    -- the mode of `j` is at least that of `i`, which is the highest
    have hle := (hfirst.2 i htak).1
    rw [targetOf_not_delegated hnot] at hle
    by_cases hjd : s.cpu.Delegated j
    · rw [targetOf_delegated hjd] at hle
      exact absurd hle (by decide)
    · exact targetOf_not_delegated hjd

lemma goesToSupervisor_of_delegated {s : Hart} (hb : s.cpu.csrs.Built) {i : Interrupt}
    (hd : s.cpu.Delegated i) : GoesToSupervisor s i := by
  intro hnext
  have hfirst := nextInterrupt_eq_some hb hnext
  refine ⟨?_, ?_⟩
  · rw [(delivered_takeInterrupt hfirst.1).priv, targetOf_delegated hd]
  · intro hpriv
    have hopen := ((takable_delegated hd).mp hfirst.1).2
    have hlow : ¬ PrivLevel.machine.val < privSupervisor ∧
      PrivLevel.machine.val ≠ privSupervisor := by
      decide
    simp [Cpu.supervisorOpen, hpriv, hlow] at hopen

/-! ## Runs -/

/-- A hart that runs without the firmware of the emulator keeps the bits clear, as long as none is
written. -/
def KeepsClear (s t : Hart) : Prop :=
  LogGrows s t ∧ (t.cpu.sbiEnabled = false → s.cpu.sbiEnabled = false ∧
    (NoMachineDelegation t.sys.log → s.cpu.csrs.raw Csr.mideleg &&& machineBits = 0 →
      t.cpu.csrs.raw Csr.mideleg &&& machineBits = 0))

instance : IsPreorder Hart KeepsClear where
  refl s := ⟨refl_of LogGrows s, fun h => ⟨h, fun _ hs => hs⟩⟩
  trans _ _ _ h g := by
    refine ⟨trans_of LogGrows h.1 g.1, fun hoff => ?_⟩
    obtain ⟨hmid, hg⟩ := g.2 hoff
    obtain ⟨hfirst, hh⟩ := h.2 hmid
    exact ⟨hfirst, fun hlog hs => hg hlog (hh (hlog.of_suffix g.1) hs)⟩

/-- What leaves `mideleg` and the firmware alone. -/
lemma KeepsClear.of_raw {s t : Hart} (hl : LogGrows s t)
    (hsbi : t.cpu.sbiEnabled = s.cpu.sbiEnabled)
    (hraw : t.cpu.csrs.raw Csr.mideleg = s.cpu.csrs.raw Csr.mideleg) : KeepsClear s t := by
  refine ⟨hl, fun hoff => ⟨hsbi ▸ hoff, fun _ hs => ?_⟩⟩
  rw [hraw, hs]

lemma keepsClear_update {inst : DecodedInst} {f : Hart → Hart} (hf : Update inst f) (s : Hart) :
    KeepsClear s (f s) := by
  have hl := hartKeeps_logGrows.update inst f hf s
  refine .of_raw hl ?_ (update_raw (by decide) (by decide) (by decide) hf s)
  cases hf with
  | setReg i v => exact Cpu.setReg_sbiEnabled ..
  | _ => rfl

/-- A CSR write keeps the bits clear unless it sets one of them. -/
lemma keepsClear_csrCommit (addr : CsrAddr) (v : U64) : Keeps KeepsClear (csrCommit addr v) := by
  intro s
  obtain ⟨hcsrs, -, -, -, -, hsbi⟩ := csrCommit_cpu addr v s
  by_cases haddr : addr = Csr.mideleg
  · subst haddr
    refine ⟨logGrows_csrCommit _ v s, fun hoff => ⟨hsbi ▸ hoff, fun hlog _ => ?_⟩⟩
    rw [hcsrs, show (s.cpu.csrs.write Csr.mideleg v).raw Csr.mideleg = v from
      (CsrFile.setRaw_raw_self _ _ _).trans merge_not_zero]
    exact hlog s.cpu.hartid v List.mem_cons_self
  · refine .of_raw (logGrows_csrCommit addr v s) hsbi ?_
    rw [hcsrs]
    apply CsrFile.write_raw_of_ne
    unfold CsrFile.cell
    split_ifs
    · decide
    · decide
    · decide
    · decide
    · exact fun heq => haddr heq.symm

lemma keepsClear_enterTrap (s : Hart) (cause tval epc : U64) (isInterrupt : Bool) :
    KeepsClear s (s.enterTrap cause tval epc isInterrupt) := by
  exact .of_raw (logGrows_emit rfl) rfl (enterTrap_raw s _ _ _ _ (by decide) (by decide))

lemma keepsClear_move {f : Hart → Hart} (hf : Move f) (s : Hart) : KeepsClear s (f s) := by
  have hl := hartKeeps_logGrows.move f hf s
  cases hf with
  | enterTrap cause tval epc isInterrupt => exact keepsClear_enterTrap s cause tval epc isInterrupt
  | retire => exact .of_raw hl rfl (retire_raw s _ (by decide) (by decide))
  | startAt addr arg =>
    refine .of_raw hl ?_ ?_
    · exact (Cpu.setReg_sbiEnabled ..).trans (Cpu.setReg_sbiEnabled ..)
    · rw [Hart.startAt_csrs, CsrFile.setMstatus_raw_ne _ _ (by decide)]
      exact CsrFile.write_raw_of_ne _ _ (by decide)
  | drive =>
    refine .of_raw hl rfl ?_
    exact (Plic.update_raw _ _ _ (by decide)).trans (Clint.update_raw _ _ _ (by decide))
  | delegate =>
    -- `enter_supervisor` turns the firmware on
    have hon : s.delegate.cpu.sbiEnabled = true := rfl
    refine ⟨hl, fun hoff => ?_⟩
    rw [hon] at hoff
    exact absurd hoff (by decide)
  | enterKernel entry dtbAddr =>
    exact .of_raw hl ((Cpu.setReg_sbiEnabled ..).trans (Cpu.setReg_sbiEnabled ..))
      (by simp [Hart.enterKernel])
  | _ => exact .of_raw hl rfl rfl

lemma hartKeeps_keepsClear : HartKeeps KeepsClear where
  probe := ((hartKeeps_logGrows.probe.and untouched_sbiEnabled.probeKeeps).and
    probeKeeps_archSame).mono fun _ _ h => .of_raw h.1.1 h.1.2 (by rw [h.2.csrs])
  nextInst s := .of_raw (hartKeeps_logGrows.nextInst s) (untouched_sbiEnabled.nextInst s)
    (by rw [(nextInst_archSame s).csrs])
  update _ _ hf s := keepsClear_update hf s
  csrWrite addr v := keeps_csrWrite
    (fun s => .of_raw (refl_of LogGrows s) rfl (CsrFile.setRaw_raw_ne _ _ (by decide)))
      keepsClear_csrCommit
  move _ hf s := keepsClear_move hf s

lemma hartInv_clear :
    HartInv (fun _ s => s.cpu.sbiEnabled = false → NoMachineDelegation s.sys.log →
        s.cpu.csrs.raw Csr.mideleg &&& machineBits = 0)
      (fun _ t t' => t.log <:+ t'.log) where
  keeps i f s hf _ h hoff hlog := by
    obtain ⟨hl, hk⟩ := hartKeeps_keepsClear.op hf s
    obtain ⟨hs, hkeep⟩ := hk hoff
    exact hkeep hlog (h hs (hlog.of_suffix hl))
  guarantees i f s hf _ _ := (hartKeeps_keepsClear.op hf s).1
  stable i j c s s' _ h hl hoff hlog := h hoff (hlog.of_suffix hl)
  outer i c s s' h ho hoff hlog := h hoff (hlog.of_suffix ho.suffix)

/-- In every reachable state a machine interrupt that is not delegated stays in machine mode, and
one that is goes to supervisor mode.  It is not delegated as long as the hart runs without the
firmware of the emulator and no CSR instruction sets one of their bits in `mideleg`. -/
theorem machine_interrupts_stay (cfg : Config) (m : Machine) (hm : Reachable cfg m) (i : ℕ)
    (k : Interrupt) (hk : k.MachineLevel) :
    (¬ (m.harts i).Delegated k → StaysInMachine (m.hart i) k) ∧
    ((m.harts i).Delegated k → GoesToSupervisor (m.hart i) k) ∧
    ((m.harts i).sbiEnabled = false → NoMachineDelegation m.sys.log →
      ¬ (m.harts i).Delegated k) := by
  have hbuilt := built_reachable hm i
  refine ⟨staysInMachine_of_not_delegated (s := m.hart i) hbuilt,
    goesToSupervisor_of_delegated (s := m.hart i) hbuilt, fun hoff hlog => ?_⟩
  have hinit : ∀ j, ((Machine.init cfg).hart j).cpu.sbiEnabled = false →
      NoMachineDelegation ((Machine.init cfg).hart j).sys.log →
      ((Machine.init cfg).hart j).cpu.csrs.raw Csr.mideleg &&& machineBits = 0 := by
    intro j _ _
    rw [show ((Machine.init cfg).hart j).cpu.csrs.raw Csr.mideleg =
      CsrFile.new.raw Csr.mideleg from CsrFile.setRaw_raw_ne _ _ (by decide)]
    decide
  exact not_delegated_of_clear ((hartInv_clear.reachable hinit hm i).2 hoff hlog) hk

/-- A program that writes `mideleg`, enables every interrupt, makes the machine timer fire and goes
to user mode; its first instruction loads what it writes. -/
def delegateCode (load : U32) : List U32 :=
  [load, 0x30319073,        -- csrw mideleg, x3
   0xfff00113, 0x30411073,  -- addi x2, x0, -1; csrw mie, x2
   0x020040b7, 0x0000b023,  -- lui x1, 0x2004; sd x0, 0(x1)
   0x30001073, 0x30200073]  -- csrw mstatus, x0; mret

/-- One hart of a fresh machine has run it, and the devices are polled. -/
def delegating (load : U32) : Machine :=
  (Machine.init (.plain 1 4096 page_fits)).run
    (.loadImage dramBase (codeBytes (delegateCode load)) :: List.replicate 8 (.step 0) ++
      [.pollDevices false])

/-- With `addi x3, x0, -1` everything is delegated, and the machine timer interrupt is delivered to
supervisor mode. -/
theorem machine_timer_delegated :
    ((delegating 0xfff00193).hart 0).cpu.nextInterrupt = some .machineTimer ∧
      (final stepCore ((delegating 0xfff00193).hart 0)).cpu.priv = .supervisor ∧
      (final stepCore ((delegating 0xfff00193).hart 0)).cpu.csrs.raw Csr.scause =
        Interrupt.machineTimer.causeCode := by
  decide +kernel

/-- With `addi x3, x0, 0x222` the three interrupts of supervisor mode are, and the machine timer
interrupt goes from user mode to machine mode. -/
theorem machine_interrupts_stay_sample :
    Event.csrWrite 0 Csr.mideleg 0x222 ∈ (delegating 0x22200193).sys.log ∧
      ((delegating 0x22200193).harts 0).priv = .user ∧
      ∃ j, stepCore ((delegating 0x22200193).hart 0) =
          .ok () (((delegating 0x22200193).hart 0).takeInterrupt j) ∧
        (((delegating 0x22200193).hart 0).takeInterrupt j).cpu.priv = .machine := by
  obtain ⟨hstays, -, hnot⟩ := machine_interrupts_stay (.plain 1 4096 page_fits)
    (delegating 0x22200193) ⟨_, rfl⟩ 0 .machineTimer (.inl rfl)
  have hlog : NoMachineDelegation (delegating 0x22200193).sys.log :=
    csrWrite_of_writesOnly (P := fun v => v &&& machineBits = 0) (by decide +kernel)
  have hoff : ((delegating 0x22200193).harts 0).sbiEnabled = false := by decide +kernel
  have hready : ((delegating 0x22200193).hart 0).cpu.Ready .machineTimer := by
    unfold Cpu.Ready
    decide +kernel
  exact ⟨by decide +kernel, by decide +kernel,
    (hstays (hnot hoff hlog)).2 hready (by decide +kernel)⟩

end RiscvEmu
