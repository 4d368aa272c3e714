import RiscvEmu.Runs

/-!
# Odd program counters

An odd program counter is refused where an instruction is fetched, but the decode cache is asked
first. A slot is marked as empty by the address of all ones, which is odd, and keeps the level and
the instruction it had.  So that one address can find a slot that was emptied, or never filled, and
the instruction there is executed.  Slots that hold an instruction are tagged with even addresses,
so no other odd address finds anything.
-/

namespace RiscvEmu

open Exec

/-! ## The slots of the decode cache -/

/-- Every slot is empty, or its instruction was fetched from an even address. -/
def Cpu.EvenSlots (c : Cpu) : Prop := ∀ i, (c.dcache i).pc = ~~~0 ∨ (c.dcache i).pc &&& 1 = 0

/-- The slots stay as they should be. -/
def KeepsEven (s t : Hart) : Prop := s.cpu.EvenSlots → t.cpu.EvenSlots

instance : IsPreorder Hart KeepsEven where
  refl _ h := h
  trans _ _ _ h g hs := g (h hs)

lemma KeepsEven.of_same {s t : Hart} (h : Same Cpu.dcache s t) : KeepsEven s t := by
  intro hs i
  rw [show t.cpu.dcache = s.cpu.dcache from h]
  exact hs i

lemma keepsEven_flush (s : Hart) : KeepsEven s s.flushDecodeCache := fun _ _ => .inl rfl

lemma keepsEven_checkEpoch (s : Hart) : KeepsEven s s.checkEpoch := by
  unfold Hart.checkEpoch
  split
  · exact fun _ _ => .inl rfl
  · exact refl_of KeepsEven s

lemma memKeeps_fetched : MemKeeps (Same fun c : Cpu => (c.pc, c.dcache)) :=
  memKeeps_same _ fun _ _ => rfl

lemma fetchInst_even {s t : Hart} {inst : DecodedInst} (h : fetchInst s = .ok inst t) :
    s.cpu.pc &&& 1 = 0 := by
  unfold fetchInst at h
  rw [bind_of_ok (get_apply s)] at h
  split at h
  · cases h
  · next heven => exact not_not.mp heven

lemma fetchInst_odd {s : Hart} (h : s.cpu.pc &&& 1 ≠ 0) :
    fetchInst s = .error ⟨.instructionAddressMisaligned, s.cpu.pc⟩ s := by
  unfold fetchInst
  rw [bind_of_ok (get_apply s), if_pos h]
  rfl

/-- An instruction fetched from an even address is tagged with it. -/
lemma keepsEven_fillEntry {s : Hart} (heven : s.cpu.pc &&& 1 = 0) (pa : U64) (inst : DecodedInst) :
    KeepsEven s (s.fillEntry pa inst) := by
  intro hs i
  by_cases hi : i = dcacheIndex s.cpu.pc
  · right
    rw [hi]
    simpa [Hart.fillEntry] using heven
  · have hslot : (s.fillEntry pa inst).cpu.dcache i = s.cpu.dcache i := Function.update_of_ne hi _ _
    rw [hslot]
    exact hs i

/-- What is kept at an even address. -/
def KeepsEvenAt (s t : Hart) : Prop := s.cpu.pc &&& 1 = 0 → t.cpu.pc = s.cpu.pc ∧ KeepsEven s t

instance : IsPreorder Hart KeepsEvenAt where
  refl s _ := ⟨rfl, refl_of KeepsEven s⟩
  trans s t u h g heven := by
    obtain ⟨hpc, hst⟩ := h heven
    obtain ⟨hpc', htu⟩ := g (by rwa [hpc])
    exact ⟨hpc'.trans hpc, trans_of KeepsEven hst htu⟩

lemma KeepsEvenAt.of_same {s t : Hart} (h : Same (fun c => (c.pc, c.dcache)) s t) :
    KeepsEvenAt s t := by
  intro _
  exact ⟨congrArg Prod.fst h, .of_same (congrArg Prod.snd h)⟩

lemma memKeeps_evenAt : MemKeeps KeepsEvenAt where
  translate va ty p := (memKeeps_fetched.translate va ty p).mono fun _ _ => .of_same
  load pa size ty := (memKeeps_fetched.load pa size ty).mono fun _ _ => .of_same
  store pa size v := (memKeeps_fetched.store pa size v).mono fun _ _ => .of_same

lemma keepsEvenAt_cacheFill (inst : DecodedInst) : Keeps KeepsEvenAt (cacheFill inst) :=
  memKeeps_evenAt.cacheFill (fun _ pa inst heven => ⟨rfl, keepsEven_fillEntry heven pa inst⟩) inst

/-- A fetch that succeeds leaves the hart at an even address. -/
lemma fetchInst_ok {s t : Hart} {inst : DecodedInst} (h : fetchInst s = .ok inst t) :
    t.cpu.pc &&& 1 = 0 ∧ KeepsEven s t := by
  have hsame := memKeeps_fetched.fetchInst.of_ok h
  rw [show t.cpu.pc = s.cpu.pc from congrArg Prod.fst hsame]
  exact ⟨fetchInst_even h, .of_same (congrArg Prod.snd hsame)⟩

/-- What was fetched is remembered under the address it was fetched from, which is even. -/
lemma keepsEven_fetch :
    Keeps KeepsEven (fetchInst >>= fun inst => cacheFill inst >>= fun _ => pure inst) := by
  have hrest : ∀ inst, Keeps KeepsEvenAt (cacheFill inst >>= fun _ => pure inst) := fun inst =>
    .bind (keepsEvenAt_cacheFill inst) fun _ => .pure inst
  apply keeps_of_cases
  · intro s inst u h
    obtain ⟨inst', t, hfetch, hfill⟩ := bind_eq_ok.mp h
    obtain ⟨heven, hst⟩ := fetchInst_ok hfetch
    exact trans_of KeepsEven hst ((hrest inst').of_ok hfill heven).2
  · intro s e u h
    rcases bind_eq_error.mp h with hfetch | ⟨inst', t, hfetch, hfill⟩
    · exact .of_same (congrArg Prod.snd (memKeeps_fetched.fetchInst.of_error hfetch))
    · obtain ⟨heven, hst⟩ := fetchInst_ok hfetch
      exact trans_of KeepsEven hst ((hrest inst').of_error hfill heven).2

lemma keepsEven_nextInst : Keeps KeepsEven nextInst := by
  refine .bind (.modify keepsEven_checkEpoch) fun _ => .bind .get fun s => ?_
  split
  · exact .pure _
  · exact keepsEven_fetch

lemma hartKeeps_even : HartKeeps KeepsEven where
  probe := (memKeeps_same Cpu.dcache fun _ _ => rfl).probeKeeps
    (fun s t h => by rw [Same, h.cpu]) |>.mono
    fun _ _ => .of_same
  nextInst := keepsEven_nextInst
  update inst f hf s := by
    cases hf with
    | setReg i v => exact .of_same (Cpu.setReg_dcache ..)
    | fence => exact fun _ _ => .inl rfl
    | fenceI => exact keepsEven_flush s
    | _ => exact .of_same rfl
  csrWrite addr v := keeps_csrWrite (fun _ => .of_same rfl) fun addr v => .modify fun s => by
      dsimp only
      split_ifs
      · exact fun _ _ => .inl rfl
      · exact fun _ _ => .inl rfl
      · exact .of_same rfl
      · exact .of_same rfl
  move f hf s := by
    cases hf with
    | startAt addr arg => exact fun _ _ => .inl rfl
    | enterKernel entry dtbAddr =>
      exact .of_same ((Cpu.setReg_dcache ..).trans (Cpu.setReg_dcache ..))
    | _ => exact .of_same rfl

lemma hartInv_even : HartInv (fun _ s => s.cpu.EvenSlots) (fun _ _ _ => True) where
  keeps _ _ s hf _ h := hartKeeps_even.op hf s h
  guarantees _ _ _ _ _ _ := trivial
  stable _ _ _ _ _ _ h _ := h
  outer _ _ _ _ h _ := h

lemma evenSlots_reachable {cfg : Config} {m : Machine} (hm : Reachable cfg m) (h : ℕ) :
    (m.hart h).cpu.EvenSlots :=
  (hartInv_even.reachable (fun _ _ => .inl rfl) hm h).2

/-! ## A step at an odd address -/

/-- The slot that the empty mark itself selects belongs to the current level, and is empty or about
to be emptied: its instruction is what a hart whose program counter is all ones executes. -/
def StaleSlot (s : Hart) : Prop :=
  let slot := s.cpu.dcache (dcacheIndex s.cpu.pc)
  s.cpu.pc = ~~~0 ∧ (s.sys.ram.epoch ≠ s.cpu.dcacheEpoch ∨ slot.pc = ~~~0) ∧
    slot.priv = s.cpu.priv.val.setWidth 8

/-- The registers and the memory are as they were. -/
structure Spared (s t : Hart) : Prop where
  regs : t.cpu.regs = s.cpu.regs
  regfile : t.cpu.regfile = s.cpu.regfile
  fregs : t.cpu.fregs = s.cpu.fregs
  ram : t.sys.ram = s.sys.ram

/-- No instruction is executed: the step takes the exception at the program counter, and changes
neither the registers nor the memory. -/
structure OddPcRefused (s : Hart) : Prop where
  fetch : failure nextInst s = some ⟨.instructionAddressMisaligned, s.cpu.pc⟩
  step : stepCore s = handleTrapOrStop ⟨.instructionAddressMisaligned, s.cpu.pc⟩ s.checkEpoch
  spared : Spared s (final stepCore s)

section Step

variable {s : Hart}

lemma checkEpoch_pc (s : Hart) : s.checkEpoch.cpu.pc = s.cpu.pc := by
  unfold Hart.checkEpoch
  split <;> rfl

lemma cached_of_stale (h : StaleSlot s) : ∃ inst, s.checkEpoch.cpu.cached = some inst := by
  obtain ⟨hpc, hempty, hpriv⟩ := h
  unfold Hart.checkEpoch
  split
  · exact ⟨_, if_pos ⟨hpc.symm, hpriv⟩⟩
  · next hepoch =>
    have hslot := hempty.resolve_left hepoch
    exact ⟨_, if_pos ⟨hslot.trans hpc.symm, hpriv⟩⟩

lemma cached_of_not_stale (heven : s.cpu.EvenSlots) (hodd : s.cpu.pc &&& 1 ≠ 0)
    (h : ¬ StaleSlot s) :
    s.checkEpoch.cpu.cached = none := by
  unfold Hart.checkEpoch
  split
  · next hepoch => exact if_neg fun hfound => h ⟨hfound.1.symm, .inl hepoch, hfound.2⟩
  · refine if_neg fun hfound => ?_
    rcases heven (dcacheIndex s.cpu.pc) with hempty | htag
    · exact h ⟨hfound.1.symm.trans hempty, .inr hempty, hfound.2⟩
    · exact hodd (hfound.1 ▸ htag)

lemma nextInst_of_cached {inst : DecodedInst} (h : s.checkEpoch.cpu.cached = some inst) :
    nextInst s = .ok inst s.checkEpoch := by
  unfold nextInst
  rw [bind_of_ok (modify_apply _ s), bind_of_ok (get_apply _), h]
  rfl

lemma nextInst_of_odd (h : s.checkEpoch.cpu.cached = none) (hodd : s.cpu.pc &&& 1 ≠ 0) :
    nextInst s = .error ⟨.instructionAddressMisaligned, s.cpu.pc⟩ s.checkEpoch := by
  have hfetch := fetchInst_odd (s := s.checkEpoch) (by rwa [checkEpoch_pc])
  rw [checkEpoch_pc] at hfetch
  unfold nextInst
  rw [bind_of_ok (modify_apply _ s), bind_of_ok (get_apply _), h]
  exact bind_of_error hfetch

/-- Dropping the cached decodes and entering a trap spare the registers and the memory. -/
lemma spared_trap (e : Trap) (s : Hart) : Spared s (final (handleTrapOrStop e) s.checkEpoch) := by
  have hdrop : Spared s s.checkEpoch := by
    unfold Hart.checkEpoch
    split <;> exact ⟨rfl, rfl, rfl, rfl⟩
  rw [final, handleTrapOrStop_apply]
  split_ifs <;> exact ⟨hdrop.regs, hdrop.regfile, hdrop.fregs, hdrop.ram⟩

lemma refused_of_not_cached (hi : s.cpu.nextInterrupt = none) (hodd : s.cpu.pc &&& 1 ≠ 0)
    (h : s.checkEpoch.cpu.cached = none) : OddPcRefused s := by
  have hnext := nextInst_of_odd h hodd
  have hstep := stepCore_of_error hi (instruction_of_fetch hnext)
  refine ⟨failure_of_error hnext, hstep, ?_⟩
  rw [final, hstep]
  exact spared_trap _ s

end Step

/-- A hart at an odd address takes the exception, unless the address is the mark of empty slots and
the slot it selects belongs to the level of the hart. -/
theorem odd_pc_refused_iff {cfg : Config} {m : Machine} (hm : Reachable cfg m) (h : ℕ)
    (hodd : (m.hart h).cpu.pc &&& 1 ≠ 0) (hi : (m.hart h).cpu.nextInterrupt = none) :
    OddPcRefused (m.hart h) ↔ ¬ StaleSlot (m.hart h) := by
  constructor
  · intro hrefused hstale
    obtain ⟨inst, hcached⟩ := cached_of_stale hstale
    have hfetch := failure_eq_some.mp hrefused.fetch
    rw [nextInst_of_cached hcached] at hfetch
    cases hfetch
  · intro hstale
    exact refused_of_not_cached hi hodd (cached_of_not_stale (evenSlots_reachable hm h) hodd hstale)

/-! ## A hart restarted at the mark of empty slots -/

/-- Start hart 1 at `addr` (`auipc`/`addi`), and then again at the address of all ones. -/
def starterCode : List U32 :=
  [0x004858b7, 0x34d88893, 0x00100513, 0x00002597, 0xfe658593, 0x00000073,
    0x00100513, 0xfff00593, 0x00000073]

/-- `lui`/`addi` of the extension, `li a6, 1`, `c.addi a5, 1` in the last halfword of its page, and
an `ecall` that stops the hart. -/
def stopperCode : List U8 :=
  codeBytes [0x004858b7, 0x34d88893, 0x00100813] ++ [0x85, 0x07] ++ codeBytes [0x00000073]

/-- Hart 1 has run the second program, and waits at the address of all ones. -/
def restarted : Machine :=
  (Machine.init (Config.plain 2 12288 threePages_fits)).run
    ([.loadImage dramBase (codeBytes starterCode), .writeBytes (dramBase + 0x1ff2) stopperCode,
      .enterSupervisor dramBase 0] ++ List.replicate 6 (.step 0) ++ [.runnable 1] ++
      List.replicate 5 (.step 1) ++ List.replicate 3 (.step 0) ++ [.runnable 1])

lemma restarted_reachable : Reachable (Config.plain 2 12288 threePages_fits) restarted := ⟨_, rfl⟩

/-- It executes the `c.addi` it had cached and dropped, at an odd address. -/
theorem odd_pc_runs :
    Reachable (Config.plain 2 12288 threePages_fits) restarted ∧
      (restarted.hart 1).cpu.pc &&& 1 ≠ 0 ∧ (restarted.hart 1).cpu.nextInterrupt = none ∧
      (restarted.hart 1).cpu.regs 15 = 1 ∧ (final stepCore (restarted.hart 1)).cpu.regs 15 = 2 ∧
      (final stepCore (restarted.hart 1)).cpu.lastTrap = none ∧
        ¬ OddPcRefused (restarted.hart 1) := by
  have hregs : (restarted.hart 1).cpu.regs 15 = 1 ∧
      (final stepCore (restarted.hart 1)).cpu.regs 15 = 2 := by decide +kernel
  refine ⟨restarted_reachable, by decide +kernel, by decide +kernel, hregs.1, hregs.2,
    by decide +kernel, ?_⟩
  intro h
  have hsame := congrFun h.spared.regs 15
  rw [hregs.1, hregs.2] at hsame
  exact absurd hsame (by decide)

/-- Hart 0 entered at the odd address after the start of RAM. -/
def enteredOdd : Machine :=
  (Machine.init (Config.plain 2 12288 threePages_fits)).run
    [.loadImage dramBase (codeBytes starterCode), .enterSupervisor 0x80000001 0]

/-- It takes the exception. -/
theorem odd_pc_refused_iff_entry :
    ¬ StaleSlot (enteredOdd.hart 0) ∧ OddPcRefused (enteredOdd.hart 0) := by
  have hstale : ¬ StaleSlot (enteredOdd.hart 0) := by
    rintro ⟨hpc, -⟩
    exact absurd hpc (by decide +kernel)
  exact ⟨hstale, (odd_pc_refused_iff ⟨_, rfl⟩ 0 (by decide +kernel) (by decide +kernel)).mpr hstale⟩

end RiscvEmu
