import RiscvEmu.Cpu.View

/-!
# Every instruction

One walk over the instructions and the firmware calls says two things of each: it reads and checks
before it writes (`Instr`), and on the image of a hart under a view it does the image of what it
does on the hart.  Integer registers are reached through `read_reg` and `write_reg` only, so an
exact view shows all of them; a floating-point instruction asks whether the unit is on before
anything else.
-/

namespace RiscvEmu

open Exec View

/-- A view that is exact, and what is known of it once the floating-point unit is on. -/
structure Window where
  view : View
  ok : Backing
  exact : view.Exact ok
  enabled : Prop
  csrs : enabled → view.csrs = id

/-- A result of the given precision is written to the image as it is written to the hart. -/
def View.Writes (v : View) (isDouble : Bool) : Prop :=
  ∀ r i x, v.fregs (Function.update r i (fpResult isDouble x)) =
    Function.update (v.fregs r) i (fpResult isDouble x)

namespace Window

section

variable (w : Window) (inst : DecodedInst) {α : Type} (m n : HartM α)

/-- What holds of a hart before an instruction. -/
def Before (s : Hart) : Prop := Backed w.ok s ∧ (s.cpu.csrs.fpuEnabled → w.enabled)

/-- A probe, and what it is on the image. -/
structure AsksAs : Prop where
  probe : Probe m
  mirrors : Mirrors w.view.hart w.Before m n w.Before

/-- A program that cannot fail, and what it is on the image. -/
structure ActsAs : Prop where
  commit : Commit inst m
  mirrors : Mirrors w.view.hart (Backed w.ok) m n (Backed w.ok)

/-- A program that may fail only before its first write, and what it is on the image. -/
structure DoesAs : Prop where
  instr : w.enabled → Instr inst m
  mirrors : Mirrors w.view.hart w.Before m n (Backed w.ok)

/-- It asks the same on the image. -/
abbrev Asks : Prop := w.AsksAs m m
/-- It acts the same on the image. -/
abbrev Acts : Prop := w.ActsAs inst m m
/-- It does the same on the image. -/
abbrev Does : Prop := w.DoesAs inst m m

end

variable {w : Window} {inst : DecodedInst} {α β : Type} {m n m' n' : HartM α} {k l : α → HartM β}

/-! ## Rules -/

namespace AsksAs

lemma of_shows (h : Probe m) (hs : w.view.Shows w.ok m) : w.Asks m :=
  ⟨h, hs.hidden (h.keeps untouched_csrs.probeKeeps)⟩

lemma pure (a : α) : w.Asks (pure a) := ⟨.pure a, .pure a⟩

lemma throw (t : Trap) : w.Asks (throw t : HartM α) := ⟨.throw t, .throw t⟩

lemma readReg (i : ℕ) : w.Asks (readReg i) := .of_shows (.readReg i) (shows_readReg w.exact i)

lemma alu (op : AluOp) (a b : U64) : w.Asks (alu op a b) :=
  .of_shows (.alu op a b) (shows_alu w.exact op a b)

lemma setBranchTarget (target : U64) : w.Asks (setBranchTarget target) :=
  .of_shows (.setBranchTarget target) <|
    .branch (.throw _) (shows_modifyCpu (fun _ => rfl) fun _ => ⟨rfl, rfl, rfl⟩)

lemma memLoad (va : U64) (size : ℕ) : w.Asks (memLoad va size .load) :=
  .of_shows (.memLoad va size) (shows_memLoad va size .load)

lemma memStore (va : U64) (size : ℕ) (x : U64) : w.Asks (memStore va size x) :=
  .of_shows (.memStore va size x) (shows_memStore va size x)

lemma loadReserved (va : U64) (size : ℕ) : w.Asks (loadReserved va size) := by
  refine .of_shows (.loadReserved va size) <| (shows_memLoad _ _ _).bind fun value =>
    .bind (shows_modifyCpu (fun _ => rfl) fun _ => ⟨rfl, rfl, rfl⟩) fun _ => .get_bind fun s _ => ?_
  rw [hart_dataPrivilege]
  exact (shows_translateFor _ _ _).attempt.bind fun r =>
    .bind (.modify fun _ hs => ⟨rfl, hs⟩) fun _ => .pure _

lemma storeConditional (va : U64) (size rs2 : ℕ) : w.Asks (storeConditional va size rs2) := by
  refine .of_shows (.storeConditional va size rs2) <| .get_bind fun s _ =>
    (shows_emit _).bind fun _ =>
    .bind (shows_modifyCpu (fun _ => rfl) fun _ => ⟨rfl, rfl, rfl⟩) fun _ =>
      (shows_readReg w.exact _).bind fun src => .branch ?_ ?_
  · exact (shows_memStore _ _ _).bind fun _ =>
      .bind (.modify fun _ hs => ⟨rfl, hs⟩) fun _ => .pure _
  · exact .bind (.modify fun _ hs => ⟨rfl, hs⟩) fun _ => .pure _

lemma get_bind {f g : Hart → HartM β} (h : ∀ s, w.AsksAs (f s) (g (w.view.hart s))) :
    w.AsksAs (get >>= f) (get >>= g) :=
  ⟨.bind .get fun s => (h s).probe, .get_bind fun s _ => (h s).mirrors⟩

lemma branch {c : Prop} [Decidable c] (h : w.AsksAs m n) (h' : w.AsksAs m' n') :
    w.AsksAs (if c then m else m') (if c then n else n') := by
  split
  · exact h
  · exact h'

end AsksAs

namespace ActsAs

lemma pure (a : α) : w.Acts inst (pure a) := ⟨.pure a, .pure a⟩

lemma readReg (i : ℕ) : w.Acts inst (readReg i) := ⟨.readReg i, shows_readReg w.exact i⟩

lemma writeReg (i : ℕ) (x : U64) : w.Acts inst (writeReg i x) :=
  ⟨.writeReg i x, shows_writeReg w.exact i x⟩

lemma bind (hm : w.ActsAs inst m n) (hk : ∀ a, w.ActsAs inst (k a) (l a)) :
    w.ActsAs inst (m >>= k) (n >>= l) :=
  ⟨.bind hm.commit fun a => (hk a).commit, hm.mirrors.bind fun a => (hk a).mirrors⟩

lemma get_bind {f g : Hart → HartM β} (h : ∀ s, w.ActsAs inst (f s) (g (w.view.hart s))) :
    w.ActsAs inst (get >>= f) (get >>= g) :=
  ⟨.bind .get fun s => (h s).commit, .get_bind fun s _ => (h s).mirrors⟩

lemma branch {c : Prop} [Decidable c] (h : w.ActsAs inst m n) (h' : w.ActsAs inst m' n') :
    w.ActsAs inst (if c then m else m') (if c then n else n') := by
  split
  · exact h
  · exact h'

lemma forM {f : β → HartM Unit} (h : ∀ b, w.Acts inst (f b)) (bs : List β) :
    w.Acts inst (bs.forM f) := by
  induction bs with
  | nil => exact .pure _
  | cons b bs ih => exact (h b).bind fun _ => ih

end ActsAs

namespace DoesAs

lemma ask (h : w.AsksAs m n) : w.DoesAs inst m n :=
  ⟨fun _ => .probe h.probe, h.mirrors.mono (fun _ hs => hs) fun _ hs => hs.1⟩

lemma act (h : w.ActsAs inst m n) : w.DoesAs inst m n :=
  ⟨fun _ => .commit h.commit, h.mirrors.pre fun _ hs => hs.1⟩

lemma seq (hm : w.AsksAs m n) (hk : ∀ a, w.DoesAs inst (k a) (l a)) :
    w.DoesAs inst (m >>= k) (n >>= l) :=
  ⟨fun h => .seq hm.probe fun a =>
    (hk a).instr h, hm.mirrors.seq (fun a => (hk a).mirrors) fun _ hs => hs.1⟩

lemma tail (hm : w.DoesAs inst m n) (hk : ∀ a, w.ActsAs inst (k a) (l a)) :
    w.DoesAs inst (m >>= k) (n >>= l) :=
  ⟨fun h => .tail (hm.instr h) fun a =>
    (hk a).commit, hm.mirrors.seq (fun a => (hk a).mirrors) fun _ hs => hs⟩

lemma get_bind {f g : Hart → HartM β} (h : ∀ s, w.DoesAs inst (f s) (g (w.view.hart s))) :
    w.DoesAs inst (get >>= f) (get >>= g) :=
  ⟨fun hon => .seq .get fun s => (h s).instr hon, .get_bind fun s _ => (h s).mirrors⟩

/-- A branch may use the condition under which it is taken. -/
lemma ite {c : Prop} [Decidable c] (h : c → w.DoesAs inst m n) (h' : ¬ c → w.DoesAs inst m' n') :
    w.DoesAs inst (if c then m else m') (if c then n else n') := by
  split
  · next hc => exact h hc
  · next hc => exact h' hc

lemma branch {c : Prop} [Decidable c] (h : w.DoesAs inst m n) (h' : w.DoesAs inst m' n') :
    w.DoesAs inst (if c then m else m') (if c then n else n') :=
  .ite (fun _ => h) fun _ => h'

lemma illegal : w.Does inst (throw (RiscvEmu.illegal inst) : HartM Unit) := .ask (.throw _)

lemma writeReg (i : ℕ) (x : U64) : w.Does inst (writeReg i x) := .act (.writeReg i x)

end DoesAs

/-! ## Integer instructions -/

lemma does_executeAuipc : w.Does inst (executeAuipc inst) := .get_bind fun _ => .writeReg _ _

lemma does_executeJal : w.Does inst (executeJal inst) :=
  .get_bind fun _ => .seq (.setBranchTarget _) fun _ => .writeReg _ _

lemma does_executeJalr : w.Does inst (executeJalr inst) :=
  .branch .illegal <| .seq (.readReg _) fun _ => .seq (.alu _ _ _) fun _ => .get_bind fun _ =>
    .seq (.setBranchTarget _) fun _ => .writeReg _ _

lemma does_executeBranch : w.Does inst (executeBranch inst) := by
  refine .seq (.readReg _) fun a => .seq (.readReg _) fun b => ?_
  cases branchTest inst.funct3 with
  | none => exact .illegal
  | some test =>
    exact .seq (.alu _ _ _) fun r =>
      .branch (.get_bind fun _ => .ask (.setBranchTarget _)) (.ask (.pure _))

lemma does_executeLoad : w.Does inst (executeLoad inst) := by
  refine .seq (.readReg _) fun rs1 => .seq (.alu _ _ _) fun addr => ?_
  cases loadKind inst.funct3 with
  | none => exact .illegal
  | some kind => exact .seq (.memLoad _ _) fun _ => .writeReg _ _

lemma does_executeStore : w.Does inst (executeStore inst) := by
  refine .seq (.readReg _) fun rs1 => .seq (.alu _ _ _) fun addr => .seq (.readReg _) fun x => ?_
  cases storeSize inst.funct3 with
  | none => exact .illegal
  | some size => exact .ask (.memStore _ _ _)

lemma does_orElse (r : Option U64) {otherwise : HartM Unit} (h : w.Does inst otherwise) :
    w.Does inst (match r with
      | some x => writeReg inst.rd x
      | none => otherwise) := by
  cases r with
  | none => exact h
  | some x => exact .writeReg _ _

section Zb

variable {otherwise : HartM Unit} (h : w.Does inst otherwise)

include h

lemma does_executeZbOp : w.Does inst (executeZbOp inst otherwise) :=
  .seq (.readReg _) fun _ => .seq (.readReg _) fun _ => does_orElse _ h

lemma does_executeZbOp32 : w.Does inst (executeZbOp32 inst otherwise) :=
  .seq (.readReg _) fun _ => .seq (.readReg _) fun _ => .branch .illegal (does_orElse _ h)

lemma does_executeZbImm (table : U64 → Option U64) :
    w.Does inst (executeZbImm inst table otherwise) :=
  .seq (.readReg _) fun _ => does_orElse _ h

end Zb

lemma does_aluImm (kind : Option (AluOp × U64)) : w.Does inst (aluImm inst kind) := by
  refine .seq (.readReg _) fun rs1 => ?_
  cases kind with
  | none => exact .illegal
  | some k => exact .seq (.alu _ _ _) fun _ => .writeReg _ _

lemma does_aluReg (kind : Option AluOp) : w.Does inst (aluReg inst kind) := by
  refine .branch .illegal <| .seq (.readReg _) fun a => .seq (.readReg _) fun b => ?_
  cases kind with
  | none => exact .illegal
  | some op => exact .seq (.alu _ _ _) fun _ => .writeReg _ _

lemma does_executeOpImm : w.Does inst (executeOpImm inst) :=
  .branch (does_executeZbImm (does_aluImm _) _) (does_aluImm _)

lemma does_executeOpImm32 : w.Does inst (executeOpImm32 inst) :=
  .branch (does_executeZbImm (does_aluImm _) _) (does_aluImm _)

lemma does_executeMulDiv32 : w.Does inst (executeMulDiv32 inst) := by
  refine .seq (.readReg _) fun a => .seq (.readReg _) fun b => ?_
  cases mulDiv32 inst.funct3 (a.setWidth 32) (b.setWidth 32) with
  | none => exact .illegal
  | some r => exact .writeReg _ _

lemma does_executeOp : w.Does inst (executeOp inst) :=
  .branch (.seq (.readReg _) fun _ => .seq (.readReg _) fun _ => .writeReg _ _) <|
    .branch (does_executeZbOp (does_aluReg _)) (does_aluReg _)

lemma does_executeOp32 : w.Does inst (executeOp32 inst) :=
  .branch does_executeMulDiv32 <| .branch (does_executeZbOp32 (does_aluReg _)) (does_aluReg _)

lemma does_executeAtomic (size funct5 : ℕ) (addr : U64) :
    w.Does inst (executeAtomic inst size funct5 addr) := by
  refine .branch (.branch .illegal ?_) <| .branch ?_ ?_
  · exact .seq (.loadReserved _ _) fun _ => .writeReg _ _
  · exact .seq (.storeConditional _ _ _) fun _ => .writeReg _ _
  · refine .seq (.memLoad _ _) fun orig => .seq (.readReg _) fun src => ?_
    cases amoStore size funct5 orig src with
    | none => exact .illegal
    | some result => exact .seq (.memStore _ _ _) fun _ => .writeReg _ _

lemma does_executeAmo : w.Does inst (executeAmo inst) := by
  unfold executeAmo
  cases amoSize inst.funct3 with
  | none => exact .illegal
  | some size =>
    exact .seq (.readReg _) fun addr => .branch (.ask (.throw _)) (does_executeAtomic _ _ _)

/-! ## Firmware calls -/

lemma acts_setReturn (error value : U64) : w.Acts inst (Sbi.setReturn error value) :=
  .bind (.writeReg _ _) fun _ => .writeReg _ _

lemma acts_setTimer (h : IsPrivileged inst) (deadline : U64) :
    w.Acts inst (Sbi.setTimer deadline) := by
  refine ⟨.updates fun s => ?_, .modify fun s hs => ?_⟩
  · dsimp only
    split
    · exact .inr ⟨_, .setTimer deadline h, rfl⟩
    · exact .inl rfl
  · by_cases hw : s.sys.wired
    · have hw' : (w.view.hart s).sys.wired = true := hw
      simp only [hw, hw', if_true]
      rw [show (w.view.hart s).cpu.csrs = w.view.csrs s.cpu.csrs from rfl, w.view.csrs_setTimer]
      exact ⟨rfl, hs⟩
    · have hw' : ¬ (w.view.hart s).sys.wired = true := hw
      simp only [hw, hw']
      exact ⟨rfl, hs⟩

lemma acts_consoleGetchar : w.Acts inst Sbi.consoleGetchar :=
  .get_bind fun _ =>
    .branch (.bind ⟨.update (.takeInput _), shows_modifySys _⟩ fun _ => .writeReg _ _)
    (.writeReg _ _)

lemma acts_shutdown : w.Acts inst Sbi.shutdown :=
  ⟨.update .shutdown, shows_modifyCpu (fun _ => rfl) fun _ => ⟨rfl, rfl, rfl⟩⟩

lemma acts_base (fid a0 : U64) : w.Acts inst (Sbi.base fid a0) := by
  unfold Sbi.base
  iterate 5 refine .branch (acts_setReturn _ _) ?_
  exact acts_setReturn _ _

lemma acts_time (h : IsPrivileged inst) (fid a0 : U64) : w.Acts inst (Sbi.time fid a0) :=
  .branch (.bind (acts_setTimer h _) fun _ => acts_setReturn _ _) (acts_setReturn _ _)

section Ecall

variable (h : IsEcall inst)

include h

lemma acts_ipiTo (id : ℕ) : w.Acts inst (Sbi.ipiTo id) := by
  refine ⟨.updates fun s => .inr ?_, .modify fun s hs => ?_⟩
  · dsimp only
    split
    · exact ⟨_, .ipi h.1, rfl⟩
    · exact ⟨_, .sendIpi id h, rfl⟩
  · by_cases hid : id = s.cpu.hartid
    · rw [if_pos hid, if_pos (show id = (w.view.hart s).cpu.hartid from hid)]
      exact ⟨congrArg (fun c => (⟨{ w.view.cpu s.cpu with csrs := c }, s.sys⟩ : Hart))
        (w.view.csrs_raiseInterrupt s.cpu.csrs _), hs⟩
    · rw [if_neg hid, if_neg (show ¬ id = (w.view.hart s).cpu.hartid from hid)]
      exact ⟨rfl, hs⟩

lemma acts_fenceTo (id : ℕ) : w.Acts inst (Sbi.fenceTo id) := by
  refine ⟨.updates fun s => .inr ?_, .modify fun s hs => ?_⟩
  · split
    · exact ⟨_, .fence, rfl⟩
    · exact ⟨_, .sendFence id h, rfl⟩
  · by_cases hid : id = s.cpu.hartid
    · rw [if_pos hid, if_pos (show id = (w.view.hart s).cpu.hartid from hid)]
      exact ⟨rfl, hs⟩
    · rw [if_neg hid, if_neg (show ¬ id = (w.view.hart s).cpu.hartid from hid)]
      exact ⟨rfl, hs⟩

omit h in
lemma acts_broadcast {send : ℕ → HartM Unit} (hsend : ∀ id, w.Acts inst (send id)) (a0 : U64) :
    w.Acts inst (Sbi.broadcast send a0) := by
  refine .bind (.readReg _) fun a1 => .get_bind fun s => ?_
  rw [show (w.view.hart s).sys = s.sys from rfl]
  cases Sbi.targets s.sys.numHarts a0 a1 with
  | none => exact acts_setReturn _ _
  | some ids => exact .bind (.forM hsend ids) fun _ => acts_setReturn _ _

lemma acts_hartStart (a0 : U64) : w.Acts inst (Sbi.hartStart a0) :=
  .bind (.readReg _) fun _ => .bind (.readReg _) fun _ => .get_bind fun _ =>
    .branch (acts_setReturn _ _) <| .branch (acts_setReturn _ _) <|
      .bind ⟨.update (.sendStart _ _ _ h), .modify fun _ hs => ⟨rfl, hs⟩⟩ fun _ =>
        acts_setReturn _ _

lemma acts_hartStop : w.Acts inst Sbi.hartStop :=
  .bind ⟨.update (.stop h), .modify fun _ hs => ⟨rfl, hs⟩⟩ fun _ => acts_setReturn _ _

omit h in
lemma acts_hartGetStatus (a0 : U64) : w.Acts inst (Sbi.hartGetStatus a0) :=
  .get_bind fun _ => .branch (acts_setReturn _ _) (acts_setReturn _ _)

omit h in
lemma acts_hartSuspend (a0 : U64) : w.Acts inst (Sbi.hartSuspend a0) :=
  .branch (acts_setReturn _ _) <| .bind ⟨.update (.wait fun c => c.idleOnWfi),
    shows_modifyCpu (fun _ => rfl) fun _ => ⟨rfl, rfl, rfl⟩⟩ fun _ => acts_setReturn _ _

lemma acts_hsm (fid a0 : U64) : w.Acts inst (Sbi.hsm fid a0) :=
  .branch (acts_hartStart h _) <| .branch (acts_hartStop h) <| .branch (acts_hartGetStatus _) <|
    .branch (acts_hartSuspend _) (acts_setReturn _ _)

omit h in
lemma acts_srst (fid : U64) : w.Acts inst (Sbi.srst fid) :=
  .branch (.bind acts_shutdown fun _ => acts_setReturn _ _) (acts_setReturn _ _)

lemma acts_dispatch (eid fid a0 : U64) : w.Acts inst (Sbi.dispatch eid fid a0) := by
  refine .branch (acts_setTimer h.1 _) (.branch (.pure _) (.branch acts_consoleGetchar ?_))
  refine .branch acts_shutdown (.branch (acts_base _ _) (.branch (acts_time h.1 _ _) ?_))
  refine .branch (.branch (acts_setReturn _ _) (acts_broadcast (acts_ipiTo h) _)) ?_
  refine .branch (.branch (acts_setReturn _ _) (acts_broadcast (acts_fenceTo h) _)) ?_
  exact .branch (acts_hsm h _ _) (.branch (acts_srst _) (acts_setReturn _ _))

lemma acts_handleEcall : w.Acts inst Sbi.handleEcall :=
  .bind (.readReg _) fun _ => .bind (.readReg _) fun _ => .bind (.readReg _) fun _ =>
    acts_dispatch h _ _ _

lemma does_executeEcall : w.Does inst executeEcall :=
  .get_bind fun _ => .branch (.ask (.throw _)) <|
    .branch (.branch (.act (acts_handleEcall h)) (.ask (.throw _))) (.ask (.throw _))

end Ecall

/-! ## Privileged instructions -/

lemma does_executeMret (h : IsPrivileged inst) : w.Does inst (executeMret inst) := by
  refine .get_bind fun s =>
    .branch .illegal <| .act ⟨.update (.mret h), shows_modifyCpu (fun c => ?_) fun _ =>
      ⟨rfl, rfl, rfl⟩⟩
  rw [show (w.view.cpu c).csrs = w.view.csrs c.csrs from rfl, w.view.csrs_mstatus,
    w.view.csrs_setMstatus, w.view.csrs_read _ (by decide)]
  rfl

lemma does_executeSret (h : IsPrivileged inst) : w.Does inst (executeSret inst) := by
  refine .get_bind fun s => .branch .illegal ?_
  rw [show (w.view.hart s).cpu.csrs = w.view.csrs s.cpu.csrs from rfl, w.view.csrs_mstatus]
  refine .branch .illegal <| .act ⟨.update (.sret h), shows_modifyCpu (fun c => ?_) fun _ =>
    ⟨rfl, rfl, rfl⟩⟩
  rw [show (w.view.cpu c).csrs = w.view.csrs c.csrs from rfl, w.view.csrs_mstatus,
    w.view.csrs_setMstatus, w.view.csrs_read _ (by decide)]
  rfl

lemma does_executeSfenceVma : w.Does inst (executeSfenceVma inst) := by
  refine .get_bind fun s => .branch .illegal ?_
  rw [show (w.view.hart s).cpu.csrs = w.view.csrs s.cpu.csrs from rfl, w.view.csrs_mstatus]
  exact .branch .illegal (.act ⟨.update .fence, .modify fun _ hs => ⟨rfl, hs⟩⟩)

lemma acts_executeWfi : w.Acts inst executeWfi := by
  refine ⟨.updates fun s => ?_, shows_modifyCpu (fun c => ?_) fun c => ?_⟩
  · dsimp only
    split
    · exact .inr ⟨_, .wait fun _ => true, rfl⟩
    · exact .inl rfl
  · by_cases h : c.idleOnWfi
    · rw [if_pos h, if_pos (show (w.view.cpu c).idleOnWfi = true from h)]
      rfl
    · rw [if_neg h, if_neg (show ¬ (w.view.cpu c).idleOnWfi = true from h)]
  · split <;> exact ⟨rfl, rfl, rfl⟩

/-! ## CSR access

An access to `fcsr` or one of its two windows is refused while the unit is off. -/

lemma csrReadable_cpu (v : View) (c : Cpu) (addr : CsrAddr) :
    (v.cpu c).csrReadable addr = c.csrReadable addr := by
  unfold Cpu.csrReadable Cpu.tvmBlocks
  rw [show (v.cpu c).csrs = v.csrs c.csrs from rfl, v.csrs_fpuEnabled, v.csrs_mstatus,
    v.csrs_counterEnabled, v.csrs_counterEnabled, v.csrs_counterEnabled]
  rfl

lemma csrWritable_cpu (v : View) (c : Cpu) (addr : CsrAddr) :
    (v.cpu c).csrWritable addr = c.csrWritable addr := by
  unfold Cpu.csrWritable Cpu.tvmBlocks
  rw [show (v.cpu c).csrs = v.csrs c.csrs from rfl, v.csrs_mstatus]
  rfl

/-- Only an enabled unit lets its CSRs be read. -/
lemma fpuEnabled_of_csrReadable {c : Cpu} {addr : CsrAddr} (h : c.csrReadable addr)
    (hfp : isFpCsr addr) : c.csrs.fpuEnabled := by
  unfold Cpu.csrReadable at h
  simp only [hfp, Bool.and_eq_true, Bool.not_eq_true', Bool.true_and, Bool.not_eq_false'] at h
  exact h.1.1.1.1.2

lemma asks_csrRead (addr : CsrAddr) : w.Asks (csrRead addr) := by
  refine ⟨.bind .get fun s => ?_, .get_bind fun s hs => .ite ?_ (fun _ => .throw _) fun hread => ?_⟩
  · split
    · exact .throw _
    · split <;> exact .pure _
  · rw [show (w.view.hart s).cpu = w.view.cpu s.cpu from rfl, csrReadable_cpu]
  · refine .branch (.pure _) ?_
    have hsame : (w.view.csrs s.cpu.csrs).read addr = s.cpu.csrs.read addr := by
      by_cases hfp : isFpCsr addr
      · rw [w.csrs (hs.2 (fpuEnabled_of_csrReadable (not_not.mp hread) hfp))]
        rfl
      · exact w.view.csrs_read _ hfp
    rw [show (w.view.hart s).cpu.csrs = w.view.csrs s.cpu.csrs from rfl, hsame]
    exact .pure _

lemma asks_csrSwapRead : w.Asks (csrSwapRead inst) :=
  .get_bind fun _ => .branch (asks_csrRead _) (.branch (.throw _) (.pure _))

lemma asks_csrSource : w.Asks (csrSource inst) := .branch (.pure _) (.readReg _)

section Write

variable {v : View} {Ok : Backing} {addr : CsrAddr} (haddr : isFpCsr addr → v.csrs = id)

include haddr

lemma shows_csrCommit (x : U64) : v.Shows Ok (csrCommit addr x) := by
  refine .modify fun s hs => ?_
  have hwrite : (v.hart s).cpu.csrs.write addr x = v.csrs (s.cpu.csrs.write addr x) := by
    by_cases hfp : isFpCsr addr
    · rw [show (v.hart s).cpu.csrs = v.csrs s.cpu.csrs from rfl, haddr hfp]
      rfl
    · exact v.csrs_write _ x hfp
  dsimp only
  split_ifs
  all_goals
    rw [hwrite]
    exact ⟨rfl, hs⟩

lemma shows_markFp : v.Shows Ok (modify fun s => s.markFp addr) := by
  refine .modify fun s hs => ?_
  unfold Hart.markFp
  by_cases hfp : isFpCsr addr
  · rw [if_pos hfp, if_pos hfp]
    refine ⟨?_, hs⟩
    unfold View.hart View.cpu
    rw [haddr hfp]
    rfl
  · rw [if_neg hfp, if_neg hfp]
    exact ⟨rfl, hs⟩

lemma shows_csrFinish (x : U64) : v.Shows Ok (csrFinish addr x) := by
  refine .get_bind fun s _ => .ite ?_ (fun _ => shows_csrCommit haddr x) fun _ => .throw _
  rw [show (v.hart s).cpu = v.cpu s.cpu from rfl, csrWritable_cpu]

end Write

section Csr

variable (h : IsCsr inst)

include h

lemma does_csrWrite (x : U64) : w.Does inst (csrWrite (csrAddrOf inst) x) := by
  refine ⟨fun _ => .csrWrite h x, .get_bind fun s hs => ?_⟩
  rw [show (w.view.hart s).cpu.csrs = w.view.csrs s.cpu.csrs from rfl, w.view.csrs_fpuEnabled]
  have hrefuse : Mirrors w.view.hart w.Before (throw badCsr : HartM Unit) (throw badCsr)
    (Backed w.ok) :=
    (Mirrors.throw _).mono (fun _ h => h) fun _ h => h.1
  refine .branch hrefuse <| .ite Iff.rfl (fun _ => hrefuse) fun hon => ?_
  have haddr : isFpCsr (csrAddrOf inst) → w.view.csrs = id := fun hfp =>
    w.csrs (hs.2 (not_not.mp fun hoff => hon ⟨hfp, hoff⟩))
  exact ((shows_markFp haddr).bind fun _ => shows_csrFinish haddr x).pre fun _ h => h.1

lemma does_csrSwap (src : U64) : w.Does inst (csrSwap inst src) :=
  .seq asks_csrSwapRead fun _ => .tail (does_csrWrite h src) fun _ => .writeReg _ _

lemma does_csrModify (src : U64) : w.Does inst (csrModify inst src) :=
  .seq (asks_csrRead _) fun _ => .tail (.branch (does_csrWrite h _) (.ask (.pure _))) fun _ =>
    .writeReg _ _

lemma does_executeCsr : w.Does inst (executeCsr inst) :=
  .seq asks_csrSource fun _ => .branch (does_csrSwap h _) (.branch (does_csrModify h _) .illegal)

end Csr

lemma does_executeSystem (h : inst.opcode = Opcode.system) : w.Does inst (executeSystem inst) := by
  unfold executeSystem
  refine .ite (fun hf => does_executeCsr ⟨h, hf⟩) fun hf => ?_
  have hpriv : IsPrivileged inst := ⟨h, not_not.mp hf⟩
  refine .ite (fun himm => .branch .illegal (does_executeEcall ⟨hpriv, himm⟩)) fun _ => ?_
  refine .branch (.branch .illegal (.get_bind fun _ => .ask (.throw _))) ?_
  refine .branch (does_executeSret hpriv) (.branch (does_executeMret hpriv) ?_)
  exact .branch (.branch .illegal (.act acts_executeWfi)) (.branch does_executeSfenceVma .illegal)

/-! ## Floating-point instructions -/

/-- What follows the check of the unit runs with the unit on. -/
lemma does_fpu {k : HartM Unit} (hk : w.enabled → w.Does inst k) :
    w.Does inst (requireFpu inst >>= fun _ => k) := by
  refine ⟨fun h => .seq probe_requireFpu fun _ => (hk h).instr h, fun s hs => ?_⟩
  have himage : (w.view.hart s).cpu.csrs.fpuEnabled = s.cpu.csrs.fpuEnabled :=
    w.view.csrs_fpuEnabled s.cpu.csrs
  by_cases hon : s.cpu.csrs.fpuEnabled
  · have hpass : ∀ t : Hart, t.cpu.csrs.fpuEnabled → (requireFpu inst >>= fun _ => k) t = k t := by
      intro t ht
      exact bind_of_ok (a := ()) (by simp [requireFpu, bind_apply, ht])
    obtain ⟨hrun, hok⟩ := (hk (hs.2 hon)).mirrors s hs
    rw [final] at hok ⊢
    rw [hpass _ (himage.trans hon), hpass s hon]
    exact ⟨hrun, hok⟩
  · have hstop : ∀ t : Hart, ¬ t.cpu.csrs.fpuEnabled →
        (requireFpu inst >>= fun _ => k) t = .error (illegal inst) t := by
      intro t ht
      exact bind_of_error (by simp [requireFpu, bind_apply, ht])
    rw [final_of_error (hstop s hon), hstop s hon, hstop _ (fun h => hon (himage ▸ h))]
    exact ⟨rfl, hs.1⟩

section Enabled

variable (hcsrs : w.view.csrs = id) {isDouble : Bool} (hw : w.view.Writes isDouble)

include hcsrs

lemma shows_raiseFflags (flags : U64) : w.view.Shows w.ok (raiseFflags flags) := by
  refine shows_modifyCpu (fun c => ?_) fun _ => ⟨rfl, rfl, rfl⟩
  unfold View.cpu
  rw [hcsrs]
  rfl

lemma asks_rounding : w.Asks (rounding inst) := by
  refine .get_bind fun s => ?_
  rw [show (w.view.hart s).cpu.csrs = s.cpu.csrs from congrFun hcsrs _]
  cases Softfloat.Rm.fromBits (if inst.funct3 = frmDyn then s.cpu.csrs.roundingMode
    else inst.funct3) with
  | none => exact .throw _
  | some rm => exact .pure rm

lemma acts_putInt (h : RaisesSilently inst) (r : U64 × U64) : w.Acts inst (putInt inst r) :=
  .bind ⟨.update (.raiseFflags _ h), shows_raiseFflags hcsrs _⟩ fun _ => .writeReg _ _

include hw

lemma shows_writeFreg (i : ℕ) (x : U64) :
    w.view.Shows w.ok (writeFreg i (fpResult isDouble x)) := by
  refine shows_modifyCpu (fun c => ?_) fun _ => ⟨rfl, rfl, rfl⟩
  unfold View.cpu
  rw [hcsrs, hw]
  rfl

lemma does_writeFreg (i : ℕ) (x : U64) : w.Does inst (writeFreg i (fpResult isDouble x)) :=
  .act ⟨.update (.writeFreg i _), shows_writeFreg hcsrs hw i x⟩

lemma acts_putFp (r : U64 × U64) : w.Acts inst (putFp inst isDouble r) :=
  ⟨.update (.putFp inst.rd (fpResult isDouble r.1) r.2),
    (shows_raiseFflags hcsrs _).bind fun _ => shows_writeFreg hcsrs hw _ _⟩

lemma does_fpArith (f : Softfloat.Rm → U64 × U64) : w.Does inst (fpArith inst isDouble f) :=
  .seq (asks_rounding hcsrs) fun _ => .act (acts_putFp hcsrs hw _)

lemma does_opFp (h : inst.opcode = Opcode.opFp) (aBits bBits : U64) :
    w.Does inst (opFp inst (inst.funct7 / 4) isDouble aBits bBits) := by
  dsimp only [opFp]
  have harith (f) : w.Does inst (fpArith inst isDouble f) := does_fpArith hcsrs hw f
  iterate 4 refine .branch (harith _) ?_
  refine .branch (.branch .illegal (harith _)) (.branch ?_ ?_)
  · cases fsgnjSign inst.funct3 (fpOperand isDouble aBits) (fpOperand isDouble bBits)
      (fpSignBit isDouble) with
    | none => exact .illegal
    | some sign => exact does_writeFreg hcsrs hw _ _
  refine .branch (.branch .illegal (.act (acts_putFp hcsrs hw _))) ?_
  refine .branch (.branch .illegal (harith _)) (.ite (fun hop => ?_) fun _ => ?_)
  · cases fcompare inst.funct3 (fpOperand isDouble aBits) (fpOperand isDouble bBits)
      (fmtOf isDouble) with
    | none => exact .illegal
    | some r => exact .act (acts_putInt hcsrs ⟨h, .inl hop⟩ _)
  refine .ite (fun hop => .seq (asks_rounding hcsrs) fun rm => ?_) fun _ => ?_
  · cases intKind inst.rs2 with
    | none => exact .illegal
    | some kind => exact .act (acts_putInt hcsrs ⟨h, .inr hop⟩ _)
  refine .branch (.branch .illegal (.seq (asks_rounding hcsrs) fun _ => .seq (.readReg _) fun _ =>
    .act (acts_putFp hcsrs hw _))) ?_
  refine .branch (.branch (.branch .illegal (.writeReg _ _)) (.branch (.writeReg _ _) .illegal)) ?_
  exact .branch (.branch .illegal (.seq (.readReg _) fun _ => does_writeFreg hcsrs hw _ _)) .illegal

end Enabled

lemma does_executeLoadFp (hw : w.enabled → w.view.Writes (inst.funct3 == 3)) :
    w.Does inst (executeLoadFp inst) := by
  refine does_fpu fun hon => .seq (.readReg _) fun rs1 => .ite (fun h => ?_) fun _ =>
    .ite (fun h => ?_) fun _ => .illegal
  · exact .seq (.memLoad _ _) fun x => does_writeFreg (w.csrs hon) (by simpa [h] using hw hon) _ x
  · exact .seq (.memLoad _ _) fun x => does_writeFreg (w.csrs hon) (by simpa [h] using hw hon) _ x

lemma does_executeStoreFp (hfp : w.enabled → w.view.fregs = id) :
    w.Does inst (executeStoreFp inst) := by
  refine does_fpu fun hon => .seq (.readReg _) fun rs1 => .get_bind fun s => ?_
  rw [show (w.view.hart s).cpu.fregs = s.cpu.fregs from congrFun (hfp hon) _]
  exact .branch (.ask (.memStore _ _ _)) (.branch (.ask (.memStore _ _ _)) .illegal)

lemma does_executeOpFp (h : inst.opcode = Opcode.opFp)
    (hw : w.enabled → w.view.Writes (inst.funct7 % 4 == 1)) (hsame : w.enabled →
      ∀ r, opFp inst (inst.funct7 / 4) (inst.funct7 % 4 == 1) (w.view.fregs r inst.rs1)
      (w.view.fregs r inst.rs2) =
        opFp inst (inst.funct7 / 4) (inst.funct7 % 4 == 1) (r inst.rs1) (r inst.rs2)) :
    w.Does inst (executeOpFp inst) := by
  refine does_fpu fun hon => .get_bind fun s => .branch .illegal ?_
  rw [show opFp _ _ _ ((w.view.hart s).cpu.fregs inst.rs1) ((w.view.hart s).cpu.fregs inst.rs2) =
    _ from hsame hon s.cpu.fregs]
  exact does_opFp (w.csrs hon) (hw hon) h _ _

lemma does_executeFusedMadd
    (hw : w.enabled → w.view.Writes (((inst.raw >>> 25) &&& 0x3).toNat == 1)) (hsame : w.enabled →
      ∀ r i, fpOperand (((inst.raw >>> 25) &&& 0x3).toNat == 1) (w.view.fregs r i) =
      fpOperand (((inst.raw >>> 25) &&& 0x3).toNat == 1) (r i)) :
        w.Does inst (executeFusedMadd inst) := by
  refine does_fpu fun hon => .get_bind fun s => .branch .illegal ?_
  have hop (i : ℕ) : fpOperand (((inst.raw >>> 25) &&& 0x3).toNat == 1)
    ((w.view.hart s).cpu.fregs i) = _ :=
    hsame hon s.cpu.fregs i
  unfold fusedMadd
  simp only [hop]
  exact does_fpArith (w.csrs hon) (hw hon) _

/-! ## All instructions -/

lemma does_executeMiscMem : w.Does inst (executeMiscMem inst) :=
  .branch (.act ⟨.update .fenceI, .modify fun _ hs => ⟨rfl, hs⟩⟩) (.ask (.pure _))

theorem does_execute (hfp : w.enabled → w.view.fregs = id) : w.Does inst (execute inst) := by
  have hw (d : Bool) (hon : w.enabled) : w.view.Writes d := by
    rw [View.Writes, hfp hon]
    exact fun _ _ _ => rfl
  unfold execute
  refine .branch (.writeReg _ _) (.branch does_executeAuipc (.branch does_executeJal ?_))
  refine .branch does_executeJalr (.branch does_executeBranch (.branch does_executeLoad ?_))
  refine .branch does_executeStore (.branch does_executeOpImm (.branch does_executeOpImm32 ?_))
  refine .branch does_executeOp (.branch does_executeOp32 (.branch does_executeAmo ?_))
  refine .ite does_executeSystem fun _ => ?_
  refine .branch (does_executeLoadFp (hw _)) (.branch (does_executeStoreFp hfp) ?_)
  refine .ite (fun h => does_executeOpFp h (hw _) fun hon r => by rw [hfp hon]; rfl) fun _ => ?_
  refine .branch (does_executeFusedMadd (hw _) fun hon r i => by rw [hfp hon]; rfl) ?_
  exact .branch does_executeMiscMem .illegal

/-- The hart as it is. -/
def plain : Window where
  view := ⟨fun r _ => r, id, id, id, id, @View.raw_id, @View.setRaw_id⟩
  ok _ _ _ := True
  exact := View.exact_of_plain rfl rfl rfl
  enabled := True
  csrs _ := rfl

end Window

/-- Every instruction reads and checks before it writes. -/
theorem instr_execute (inst : DecodedInst) : Instr inst (execute inst) :=
  (Window.does_execute (w := .plain) fun _ => rfl).instr trivial

/-- A relation kept by the elementary operations is kept by `execute`. -/
theorem InstrKeeps.execute {inst : DecodedInst} {R : Hart → Hart → Prop} [IsPreorder Hart R]
    (hR : InstrKeeps inst R) : Keeps R (execute inst) :=
  (instr_execute inst).keeps hR

lemma View.mirrors_execute {v : View} {Ok : Backing} (hv : v.Exact Ok) {inst : DecodedInst} :
    Mirrors v.hart (v.Hidden Ok) (execute inst) (execute inst) (Backed Ok) :=
  (Window.does_execute (w := ⟨v, Ok, hv, v.ShowsFp, And.right⟩) And.left).mirrors

end RiscvEmu
