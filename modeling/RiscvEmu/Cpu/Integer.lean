import RiscvEmu.Cpu.State

/-!
# Integer instructions

The base, M, A and bit-manipulation parts of `cpu/exec.rs`.  An instruction first reads and
checks, possibly raising a trap, and then writes its results.
-/

namespace RiscvEmu

open Exec

/-- The trap of an instruction that does not exist. -/
def illegal (inst : DecodedInst) : Trap := ⟨.illegalInstruction, inst.encoded.setWidth 64⟩

/-- Redirect control flow, unless the target is odd. -/
def setBranchTarget (target : U64) : HartM Unit :=
  if target &&& 1 ≠ 0 then throw ⟨.instructionAddressMisaligned, target⟩
  else modifyCpu fun c => { c with nextPc := target }

/-! ## Control transfer -/

/-- JAL. -/
def executeJal (inst : DecodedInst) : HartM Unit := do
  let s ← get
  setBranchTarget (s.cpu.pc + inst.imm)
  writeReg inst.rd (s.cpu.pc + inst.length)

/-- JALR. -/
def executeJalr (inst : DecodedInst) : HartM Unit :=
  if inst.funct3 ≠ 0 then throw (illegal inst)
  else do
    let rs1 ← readReg inst.rs1
    let sum ← alu .add rs1 inst.imm
    let s ← get
    setBranchTarget (sum &&& ~~~1)
    writeReg inst.rd (s.cpu.pc + inst.length)

/-- The comparison of a branch: the ALU operation, and whether a zero result takes it. -/
def branchTest : ℕ → Option (AluOp × Bool)
  | 0x0 => some (.xor, true)
  | 0x1 => some (.xor, false)
  | 0x4 => some (.slt, false)
  | 0x5 => some (.slt, true)
  | 0x6 => some (.sltu, false)
  | 0x7 => some (.sltu, true)
  | _ => none

/-- The conditional branches. -/
def executeBranch (inst : DecodedInst) : HartM Unit := do
  let a ← readReg inst.rs1
  let b ← readReg inst.rs2
  match branchTest inst.funct3 with
  | none => throw (illegal inst)
  | some (op, onZero) => do
    let r ← alu op a b
    if (r == 0) = onZero then do
      let s ← get
      setBranchTarget (s.cpu.pc + inst.imm)
    else pure ()

/-! ## Loads and stores -/

/-- Width and signedness of a load. -/
def loadKind : ℕ → Option (ℕ × Bool)
  | 0x0 => some (1, true)
  | 0x1 => some (2, true)
  | 0x2 => some (4, true)
  | 0x3 => some (8, false)
  | 0x4 => some (1, false)
  | 0x5 => some (2, false)
  | 0x6 => some (4, false)
  | _ => none

/-- The integer loads. -/
def executeLoad (inst : DecodedInst) : HartM Unit := do
  let rs1 ← readReg inst.rs1
  let addr ← alu .add rs1 inst.imm
  match loadKind inst.funct3 with
  | none => throw (illegal inst)
  | some (size, signed) => do
    let v ← memLoad addr size .load
    writeReg inst.rd (if signed then signExtend v (size * 8) else v)

/-- The width of a store. -/
def storeSize : ℕ → Option ℕ
  | 0x0 => some 1
  | 0x1 => some 2
  | 0x2 => some 4
  | 0x3 => some 8
  | _ => none

/-- The integer stores. -/
def executeStore (inst : DecodedInst) : HartM Unit := do
  let rs1 ← readReg inst.rs1
  let addr ← alu .add rs1 inst.imm
  let value ← readReg inst.rs2
  match storeSize inst.funct3 with
  | none => throw (illegal inst)
  | some size => memStore addr size value

/-! ## Bit manipulation

Each of the four dispatchers tries these encodings first; what is not one of them falls through
to `otherwise`. -/

section Zb

open Bitmanip

variable (inst : DecodedInst)

/-- The bit a single-bit operation is about. -/
def bitOf (i : U64) : U64 := (1 : U64) <<< (i &&& 63).toNat

/-- Bit manipulation on two registers. -/
def zbOp (a b : U64) : Option U64 :=
  let key := inst.funct7 * 8 + inst.funct3
  if key = 0x10 * 8 + 2 then some ((a <<< 1) + b)
  else if key = 0x10 * 8 + 4 then some ((a <<< 2) + b)
  else if key = 0x10 * 8 + 6 then some ((a <<< 3) + b)
  else if key = 0x20 * 8 + 7 then some (a &&& ~~~b)
  else if key = 0x20 * 8 + 6 then some (a ||| ~~~b)
  else if key = 0x20 * 8 + 4 then some (~~~(a ^^^ b))
  else if key = 0x05 * 8 + 4 then some (if a.slt b then a else b)
  else if key = 0x05 * 8 + 5 then some (if a ≤ b then a else b)
  else if key = 0x05 * 8 + 6 then some (if b.slt a then a else b)
  else if key = 0x05 * 8 + 7 then some (if a ≤ b then b else a)
  else if key = 0x30 * 8 + 1 then some (rol64 a (b.setWidth 32).toNat)
  else if key = 0x30 * 8 + 5 then some (ror64 a (b.setWidth 32).toNat)
  else if key = 0x24 * 8 + 1 then some (a &&& ~~~bitOf b)
  else if key = 0x24 * 8 + 5 then some ((a >>> (b &&& 63).toNat) &&& 1)
  else if key = 0x34 * 8 + 1 then some (a ^^^ bitOf b)
  else if key = 0x14 * 8 + 1 then some (a ||| bitOf b)
  else if key = 0x05 * 8 + 1 then some (clmul a b)
  else if key = 0x05 * 8 + 2 then some (clmulr a b)
  else if key = 0x05 * 8 + 3 then some (clmulh a b)
  else if key = 0x07 * 8 + 5 then some (if b = 0 then 0 else a)
  else if key = 0x07 * 8 + 7 then some (if b ≠ 0 then 0 else a)
  else none

/-- ZEXT.H shares its encoding with an instruction that is not implemented. -/
def zextHKey : ℕ := 0x04 * 8 + 4

/-- The same on 32 bits. -/
def zbOp32 (a b : U64) : Option U64 :=
  let key := inst.funct7 * 8 + inst.funct3
  if key = 0x04 * 8 then some (zext32 a + b)
  else if key = 0x10 * 8 + 2 then some ((zext32 a <<< 1) + b)
  else if key = 0x10 * 8 + 4 then some ((zext32 a <<< 2) + b)
  else if key = 0x10 * 8 + 6 then some ((zext32 a <<< 3) + b)
  else if key = zextHKey then some (a &&& 0xffff)
  else if key = 0x30 * 8 + 1 then
    some (sext ((rol32 (a.setWidth 32) (b.setWidth 32).toNat).setWidth 64) 32)
  else if key = 0x30 * 8 + 5 then
    some (sext ((ror32 (a.setWidth 32) (b.setWidth 32).toNat).setWidth 64) 32)
  else none

/-- The immediate field as a whole. -/
def imm12 : ℕ := ((inst.raw >>> 20) &&& 0xfff).toNat

/-- Bit manipulation with an immediate. -/
def zbOpImm (a : U64) : Option U64 :=
  let bit : U64 := (1 : U64) <<< inst.shamt6
  if inst.funct3 = 1 then
    if imm12 inst = 0x600 then some (clz64 a)
    else if imm12 inst = 0x601 then some (ctz64 a)
    else if imm12 inst = 0x602 then some (cpop64 a)
    else if imm12 inst = 0x604 then some (sext a 8)
    else if imm12 inst = 0x605 then some (sext a 16)
    else if inst.funct6 = 0x0a then some (a ||| bit)
    else if inst.funct6 = 0x12 then some (a &&& ~~~bit)
    else if inst.funct6 = 0x1a then some (a ^^^ bit)
    else none
  else if inst.funct3 = 5 then
    if imm12 inst = 0x6b8 then some (rev8 a)
    else if imm12 inst = 0x287 then some (orcB a)
    else if inst.funct6 = 0x18 then some (ror64 a inst.shamt6)
    else if inst.funct6 = 0x12 then some ((a >>> inst.shamt6) &&& 1)
    else none
  else none

/-- The same on 32 bits. -/
def zbOpImm32 (a : U64) : Option U64 :=
  if inst.funct3 = 1 then
    if imm12 inst = 0x600 then some (clz32 a)
    else if imm12 inst = 0x601 then some (ctz32 a)
    else if imm12 inst = 0x602 then some (cpop32 a)
    else if inst.funct6 = 0x02 then some (zext32 a <<< inst.shamt6)
    else none
  else if inst.funct3 = 5 ∧ inst.funct7 = 0x30 then
    some (sext ((ror32 (a.setWidth 32) inst.shamt5).setWidth 64) 32)
  else none

/-- Bit manipulation on two registers, or something else. -/
def executeZbOp (otherwise : HartM Unit) : HartM Unit := do
  let a ← readReg inst.rs1
  let b ← readReg inst.rs2
  match zbOp inst a b with
  | some r => writeReg inst.rd r
  | none => otherwise

/-- The same on 32 bits. -/
def executeZbOp32 (otherwise : HartM Unit) : HartM Unit := do
  let a ← readReg inst.rs1
  let b ← readReg inst.rs2
  if inst.funct7 * 8 + inst.funct3 = zextHKey ∧ inst.rs2 ≠ 0 then throw (illegal inst)
  else
    match zbOp32 inst a b with
    | some r => writeReg inst.rd r
    | none => otherwise

/-- The two immediate dispatchers differ in their table only. -/
def executeZbImm (table : U64 → Option U64) (otherwise : HartM Unit) : HartM Unit := do
  let a ← readReg inst.rs1
  match table a with
  | some r => writeReg inst.rd r
  | none => otherwise

/-- Bit manipulation with an immediate, or something else. -/
def executeZbOpImm (otherwise : HartM Unit) : HartM Unit :=
  executeZbImm inst (zbOpImm inst) otherwise

/-- The same on 32 bits. -/
def executeZbOpImm32 (otherwise : HartM Unit) : HartM Unit :=
  executeZbImm inst (zbOpImm32 inst) otherwise

end Zb

/-! ## ALU instructions -/

/-- The operation and second operand of an OP-IMM instruction. -/
def opImmKind (inst : DecodedInst) : Option (AluOp × U64) :=
  match inst.funct3 with
  | 0x0 => some (.add, inst.imm)
  | 0x1 => if inst.funct6 ≠ 0x00 then none else some (.sll, BitVec.ofNat 64 inst.shamt6)
  | 0x2 => some (.slt, inst.imm)
  | 0x3 => some (.sltu, inst.imm)
  | 0x4 => some (.xor, inst.imm)
  | 0x5 =>
    if inst.funct6 = 0x00 then some (.srl, BitVec.ofNat 64 inst.shamt6)
    else if inst.funct6 = 0x10 then some (.sra, BitVec.ofNat 64 inst.shamt6)
    else none
  | 0x6 => some (.or, inst.imm)
  | 0x7 => some (.and, inst.imm)
  | _ => none

/-- The operation and second operand of an OP-IMM-32 instruction. -/
def opImm32Kind (inst : DecodedInst) : Option (AluOp × U64) :=
  match inst.funct3 with
  | 0x0 => some (.addW, inst.imm)
  | 0x1 => if inst.funct7 ≠ 0x00 then none else some (.sllW, BitVec.ofNat 64 inst.shamt5)
  | 0x5 =>
    if inst.funct7 = 0x00 then some (.srlW, BitVec.ofNat 64 inst.shamt5)
    else if inst.funct7 = 0x20 then some (.sraW, BitVec.ofNat 64 inst.shamt5)
    else none
  | _ => none

/-- The plain part of an immediate dispatcher: its table of operations is `kind`. -/
def aluImm (inst : DecodedInst) (kind : Option (AluOp × U64)) : HartM Unit := do
  let rs1 ← readReg inst.rs1
  match kind with
  | none => throw (illegal inst)
  | some (op, b) => do
    let r ← alu op rs1 b
    writeReg inst.rd r

/-- Arithmetic with an immediate. -/
def executeOpImm (inst : DecodedInst) : HartM Unit :=
  if inst.funct3 = 1 ∨ inst.funct3 = 5 then executeZbOpImm inst (aluImm inst (opImmKind inst))
  else aluImm inst (opImmKind inst)

/-- The same on 32 bits. -/
def executeOpImm32 (inst : DecodedInst) : HartM Unit :=
  if inst.funct3 = 1 ∨ inst.funct3 = 5 then executeZbOpImm32 inst (aluImm inst (opImm32Kind inst))
  else aluImm inst (opImm32Kind inst)

/-- The operation of an OP instruction. -/
def opKind (inst : DecodedInst) : Option AluOp :=
  let sub := inst.funct7 == 0x20
  match inst.funct3 with
  | 0x0 => some (if sub then .sub else .add)
  | 0x5 => some (if sub then .sra else .srl)
  | 0x1 => if inst.funct7 ≠ 0x00 then none else some .sll
  | 0x2 => if inst.funct7 ≠ 0x00 then none else some .slt
  | 0x3 => if inst.funct7 ≠ 0x00 then none else some .sltu
  | 0x4 => if inst.funct7 ≠ 0x00 then none else some .xor
  | 0x6 => if inst.funct7 ≠ 0x00 then none else some .or
  | 0x7 => if inst.funct7 ≠ 0x00 then none else some .and
  | _ => none

/-- The operation of an OP-32 instruction. -/
def op32Kind (inst : DecodedInst) : Option AluOp :=
  let sub := inst.funct7 == 0x20
  match inst.funct3 with
  | 0x0 => some (if sub then .subW else .addW)
  | 0x1 => if inst.funct7 ≠ 0x00 then none else some .sllW
  | 0x5 => some (if sub then .sraW else .srlW)
  | _ => none

/-- The plain part of a register dispatcher. -/
def aluReg (inst : DecodedInst) (kind : Option AluOp) : HartM Unit :=
  if inst.funct7 ≠ 0x00 ∧ inst.funct7 ≠ 0x20 then throw (illegal inst)
  else do
    let a ← readReg inst.rs1
    let b ← readReg inst.rs2
    match kind with
    | none => throw (illegal inst)
    | some op => do
      let r ← alu op a b
      writeReg inst.rd r

/-! ## Multiplication and division -/

/-- Products, quotients and remainders. -/
def mulDiv (funct3 : ℕ) (a b : U64) : U64 :=
  match funct3 with
  | 0x0 => a * b
  | 0x1 => BitVec.ofInt 64 (a.toInt * b.toInt / 2 ^ 64)
  | 0x2 => BitVec.ofInt 64 (a.toInt * (b.toNat : Int) / 2 ^ 64)
  | 0x3 => BitVec.ofNat 64 (a.toNat * b.toNat / 2 ^ 64)
  | 0x4 =>
    if b = 0 then ~~~0
    else if a = BitVec.intMin 64 ∧ b = ~~~0 then a
    else a.sdiv b
  | 0x5 => if b = 0 then ~~~0 else a / b
  | 0x6 =>
    if b = 0 then a
    else if a = BitVec.intMin 64 ∧ b = ~~~0 then 0
    else a.srem b
  | _ => if b = 0 then a else a % b

/-- The M extension. -/
def executeMulDiv (inst : DecodedInst) : HartM Unit := do
  let a ← readReg inst.rs1
  let b ← readReg inst.rs2
  writeReg inst.rd (mulDiv inst.funct3 a b)

/-- Products, quotients and remainders of 32 bits. -/
def mulDiv32 (funct3 : ℕ) (a b : U32) : Option U32 :=
  match funct3 with
  | 0x0 => some (a * b)
  | 0x4 =>
    some (if b = 0 then ~~~0
      else if a = BitVec.intMin 32 ∧ b = ~~~0 then a
      else a.sdiv b)
  | 0x5 => some (if b = 0 then ~~~0 else a / b)
  | 0x6 =>
    some (if b = 0 then a
      else if a = BitVec.intMin 32 ∧ b = ~~~0 then 0
      else a.srem b)
  | 0x7 => some (if b = 0 then a else a % b)
  | _ => none

/-- The M extension on 32 bits. -/
def executeMulDiv32 (inst : DecodedInst) : HartM Unit := do
  let a ← readReg inst.rs1
  let b ← readReg inst.rs2
  match mulDiv32 inst.funct3 (a.setWidth 32) (b.setWidth 32) with
  | none => throw (illegal inst)
  | some r => writeReg inst.rd (sext32 r)

/-- Arithmetic on two registers. -/
def executeOp (inst : DecodedInst) : HartM Unit :=
  if inst.funct7 = 0x01 then executeMulDiv inst
  else if inst.funct7 ≠ 0x00 then executeZbOp inst (aluReg inst (opKind inst))
  else aluReg inst (opKind inst)

/-- The same on 32 bits. -/
def executeOp32 (inst : DecodedInst) : HartM Unit :=
  if inst.funct7 = 0x01 then executeMulDiv32 inst
  else if inst.funct7 ≠ 0x00 then executeZbOp32 inst (aluReg inst (op32Kind inst))
  else aluReg inst (op32Kind inst)

/-! ## Atomics -/

/-- Load and take a reservation: the virtual address in the hart, the granule in its mailbox. -/
def loadReserved (addr : U64) (size : ℕ) : HartM U64 := do
  let v ← memLoad addr size .load
  modifyCpu fun c => { c with reservationValid := true, reservationAddr := addr }
  let s ← get
  let pa := match ← attempt (translateFor addr .load s.cpu.dataPrivilege) with
    | .ok pa => pa
    | .error _ => addr
  modify fun s =>
    { s with sys := s.sys.emit (.loadReserved s.cpu.hartid addr pa size v) }.mapMail
      fun m => { m with reservation := pa >>> 3 }
  pure v

/-- Where a successful store-conditional wrote, for the history. -/
def lastStore : List Event → U64
  | .store _ pa _ :: _ => pa
  | _ => 0

/-- Store if the reservation is still held; `true` if it was.  The private half of the reservation
is given up first, so a store that traps leaves the hart without it. -/
def storeConditional (addr : U64) (size rs2 : ℕ) : HartM Bool := do
  let s ← get
  let holds : Bool := s.cpu.reservationValid ∧ s.cpu.reservationAddr = addr ∧
    (s.sys.mail s.cpu.hartid).reservation ≠ noRes
  emit (.scStart s.cpu.hartid addr)
  modifyCpu fun c => { c with reservationValid := false }
  let src ← readReg rs2
  if holds then do
    memStore addr size src
    modify fun s =>
      { s with sys :=
        s.sys.emit (.scDone s.cpu.hartid addr (lastStore s.sys.log) size src) }.mapMail
        fun m => { m with reservation := noRes }
    pure true
  else do
    modify fun s => s.mapMail fun m => { m with reservation := noRes }
    pure false

/-- The new value an AMO of some width stores. -/
def amoResult {w : ℕ} (funct5 : ℕ) (a b : BitVec w) : Option (BitVec w) :=
  if funct5 = 0x00 then some (a + b)
  else if funct5 = 0x01 then some b
  else if funct5 = 0x04 then some (a ^^^ b)
  else if funct5 = 0x08 then some (a ||| b)
  else if funct5 = 0x0c then some (a &&& b)
  else if funct5 = 0x10 then some (if b.slt a then b else a)
  else if funct5 = 0x14 then some (if a.slt b then b else a)
  else if funct5 = 0x18 then some (if b < a then b else a)
  else if funct5 = 0x1c then some (if a < b then b else a)
  else none

/-- A register value from a load of `size` bytes by an atomic. -/
def amoValue (size : ℕ) (v : U64) : U64 := if size = 4 then sext32 (v.setWidth 32) else v

/-- What a read-modify-write stores, from the value in memory and the operand. -/
def amoStore (size funct5 : ℕ) (orig src : U64) : Option U64 :=
  if size = 4 then
    (amoResult funct5 (orig.setWidth 32 : U32) (src.setWidth 32)).map (·.setWidth 64)
  else amoResult funct5 orig src

/-- The operation on an aligned address. -/
def executeAtomic (inst : DecodedInst) (size funct5 : ℕ) (addr : U64) : HartM Unit :=
  if funct5 = 0x02 then
    if inst.rs2 ≠ 0 then throw (illegal inst)
    else do
      let v ← loadReserved addr size
      writeReg inst.rd (amoValue size v)
  else if funct5 = 0x03 then do
    let ok ← storeConditional addr size inst.rs2
    writeReg inst.rd (if ok then 0 else 1)
  else do
    let orig ← memLoad addr size .load
    let src ← readReg inst.rs2
    match amoStore size funct5 orig src with
    | none => throw (illegal inst)
    | some result => do
      memStore addr size result
      writeReg inst.rd (amoValue size orig)

/-- The width of an atomic. -/
def amoSize : ℕ → Option ℕ
  | 0x2 => some 4
  | 0x3 => some 8
  | _ => none

/-- The A extension: LR, SC and read-modify-write. -/
def executeAmo (inst : DecodedInst) : HartM Unit :=
  match amoSize inst.funct3 with
  | none => throw (illegal inst)
  | some size => do
    let funct5 := inst.funct7 / 4 % 32
    let addr ← readReg inst.rs1
    if addr.toNat % size ≠ 0 then
      throw ⟨if funct5 = 0x02 then .loadAddressMisaligned else .storeAMOAddressMisaligned, addr⟩
    else executeAtomic inst size funct5 addr

end RiscvEmu
