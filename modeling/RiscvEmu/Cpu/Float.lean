import RiscvEmu.Cpu.System
import RiscvEmu.Softfloat

/-!
# Floating-point instructions

`cpu/fp.rs`: the F and D extensions.  A single lives in the low half of a register with the upper
half all ones; anything else reads as the canonical NaN.
-/

namespace RiscvEmu

open Exec Softfloat

/-- The single NaN that operations return. -/
def canonicalNanF32 : U32 := 0x7fc00000

/-- A single in a register. -/
def nanBox (single : U32) : U64 := 0xffffffff00000000 ||| single.setWidth 64

/-- The single in a register. -/
def nanUnbox (reg : U64) : U32 :=
  if reg >>> 32 = 0xffffffff then reg.setWidth 32 else canonicalNanF32

/-- The ten classes of FCLASS, one bit each. -/
def fclass (bits : U64) (f : Fmt) : U64 :=
  let negative : Bool := bits >>> (f.expBits + f.fracBits) ≠ 0
  let expMax : U64 := ((1 : U64) <<< f.expBits) - 1
  let exponent := (bits >>> f.fracBits) &&& expMax
  let mantissa := bits &&& (((1 : U64) <<< f.fracBits) - 1)
  if exponent = expMax then
    if mantissa = 0 then if negative then 1 <<< 0 else 1 <<< 7
    else if mantissa &&& ((1 : U64) <<< (f.fracBits - 1)) ≠ 0 then 1 <<< 9 else 1 <<< 8
  else if exponent = 0 then
    if mantissa = 0 then if negative then 1 <<< 3 else 1 <<< 4
    else if negative then 1 <<< 2 else 1 <<< 5
  else if negative then 1 <<< 1 else 1 <<< 6

/-! ## Elementary programs -/

/-- Refuse if the unit is off. -/
def requireFpu (inst : DecodedInst) : HartM Unit := do
  let s ← get
  if ¬ s.cpu.csrs.fpuEnabled then throw (illegal inst) else pure ()

/-- Writing an f register makes the unit dirty. -/
def writeFreg (index : ℕ) (value : U64) : HartM Unit := modifyCpu fun c =>
  { c with fregs := Function.update c.fregs index value, csrs := c.csrs.markFpuDirty }

/-- Exceptions accrue, as a program. -/
def raiseFflags (flags : U64) : HartM Unit :=
  modifyCpu fun c => { c with csrs := c.csrs.raiseFflags flags }

/-- The `rm` field that takes the rounding mode from `fcsr`. -/
def frmDyn : ℕ := 7

/-- The rounding mode of an instruction. -/
def rounding (inst : DecodedInst) : HartM Rm := do
  let s ← get
  match Rm.fromBits (if inst.funct3 = frmDyn then s.cpu.csrs.roundingMode else inst.funct3) with
  | some rm => pure rm
  | none => throw (illegal inst)

/-- The format of an instruction. -/
def fmtOf (isDouble : Bool) : Fmt := if isDouble then F64 else F32

/-- An operand as an operation of the given precision sees it. -/
def fpOperand (isDouble : Bool) (reg : U64) : U64 :=
  if isDouble then reg else (nanUnbox reg).setWidth 64

/-- A result as it is stored in a register. -/
def fpResult (isDouble : Bool) (bits : U64) : U64 :=
  if isDouble then bits else nanBox (bits.setWidth 32)

/-- Raise the flags of a result and write it to an f register. -/
def putFp (inst : DecodedInst) (isDouble : Bool) (r : U64 × U64) : HartM Unit := do
  raiseFflags r.2
  writeFreg inst.rd (fpResult isDouble r.1)

/-- Raise the flags of a result and write it to an x register. -/
def putInt (inst : DecodedInst) (r : U64 × U64) : HartM Unit := do
  raiseFflags r.2
  writeReg inst.rd r.1

/-- An operation that rounds. -/
def fpArith (inst : DecodedInst) (isDouble : Bool) (f : Rm → U64 × U64) : HartM Unit := do
  let rm ← rounding inst
  putFp inst isDouble (f rm)

/-! ## Loads and stores -/

/-- The floating-point loads. -/
def executeLoadFp (inst : DecodedInst) : HartM Unit := do
  requireFpu inst
  let rs1 ← readReg inst.rs1
  if inst.funct3 = 0x2 then do
    let v ← memLoad (rs1 + inst.imm) 4 .load
    writeFreg inst.rd (nanBox (v.setWidth 32))
  else if inst.funct3 = 0x3 then do
    let v ← memLoad (rs1 + inst.imm) 8 .load
    writeFreg inst.rd v
  else throw (illegal inst)

/-- The floating-point stores. -/
def executeStoreFp (inst : DecodedInst) : HartM Unit := do
  requireFpu inst
  let rs1 ← readReg inst.rs1
  let s ← get
  if inst.funct3 = 0x2 then memStore (rs1 + inst.imm) 4 (s.cpu.fregs inst.rs2 &&& 0xffffffff)
  else if inst.funct3 = 0x3 then memStore (rs1 + inst.imm) 8 (s.cpu.fregs inst.rs2)
  else throw (illegal inst)

/-! ## Results that need no rounding -/

/-- The sign bit. -/
def fpSignBit (isDouble : Bool) : U64 := if isDouble then 1 <<< 63 else 1 <<< 31

/-- The injected sign of FSGNJ, FSGNJN and FSGNJX. -/
def fsgnjSign (funct3 : ℕ) (a b signBit : U64) : Option U64 :=
  match funct3 with
  | 0x0 => some (b &&& signBit)
  | 0x1 => some (~~~b &&& signBit)
  | 0x2 => some ((a ^^^ b) &&& signBit)
  | _ => none

/-- FMIN and FMAX. -/
def fminmax (wantMax : Bool) (a b : U64) (f : Fmt) : U64 × U64 :=
  let flags := if isSnan a f || isSnan b f then Csr.fflagNv else 0
  let result :=
    if isNan a f && isNan b f then f.canonicalNan
    else if isNan a f then b
    else if isNan b f then a
    else
      let ord := Softfloat.compare a b f
      if ord = 0 then
        let negZero := f.zero true
        if a = negZero ∧ b ≠ negZero then if wantMax then b else a
        else if b = negZero ∧ a ≠ negZero then if wantMax then a else b
        else a
      else if decide (ord > 0) = wantMax then a else b
  (result, flags)

/-- FEQ, FLT and FLE: the result and the flags. -/
def fcompare (funct3 : ℕ) (a b : U64) (f : Fmt) : Option (U64 × U64) :=
  let ordered := !isNan a f && !isNan b f
  let anySnan := isSnan a f || isSnan b f
  match funct3 with
  | 0x2 => some (boolToU64 (ordered && Softfloat.compare a b f == 0),
      if anySnan then Csr.fflagNv else 0)
  | 0x1 => some (boolToU64 (ordered && decide (Softfloat.compare a b f < 0)),
      if ordered then 0 else Csr.fflagNv)
  | 0x0 => some (boolToU64 (ordered && decide (Softfloat.compare a b f ≤ 0)),
      if ordered then 0 else Csr.fflagNv)
  | _ => none

/-- Width and signedness of the integer of a conversion. -/
def intKind : ℕ → Option (ℕ × Bool)
  | 0 => some (32, true)
  | 1 => some (32, false)
  | 2 => some (64, true)
  | 3 => some (64, false)
  | _ => none

/-- A 32-bit result is sign-extended, even the unsigned one. -/
def widenInt (bits : ℕ) (r : U64 × U64) : U64 × U64 :=
  (if bits = 32 then sext32 (r.1.setWidth 32) else r.1, r.2)

/-- Sign and magnitude of the integer a conversion reads. -/
def intOperand (rs2 : ℕ) (x : U64) : Bool × U64 :=
  match rs2 with
  | 0 => ((x.setWidth 32).msb, ((x.setWidth 32).abs).setWidth 64)
  | 1 => (false, (x.setWidth 32 : U32).setWidth 64)
  | 2 => (x.msb, x.abs)
  | _ => (false, x)

/-! ## OP-FP -/

/-- The operation named by `op`, on the raw registers `aBits` and `bBits`. -/
def opFp (inst : DecodedInst) (op : ℕ) (isDouble : Bool) (aBits bBits : U64) : HartM Unit :=
  let fmt := fmtOf isDouble
  let a := fpOperand isDouble aBits
  let b := fpOperand isDouble bBits
  if op = 0x00 then fpArith inst isDouble (add a b fmt)
  else if op = 0x01 then fpArith inst isDouble (sub a b fmt)
  else if op = 0x02 then fpArith inst isDouble (mul a b fmt)
  else if op = 0x03 then fpArith inst isDouble (div a b fmt)
  else if op = 0x0b then
    if inst.rs2 ≠ 0 then throw (illegal inst) else fpArith inst isDouble (sqrt a fmt)
  else if op = 0x04 then
    match fsgnjSign inst.funct3 a b (fpSignBit isDouble) with
    | none => throw (illegal inst)
    | some sign => writeFreg inst.rd (fpResult isDouble ((a &&& ~~~fpSignBit isDouble) ||| sign))
  else if op = 0x05 then
    if inst.funct3 > 0x1 then throw (illegal inst)
    else putFp inst isDouble (fminmax (inst.funct3 == 0x1) a b fmt)
  else if op = 0x08 then
    if inst.rs2 ≠ (if isDouble then 0 else 1) then throw (illegal inst)
    -- the source has the other precision
    else fpArith inst isDouble (convert (fpOperand (!isDouble) aBits) (fmtOf (!isDouble)) fmt)
  else if op = 0x14 then
    match fcompare inst.funct3 a b fmt with
    | none => throw (illegal inst)
    | some r => putInt inst r
  else if op = 0x18 then do
    let rm ← rounding inst
    match intKind inst.rs2 with
    | none => throw (illegal inst)
    | some (bits, signed) => putInt inst (widenInt bits (toInt a fmt rm bits signed))
  else if op = 0x1a then
    if inst.rs2 > 3 then throw (illegal inst)
    else do
      let rm ← rounding inst
      let x ← readReg inst.rs1
      putFp inst isDouble (fromInt (intOperand inst.rs2 x).1 (intOperand inst.rs2 x).2 fmt rm)
  else if op = 0x1c then
    if inst.funct3 = 0x0 then
      if inst.rs2 ≠ 0 then throw (illegal inst)
      else writeReg inst.rd (if isDouble then aBits else sext32 (aBits.setWidth 32))
    else if inst.funct3 = 0x1 then writeReg inst.rd (fclass a fmt)
    else throw (illegal inst)
  else if op = 0x1e then
    if inst.funct3 ≠ 0x0 ∨ inst.rs2 ≠ 0 then throw (illegal inst)
    else do
      let x ← readReg inst.rs1
      writeFreg inst.rd (fpResult isDouble x)
  else throw (illegal inst)

/-- The floating-point operations. -/
def executeOpFp (inst : DecodedInst) : HartM Unit := do
  requireFpu inst
  let s ← get
  let isDouble := inst.funct7 % 4 == 1
  if inst.funct7 % 4 > 1 then throw (illegal inst)
  else opFp inst (inst.funct7 / 4) isDouble (s.cpu.fregs inst.rs1) (s.cpu.fregs inst.rs2)

/-! ## Fused multiply-add -/

/-- The product and addend signs of the four fused operations, then the operation itself. -/
def fusedMadd (opcode : ℕ) (isDouble : Bool) (ra rb rc : U64) (rm : Rm) : U64 × U64 :=
  let sign := fpSignBit isDouble
  let a := fpOperand isDouble ra
  let c := fpOperand isDouble rc
  fma (if opcode = Opcode.nmsub ∨ opcode = Opcode.nmadd then a ^^^ sign else a)
    (fpOperand isDouble rb)
    (if opcode = Opcode.msub ∨ opcode = Opcode.nmadd then c ^^^ sign else c) (fmtOf isDouble) rm

/-- The fused operations. -/
def executeFusedMadd (inst : DecodedInst) : HartM Unit := do
  requireFpu inst
  let s ← get
  let fmtBits := ((inst.raw >>> 25) &&& 0x3).toNat
  let result := fusedMadd inst.opcode (fmtBits == 1) (s.cpu.fregs inst.rs1) (s.cpu.fregs inst.rs2)
    (s.cpu.fregs (inst.raw >>> 27).toNat)
  if fmtBits > 1 then throw (illegal inst) else fpArith inst (fmtBits == 1) result

end RiscvEmu
