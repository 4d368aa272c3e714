import Mathlib.Tactic.IntervalCases
import RiscvEmu.Types

/-!
# Instruction decoding

`decoder.rs`.  A 32-bit word is split into its fields; a 16-bit instruction is expanded to the
32-bit one it stands for and decoded as that.  The small fields (opcode, function codes, register
numbers) are natural numbers.
-/

namespace RiscvEmu

/-- The layouts of an instruction. -/
inductive Format where
  | R
  | I
  | S
  | B
  | U
  | J
  | unknown
deriving DecidableEq, Repr

namespace Opcode

/-- Loads. -/
def load : ℕ := 0x03
/-- Floating-point loads. -/
def loadFp : ℕ := 0x07
/-- Fences. -/
def miscMem : ℕ := 0x0f
/-- Arithmetic with an immediate. -/
def opImm : ℕ := 0x13
/-- An address relative to the pc. -/
def auipc : ℕ := 0x17
/-- Arithmetic with an immediate on 32 bits. -/
def opImm32 : ℕ := 0x1b
/-- Stores. -/
def store : ℕ := 0x23
/-- Floating-point stores. -/
def storeFp : ℕ := 0x27
/-- Atomics. -/
def amo : ℕ := 0x2f
/-- Arithmetic. -/
def op : ℕ := 0x33
/-- An upper immediate. -/
def lui : ℕ := 0x37
/-- Arithmetic on 32 bits. -/
def op32 : ℕ := 0x3b
/-- A product plus a number. -/
def madd : ℕ := 0x43
/-- A product minus a number. -/
def msub : ℕ := 0x47
/-- A number minus a product. -/
def nmsub : ℕ := 0x4b
/-- The negative of a product plus a number. -/
def nmadd : ℕ := 0x4f
/-- Floating-point arithmetic. -/
def opFp : ℕ := 0x53
/-- Branches. -/
def branch : ℕ := 0x63
/-- A jump to a register. -/
def jalr : ℕ := 0x67
/-- A jump. -/
def jal : ℕ := 0x6f
/-- Environment calls, CSRs and returns. -/
def system : ℕ := 0x73

end Opcode

/-- A decoded instruction. -/
structure DecodedInst where
  /-- The 32-bit instruction that is executed: the expansion of a compressed one. -/
  raw : U32
  /-- What was in memory. -/
  encoded : U32
  /-- 2 for a compressed instruction, 4 otherwise. -/
  length : U64
  opcode : ℕ
  rd : ℕ
  rs1 : ℕ
  rs2 : ℕ
  funct3 : ℕ
  funct7 : ℕ
  imm : U64
  fmt : Format
deriving DecidableEq, Repr

namespace DecodedInst

variable (i : DecodedInst)

/-- The upper six bits, for shifts. -/
def funct6 : ℕ := ((i.raw >>> 26) &&& 0x3f).toNat
/-- The distance of a shift. -/
def shamt6 : ℕ := ((i.raw >>> 20) &&& 0x3f).toNat
/-- The distance of a shift on 32 bits. -/
def shamt5 : ℕ := ((i.raw >>> 20) &&& 0x1f).toNat

end DecodedInst

/-! ## 32-bit instructions -/

/-- A field of an instruction word, as 64 bits. -/
def field (raw : U32) (lo : ℕ) (mask : U32) : U64 := ((raw >>> lo) &&& mask).setWidth 64

/-- The immediate of layout I. -/
def immI (raw : U32) : U64 := signExtend (field raw 20 0xfff) 12

/-- The immediate of layout S. -/
def immS (raw : U32) : U64 :=
  signExtend (field raw 25 0x7f <<< 5 ||| field raw 7 0x1f) 12

/-- The immediate of layout B. -/
def immB (raw : U32) : U64 :=
  signExtend (field raw 31 0x1 <<< 12 ||| field raw 7 0x1 <<< 11 ||| field raw 25 0x3f <<< 5 |||
    field raw 8 0xf <<< 1) 13

/-- The immediate of layout U. -/
def immU (raw : U32) : U64 := (raw &&& 0xfffff000).signExtend 64

/-- The immediate of layout J. -/
def immJ (raw : U32) : U64 :=
  signExtend (field raw 31 0x1 <<< 20 ||| field raw 12 0xff <<< 12 ||| field raw 20 0x1 <<< 11 |||
    field raw 21 0x3ff <<< 1) 21

open Opcode in
/-- The layout that an opcode has. -/
def formatForOpcode (opcode : ℕ) : Format :=
  if opcode ∈ [load, loadFp, miscMem, opImm, opImm32, jalr, system] then .I
  else if opcode ∈ [store, storeFp] then .S
  else if opcode = branch then .B
  else if opcode ∈ [auipc, lui] then .U
  else if opcode = jal then .J
  else if opcode ∈ [op, op32, amo, opFp, madd, msub, nmsub, nmadd] then .R
  else .unknown

/-- The immediate of a layout. -/
def immediate (raw : U32) : Format → U64
  | .I => immI raw
  | .S => immS raw
  | .B => immB raw
  | .U => immU raw
  | .J => immJ raw
  | .R | .unknown => 0

/-- The fields of an instruction of 32 bits. -/
def decode (raw : U32) : DecodedInst :=
  let opcode := (raw &&& 0x7f).toNat
  let fmt := formatForOpcode opcode
  { raw := raw
    encoded := raw
    length := 4
    opcode := opcode
    rd := ((raw >>> 7) &&& 0x1f).toNat
    rs1 := ((raw >>> 15) &&& 0x1f).toNat
    rs2 := ((raw >>> 20) &&& 0x1f).toNat
    funct3 := ((raw >>> 12) &&& 0x07).toNat
    funct7 := ((raw >>> 25) &&& 0x7f).toNat
    imm := immediate raw fmt
    fmt := fmt }

/-! ## 16-bit instructions -/

/-- The register that three bits stand for. -/
def creg (threeBits : U32) : U32 := threeBits + 8

/-- An instruction of layout R. -/
def encR (opcode : ℕ) (rd funct3 rs1 rs2 funct7 : U32) : U32 :=
  (funct7 <<< 25) ||| (rs2 <<< 20) ||| (rs1 <<< 15) ||| (funct3 <<< 12) ||| (rd <<< 7) |||
    BitVec.ofNat 32 opcode

/-- An instruction of layout I. -/
def encI (opcode : ℕ) (rd funct3 rs1 imm : U32) : U32 :=
  ((imm &&& 0xfff) <<< 20) ||| (rs1 <<< 15) ||| (funct3 <<< 12) ||| (rd <<< 7) |||
    BitVec.ofNat 32 opcode

/-- An instruction of layout S. -/
def encS (opcode : ℕ) (funct3 rs1 rs2 imm : U32) : U32 :=
  ((imm &&& 0xfe0) <<< 20) ||| (rs2 <<< 20) ||| (rs1 <<< 15) ||| (funct3 <<< 12) |||
    ((imm &&& 0x1f) <<< 7) ||| BitVec.ofNat 32 opcode

/-- An instruction of layout B. -/
def encB (opcode : ℕ) (funct3 rs1 rs2 imm : U32) : U32 :=
  ((imm &&& 0x1000) <<< 19) ||| ((imm &&& 0x7e0) <<< 20) ||| (rs2 <<< 20) ||| (rs1 <<< 15) |||
    (funct3 <<< 12) ||| ((imm &&& 0x1e) <<< 7) ||| ((imm &&& 0x800) >>> 4) |||
    BitVec.ofNat 32 opcode

/-- An instruction of layout U. -/
def encU (opcode : ℕ) (rd imm : U32) : U32 :=
  (imm &&& 0xfffff000) ||| (rd <<< 7) ||| BitVec.ofNat 32 opcode

/-- An instruction of layout J. -/
def encJ (opcode : ℕ) (rd imm : U32) : U32 :=
  ((imm &&& 0x100000) <<< 11) ||| ((imm &&& 0x7fe) <<< 20) ||| ((imm &&& 0x800) <<< 9) |||
    (imm &&& 0xff000) ||| (rd <<< 7) ||| BitVec.ofNat 32 opcode

/-- Sign-extend the low `bits` bits within 32. -/
def sx (value : U32) (bits : ℕ) : U32 :=
  let sign : U32 := (1 : U32) <<< (bits - 1)
  (value ^^^ sign) - sign

/-- Bits `hi` down to `lo` of a halfword. -/
def bits (h : U16) (hi lo : ℕ) : U32 :=
  (h.setWidth 32 >>> lo) &&& (((1 : U32) <<< (hi - lo + 1)) - 1)

section Decompress

open Opcode

variable (h : U16)

/-- The destination, which is also a source. -/
def rdRs1 : U32 := bits h 11 7
/-- The second source. -/
def rs2Full : U32 := bits h 6 2
/-- The short destination. -/
def rdP : U32 := creg (bits h 4 2)
/-- The short first source. -/
def rs1P : U32 := creg (bits h 9 7)

/-- The six-bit signed immediate of C.ADDI, C.LI, C.LUI and C.ANDI. -/
def imm6 : U32 := sx ((bits h 12 12 <<< 5) ||| rs2Full h) 6

/-- The offset of C.LW and C.SW. -/
def immLw : U32 := (bits h 5 5 <<< 6) ||| (bits h 12 10 <<< 3) ||| (bits h 6 6 <<< 2)

/-- The offset of C.LD, C.SD, C.FLD and C.FSD. -/
def immLd : U32 := (bits h 6 5 <<< 6) ||| (bits h 12 10 <<< 3)

/-- The offset of C.LDSP and C.FLDSP. -/
def immLdsp : U32 := (bits h 4 2 <<< 6) ||| (bits h 12 12 <<< 5) ||| (bits h 6 5 <<< 3)

/-- The offset of C.SDSP and C.FSDSP. -/
def immSdsp : U32 := (bits h 9 7 <<< 6) ||| (bits h 12 10 <<< 3)

/-- The first quadrant. -/
def decompress0 (funct3 : ℕ) : U32 :=
  match funct3 with
  | 0 =>
    -- C.ADDI4SPN
    let imm := (bits h 10 7 <<< 6) ||| (bits h 12 11 <<< 4) ||| (bits h 5 5 <<< 3) |||
      (bits h 6 6 <<< 2)
    if imm = 0 then 0 else encI opImm (rdP h) 0x0 2 imm
  | 1 => encI loadFp (rdP h) 0x3 (rs1P h) (immLd h)
  | 2 => encI load (rdP h) 0x2 (rs1P h) (immLw h)
  | 3 => encI load (rdP h) 0x3 (rs1P h) (immLd h)
  | 5 => encS storeFp 0x3 (rs1P h) (rdP h) (immLd h)
  | 6 => encS store 0x2 (rs1P h) (rdP h) (immLw h)
  | 7 => encS store 0x3 (rs1P h) (rdP h) (immLd h)
  | _ => 0

/-- The MISC-ALU group of quadrant 1. -/
def decompressMiscAlu : U32 :=
  let group := bits h 11 10
  if group = 0 ∨ group = 1 then
    let shamt := (bits h 12 12 <<< 5) ||| rs2Full h
    let funct6 : U32 := if group = 0 then 0x00 else 0x10
    (funct6 <<< 26) ||| (shamt <<< 20) ||| (rs1P h <<< 15) ||| (0x5 <<< 12) ||| (rs1P h <<< 7) |||
      BitVec.ofNat 32 opImm
  else if group = 2 then encI opImm (rs1P h) 0x7 (rs1P h) (imm6 h)
  else if bits h 12 12 = 0 then
    match (bits h 6 5).toNat with
    | 0 => encR op (rs1P h) 0x0 (rs1P h) (rdP h) 0x20
    | 1 => encR op (rs1P h) 0x4 (rs1P h) (rdP h) 0x00
    | 2 => encR op (rs1P h) 0x6 (rs1P h) (rdP h) 0x00
    | _ => encR op (rs1P h) 0x7 (rs1P h) (rdP h) 0x00
  else
    match (bits h 6 5).toNat with
    | 0 => encR op32 (rs1P h) 0x0 (rs1P h) (rdP h) 0x20
    | 1 => encR op32 (rs1P h) 0x0 (rs1P h) (rdP h) 0x00
    | _ => 0

/-- The second quadrant. -/
def decompress1 (funct3 : ℕ) : U32 :=
  match funct3 with
  | 0 => encI opImm (rdRs1 h) 0x0 (rdRs1 h) (imm6 h)
  | 1 => if rdRs1 h = 0 then 0 else encI opImm32 (rdRs1 h) 0x0 (rdRs1 h) (imm6 h)
  | 2 => encI opImm (rdRs1 h) 0x0 0 (imm6 h)
  | 3 =>
    if rdRs1 h = 2 then
      -- C.ADDI16SP
      let imm := sx ((bits h 12 12 <<< 9) ||| (bits h 4 3 <<< 7) ||| (bits h 5 5 <<< 6) |||
        (bits h 2 2 <<< 5) ||| (bits h 6 6 <<< 4)) 10
      if imm = 0 then 0 else encI opImm 2 0x0 2 imm
    else if rdRs1 h = 0 then 0
    else if imm6 h = 0 then 0
    else encU lui (rdRs1 h) (imm6 h <<< 12)
  | 4 => decompressMiscAlu h
  | 5 =>
    -- C.J
    let imm := sx ((bits h 12 12 <<< 11) ||| (bits h 8 8 <<< 10) ||| (bits h 10 9 <<< 8) |||
      (bits h 6 6 <<< 7) ||| (bits h 7 7 <<< 6) ||| (bits h 2 2 <<< 5) |||
      (bits h 11 11 <<< 4) ||| (bits h 5 3 <<< 1)) 12
    encJ jal 0 imm
  | 6 | 7 =>
    -- C.BEQZ, C.BNEZ
    let imm := sx ((bits h 12 12 <<< 8) ||| (bits h 6 5 <<< 6) ||| (bits h 2 2 <<< 5) |||
      (bits h 11 10 <<< 3) ||| (bits h 4 3 <<< 1)) 9
    encB branch (if funct3 = 6 then 0x0 else 0x1) (rs1P h) 0 imm
  | _ => 0

/-- The third quadrant. -/
def decompress2 (funct3 : ℕ) : U32 :=
  match funct3 with
  | 0 =>
    if rdRs1 h = 0 then 0
    else
      let shamt := (bits h 12 12 <<< 5) ||| rs2Full h
      (shamt <<< 20) ||| (rdRs1 h <<< 15) ||| (0x1 <<< 12) ||| (rdRs1 h <<< 7) |||
        BitVec.ofNat 32 opImm
  | 1 => encI loadFp (rdRs1 h) 0x3 2 (immLdsp h)
  | 2 =>
    if rdRs1 h = 0 then 0
    else
      let imm := (bits h 3 2 <<< 6) ||| (bits h 12 12 <<< 5) ||| (bits h 6 4 <<< 2)
      encI load (rdRs1 h) 0x2 2 imm
  | 3 => if rdRs1 h = 0 then 0 else encI load (rdRs1 h) 0x3 2 (immLdsp h)
  | 4 =>
    if bits h 12 12 = 0 then
      if rs2Full h = 0 then (if rdRs1 h = 0 then 0 else encI jalr 0 0x0 (rdRs1 h) 0)
      else encR op (rdRs1 h) 0x0 0 (rs2Full h) 0x00
    else if rs2Full h = 0 then
      -- C.EBREAK, C.JALR
      if rdRs1 h = 0 then 0x00100073 else encI jalr 1 0x0 (rdRs1 h) 0
    else encR op (rdRs1 h) 0x0 (rdRs1 h) (rs2Full h) 0x00
  | 5 => encS storeFp 0x3 2 (rs2Full h) (immSdsp h)
  | 6 => encS store 0x2 2 (rs2Full h) ((bits h 8 7 <<< 6) ||| (bits h 12 9 <<< 2))
  | 7 => encS store 0x3 2 (rs2Full h) (immSdsp h)
  | _ => 0

/-- The 32-bit instruction a halfword stands for, 0 if it is not a compressed instruction. -/
def decompress : U32 :=
  if h = 0 then 0
  else
    let funct3 := (bits h 15 13).toNat
    match (h &&& 0x3).toNat with
    | 0 => decompress0 h funct3
    | 1 => decompress1 h funct3
    | 2 => decompress2 h funct3
    | _ => 0

end Decompress

/-- Does an instruction of 32 bits begin here? -/
def is32bitInstruction (half : U16) : Bool := half &&& 0x3 == 0x3

/-- Decode from the halfword at the pc and, for a 32-bit instruction, the next one. -/
def decode16 (low high : U16) : DecodedInst :=
  if is32bitInstruction low then
    let raw := (high.setWidth 32 <<< 16) ||| low.setWidth 32
    { decode raw with encoded := raw, length := 4 }
  else { decode (decompress low) with encoded := low.setWidth 32, length := 2 }

/-! ## Decoding loses nothing -/

/-- Put an instruction together from its fields, with the encoders of the expansions. -/
def DecodedInst.encode (i : DecodedInst) : U32 :=
  let f (n : ℕ) : U32 := BitVec.ofNat 32 n
  let imm := i.imm.setWidth 32
  match i.fmt with
  | .R => encR i.opcode (f i.rd) (f i.funct3) (f i.rs1) (f i.rs2) (f i.funct7)
  | .I => encI i.opcode (f i.rd) (f i.funct3) (f i.rs1) imm
  | .S => encS i.opcode (f i.funct3) (f i.rs1) (f i.rs2) imm
  | .B => encB i.opcode (f i.funct3) (f i.rs1) (f i.rs2) imm
  | .U => encU i.opcode (f i.rd) imm
  | .J => encJ i.opcode (f i.rd) imm
  | .unknown => i.raw

lemma encode_decode (raw : U32) : (decode raw).encode = raw := by
  unfold decode DecodedInst.encode
  dsimp only
  generalize formatForOpcode _ = fmt
  cases fmt
  case unknown => rfl
  all_goals
    simp only [immediate, immI, immS, immB, immU, immJ, field, signExtend, encR, encI, encS, encB,
      encU, encJ, BitVec.ofNat_toNat]
    refine BitVec.eq_of_getLsbD_eq fun i hi => ?_
    simp only [BitVec.getLsbD_or, BitVec.getLsbD_and, BitVec.getLsbD_shiftLeft,
      BitVec.getLsbD_ushiftRight, BitVec.getLsbD_setWidth, BitVec.getLsbD_sshiftRight,
        BitVec.getLsbD_signExtend]
    -- every bit of the word comes from the field that has it
    interval_cases i <;> grind

/-- The fields of an instruction give back the word it was decoded from, or the expansion of a
compressed one. -/
theorem encode_decode16 (low high : U16) : (decode16 low high).encode =
    if is32bitInstruction low then (high.setWidth 32 <<< 16) ||| low.setWidth 32
      else decompress low := by
  unfold decode16
  split <;> exact encode_decode _

end RiscvEmu
