import RiscvEmu.Types

/-!
# Integer arithmetic

`backends.rs` and `bitmanip.rs`: the operations of the plain ALU, the two backends that may stand
in for it and for the register file, and the bit-manipulation functions.
-/

namespace RiscvEmu

/-! ## The ALU -/

/-- The operations of the ALU. -/
inductive AluOp where
  | add
  | sub
  | and
  | or
  | xor
  | sll
  | srl
  | sra
  | slt
  | sltu
  | addW
  | subW
  | sllW
  | srlW
  | sraW
deriving DecidableEq, Repr

/-- A truth value as a register value. -/
def boolToU64 (b : Bool) : U64 := if b then 1 else 0

/-- What the operations compute. -/
def aluReference (op : AluOp) (a b : U64) : U64 :=
  let a32 : U32 := a.setWidth 32
  let b32 : U32 := b.setWidth 32
  let sh6 := (b &&& 0x3f).toNat
  let sh5 := (b &&& 0x1f).toNat
  match op with
  | .add => a + b
  | .sub => a - b
  | .and => a &&& b
  | .or => a ||| b
  | .xor => a ^^^ b
  | .sll => a <<< sh6
  | .srl => a >>> sh6
  | .sra => a.sshiftRight sh6
  | .slt => boolToU64 (a.slt b)
  | .sltu => boolToU64 (a.ult b)
  | .addW => sext32 (a32 + b32)
  | .subW => sext32 (a32 - b32)
  | .sllW => sext32 (a32 <<< sh5)
  | .srlW => sext32 (a32 >>> sh5)
  | .sraW => sext32 (a32.sshiftRight sh5)

/-! ## Backends

An installed backend is code outside the program.  It is given by how it answers, as a function of
all calls made to it so far, and by those calls. -/

/-- An ALU that stands in for the plain one. -/
structure AluBackend where
  calls : List (AluOp × U64 × U64)
  respond : List (AluOp × U64 × U64) → AluOp → U64 → U64 → U64

/-- Call an installed ALU. -/
def AluBackend.exec (b : AluBackend) (op : AluOp) (x y : U64) : U64 × AluBackend :=
  (b.respond b.calls op x y, { b with calls := (op, x, y) :: b.calls })

/-- A call to a register file. -/
inductive RegCall where
  | read (index : ℕ)
  | write (index : ℕ) (value : U64)
deriving DecidableEq, Repr

/-- A register file that stands in for the array. -/
structure RegFileBackend where
  calls : List RegCall
  respond : List RegCall → ℕ → U64

/-- Read from an installed register file. -/
def RegFileBackend.read (b : RegFileBackend) (index : ℕ) : U64 × RegFileBackend :=
  (b.respond b.calls index, { b with calls := .read index :: b.calls })

/-- Write to an installed register file. -/
def RegFileBackend.write (b : RegFileBackend) (index : ℕ) (value : U64) : RegFileBackend :=
  { b with calls := .write index value :: b.calls }

/-! ## Bit manipulation -/

namespace Bitmanip

/-- Zero extension from 32 bits. -/
def zext32 (x : U64) : U64 := x &&& 0xffffffff

/-- Sign extension. -/
def sext (x : U64) (bits : ℕ) : U64 := signExtend x bits

/-- Rotate left. -/
def rol64 (x : U64) (n : ℕ) : U64 := x.rotateLeft (n % 64)
/-- Rotate right. -/
def ror64 (x : U64) (n : ℕ) : U64 := x.rotateRight (n % 64)
/-- Rotate 32 bits left. -/
def rol32 (x : U32) (n : ℕ) : U32 := x.rotateLeft (n % 32)
/-- Rotate 32 bits right. -/
def ror32 (x : U32) (n : ℕ) : U32 := x.rotateRight (n % 32)

/-- The number of zeros above the top set bit of a number of `w` bits. -/
def leadingZeros (w x : ℕ) : ℕ := if x = 0 then w else w - 1 - Nat.log2 x

/-- The number of zeros below the lowest set bit, counted up to `w`. -/
def trailingZeros : ℕ → ℕ → ℕ
  | 0, _ => 0
  | w + 1, x => if x % 2 = 1 then 0 else 1 + trailingZeros w (x / 2)

/-- The number of set bits among the low `w`. -/
def countOnes : ℕ → ℕ → ℕ
  | 0, _ => 0
  | w + 1, x => x % 2 + countOnes w (x / 2)

/-- Count leading zeros. -/
def clz64 (x : U64) : U64 := BitVec.ofNat 64 (leadingZeros 64 x.toNat)
/-- Count trailing zeros. -/
def ctz64 (x : U64) : U64 := BitVec.ofNat 64 (trailingZeros 64 x.toNat)
/-- Count ones. -/
def cpop64 (x : U64) : U64 := BitVec.ofNat 64 (countOnes 64 x.toNat)
/-- Count leading zeros of 32 bits. -/
def clz32 (x : U64) : U64 := BitVec.ofNat 64 (leadingZeros 32 (x.setWidth 32).toNat)
/-- Count trailing zeros of 32 bits. -/
def ctz32 (x : U64) : U64 := BitVec.ofNat 64 (trailingZeros 32 (x.setWidth 32).toNat)
/-- Count ones of 32 bits. -/
def cpop32 (x : U64) : U64 := BitVec.ofNat 64 (countOnes 32 (x.setWidth 32).toNat)

/-- Byte `i` of a word, in place. -/
def byteAt (x : U64) (i : ℕ) : U64 := (x >>> (8 * i)) &&& 0xff

/-- Reverse the bytes. -/
def rev8 (x : U64) : U64 :=
  (List.range 8).foldl (fun r i => r ||| byteAt x i <<< (8 * (7 - i))) 0

/-- All ones in each byte that is not zero. -/
def orcB (x : U64) : U64 :=
  (List.range 8).foldl (fun r i => if byteAt x i ≠ 0 then r ||| ((0xff : U64) <<< (8 * i)) else r) 0

/-- One turn of the loop of `clmul128`: the product so far, low and high half. -/
def clmulStep (a b : U64) (acc : U64 × U64) (i : ℕ) : U64 × U64 :=
  if (b >>> i) &&& 1 ≠ 0 then
    (acc.1 ^^^ (a <<< i), if i ≠ 0 then acc.2 ^^^ (a >>> (64 - i)) else acc.2)
  else acc

/-- The carry-less product, low and high. -/
def clmul128 (a b : U64) : U64 × U64 := (List.range 64).foldl (clmulStep a b) (0, 0)

/-- The low half of the product. -/
def clmul (a b : U64) : U64 := (clmul128 a b).1
/-- The high half of the product. -/
def clmulh (a b : U64) : U64 := (clmul128 a b).2
/-- The product, reversed. -/
def clmulr (a b : U64) : U64 := ((clmul128 a b).2 <<< 1) ||| ((clmul128 a b).1 >>> 63)

end Bitmanip

end RiscvEmu
