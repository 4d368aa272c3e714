import RiscvEmu.Csr
import Mathlib.Data.Int.Notation

/-!
# Floating-point arithmetic

`softfloat.rs`.  Every operation computes an exact significand and exponent and rounds once, in
`roundPack`.  Significands, `u128` in the source, are natural numbers here: none of the operations
on them overflows.
-/

namespace RiscvEmu

namespace Softfloat

open Csr

/-- The rounding modes. -/
inductive Rm where
  | rne
  | rtz
  | rdn
  | rup
  | rmm
deriving DecidableEq, Repr

/-- The mode that three bits stand for. -/
def Rm.fromBits : ℕ → Option Rm
  | 0 => some .rne
  | 1 => some .rtz
  | 2 => some .rdn
  | 3 => some .rup
  | 4 => some .rmm
  | _ => none

/-- A binary format. -/
structure Fmt where
  expBits : ℕ
  fracBits : ℕ
deriving DecidableEq, Repr

/-- Single precision. -/
def F32 : Fmt := ⟨8, 23⟩
/-- Double precision. -/
def F64 : Fmt := ⟨11, 52⟩

namespace Fmt

variable (f : Fmt)

/-- The bias of exponents. -/
def bias : ℤ := 2 ^ (f.expBits - 1) - 1
/-- The exponent of infinities and NaNs. -/
def expMax : U64 := ((1 : U64) <<< f.expBits) - 1
/-- The bits of the fraction. -/
def fracMask : U64 := ((1 : U64) <<< f.fracBits) - 1
/-- The bit of the sign. -/
def signBit : U64 := (1 : U64) <<< (f.expBits + f.fracBits)
/-- The precision. -/
def p : ℕ := f.fracBits + 1
/-- The NaN that operations return. -/
def canonicalNan : U64 := (f.expMax <<< f.fracBits) ||| ((1 : U64) <<< (f.fracBits - 1))
/-- A zero. -/
def zero (sign : Bool) : U64 := if sign then f.signBit else 0
/-- An infinity. -/
def inf (sign : Bool) : U64 := f.zero sign ||| (f.expMax <<< f.fracBits)
/-- The largest number. -/
def maxFinite (sign : Bool) : U64 :=
  f.zero sign ||| (((f.expMax - 1) <<< f.fracBits) ||| f.fracMask)

end Fmt

/-- What a bit pattern stands for, its sign apart. -/
inductive Class where
  | zero
  | inf
  | nan (signalling : Bool)
  /-- The value `sig * 2 ^ exp`. -/
  | finite (sig : ℕ) (exp : ℤ)

/-- The parts of a pattern. -/
structure Unpacked where
  sign : Bool
  cls : Class

/-- Take a pattern apart. -/
def unpack (bits : U64) (f : Fmt) : Unpacked :=
  let sign := bits &&& f.signBit != 0
  let e := (bits >>> f.fracBits) &&& f.expMax
  let frac := bits &&& f.fracMask
  let cls : Class :=
    if e = f.expMax then
      if frac = 0 then .inf else .nan (frac &&& ((1 : U64) <<< (f.fracBits - 1)) == 0)
    else if e = 0 then
      if frac = 0 then .zero else .finite frac.toNat (1 - f.bias - f.fracBits)
    else .finite (frac ||| ((1 : U64) <<< f.fracBits)).toNat (e.toNat - f.bias - f.fracBits)
  ⟨sign, cls⟩

/-- Is it a NaN? -/
def Class.isNan : Class → Bool
  | .nan _ => true
  | _ => false

/-- Is it a signalling NaN? -/
def Class.isSnan : Class → Bool
  | .nan true => true
  | _ => false

/-- Is a pattern a NaN? -/
def isNan (bits : U64) (f : Fmt) : Bool := (unpack bits f).cls.isNan
/-- Is a pattern a signalling NaN? -/
def isSnan (bits : U64) (f : Fmt) : Bool := (unpack bits f).cls.isSnan

/-! ## Rounding -/

/-- Where the top bit of a significand is brought before rounding. -/
def T : ℕ := 120

/-- Does a mode round up, given what was dropped? -/
def roundsUp (rm : Rm) (sign lsb half rest : Bool) : Bool :=
  match rm with
  | .rne => half && (rest || lsb)
  | .rtz => false
  | .rdn => sign && (half || rest)
  | .rup => !sign && (half || rest)
  | .rmm => half

/-- Round to a neighbour. -/
def roundUp (rm : Rm) (sign : Bool) (kept : ℕ) (half rest : Bool) : ℕ :=
  kept + (roundsUp rm sign (kept % 2 != 0) half rest).toNat

/-- The bits kept, the half bit, and whether anything is below it. -/
def splitAt (sigN : ℕ) (sticky : Bool) (shift : ℕ) : ℕ × Bool × Bool :=
  if shift ≥ T + 2 then (0, false, true)
  else
    let dropped := sigN % 2 ^ shift
    let half := 2 ^ (shift - 1)
    (sigN / 2 ^ shift, dropped / half % 2 != 0, dropped % half != 0 || sticky)

/-- `roundPack` for a significand that is not zero. -/
def roundPackPos (sign : Bool) (exp : ℤ) (sig : ℕ) (sticky : Bool) (f : Fmt) (rm : Rm) :
    U64 × U64 :=
  let msb := Nat.log2 sig
  let sticky := sticky || (msb > T && sig % 2 ^ (msb - T) != 0)
  let sigN := if msb > T then sig / 2 ^ (msb - T) else sig * 2 ^ (T - msb)
  let eLead : ℤ := exp + msb
  let emin := 1 - f.bias
  let biased := eLead + f.bias
  let baseShift := T + 1 - f.p
  let shift := if biased ≥ 1 then baseShift else baseShift + (1 - biased).toNat
  let (kept0, half, rest) := splitAt sigN sticky shift
  let inexact := half || rest
  let kept := roundUp rm sign kept0 half rest
  let flags := if inexact then fflagNx else 0
  if biased ≥ 1 then
    let carried := kept == 2 ^ f.p
    let k := if carried then kept / 2 else kept
    let be := if carried then biased + 1 else biased
    if be ≥ f.expMax.toNat then
      let toInf := match rm with
        | .rne | .rmm => true
        | .rtz => false
        | .rdn => sign
        | .rup => !sign
      (if toInf then f.inf sign else f.maxFinite sign, flags ||| fflagOf ||| fflagNx)
    else
      (f.zero sign ||| (BitVec.ofInt 64 be <<< f.fracBits) ||| (BitVec.ofNat 64 k &&& f.fracMask),
        flags)
  else
    -- tininess is detected after rounding
    let (kP, halfP, restP) := splitAt sigN sticky baseShift
    let roundedP := roundUp rm sign kP halfP restP
    let reachesNormal := eLead = emin - 1 ∧ roundedP = 2 ^ f.p
    let flags := if inexact ∧ ¬ reachesNormal then flags ||| fflagUf else flags
    (f.zero sign ||| BitVec.ofNat 64 kept, flags)

/-- Round and pack `sig * 2 ^ exp`, or slightly more if `sticky`. -/
def roundPack (sign : Bool) (exp : ℤ) (sig : ℕ) (sticky : Bool) (f : Fmt) (rm : Rm) : U64 × U64 :=
  if sig = 0 then roundPackPos sign (-100000) 1 false f rm
  else roundPackPos sign exp sig sticky f rm

/-! ## Arithmetic -/

/-- The result of an invalid operation. -/
def invalid (f : Fmt) : U64 × U64 := (f.canonicalNan, fflagNv)

/-- The result if an operand is a NaN. -/
def nanResult (a b : Unpacked) (f : Fmt) : Option (U64 × U64) :=
  if !a.cls.isNan && !b.cls.isNan then none
  else some (f.canonicalNan, if a.cls.isSnan || b.cls.isSnan then fflagNv else 0)

/-- Bring the top bit to `T`. -/
def normalise (sig : ℕ) (exp : ℤ) : ℕ × ℤ :=
  if sig = 0 then (0, -(2 ^ 30))
  else (sig * 2 ^ (T - Nat.log2 sig), exp - (T - Nat.log2 sig : ℕ))

/-- The exact sum of two values given as sign, significand and exponent. -/
def addExact (aSign : Bool) (aSig : ℕ) (aExp : ℤ) (bSign : Bool) (bSig : ℕ) (bExp : ℤ) :
    Option (Bool × ℕ × ℤ × Bool) :=
  let a := (aSign, normalise aSig aExp)
  let b := (bSign, normalise bSig bExp)
  let aFirst := decide (a.2.2 > b.2.2) || (a.2.2 == b.2.2 && decide (a.2.1 ≥ b.2.1))
  let (big, small) := if aFirst then (a, b) else (b, a)
  if small.2.1 = 0 then
    if big.2.1 = 0 then none else some (big.1, big.2.1, big.2.2, false)
  else
    let diff := (big.2.2 - small.2.2).toNat
    let aligned := if diff ≥ 127 then 0 else small.2.1 / 2 ^ diff
    let sticky := if diff ≥ 127 then true else small.2.1 % 2 ^ diff != 0
    if big.1 = small.1 then some (big.1, big.2.1 + aligned, big.2.2, sticky)
    else
      let diffSig := if sticky then big.2.1 - aligned - 1 else big.2.1 - aligned
      if diffSig = 0 ∧ !sticky then none else some (big.1, diffSig, big.2.2, sticky)

/-- The sign of a sum that is zero. -/
def zeroSumSign (a b : Bool) (rm : Rm) : Bool := if a = b then a else rm == .rdn

/-- Round an exact sum; nothing left is a zero. -/
def packSum (sum : Option (Bool × ℕ × ℤ × Bool)) (f : Fmt) (rm : Rm) : U64 × U64 :=
  match sum with
  | none => (f.zero (rm == .rdn), 0)
  | some (s, sig, e, st) => roundPack s e sig st f rm

/-- The sum or the difference. -/
def addSigned (aBits bBits : U64) (negateB : Bool) (f : Fmt) (rm : Rm) : U64 × U64 :=
  let a := unpack aBits f
  let b := unpack bBits f
  let bSign := b.sign != negateB
  match nanResult a b f with
  | some r => r
  | none =>
    match a.cls, b.cls with
    | .inf, .inf => if a.sign ≠ bSign then invalid f else (f.inf a.sign, 0)
    | .inf, _ => (f.inf a.sign, 0)
    | _, .inf => (f.inf bSign, 0)
    | .zero, .zero => (f.zero (zeroSumSign a.sign bSign rm), 0)
    | .zero, _ => (if negateB then bBits ^^^ f.signBit else bBits, 0)
    | _, .zero => (aBits, 0)
    | .finite sa ea, .finite sb eb => packSum (addExact a.sign sa ea bSign sb eb) f rm
    | _, _ => invalid f

/-- The sum. -/
def add (aBits bBits : U64) (f : Fmt) (rm : Rm) : U64 × U64 := addSigned aBits bBits false f rm
/-- The difference. -/
def sub (aBits bBits : U64) (f : Fmt) (rm : Rm) : U64 × U64 := addSigned aBits bBits true f rm

/-- The product. -/
def mul (aBits bBits : U64) (f : Fmt) (rm : Rm) : U64 × U64 :=
  let a := unpack aBits f
  let b := unpack bBits f
  let sign := a.sign != b.sign
  match nanResult a b f with
  | some r => r
  | none =>
    match a.cls, b.cls with
    | .inf, .zero | .zero, .inf => invalid f
    | .inf, _ | _, .inf => (f.inf sign, 0)
    | .zero, _ | _, .zero => (f.zero sign, 0)
    | .finite sa ea, .finite sb eb => roundPack sign (ea + eb) (sa * sb) false f rm
    | _, _ => invalid f

/-- The quotient. -/
def div (aBits bBits : U64) (f : Fmt) (rm : Rm) : U64 × U64 :=
  let a := unpack aBits f
  let b := unpack bBits f
  let sign := a.sign != b.sign
  match nanResult a b f with
  | some r => r
  | none =>
    match a.cls, b.cls with
    | .inf, .inf | .zero, .zero => invalid f
    | .inf, _ => (f.inf sign, 0)
    | _, .inf => (f.zero sign, 0)
    | .zero, _ => (f.zero sign, 0)
    | _, .zero => (f.inf sign, fflagDz)
    | .finite sa ea, .finite sb eb =>
      -- bring bit 63 of both up first, so that the quotient has bits enough
      let la := 63 - Nat.log2 sa
      let lb := 63 - Nat.log2 sb
      let num := sa * 2 ^ la * 2 ^ 64
      let den := sb * 2 ^ lb
      roundPack sign ((ea - la) - (eb - lb) - 64) (num / den) (num % den != 0) f rm
    | _, _ => invalid f

/-- Newton's iteration from above, down to the floor of the root. -/
def isqrtFrom (n x : ℕ) : ℕ :=
  let y := (x + n / x) / 2
  if _h : y ≥ x then x else isqrtFrom n y
termination_by x

/-- The integer square root. -/
def isqrt (n : ℕ) : ℕ := if n = 0 then 0 else isqrtFrom n (2 ^ ((Nat.log2 n + 2) / 2))

/-- The square root. -/
def sqrt (aBits : U64) (f : Fmt) (rm : Rm) : U64 × U64 :=
  let a := unpack aBits f
  match a.cls with
  | .nan signalling => (f.canonicalNan, if signalling then fflagNv else 0)
  | .zero => (aBits, 0)
  | .inf => if a.sign then invalid f else (f.inf false, 0)
  | .finite sig exp =>
    if a.sign then invalid f
    else
      let bits := Nat.log2 sig + 1
      let shift := if bits < 53 then (53 - bits + 1) / 2 * 2 else 0
      let s := sig * 2 ^ shift
      let e := exp - shift
      let s := if e % 2 ≠ 0 then s * 2 else s
      let e := if e % 2 ≠ 0 then e - 1 else e
      let scaled := s * 2 ^ 72
      let r := isqrt scaled
      roundPack false (e / 2 - 36) r (r * r != scaled) f rm

/-- A product plus a number, rounded once. -/
def fma (aBits bBits cBits : U64) (f : Fmt) (rm : Rm) : U64 × U64 :=
  let a := unpack aBits f
  let b := unpack bBits f
  let c := unpack cBits f
  let infTimesZero := match a.cls, b.cls with
    | .inf, .zero | .zero, .inf => true
    | _, _ => false
  let psign := a.sign != b.sign
  if infTimesZero then invalid f
  else if a.cls.isNan || b.cls.isNan || c.cls.isNan then
    (f.canonicalNan, if a.cls.isSnan || b.cls.isSnan || c.cls.isSnan then fflagNv else 0)
  else
    match a.cls, b.cls, c.cls with
    | .inf, _, .inf | _, .inf, .inf =>
      if c.sign ≠ psign then invalid f else (f.inf psign, 0)
    | .inf, _, _ | _, .inf, _ => (f.inf psign, 0)
    | _, _, .inf => (f.inf c.sign, 0)
    | .finite sa ea, .finite sb eb, .zero => roundPack psign (ea + eb) (sa * sb) false f rm
    | .finite sa ea, .finite sb eb, .finite sc ec =>
      packSum (addExact psign (sa * sb) (ea + eb) c.sign sc ec) f rm
    | _, _, .zero => (f.zero (zeroSumSign psign c.sign rm), 0)
    | _, _, _ => (cBits, 0)

/-! ## Conversions and comparison -/

/-- From one format to another. -/
def convert (aBits : U64) (src dst : Fmt) (rm : Rm) : U64 × U64 :=
  let a := unpack aBits src
  match a.cls with
  | .nan signalling => (dst.canonicalNan, if signalling then fflagNv else 0)
  | .inf => (dst.inf a.sign, 0)
  | .zero => (dst.zero a.sign, 0)
  | .finite sig exp => roundPack a.sign exp sig false dst rm

/-- From an integer. -/
def fromInt (negative : Bool) (magnitude : U64) (f : Fmt) (rm : Rm) : U64 × U64 :=
  if magnitude = 0 then (f.zero false, 0)
  else roundPack negative 0 magnitude.toNat false f rm

/-- The largest value of a destination. -/
def maxPos (bits : ℕ) (signed : Bool) : U64 :=
  match bits, signed with
  | 32, true => 0x7fffffff
  | 32, false => 0xffffffff
  | _, true => 0x7fffffffffffffff
  | _, false => 0xffffffffffffffff

/-- The smallest value of a destination. -/
def minNeg (bits : ℕ) (signed : Bool) : U64 :=
  match bits, signed with
  | 32, true => 0xffffffff80000000
  | _, true => 0x8000000000000000
  | _, false => 0

/-- The integer part of `sig * 2 ^ exp`, the half bit and whether anything is below it. -/
def integerPart (sig : ℕ) (exp : ℤ) : ℕ × Bool × Bool :=
  if exp ≥ 0 then (sig * 2 ^ exp.toNat, false, false)
  else
    let shift := (-exp).toNat
    if shift ≥ 128 then (0, false, true)
    else
      let dropped := sig % 2 ^ shift
      let h := 2 ^ (shift - 1)
      (sig / 2 ^ shift, dropped / h % 2 != 0, dropped % h != 0)

/-- To an integer, with saturation. -/
def toInt (aBits : U64) (f : Fmt) (rm : Rm) (bits : ℕ) (signed : Bool) : U64 × U64 :=
  let a := unpack aBits f
  let saturated := (if a.sign then minNeg bits signed else maxPos bits signed, fflagNv)
  match a.cls with
  | .nan _ => (maxPos bits signed, fflagNv)
  | .inf => saturated
  | .zero => (0, 0)
  | .finite sig exp =>
    if exp > 70 then saturated
    else
      let (int, half, rest) := integerPart sig exp
      let int := int + (roundsUp rm a.sign (int % 2 != 0) half rest).toNat
      let fits : Bool :=
        if a.sign then
          if signed then int ≤ (minNeg bits signed).toInt.natAbs else int = 0
        else int ≤ (maxPos bits signed).toNat
      let value : U64 :=
        if a.sign then (if signed then -BitVec.ofNat 64 int else 0) else BitVec.ofNat 64 int
      if !fits then saturated else (value, if half || rest then fflagNx else 0)

/-- The order of patterns that are numbers. -/
def orderKey (bits : U64) (f : Fmt) : ℤ :=
  let mag : ℤ := (bits &&& ~~~f.signBit).toNat
  if bits &&& f.signBit ≠ 0 then -mag else mag

/-- -1, 0 or 1 for two values that are not NaN. -/
def compare (a b : U64) (f : Fmt) : ℤ :=
  let ka := orderKey a f
  let kb := orderKey b f
  if ka > kb then 1 else if ka < kb then -1 else 0

end Softfloat

end RiscvEmu
