import RiscvEmu.Types
import RiscvEmu.Lib.Bytes

/-!
# Guest RAM

`dram.rs`.  The byte array, and the marks by which a store tells every hart that code it has
decoded may have changed: a page from which an instruction was cached is marked, and a write to a
marked page advances `epoch` and clears all marks.
-/

namespace RiscvEmu

open Bytes

lemma page_fits : dramBase.toNat + 4096 < 2 ^ 64 := by decide

lemma twoPages_fits : dramBase.toNat + 8192 < 2 ^ 64 := by decide

lemma threePages_fits : dramBase.toNat + 12288 < 2 ^ 64 := by decide

/-- Guest RAM.  Offsets are relative to `dramBase`. -/
structure Dram where
  /-- The bytes. -/
  mem : ℕ → U8
  /-- The size in bytes. -/
  len : ℕ
  /-- How often cached code was invalidated, from 1. -/
  epoch : ℕ
  /-- The pages code was cached from. -/
  codePages : ℕ → Bool
  /-- The same pages as a list of `u32`, for clearing them. -/
  marked : List ℕ
  anyMarked : Bool
  /-- RAM ends inside the physical address space. -/
  fits : dramBase.toNat + len < 2 ^ 64

namespace Dram

variable (d : Dram)

/-- `[offset, offset + size)` lies inside the array. -/
def inRange (offset size : ℕ) : Bool := offset < d.len ∧ size ≤ d.len - offset

/-- Load a number. -/
def load (offset size : ℕ) : Option U64 :=
  if d.inRange offset size then some (Bytes.load d.mem offset (min size 8)) else none

/-! ## Cached code -/

/-- The number of entries of the page array. -/
def pages : ℕ := (d.len + 4095) / 4096

/-- A hart has cached an instruction from the page of `offset`. -/
def markCodePage (offset : ℕ) : Dram :=
  let page := offset / 4096
  if page ≥ d.pages ∨ d.codePages page then d
  else
    -- the list keeps the page number in 32 bits
    { d with
      codePages := Function.update d.codePages page true
      marked := page % 2 ^ 32 :: d.marked
      anyMarked := true }

/-- Forget all decoded code. -/
def invalidateCode : Dram :=
  { d with
    epoch := d.epoch + 1
    codePages := fun p => if p ∈ d.marked then false else d.codePages p
    marked := []
    anyMarked := false }

/-- A page of the write `[offset, offset + size)` is marked. -/
def touchesCode (offset size : ℕ) : Bool :=
  let first := offset / 4096
  let last := (offset + size - 1) / 4096
  (List.range' first (last + 1 - first)).any d.codePages

/-- After a write: it may have been to code. -/
def noteWrite (offset size : ℕ) : Dram :=
  if !d.anyMarked ∨ size = 0 then d
  else if d.touchesCode offset size then d.invalidateCode
  else d

/-! ## Writes -/

/-- `none` is the source's `false`: out of range, nothing written. -/
def store (offset size : ℕ) (value : U64) : Option Dram :=
  if d.inRange offset size then
    let d' := d.noteWrite offset size
    some { d' with mem := Bytes.store d'.mem offset (min size 8) value }
  else none

/-- The offset of a guest address, if it is not below RAM. -/
def offsetOf (guestAddr : U64) : Option ℕ :=
  if dramBase ≤ guestAddr then some (guestAddr - dramBase).toNat else none

/-- Read a block of guest memory. -/
def readBytes (guestAddr : U64) (n : ℕ) : Option (List U8) :=
  match offsetOf guestAddr with
  | none => none
  | some offset =>
    if n = 0 then (if offset ≤ d.len then some [] else none)
    else if d.inRange offset n then some ((List.range n).map fun i => d.mem (offset + i))
    else none

/-- Write a block of guest memory. -/
def writeBytes (guestAddr : U64) (src : List U8) : Option Dram :=
  match offsetOf guestAddr with
  | none => none
  | some offset =>
    if src = [] then (if offset ≤ d.len then some d else none)
    else if d.inRange offset src.length then
      let d' := d.noteWrite offset src.length
      some { d' with mem := Bytes.storeBytes d'.mem offset src }
    else none

/-- Put an image into RAM. -/
def loadImage (guestAddr : U64) (bytes : List U8) : Option Dram :=
  match offsetOf guestAddr with
  | none => none
  | some offset =>
    if offset > d.len ∨ bytes.length > d.len - offset then none
    else
      let d' := d.invalidateCode
      some { d' with mem := Bytes.storeBytes d'.mem offset bytes }

/-! ## What the operations leave alone -/

@[simp] lemma markCodePage_mem (o : ℕ) : (d.markCodePage o).mem = d.mem := by
  dsimp only [markCodePage]
  split <;> rfl

@[simp] lemma markCodePage_len (o : ℕ) : (d.markCodePage o).len = d.len := by
  dsimp only [markCodePage]
  split <;> rfl

@[simp] lemma noteWrite_mem (o n : ℕ) : (d.noteWrite o n).mem = d.mem := by
  unfold noteWrite invalidateCode
  split_ifs <;> rfl

@[simp] lemma noteWrite_len (o n : ℕ) : (d.noteWrite o n).len = d.len := by
  unfold noteWrite invalidateCode
  split_ifs <;> rfl

lemma inRange_iff {o n : ℕ} : d.inRange o n = true ↔ o < d.len ∧ n ≤ d.len - o := by
  simp [inRange]

/-! ## Inversion of the writes -/

variable {d} {d' : Dram} {offset size : ℕ} {value : U64}

lemma store_eq_some (h : d.store offset size value = some d') :
    d.inRange offset size ∧ d'.mem = Bytes.store d.mem offset (min size 8) value ∧
      d'.len = d.len := by
  unfold store at h
  split at h
  · cases h
    simp_all
  · cases h

lemma store_eq_none : d.store offset size value = none ↔ ¬ d.inRange offset size := by
  unfold store
  split <;> simp_all

lemma load_eq_none : d.load offset size = none ↔ ¬ d.inRange offset size := by
  unfold load
  split <;> simp_all

end Dram

end RiscvEmu
