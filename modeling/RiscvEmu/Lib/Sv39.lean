import Mathlib.Data.Nat.Basic
import Mathlib.Tactic.Common
import Mathlib.Algebra.GroupWithZero.Nat
import Mathlib.Order.Lattice

/-!
# The Sv39 address translation of the architecture

Entries are read field by field, page numbers have 44 bits, and physical addresses are natural
numbers. A memory is a partial map from addresses to doublewords.  The lookup finds the leaf entry
that maps an address and permits an access; there is none if the access has to raise a page fault.
-/

namespace Sv39

/-- The kinds of access. -/
inductive Access where
  | fetch
  | load
  | store
deriving DecidableEq, Repr

/-! ## Entries -/

section Entry

variable (entry : BitVec 64)

/-- The entry counts. -/
def valid : Bool := entry.getLsbD 0
/-- The page can be read. -/
def readable : Bool := entry.getLsbD 1
/-- The page can be written. -/
def writable : Bool := entry.getLsbD 2
/-- The page can be executed. -/
def executable : Bool := entry.getLsbD 3
/-- The page is a user's. -/
def forUser : Bool := entry.getLsbD 4
/-- The number of the page or table. -/
def frame : BitVec 44 := entry.extractLsb' 10 44

/-- An entry that is not valid, or is writable but not readable, ends the walk with a fault. -/
def broken : Bool := !valid entry || (writable entry && !readable entry)

/-- A leaf maps a page; other entries point to a table. -/
def isLeaf : Bool := readable entry || executable entry

/-- The entry after an access: accessed, and dirty if it was written through. -/
def marked (access : Access) : BitVec 64 :=
  entry ||| BitVec.twoPow 64 6 ||| if access = .store then BitVec.twoPow 64 7 else 0#64

end Entry

/-! ## The walk -/

/-- The bits of a virtual address that select an entry at a level. -/
def vpn (va : BitVec 64) (level : ℕ) : BitVec 9 := va.extractLsb' (12 + 9 * level) 9

/-- The address of that entry in a table. -/
def slot (va : BitVec 64) (level : ℕ) (table : BitVec 44) : ℕ :=
  table.toNat * 4096 + (vpn va level).toNat * 8

/-- A leaf, the level it was found at, and where it is. -/
structure Found where
  level : ℕ
  entry : BitVec 64
  addr : ℕ
deriving DecidableEq, Repr

/-- Walk down from a table; the number is how many levels are left. -/
def search (mem : ℕ → Option (BitVec 64)) (va : BitVec 64) : ℕ → BitVec 44 → Option Found
  | 0, _ => none
  | level + 1, table => do
    let entry ← mem (slot va level table)
    if broken entry then none
    else if isLeaf entry then some ⟨level, entry, slot va level table⟩
    else search mem va level (frame entry)

/-! ## Leaves -/

/-- What a lookup depends on: the root table, whether the access is a user's, and two status
bits. -/
structure Env where
  root : BitVec 44
  user : Bool
  sum : Bool
  mxr : Bool

/-- User code uses user pages; the supervisor uses its own, and with `sum` loads and stores the
others. -/
def Env.reaches (env : Env) (access : Access) (entry : BitVec 64) : Bool :=
  if env.user then forUser entry else !forUser entry || (env.sum && access != .fetch)

/-- The access is one that the entry permits; with `mxr` an executable page may be read. -/
def Env.permits (env : Env) (access : Access) (entry : BitVec 64) : Bool :=
  match access with
  | .fetch => executable entry
  | .load => readable entry || (env.mxr && executable entry)
  | .store => writable entry

namespace Found

variable (f : Found)

/-- The frame of a superpage is aligned to its size. -/
def aligned : Bool := (frame f.entry).toNat % 2 ^ (9 * f.level) = 0

/-- The physical address: the upper page number from the entry, everything below from the
address. -/
def target (va : BitVec 64) : ℕ :=
  (frame f.entry).toNat / 2 ^ (9 * f.level) * 2 ^ (9 * f.level + 12) + va.toNat %
    2 ^ (9 * f.level + 12)

end Found

/-- The upper bits of a virtual address repeat bit 38. -/
def canonical (va : BitVec 64) : Bool := (va.setWidth 39).signExtend 64 = va

/-- The leaf that maps an address and permits an access. -/
def lookup (mem : ℕ → Option (BitVec 64)) (env : Env) (va : BitVec 64) (access : Access) :
    Option Found :=
  if canonical va then
    (search mem va 3 env.root).filter fun f =>
      env.reaches access f.entry && env.permits access f.entry && f.aligned
  else none

/-! ## Facts about walks -/

section Search

variable {mem : ℕ → Option (BitVec 64)} {va : BitVec 64} {n : ℕ} {table : BitVec 44}

lemma slot_lt (va : BitVec 64) (level : ℕ) (table : BitVec 44) : slot va level table < 2 ^ 56 := by
  have hindex := (vpn va level).isLt
  have htable := table.isLt
  unfold slot
  omega

lemma search_level {f : Found} (h : search mem va n table = some f) : f.level < n := by
  induction n generalizing table with
  | zero => cases h
  | succ n ih =>
    rw [search, Option.bind_eq_bind, Option.bind_eq_some_iff] at h
    obtain ⟨entry, -, h⟩ := h
    split_ifs at h
    · cases h
      exact Nat.lt_succ_self n
    · exact Nat.lt_succ_of_lt (ih h)

lemma search_addr_lt {f : Found} (h : search mem va n table = some f) : f.addr < 2 ^ 56 := by
  induction n generalizing table with
  | zero => cases h
  | succ n ih =>
    rw [search, Option.bind_eq_bind, Option.bind_eq_some_iff] at h
    obtain ⟨entry, -, h⟩ := h
    split_ifs at h
    · cases h
      exact slot_lt va n table
    · exact ih h

end Search

end Sv39
