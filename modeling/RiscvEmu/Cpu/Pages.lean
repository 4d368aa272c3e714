import RiscvEmu.Mmu.Mapping
import RiscvEmu.Cpu.Frame

/-!
# The pages of an access

The bytes of an access lie in at most two pages, which are neighbours in the TLB.  So once a byte
has been translated, translating the others does not change where it goes.
-/

namespace RiscvEmu

open Exec

/-- What a hart translates with. -/
def Hart.mmuSys (s : Hart) : MmuSys := ⟨s.cpu.mmu, s.sys⟩

variable {csrs : CsrFile} {p : U32} {va pa : U64} {ty : AccessType} {n : ℕ} {s t : Hart}

lemma translateFor_eq_ok :
    translateFor va ty p s = .ok pa t ↔
      ∃ u, translate s.cpu.hartid s.cpu.csrs va ty p s.mmuSys = .ok pa u ∧
        t = { cpu := { s.cpu with mmu := u.mmu }, sys := u.sys } := zoom_eq_ok

lemma mapped_of_translateFor (h : translateFor va ty p s = .ok pa t) :
    s.mmuSys.mapped s.cpu.csrs p ty va = some pa := by
  obtain ⟨u, hu, -⟩ := translateFor_eq_ok.mp h
  exact translate_eq_ok_iff.mp ⟨u, hu⟩

/-- The hart with another count of hits. -/
def Hart.withHits (s : Hart) (k : ℕ) : Hart :=
  { s with cpu := { s.cpu with mmu := { s.cpu.mmu with hits := k } } }

lemma translateFor_of_cached (h : Cached ty s.cpu.csrs p va s.cpu.mmu) :
    ∃ k, translateFor va ty p s = .ok (target s.cpu.csrs p s.cpu.mmu va) (s.withHits k) := by
  obtain ⟨k, hk⟩ := h.translate (s := s.mmuSys) s.cpu.hartid
  exact ⟨k, translateFor_eq_ok.mpr ⟨_, hk, rfl⟩⟩

/-! ## Bytes -/

lemma vpnOf_byte (va : U64) {k : ℕ} (hk : k < 8) :
    (vpnOf (va + BitVec.ofNat 64 k)).toNat = (va.toNat + k) % 2 ^ 64 / 4096 := by
  rw [vpnOf, BitVec.toNat_ushiftRight, BitVec.toNat_add, BitVec.toNat_ofNat,
    Nat.shiftRight_eq_div_pow, Nat.mod_eq_of_lt (by omega : k < 2 ^ 64)]
  rfl

/-- Bytes of one access are in one page or in neighbours. -/
lemma near_bytes (va : U64) {i j : ℕ} (hi : i < 8) (hj : j < 8) :
    Near (va + BitVec.ofNat 64 i) (va + BitVec.ofNat 64 j) := by
  by_cases heq : vpnOf (va + BitVec.ofNat 64 i) = vpnOf (va + BitVec.ofNat 64 j)
  · exact .inl heq
  · right
    have hne := mt BitVec.eq_of_toNat_eq heq
    rw [tlbIndex, tlbIndex, tlbSlots]
    rw [vpnOf_byte va hi, vpnOf_byte va hj] at hne ⊢
    omega

/-- No two bytes of an access compete for a slot of the TLB. -/
def Spread (va : U64) (size : ℕ) : Prop :=
  ∀ i < size, ∀ j < size, Near (va + BitVec.ofNat 64 i) (va + BitVec.ofNat 64 j)

lemma spread_of_le (va : U64) (hn : n ≤ 8) : Spread va n := fun _ hi _ hj =>
  near_bytes va (Nat.lt_of_lt_of_le hi hn) (Nat.lt_of_lt_of_le hj hn)

/-- The bytes of an access that are cached stay so, and where they go. -/
def KeepsCached (ty : AccessType) (csrs : CsrFile) (p : U32) (va : U64) (n : ℕ) (m m' : Mmu) :
    Prop :=
  ∀ j < n, Cached ty csrs p (va + BitVec.ofNat 64 j) m →
    Cached ty csrs p (va + BitVec.ofNat 64 j) m' ∧
      target csrs p m' (va + BitVec.ofNat 64 j) = target csrs p m (va + BitVec.ofNat 64 j)

instance : IsPreorder Mmu (KeepsCached ty csrs p va n) where
  refl _ _ _ h := ⟨h, rfl⟩
  trans _ _ _ h h' j hj hcached := by
    obtain ⟨h₁, htarget₁⟩ := h j hj hcached
    obtain ⟨h₂, htarget₂⟩ := h' j hj h₁
    exact ⟨h₂, htarget₂.trans htarget₁⟩

/-- An aligned access stays inside its page. -/
lemma not_crossesPage_of_aligned (hn : n ∈ [1, 2, 4, 8]) (h : va.toNat % n = 0) :
    ¬crossesPage va n := by
  simp only [List.mem_cons, List.not_mem_nil, or_false] at hn
  rw [crossesPage, decide_eq_true_iff, pageSize]
  rcases hn with rfl | rfl | rfl | rfl <;> omega

/-- Bytes of one access go to different places. -/
lemma target_injective {m : Mmu} {i j : ℕ} (hi : i < 8) (hj : j < 8)
    (h : target csrs p m (va + BitVec.ofNat 64 i) = target csrs p m (va + BitVec.ofNat 64 j)) :
    i = j := by
  have hoff := congrArg (fun x : U64 => x.toNat % 4096) h
  rw [target_offset, target_offset, BitVec.toNat_add, BitVec.toNat_add, BitVec.toNat_ofNat,
    BitVec.toNat_ofNat] at hoff
  omega

end RiscvEmu
