import RiscvEmu.Cpu.Pages

/-!
# The two loops of a store across pages

A store that crosses a page translates all its bytes first, and then translates each of them again
and writes it.  After the first loop all pages are cached, so the second one hits, at the same
addresses.
-/

namespace RiscvEmu

open Exec

/-! ## The first loop -/

section Bytes

variable {csrs : CsrFile} {p : U32} {va : U64} {size : ℕ} {s t : Hart} {is : List ℕ}

/-- Once all bytes of a store are translated, all of them are cached. -/
lemma translateBytes_cached (hcsrs : s.cpu.csrs = csrs) (hspread : Spread va size)
    (his : ∀ i ∈ is, i < size) (hok : translateBytes va p is s = .ok () t) :
    t.cpu.csrs = csrs ∧ (∀ i ∈ is, Cached .store csrs p (va + BitVec.ofNat 64 i) t.cpu.mmu) ∧
      KeepsCached .store csrs p va size s.cpu.mmu t.cpu.mmu := by
  induction is generalizing s with
  | nil =>
    cases hok
    exact ⟨hcsrs, nofun, refl_of (KeepsCached .store csrs p va size) _⟩
  | cons i is ih =>
    have hi : i < size := his i List.mem_cons_self
    unfold translateBytes at hok
    obtain ⟨pa, s₁, h₁, hok⟩ := bind_eq_ok.mp hok
    obtain ⟨u, hu, rfl⟩ := translateFor_eq_ok.mp h₁
    rw [hcsrs] at hu
    have hkept : KeepsCached .store csrs p va size s.cpu.mmu u.mmu := fun j hj =>
      cached_near hu (hspread i hi j hj)
    obtain ⟨hcsrs', hcached, hkept'⟩ :=
      ih (s := { cpu := { s.cpu with mmu := u.mmu }, sys := u.sys })
      hcsrs (fun j hj => his j (List.mem_cons_of_mem _ hj)) hok
    refine ⟨hcsrs', fun j hj => ?_, trans_of (KeepsCached .store csrs p va size) hkept hkept'⟩
    rcases List.mem_cons.mp hj with rfl | hj
    · exact (hkept' j hi (cached_of_ok hu).1).1
    · exact hcached j hj

end Bytes

/-! ## The second loop -/

section Stores

variable {csrs : CsrFile} {p : U32} {va v pa : U64} {s t : Hart} {is : List ℕ} {T : ℕ → U64}
  {mem : Bytes.Mem} {o : ℕ}

/-- Byte `i` of the value, as the second loop passes it on. -/
def valueByte (v : U64) (i : ℕ) : U64 := (v >>> (8 * i)) &&& 0xff

/-- The bytes of RAM after a byte went to a physical address. -/
def putByte (mem : Bytes.Mem) (pa b : U64) : Bytes.Mem := Bytes.store mem (pa - dramBase).toNat 1 b

/-- RAM after some bytes of a store. -/
def putBytes (v : U64) (T : ℕ → U64) (mem : Bytes.Mem) (is : List ℕ) : Bytes.Mem :=
  is.foldl (fun mem i => putByte mem (T i) (valueByte v i)) mem

lemma storeAt_ram (h : storeAt pa 1 v s = .ok () t) (hin : InRam s.sys.ram pa 1) :
    t.sys.ram.len = s.sys.ram.len ∧ t.sys.ram.mem = putByte s.sys.ram.mem pa v := by
  obtain ⟨w, hw, rfl⟩ := storeAt_eq_ok.mp h
  rw [(stored_sys s pa 1 w).1]
  rcases busStore_ok hw with ⟨-, ram, hsome, rfl⟩ | ⟨hout, -⟩
  · obtain ⟨-, hmem, hlen⟩ := Dram.store_eq_some hsome
    exact ⟨hlen, hmem⟩
  · exact absurd hin hout

/-- All bytes are cached, and it is known where they go. -/
structure Aimed (csrs : CsrFile) (p : U32) (va : U64) (is : List ℕ) (T : ℕ → U64) (s : Hart) :
    Prop where
  same : s.cpu.csrs = csrs
  cached : ∀ i ∈ is, Cached .store csrs p (va + BitVec.ofNat 64 i) s.cpu.mmu
  target : ∀ i ∈ is, target csrs p s.cpu.mmu (va + BitVec.ofNat 64 i) = T i

/-- One turn of the second loop: the translation hits. -/
lemma Aimed.step {i : ℕ} (h : Aimed csrs p va (i :: is) T s) :
    ∃ k, translateFor (va + BitVec.ofNat 64 i) .store p s = .ok (T i) (s.withHits k) := by
  have hcached := h.cached i List.mem_cons_self
  rw [← h.same] at hcached
  rw [← h.target i List.mem_cons_self, ← h.same]
  exact translateFor_of_cached hcached

lemma Aimed.tail {i k : ℕ} (h : Aimed csrs p va (i :: is) T s)
    (hcpu : t.cpu = (s.withHits k).cpu) : Aimed csrs p va is T t := by
  refine ⟨?_, fun j hj => ?_, fun j hj => ?_⟩ <;> rw [hcpu]
  · exact h.same
  · exact h.cached j (List.mem_cons_of_mem _ hj)
  · exact h.target j (List.mem_cons_of_mem _ hj)

lemma byte_valueByte (v : U64) (i : ℕ) : Bytes.byte (valueByte v i) 0 = Bytes.byte v i := by
  have hmask : ∀ k : Fin 8, (0xff : U64).getLsbD k = true := by decide
  refine BitVec.eq_of_getLsbD_eq fun k hk => ?_
  simp only [Bytes.byte, valueByte, BitVec.getLsbD_setWidth, BitVec.getLsbD_ushiftRight,
    BitVec.getLsbD_and, Nat.mul_zero, Nat.zero_add, hmask ⟨k, hk⟩, Bool.and_true]

lemma putByte_of_ne (b : U64) (h : o ≠ (pa - dramBase).toNat) : putByte mem pa b o = mem o :=
  Bytes.store_of_not_mem (by omega)

lemma putBytes_of_ne (h : ∀ l ∈ is, o ≠ (T l - dramBase).toNat) (mem : Bytes.Mem) :
    putBytes v T mem is o = mem o := by
  induction is generalizing mem with
  | nil => rfl
  | cons l is ih =>
    have hrest :=
      ih (fun k hk => h k (List.mem_cons_of_mem _ hk)) (putByte mem (T l) (valueByte v l))
    exact hrest.trans (putByte_of_ne _ (h l List.mem_cons_self))

/-- Each byte is where it went, if they all went to different addresses of RAM. -/
lemma putBytes_of_mem {j : ℕ} (hj : j ∈ is) (hbase : ∀ l ∈ is, dramBase ≤ T l) (hnodup : is.Nodup)
    (hinj : ∀ l ∈ is, T l = T j → l = j) (mem : Bytes.Mem) :
    putBytes v T mem is (T j - dramBase).toNat = Bytes.byte v j := by
  induction is generalizing mem with
  | nil => cases hj
  | cons l is ih =>
    obtain ⟨hl, hnodup⟩ := List.nodup_cons.mp hnodup
    have hrest := fun k hk => hbase k (List.mem_cons_of_mem l hk)
    rcases List.mem_cons.mp hj with rfl | hj
    · have hkeep : ∀ k ∈ is, (T j - dramBase).toNat ≠ (T k - dramBase).toNat := by
        intro k hk heq
        have hT : T k = T j := by
          have hx : dramBase.toNat ≤ (T k).toNat := hrest k hk
          have hy : dramBase.toNat ≤ (T j).toNat := hbase j List.mem_cons_self
          rw [BitVec.toNat_sub_of_le (hbase j List.mem_cons_self),
            BitVec.toNat_sub_of_le (hrest k hk)] at heq
          exact BitVec.eq_of_toNat_eq (by omega)
        exact hl (hinj k (List.mem_cons_of_mem _ hk) hT ▸ hk)
      refine (putBytes_of_ne hkeep _).trans ?_
      change putByte mem (T j) (valueByte v j) _ = _
      unfold putByte
      rw [Bytes.store_of_mem (by omega), Nat.sub_self, byte_valueByte]
    · exact ih hj hrest hnodup (fun k hk => hinj k (List.mem_cons_of_mem _ hk)) _

end Stores

end RiscvEmu
