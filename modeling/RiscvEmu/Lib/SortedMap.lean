import Mathlib.Data.List.Basic
import Mathlib.Order.Basic
import Mathlib.Order.Lattice

/-!
# Finite maps in key order

An association list with strictly increasing keys, as an ordered map keeps it.
-/

/-- A finite map from `K` to `V`, in the order of its keys. -/
structure SortedMap (K V : Type) [LinearOrder K] where
  entries : List (K × V)
  sorted : entries.Pairwise fun a b => a.1 < b.1

open scoped List

namespace SortedMap

variable {K V : Type} [LinearOrder K]

/-- No entries. -/
def empty : SortedMap K V := ⟨[], .nil⟩

/-- The value at a key. -/
def get? (m : SortedMap K V) (k : K) : Option V := (m.entries.find? fun e => e.1 = k).map (·.2)

/-- The number of entries. -/
def size (m : SortedMap K V) : ℕ := m.entries.length

/-- Put an entry into its place, over an entry of the same key. -/
def insertEntry (k : K) (v : V) : List (K × V) → List (K × V)
  | [] => [(k, v)]
  | e :: l =>
    if k < e.1 then (k, v) :: e :: l else if e.1 = k then (k, v) :: l else e :: insertEntry k v l

lemma fst_mem_insertEntry {k : K} {v : V} {l : List (K × V)} {e : K × V}
    (h : e ∈ insertEntry k v l) :
    e.1 = k ∨ e ∈ l := by
  induction l with
  | nil =>
    rw [insertEntry, List.mem_singleton] at h
    exact .inl (congrArg Prod.fst h)
  | cons a l ih =>
    rw [insertEntry] at h
    split_ifs at h
    · rcases List.mem_cons.mp h with rfl | h
      · exact .inl rfl
      · exact .inr h
    · rcases List.mem_cons.mp h with rfl | h
      · exact .inl rfl
      · exact .inr (List.mem_cons_of_mem a h)
    · rcases List.mem_cons.mp h with rfl | h
      · exact .inr List.mem_cons_self
      · exact (ih h).imp_right (List.mem_cons_of_mem a)

lemma insertEntry_sorted {k : K} {v : V} {l : List (K × V)} (h : l.Pairwise fun a b => a.1 < b.1) :
    (insertEntry k v l).Pairwise fun a b => a.1 < b.1 := by
  induction l with
  | nil => exact List.pairwise_singleton _ _
  | cons a l ih =>
    obtain ⟨ha, hl⟩ := List.pairwise_cons.mp h
    rw [insertEntry]
    split_ifs with hlt heq
    · refine List.pairwise_cons.mpr ⟨fun e he => ?_, h⟩
      rcases List.mem_cons.mp he with rfl | he
      · exact hlt
      · exact hlt.trans (ha e he)
    · exact List.pairwise_cons.mpr ⟨fun e he => heq ▸ ha e he, hl⟩
    · refine List.pairwise_cons.mpr ⟨fun e he => ?_, ih hl⟩
      rcases fst_mem_insertEntry he with hk | he
      · rw [hk]
        exact lt_of_le_of_ne (not_lt.mp hlt) heq
      · exact ha e he

/-- Add or replace an entry. -/
def insert (m : SortedMap K V) (k : K) (v : V) : SortedMap K V :=
  ⟨insertEntry k v m.entries, insertEntry_sorted m.sorted⟩

/-- Take an entry away. -/
def erase (m : SortedMap K V) (k : K) : SortedMap K V :=
  ⟨m.entries.filter fun e => e.1 ≠ k, m.sorted.filter _⟩

/-- Change every value, or drop its entry. -/
def filterMap (m : SortedMap K V) (f : V → Option V) : SortedMap K V where
  entries := m.entries.filterMap fun e => (f e.2).map fun v => (e.1, v)
  sorted := by
    refine List.Pairwise.filterMap _ (fun a b hab a' ha b' hb => ?_) m.sorted
    rw [Option.map_eq_some_iff] at ha hb
    obtain ⟨_, -, rfl⟩ := ha
    obtain ⟨_, -, rfl⟩ := hb
    exact hab

/-! ## Entries

What the operations do to the entries, up to their order. -/

variable {m : SortedMap K V} {k : K} {v : V}

lemma insertEntry_perm {l : List (K × V)} (h : l.Pairwise fun a b => a.1 < b.1) :
    insertEntry k v l ~ (k, v) :: l.filter fun e => e.1 ≠ k := by
  induction l with
  | nil => rfl
  | cons a l ih =>
    obtain ⟨ha, hl⟩ := List.pairwise_cons.mp h
    rw [insertEntry]
    split_ifs with hlt heq
    · -- every key is above `k`
      have hall : (a :: l).filter (fun e => e.1 ≠ k) = a :: l := by
        refine List.filter_eq_self.mpr fun e he => ?_
        rcases List.mem_cons.mp he with rfl | he
        · simpa using hlt.ne'
        · simpa using (hlt.trans (ha e he)).ne'
      rw [hall]
    · have hall : l.filter (fun e => e.1 ≠ k) = l :=
        List.filter_eq_self.mpr fun e he => by simpa using (heq ▸ ha e he).ne'
      rw [List.filter_cons_of_neg (by simpa using heq), hall]
    · rw [List.filter_cons_of_pos (by simpa using heq)]
      exact ((ih hl).cons a).trans (.swap _ _ _)

lemma insert_perm : (m.insert k v).entries ~ (k, v) :: (m.erase k).entries :=
  insertEntry_perm m.sorted

lemma erase_of_get?_none (h : m.get? k = none) : (m.erase k).entries = m.entries := by
  rw [get?, Option.map_eq_none_iff, List.find?_eq_none] at h
  exact List.filter_eq_self.mpr fun e he => by simpa using h e he

lemma erase_erase : ((m.erase k).erase k).entries = (m.erase k).entries :=
  List.filter_eq_self.mpr fun _ he => (List.mem_filter.mp he).2

lemma perm_erase (h : m.get? k = some v) : m.entries ~ (k, v) :: (m.erase k).entries := by
  obtain ⟨l, hl⟩ := m
  rw [get?, Option.map_eq_some_iff] at h
  obtain ⟨e, he, rfl⟩ := h
  rw [erase]
  dsimp only at he ⊢
  induction l with
  | nil => cases he
  | cons a l ih =>
    obtain ⟨ha, hl'⟩ := List.pairwise_cons.mp hl
    by_cases hk : a.1 = k
    · rw [List.find?_cons_of_pos (by simpa using hk)] at he
      cases he
      have hall : l.filter (fun b => b.1 ≠ k) = l :=
        List.filter_eq_self.mpr fun b hb => by simpa using (hk ▸ ha b hb).ne'
      rw [List.filter_cons_of_neg (by simpa using hk), hall, ← hk]
    · rw [List.find?_cons_of_neg (by simpa using hk)] at he
      rw [List.filter_cons_of_pos (by simpa using hk)]
      exact ((ih hl' he).cons a).trans (.swap _ _ _)

end SortedMap
