import Mathlib.Data.Nat.Notation
import Mathlib.Tactic.Common
import Mathlib.Algebra.GroupWithZero.Nat
import Mathlib.Order.Lattice

/-!
# UTF-8

Text as a list of characters and its bytes.  Bytes that are not text are read the lossy way: the
longest piece that could have begun a character becomes one replacement character.
-/

namespace Utf8

/-- The bytes of a character. -/
def encodeChar (c : Char) : List (BitVec 8) := (String.utf8EncodeChar c).map UInt8.toBitVec

/-- The bytes of a text. -/
def encode (s : List Char) : List (BitVec 8) := s.flatMap encodeChar

/-- The character a byte string begins with. -/
def first? (b : List (BitVec 8)) : Option Char :=
  ByteArray.utf8DecodeChar? (b.map UInt8.ofBitVec).toByteArray 0

/-- What stands for bytes that are no text. -/
def replacement : Char := '�'

/-- Does the byte go on with a character? -/
def isContinuation (b : BitVec 8) : Bool := b &&& 0xc0 = 0x80

/-- The number of bytes of a character that begins with `b`, 0 if none does. -/
def width (b : BitVec 8) : ℕ :=
  if b < 0x80 then 1
  else if 0xc2 ≤ b ∧ b ≤ 0xdf then 2
  else if 0xe0 ≤ b ∧ b ≤ 0xef then 3
  else if 0xf0 ≤ b ∧ b ≤ 0xf4 then 4
  else 0

/-- `b₂` may follow the first byte `b₁` of a character of three or four bytes. -/
def mayFollow (b₁ b₂ : BitVec 8) : Bool :=
  if b₁ = 0xe0 then 0xa0 ≤ b₂ ∧ b₂ ≤ 0xbf
  else if b₁ = 0xed then 0x80 ≤ b₂ ∧ b₂ ≤ 0x9f
  else if b₁ = 0xf0 then 0x90 ≤ b₂ ∧ b₂ ≤ 0xbf
  else if b₁ = 0xf4 then 0x80 ≤ b₂ ∧ b₂ ≤ 0x8f
  else isContinuation b₂

/-- How many bytes one replacement character stands for. -/
def badLength : List (BitVec 8) → ℕ
  | b₁ :: b₂ :: rest =>
    if width b₁ < 3 ∨ !mayFollow b₁ b₂ then 1
    else if width b₁ = 4 ∧ rest.head?.any isContinuation then 3
    else 2
  | _ => 1

lemma badLength_pos (b : List (BitVec 8)) : 0 < badLength b := by
  unfold badLength
  split
  · split_ifs <;> decide
  · decide

/-- Read bytes as text. -/
def lossy (b : List (BitVec 8)) : List Char :=
  if _h : b = [] then []
  else match first? b with
    | some c => c :: lossy (b.drop c.utf8Size)
    | none => replacement :: lossy (b.drop (badLength b))
termination_by b.length
decreasing_by
  all_goals
    have hpos : 0 < b.length := List.length_pos_iff.mpr _h
    rw [List.length_drop]
  · have := Char.utf8Size_pos ‹Char›
    omega
  · have := badLength_pos b
    omega

/-! ## Encoding and decoding -/

@[simp] lemma length_encodeChar (c : Char) : (encodeChar c).length = c.utf8Size := by
  simp [encodeChar]

lemma encode_cons (c : Char) (s : List Char) : encode (c :: s) = encodeChar c ++ encode s :=
  List.flatMap_cons

lemma encode_append (s t : List Char) : encode (s ++ t) = encode s ++ encode t :=
  List.flatMap_append

lemma first?_encodeChar (c : Char) (b : List (BitVec 8)) : first? (encodeChar c ++ b) = some c := by
  have hmap : (encodeChar c ++ b).map UInt8.ofBitVec =
      String.utf8EncodeChar c ++ b.map UInt8.ofBitVec := by
    simp [encodeChar, Function.comp_def]
  rw [first?, hmap, List.toByteArray_append]
  exact ByteArray.utf8DecodeChar?_utf8EncodeChar_append

/-- Text is read back from its bytes. -/
theorem lossy_encode (s : List Char) : lossy (encode s) = s := by
  induction s with
  | nil =>
    rw [lossy]
    exact dif_pos rfl
  | cons c s ih =>
    have hne : encodeChar c ++ encode s ≠ [] := by
      intro h
      have := congrArg List.length h
      have := Char.utf8Size_pos c
      simp only [List.length_append, length_encodeChar, List.length_nil] at *
      omega
    rw [encode_cons, lossy, dif_neg hne, first?_encodeChar]
    dsimp only
    rw [← length_encodeChar, List.drop_left, ih]

/-! ## ASCII -/

lemma encodeChar_ascii {c : Char} (hc : c.toNat < 128) :
    encodeChar c = [BitVec.ofNat 8 c.toNat] := by
  have hle : c.val.toNat ≤ 0x7f := Nat.le_of_lt_succ hc
  unfold encodeChar String.utf8EncodeChar
  dsimp only
  rw [if_pos hle]
  rfl

/-- The bytes of any other character are not ASCII. -/
lemma le_of_mem_encodeChar {c : Char} (hc : 128 ≤ c.toNat) {b : BitVec 8} (hb : b ∈ encodeChar c) :
    128 ≤ b.toNat := by
  have hgt : ¬ c.val.toNat ≤ 0x7f := Nat.not_le_of_lt hc
  have hbyte : ∀ n, 128 ≤ n → n < 256 → 128 ≤ (UInt8.ofNat n).toBitVec.toNat := by
    intro n hn hlt
    have : (UInt8.ofNat n).toBitVec.toNat = n := Nat.mod_eq_of_lt hlt
    omega
  obtain ⟨u, hu, rfl⟩ := List.mem_map.mp hb
  unfold String.utf8EncodeChar at hu
  dsimp only at hu
  rw [if_neg hgt] at hu
  split_ifs at hu
  all_goals
    simp only [List.mem_cons, List.not_mem_nil, or_false] at hu
    rcases hu with rfl | rfl | rfl | rfl
    all_goals exact hbyte _ (by omega) (by omega)

/-- An ASCII byte stands in the bytes of a text only where the text has that character. -/
lemma mem_encode {s : List Char} {c : Char} (hc : c.toNat < 128) :
    BitVec.ofNat 8 c.toNat ∈ encode s ↔ c ∈ s := by
  have hchar : ∀ d : Char, BitVec.ofNat 8 c.toNat ∈ encodeChar d ↔ c = d := by
    intro d
    have hval : (BitVec.ofNat 8 c.toNat).toNat = c.toNat := Nat.mod_eq_of_lt (by omega)
    constructor
    · intro hmem
      have hd : d.toNat < 128 := by
        by_contra hd
        have := le_of_mem_encodeChar (Nat.le_of_not_lt hd) hmem
        omega
      rw [encodeChar_ascii hd, List.mem_singleton] at hmem
      have hnat := congrArg BitVec.toNat hmem
      rw [hval] at hnat
      refine Char.toNat_inj.mp (hnat.trans (Nat.mod_eq_of_lt (by omega)))
    · rintro rfl
      rw [encodeChar_ascii hc]
      exact List.mem_singleton_self _
  simp [encode, hchar]

end Utf8
