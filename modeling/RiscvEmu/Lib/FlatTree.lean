import Mathlib.Data.Nat.Notation
import Mathlib.Tactic.Common
import Mathlib.Algebra.GroupWithZero.Nat
import Mathlib.Order.Lattice

/-!
# Flattened device trees

The format of chapter 5 of the devicetree specification: a header of ten big-endian words, a memory
reservation block, a structure block of tokens and a strings block of property names.  `parse` reads
a blob strictly: the blocks lie inside the blob in this order without overlapping, the structure
block is aligned and holds one balanced tree followed by the end token, a node's properties precede
its children.

The bytes of a tree are given by a relation, since a property name may stand anywhere in the strings
block.
-/

namespace FlatTree

/-- Bytes. -/
abbrev Byte := BitVec 8

/-- A name or a value. -/
abbrev Text := List Byte

/-! ## Trees -/

/-- A node. -/
structure Node where
  name : Text
  /-- Names and values, in order. -/
  props : List (Text × Text)
deriving DecidableEq, Repr

/-- The value of the property with a given name. -/
def Node.value? (n : Node) (name : Text) : Option Text := n.props.lookup name

/-- A sequence of trees: the first with its children, and the ones after it. -/
inductive Forest where
  | nil
  | node (n : Node) (children rest : Forest)
deriving DecidableEq, Repr

/-- What a structure block is a sequence of. -/
inductive Item where
  | beginNode (name : Text)
  | prop (name value : Text)
  | endNode
deriving DecidableEq, Repr

namespace Forest

/-- A tree as a structure block has it. -/
def items : Forest → List Item
  | nil => []
  | node n children rest =>
    .beginNode n.name :: (n.props.map fun p => .prop p.1 p.2) ++ children.items ++
      .endNode :: rest.items

/-- All nodes, in document order. -/
def nodes : Forest → List Node
  | nil => []
  | node n children rest => n :: children.nodes ++ rest.nodes

/-- One forest after the other. -/
def append : Forest → Forest → Forest
  | nil, g => g
  | node n children rest, g => node n children (rest.append g)

@[simp] lemma items_append (f g : Forest) : (f.append g).items = f.items ++ g.items := by
  induction f with
  | nil => rfl
  | node n children rest _ ih => simp [append, items, ih]

@[simp] lemma nodes_append (f g : Forest) : (f.append g).nodes = f.nodes ++ g.nodes := by
  induction f with
  | nil => rfl
  | node n children rest _ ih => simp [append, nodes, ih]

/-- How deep and long the reading of a forest can get. -/
def size : Forest → ℕ
  | nil => 1
  | node n children rest => n.props.length + children.size + rest.size + 1

end Forest

/-! ## Numbers -/

/-- Four bytes, big endian. -/
def be32 (v : BitVec 32) : List Byte :=
  [(v >>> 24).setWidth 8, (v >>> 16).setWidth 8, (v >>> 8).setWidth 8, v.setWidth 8]

/-- Eight bytes, big endian. -/
def be64 (v : BitVec 64) : List Byte := be32 ((v >>> 32).setWidth 32) ++ be32 (v.setWidth 32)

/-- The big-endian number of some bytes. -/
def number (bytes : List Byte) : ℕ := bytes.foldl (fun a b => 256 * a + b.toNat) 0

@[simp] lemma length_be32 (v : BitVec 32) : (be32 v).length = 4 := rfl

@[simp] lemma length_be64 (v : BitVec 64) : (be64 v).length = 8 := rfl

lemma number_be32 (v : BitVec 32) : number (be32 v) = v.toNat := by
  simp only [number, be32, List.foldl_cons, List.foldl_nil, BitVec.toNat_setWidth,
    BitVec.toNat_ushiftRight, Nat.shiftRight_eq_div_pow]
  have := v.isLt
  omega

/-! ## Tokens -/

/-- Opens a node. -/
def beginToken : ℕ := 1
/-- Closes a node. -/
def endToken : ℕ := 2
/-- A property follows. -/
def propToken : ℕ := 3
/-- Nothing. -/
def nopToken : ℕ := 4
/-- The end. -/
def finalToken : ℕ := 9

/-- The zero bytes that bring `n` bytes to a multiple of four. -/
def padding (n : ℕ) : List Byte := List.replicate ((4 - n % 4) % 4) 0

/-- Filled up to a multiple of four. -/
def padded (b : List Byte) : List Byte := b ++ padding b.length

lemma length_padded (b : List Byte) : (padded b).length = b.length + (4 - b.length % 4) % 4 := by
  simp [padded, padding]

lemma four_dvd_length_padded (b : List Byte) : 4 ∣ (padded b).length := by
  rw [length_padded]
  omega

/-- `bytes` stand in `strings` at `off`, with a zero byte after them. -/
def NameAt (strings : List Byte) (off : ℕ) (name : Text) : Prop := name ++ [0] <+: strings.drop off

/-- The bytes of an item. -/
inductive ItemBytes (strings : List Byte) : Item → List Byte → Prop
  | beginNode {name : Text} (h : 0 ∉ name) :
      ItemBytes strings (.beginNode name) (be32 1 ++ padded (name ++ [0]))
  | prop {name value : Text} {off : ℕ} (h : 0 ∉ name) (hoff : NameAt strings off name) :
      ItemBytes strings (.prop name value)
        (be32 3 ++ be32 (BitVec.ofNat 32 value.length) ++ be32 (BitVec.ofNat 32 off) ++
          padded value)
  | endNode : ItemBytes strings .endNode (be32 2)

/-- The bytes of a sequence of items. -/
def Encodes (strings : List Byte) : List Item → List Byte → Prop
  | [], b => b = []
  | i :: is, b => ∃ c r, b = c ++ r ∧ ItemBytes strings i c ∧ Encodes strings is r

section Encodes

variable {strings strings' : List Byte} {is js : List Item} {b : List Byte}

lemma encodes_append : Encodes strings (is ++ js) b ↔
    ∃ c r, b = c ++ r ∧ Encodes strings is c ∧ Encodes strings js r := by
  induction is generalizing b with
  | nil => simp [Encodes]
  | cons i is ih =>
    constructor
    · rintro ⟨c, r, rfl, hi, hr⟩
      obtain ⟨c', r', rfl, hc', hr'⟩ := ih.mp hr
      exact ⟨c ++ c', r', (List.append_assoc ..).symm, ⟨c, c', rfl, hi, hc'⟩, hr'⟩
    · rintro ⟨c, r, rfl, ⟨c', r', rfl, hi, hr'⟩, hr⟩
      exact ⟨c', r' ++ r, List.append_assoc .., hi, ih.mpr ⟨r', r, rfl, hr', hr⟩⟩

lemma NameAt.mono {off : ℕ} {name : Text} (h : NameAt strings off name)
    (hs : strings <+: strings') :
    NameAt strings' off name := by
  obtain ⟨t, rfl⟩ := hs
  rw [NameAt, List.drop_append]
  exact h.trans (List.prefix_append _ _)

lemma ItemBytes.mono {i : Item} (h : ItemBytes strings i b) (hs : strings <+: strings') :
    ItemBytes strings' i b := by
  cases h with
  | beginNode h => exact .beginNode h
  | prop h hoff => exact .prop h (hoff.mono hs)
  | endNode => exact .endNode

lemma Encodes.mono (h : Encodes strings is b) (hs : strings <+: strings') :
    Encodes strings' is b := by
  induction is generalizing b with
  | nil => exact h
  | cons i is ih =>
    obtain ⟨c, r, rfl, hi, hr⟩ := h
    exact ⟨c, r, rfl, hi.mono hs, ih hr⟩

lemma ItemBytes.four_dvd {i : Item} (h : ItemBytes strings i b) : 4 ∣ b.length ∧ 4 ≤ b.length := by
  cases h with
  | @beginNode name h =>
    have := four_dvd_length_padded (name ++ [0])
    rw [List.length_append, length_be32]
    omega
  | @prop name value off h hoff =>
    have := four_dvd_length_padded value
    simp only [List.length_append, length_be32]
    omega
  | endNode => decide

lemma Encodes.four_dvd (h : Encodes strings is b) : 4 ∣ b.length ∧ 4 * is.length ≤ b.length := by
  induction is generalizing b with
  | nil =>
    obtain rfl : b = [] := h
    decide
  | cons i is ih =>
    obtain ⟨c, r, rfl, hi, hr⟩ := h
    have h₁ := hi.four_dvd
    have h₂ := ih hr
    rw [List.length_append, List.length_cons]
    omega

end Encodes

/-! ## Reading -/

/-- The next word. -/
def token (b : List Byte) : Option (ℕ × List Byte) :=
  if 4 ≤ b.length then some (number (b.take 4), b.drop 4) else none

/-- The next `n` bytes, and what comes after their padding. -/
def takePadded (n : ℕ) (b : List Byte) : Option (Text × List Byte) :=
  let m := n + (4 - n % 4) % 4
  if m ≤ b.length then some (b.take n, b.drop m) else none

/-- The bytes up to a zero byte. -/
def cstring (b : List Byte) : Option Text :=
  let s := b.takeWhile (· ≠ 0)
  if s.length < b.length then some s else none

/-- Read a name. -/
def takeName (b : List Byte) : Option (Text × List Byte) := do
  let name ← cstring b
  let (_, rest) ← takePadded (name.length + 1) b
  some (name, rest)

/-- The properties at the front of a structure block. -/
def parseProps (strings : List Byte) : ℕ → List Byte → Option (List (Text × Text) × List Byte)
  | 0, _ => none
  | fuel + 1, b => do
    let (t, rest) ← token b
    if t = propToken then do
      let (len, rest) ← token rest
      let (off, rest) ← token rest
      let name ← cstring (strings.drop off)
      let (value, rest) ← takePadded len rest
      let (props, rest) ← parseProps strings fuel rest
      some ((name, value) :: props, rest)
    else if t = nopToken then parseProps strings fuel rest
    else some ([], b)

/-- The trees at the front of a structure block. -/
def parseForest (strings : List Byte) : ℕ → List Byte → Option (Forest × List Byte)
  | 0, _ => none
  | fuel + 1, b => do
    let (t, rest) ← token b
    if t = beginToken then do
      let (name, rest) ← takeName rest
      let (props, rest) ← parseProps strings (fuel + 1) rest
      let (children, rest) ← parseForest strings fuel rest
      let (t, rest) ← token rest
      if t = endToken then do
        let (siblings, rest) ← parseForest strings fuel rest
        some (.node ⟨name, props⟩ children siblings, rest)
      else none
    else if t = nopToken then parseForest strings fuel rest
    else some (.nil, b)

/-- The entries of a reservation block, up to the one of zeros. -/
def parseReservations : ℕ → List Byte → Option (List (ℕ × ℕ) × List Byte)
  | 0, _ => none
  | fuel + 1, b =>
    if 16 ≤ b.length then do
      let addr := number (b.take 8)
      let size := number ((b.drop 8).take 8)
      if addr = 0 ∧ size = 0 then some ([], b.drop 16)
      else do
        let (entries, rest) ← parseReservations fuel (b.drop 16)
        some ((addr, size) :: entries, rest)
    else none

/-- What a blob says. -/
structure Blob where
  reservations : List (ℕ × ℕ)
  root : Node
  children : Forest

/-- The word at an offset. -/
def wordAt (b : List Byte) (off : ℕ) : ℕ := number ((b.drop off).take 4)

/-- Read a blob. -/
def parse (b : List Byte) : Option Blob := do
  let totalSize := wordAt b 4
  let offStruct := wordAt b 8
  let offStrings := wordAt b 12
  let offReservations := wordAt b 16
  let sizeStrings := wordAt b 32
  let sizeStruct := wordAt b 36
  if 40 ≤ b.length ∧ wordAt b 0 = 0xd00dfeed ∧ 17 ≤ wordAt b 20 ∧ wordAt b 24 ≤ 17 ∧
      totalSize = b.length ∧ 40 ≤ offReservations ∧ 8 ∣ offReservations ∧
      offReservations ≤ offStruct ∧ 4 ∣ offStruct ∧ 4 ∣ sizeStruct ∧
      offStruct + sizeStruct ≤ offStrings ∧ offStrings + sizeStrings ≤ totalSize then do
    let (reservations, _) ← parseReservations b.length
      ((b.drop offReservations).take (offStruct - offReservations))
    let strings := (b.drop offStrings).take sizeStrings
    let (forest, rest) ← parseForest strings b.length ((b.drop offStruct).take sizeStruct)
    let (t, rest) ← token rest
    if t = finalToken ∧ rest = [] then
      match forest with
      | .node root children .nil => some ⟨reservations, root, children⟩
      | _ => none
    else none
  else none

/-! ## Reading what was written -/

section Reading

variable {strings : List Byte}

lemma token_be32 (v : BitVec 32) (rest : List Byte) :
    token (be32 v ++ rest) = some (v.toNat, rest) := by
  rw [token, if_pos (by simp), ← number_be32 v]
  rfl

lemma takePadded_padded (b rest : List Byte) :
    takePadded b.length (padded b ++ rest) = some (b, rest) := by
  have hlen := length_padded b
  unfold takePadded
  dsimp only
  rw [← hlen, if_pos (by simp), List.drop_left]
  simp [padded]

variable {name : Text} {fuel : ℕ} {v : BitVec 32} {b : List Byte}

lemma takeWhile_name (h : 0 ∉ name) (rest : List Byte) :
    (name ++ 0 :: rest).takeWhile (· ≠ 0) = name := by
  rw [List.takeWhile_append_of_pos]
  · simp
  · intro x hx
    simpa using ne_of_mem_of_not_mem hx h

lemma cstring_name (h : 0 ∉ name) (rest : List Byte) :
    cstring (name ++ 0 :: rest) = some name := by
  unfold cstring
  dsimp only
  rw [takeWhile_name h, if_pos (by simp)]

lemma cstring_of_nameAt {off : ℕ} (h : 0 ∉ name) (hoff : NameAt strings off name) :
    cstring (strings.drop off) = some name := by
  obtain ⟨rest, hrest⟩ := hoff
  rw [← hrest, List.append_assoc]
  exact cstring_name h rest

lemma takeName_padded (h : 0 ∉ name) (rest : List Byte) :
    takeName (padded (name ++ [0]) ++ rest) = some (name, rest) := by
  have hc : cstring (padded (name ++ [0]) ++ rest) = some name := by
    rw [padded, List.append_assoc, List.append_assoc]
    exact cstring_name h _
  have ht := takePadded_padded (name ++ [0]) rest
  rw [List.length_append] at ht
  unfold takeName
  rw [hc]
  change (takePadded (name.length + 1) _ >>= _) = _
  rw [show name.length + 1 = name.length + [(0 : Byte)].length from rfl, ht]
  rfl

/-- The next token is `v`. -/
def Begins (v : BitVec 32) (b : List Byte) : Prop := ∃ rest, b = be32 v ++ rest

lemma NameAt.lt {off : ℕ} (h : NameAt strings off name) : off < strings.length := by
  have hle := h.length_le
  rw [List.length_append, List.length_singleton, List.length_drop] at hle
  omega

lemma parseProps_stop (hb : Begins v b) (h₃ : v ≠ 3)
    (h₄ : v ≠ 4) : parseProps strings (fuel + 1) b = some ([], b) := by
  obtain ⟨rest, rfl⟩ := hb
  have hne : ∀ w : BitVec 32, v ≠ w → v.toNat ≠ w.toNat :=
    fun w hw h => hw (BitVec.eq_of_toNat_eq h)
  have hprop : ¬ v.toNat = propToken := hne 3 h₃
  have hnop : ¬ v.toNat = nopToken := hne 4 h₄
  rw [parseProps, token_be32]
  simp only [Option.bind_eq_bind, Option.bind_some, if_neg hprop, if_neg hnop]

lemma parseProps_encodes (hs : strings.length < 2 ^ 32) {ps : List (Text × Text)}
    (hb : Encodes strings (ps.map fun p => .prop p.1 p.2) b) (hlen : b.length < 2 ^ 32)
    (hfuel : ps.length < fuel) {stop : List Byte} (hstop : Begins v stop) (h₃ : v ≠ 3)
    (h₄ : v ≠ 4) : parseProps strings fuel (b ++ stop) = some (ps, stop) := by
  induction ps generalizing b fuel with
  | nil =>
    obtain rfl : b = [] := hb
    obtain ⟨fuel, rfl⟩ : ∃ n, fuel = n + 1 :=
      ⟨fuel - 1, by simp only [List.length_nil] at hfuel; omega⟩
    exact parseProps_stop hstop h₃ h₄
  | cons p ps ih =>
    obtain ⟨c, r, rfl, hc, hr⟩ := hb
    obtain ⟨fuel, rfl⟩ : ∃ n, fuel = n + 1 := ⟨fuel - 1, by rw [List.length_cons] at hfuel; omega⟩
    rw [List.length_append] at hlen
    have hrest : parseProps strings fuel (r ++ stop) = some (ps, stop) :=
      ih hr (by omega) (by rw [List.length_cons] at hfuel; omega)
    cases hc with
    | @prop name value off h hoff =>
      have hoff' := hoff.lt
      have hval : p.2.length < 2 ^ 32 := by
        have := length_padded p.2
        simp only [List.length_append, length_be32] at hlen
        omega
      have hv : (BitVec.ofNat 32 p.2.length).toNat = p.2.length := Nat.mod_eq_of_lt hval
      have ho : (BitVec.ofNat 32 off).toNat = off := Nat.mod_eq_of_lt (by omega)
      have htok : (3 : BitVec 32).toNat = propToken := rfl
      rw [parseProps]
      simp only [List.append_assoc, token_be32, Option.bind_eq_bind, Option.bind_some, if_pos htok,
        ho, hv, cstring_of_nameAt h hoff, takePadded_padded, hrest]

/-- A forest is read back from its bytes, up to what follows it. -/
theorem parseForest_encodes (hs : strings.length < 2 ^ 32) {f : Forest}
    (hb : Encodes strings f.items b) (hlen : b.length < 2 ^ 32) (hfuel : f.size ≤ fuel)
    {stop : List Byte} (hstop : Begins v stop) (hv : v = 2 ∨ v = 9) :
    parseForest strings fuel (b ++ stop) = some (f, stop) := by
  induction f generalizing b fuel v stop with
  | nil =>
    obtain rfl : b = [] := hb
    obtain ⟨fuel, rfl⟩ : ∃ n, fuel = n + 1 := ⟨fuel - 1, by rw [Forest.size] at hfuel; omega⟩
    obtain ⟨rest, rfl⟩ := hstop
    rw [List.nil_append, parseForest, token_be32]
    rcases hv with rfl | rfl <;> rfl
  | node n children rest ihc ihr =>
    rw [Forest.size] at hfuel
    obtain ⟨fuel, rfl⟩ : ∃ n, fuel = n + 1 := ⟨fuel - 1, by omega⟩
    obtain ⟨b₁, b₂, rfl, hfront, hback⟩ := encodes_append.mp hb
    obtain ⟨b₃, b₄, rfl, hhead, hchildren⟩ := encodes_append.mp hfront
    obtain ⟨b₅, b₆, rfl, hname, hprops⟩ := hhead
    obtain ⟨b₇, b₈, rfl, hend, hrest⟩ := hback
    simp only [List.length_append] at hlen
    cases hname with
    | beginNode h =>
      cases hend
      have hstop₂ : Begins 2 (be32 2 ++ (b₈ ++ stop)) := ⟨_, rfl⟩
      have hc : parseForest strings fuel (b₄ ++ (be32 2 ++ (b₈ ++ stop))) =
          some (children, be32 2 ++ (b₈ ++ stop)) :=
        ihc hchildren (by omega) (by omega) hstop₂ (Or.inl rfl)
      have hr : parseForest strings fuel (b₈ ++ stop) = some (rest, stop) :=
        ihr hrest (by omega) (by omega) hstop hv
      -- the properties are followed by a child or by the end of the node
      have hafter : ∃ w, Begins w (b₄ ++ (be32 2 ++ (b₈ ++ stop))) ∧ w ≠ 3 ∧ w ≠ 4 := by
        cases children with
        | nil =>
          obtain rfl : b₄ = [] := hchildren
          exact ⟨2, hstop₂, by decide, by decide⟩
        | node m c r =>
          obtain ⟨x, y, rfl, hx, -⟩ := hchildren
          cases hx
          exact ⟨1, ⟨padded (m.name ++ [0]) ++ (y ++ (be32 2 ++ (b₈ ++ stop))),
            by simp only [List.append_assoc]⟩, by decide, by decide⟩
      obtain ⟨w, hw, hw₃, hw₄⟩ := hafter
      have hp : parseProps strings (fuel + 1) (b₆ ++ (b₄ ++ (be32 2 ++ (b₈ ++ stop)))) =
          some (n.props, b₄ ++ (be32 2 ++ (b₈ ++ stop))) :=
        parseProps_encodes hs hprops (by omega) (by omega) hw hw₃ hw₄
      have hbegin : (1 : BitVec 32).toNat = beginToken := rfl
      have hend : (2 : BitVec 32).toNat = endToken := rfl
      rw [parseForest]
      simp only [List.append_assoc, token_be32, Option.bind_eq_bind, Option.bind_some,
        if_pos hbegin, takeName_padded h, hp, hc, if_pos hend, hr]

end Reading

/-! ## Blobs -/

/-- The header of blocks that follow it without gaps, after an empty reservation block. -/
def headerWords (structSize stringsSize : ℕ) : List (BitVec 32) :=
  [0xd00dfeed, BitVec.ofNat 32 (56 + structSize + stringsSize), 56,
    BitVec.ofNat 32 (56 + structSize), 40, 17, 16, 0, BitVec.ofNat 32 stringsSize,
      BitVec.ofNat 32 structSize]

/-- The header. -/
def header (structSize stringsSize : ℕ) : List Byte :=
  (headerWords structSize stringsSize).flatMap be32

/-- A blob without reservations. -/
def layout (struct strings : List Byte) : List Byte :=
  header struct.length strings.length ++ (be64 0 ++ be64 0) ++ struct ++ strings

lemma wordAt_flatMap (ws : List (BitVec 32)) (rest : List Byte) (k : Fin ws.length) :
    wordAt (ws.flatMap be32 ++ rest) (4 * k) = (ws.get k).toNat := by
  induction ws with
  | nil => exact k.elim0
  | cons w ws ih =>
    rw [List.flatMap_cons, List.append_assoc]
    refine Fin.cases ?_ (fun i => ?_) k
    · exact number_be32 w
    · exact ih i

section Layout

variable (struct strings : List Byte)

lemma length_header (m n : ℕ) : (header m n).length = 40 := rfl

lemma length_layout : (layout struct strings).length = 56 + struct.length + strings.length := by
  simp only [layout, List.length_append, length_header, length_be64]

lemma wordAt_layout (k : Fin 10) : wordAt (layout struct strings) (4 * k) =
    ((headerWords struct.length strings.length).get k).toNat := by
  rw [layout, List.append_assoc, List.append_assoc]
  exact wordAt_flatMap (headerWords struct.length strings.length) _ k

lemma reservations_layout {fuel : ℕ} :
    parseReservations (fuel + 1) (((layout struct strings).drop 40).take 16) = some ([], []) := by
  have hsplit : (layout struct strings).drop 40 = be64 0 ++ be64 0 ++ (struct ++ strings) := by
    rw [layout, List.append_assoc, List.append_assoc, ← length_header struct.length strings.length,
      List.drop_left]
  rw [hsplit]
  rfl

lemma struct_layout : ((layout struct strings).drop 56).take struct.length = struct := by
  have hfront : (header struct.length strings.length ++ (be64 0 ++ be64 0)).length = 56 := rfl
  rw [layout, List.append_assoc, ← hfront, List.drop_left, List.take_left]

lemma strings_layout :
    ((layout struct strings).drop (56 + struct.length)).take strings.length = strings := by
  have hfront : (header struct.length strings.length ++ (be64 0 ++ be64 0) ++ struct).length =
      56 + struct.length := by
    simp only [List.length_append, length_header, length_be64]
  rw [layout, ← hfront, List.drop_left, List.take_length]

lemma Forest.size_le (f : Forest) : f.size ≤ f.items.length + 1 := by
  induction f with
  | nil => exact le_refl 1
  | node n children rest ihc ihr =>
    simp only [size, items, List.length_append, List.length_cons, List.length_map] at ihc ihr ⊢
    omega

variable {struct strings}

/-- A blob laid out around the bytes of one tree is read back as that tree. -/
theorem parse_layout {root : Node} {children : Forest}
    (h : Encodes strings (Forest.node root children .nil).items struct)
    (hlen : (layout (struct ++ be32 9) strings).length < 2 ^ 32) :
    parse (layout (struct ++ be32 9) strings) = some ⟨[], root, children⟩ := by
  set whole := struct ++ be32 9 with hwhole
  have hlay := length_layout whole strings
  have hsize : whole.length = struct.length + 4 := by rw [hwhole, List.length_append, length_be32]
  obtain ⟨hdvd, hitems⟩ := h.four_dvd
  have hofNat : ∀ n, n ≤ (layout whole strings).length → (BitVec.ofNat 32 n).toNat = n :=
    fun n hn => Nat.mod_eq_of_lt (by omega)
  have hword := wordAt_layout whole strings
  have htotal : wordAt (layout whole strings) 4 = (layout whole strings).length :=
    (hword 1).trans ((hofNat _ hlay.ge).trans hlay.symm)
  have hoffStrings : wordAt (layout whole strings) 12 = 56 + whole.length :=
    (hword 3).trans (hofNat _ (by omega))
  have hsizeStrings : wordAt (layout whole strings) 32 = strings.length :=
    (hword 8).trans (hofNat _ (by omega))
  have hsizeStruct : wordAt (layout whole strings) 36 = whole.length :=
    (hword 9).trans (hofNat _ (by omega))
  have hmagic : wordAt (layout whole strings) 0 = 0xd00dfeed := hword 0
  have hoffStruct : wordAt (layout whole strings) 8 = 56 := hword 2
  have hoffReservations : wordAt (layout whole strings) 16 = 40 := hword 4
  have hversion : wordAt (layout whole strings) 20 = 17 := hword 5
  have hcompatible : wordAt (layout whole strings) 24 = 16 := hword 6
  have hforest : parseForest strings (layout whole strings).length whole =
      some (.node root children .nil, be32 9) := by
    have hsizes := Forest.size_le (.node root children .nil)
    have hfuel : (Forest.node root children .nil).size ≤ (layout whole strings).length := by omega
    have hread := parseForest_encodes (by omega) h (by omega) hfuel ⟨[], rfl⟩ (.inr rfl)
    rwa [List.append_nil] at hread
  have hres : parseReservations (layout whole strings).length
      (((layout whole strings).drop 40).take (56 - 40)) = some ([], []) := by
    obtain ⟨n, hn⟩ : ∃ n, (layout whole strings).length = n + 1 :=
      ⟨_, (Nat.sub_add_cancel (by omega)).symm⟩
    rw [hn]
    exact reservations_layout whole strings
  have hend : token (be32 9) = some (finalToken, []) := token_be32 9 []
  unfold parse
  dsimp only
  rw [htotal, hoffStrings, hsizeStrings, hsizeStruct, hmagic, hoffStruct,
    hoffReservations, hversion, hcompatible, if_pos (by omega), hres, strings_layout,
      struct_layout, hforest]
  simp only [Option.bind_eq_bind, Option.bind_some, hend, and_self, if_true]

end Layout

end FlatTree
