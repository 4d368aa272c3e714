import RiscvEmu.Types
import RiscvEmu.Lib.FlatTree
import RiscvEmu.Lib.Utf8
import Mathlib.Data.List.Nodup

/-!
# The device tree generator

`fdt.rs`.  `Builder` grows a structure block and a strings block; `program` is the sequence of calls
`build` makes on it.  The blob is read back by the strict reader of `FlatTree`, which returns the
tree whose nodes and properties are those of the calls, in their order.

The carrying invariant is that the structure block holds the bytes of the calls made so far,
relative to a strings block that only grows: an offset handed out by `intern` stays good even if the
name is the tail of another one.
-/

namespace RiscvEmu

namespace Fdt

open FlatTree

/-- `as_bytes` of a string. -/
def text (s : String) : Text := s.toByteArray.data.toList.map UInt8.toBitVec

lemma text_eq_encode (s : String) : text s = Utf8.encode s.toList := by
  rw [text, ← String.utf8Encode_toList, List.utf8Encode, List.data_toByteArray, Utf8.encode,
    List.map_flatMap]
  rfl

/-! ## The builder -/

/-- `pad_to_4`. -/
def padTo4 (out : List U8) : List U8 := out ++ List.replicate ((4 - out.length % 4) % 4) 0

/-- The blocks of a tree under construction. -/
structure Builder where
  struct : List U8 := []
  strings : List U8 := []

namespace Builder

/-- Append to the structure block. -/
def push (b : Builder) (bytes : List U8) : Builder := { b with struct := b.struct ++ bytes }

/-- `pad_to_4` of the structure block. -/
def pad (b : Builder) : Builder := { b with struct := padTo4 b.struct }

/-- The first place of `needle` in `hay`. -/
def position? (hay needle : List U8) : Option ℕ :=
  if needle.length ≤ hay.length then
    (List.range (hay.length - needle.length + 1)).find? fun i =>
    (hay.drop i).take needle.length = needle
  else none

/-- The offset of a name in the strings block. -/
def intern (b : Builder) (name : String) : U32 × Builder :=
  let needle := text name ++ [0]
  match position? b.strings needle with
  | some i => (BitVec.ofNat 32 i, b)
  | none => (BitVec.ofNat 32 b.strings.length, { b with strings := b.strings ++ needle })

/-- Open a node. -/
def beginNode (b : Builder) (name : String) : Builder :=
  (((b.push (be32 1)).push (text name)).push [0]).pad

/-- Close a node. -/
def endNode (b : Builder) : Builder := b.push (be32 2)

/-- The token, length and name of a property. -/
def propHeader (b : Builder) (name : String) (len : ℕ) : Builder :=
  let interned := b.intern name
  ((interned.2.push (be32 3)).push (be32 (BitVec.ofNat 32 len))).push (be32 interned.1)

/-- A property without a value. -/
def propEmpty (b : Builder) (name : String) : Builder := b.propHeader name 0

/-- A property of one cell. -/
def propU32 (b : Builder) (name : String) (v : U32) : Builder := (b.propHeader name 4).push (be32 v)

/-- A property of two cells. -/
def propU64 (b : Builder) (name : String) (v : U64) : Builder := (b.propHeader name 8).push (be64 v)

/-- A text. -/
def propString (b : Builder) (name v : String) : Builder :=
  (((b.propHeader name ((text v).length + 1)).push (text v)).push [0]).pad

/-- A list of texts. -/
def propStringlist (b : Builder) (name : String) (values : List String) : Builder :=
  let b := b.propHeader name (values.map fun v => (text v).length + 1).sum
  (values.foldl (fun b v => (b.push (text v)).push [0]) b).pad

/-- A property of bytes. -/
def propBytes (b : Builder) (name : String) (bytes : List U8) : Builder :=
  ((b.propHeader name bytes.length).push bytes).pad

/-- A list of cells. -/
def propCells (b : Builder) (name : String) (cells : List U32) : Builder :=
  cells.foldl (fun b c => b.push (be32 c)) (b.propHeader name (cells.length * 4))

/-- An address and a size. -/
def propReg (b : Builder) (name : String) (address size : U64) : Builder :=
  ((b.propHeader name 16).push (be64 address)).push (be64 size)

/-- The blob.  The sums are those of 32-bit numbers. -/
def finish (b : Builder) : List U8 :=
  let b := b.push (be32 9)
  let reservations := be64 0 ++ be64 0
  let offReservations : U32 := 40
  let offStructure := offReservations + BitVec.ofNat 32 reservations.length
  let offStrings := offStructure + BitVec.ofNat 32 b.struct.length
  let total := offStrings + BitVec.ofNat 32 b.strings.length
  be32 0xd00dfeed ++ be32 total ++ be32 offStructure ++ be32 offStrings ++ be32 offReservations ++
    be32 17 ++ be32 16 ++ be32 0 ++ be32 (BitVec.ofNat 32 b.strings.length) ++
    be32 (BitVec.ofNat 32 b.struct.length) ++ reservations ++ b.struct ++ b.strings

end Builder

/-! ## Calls -/

/-- The property methods of the builder, with what they are given besides the name. -/
inductive Value where
  | empty
  | u32 (v : U32)
  | u64 (v : U64)
  | string (v : String)
  | stringlist (values : List String)
  | bytes (bytes : List U8)
  | cells (cells : List U32)
  | reg (address size : U64)

/-- A call of a method of the builder. -/
inductive Call where
  | beginNode (name : String)
  | prop (name : String) (v : Value)
  | endNode

/-- What a call does to the builder. -/
def Call.apply (b : Builder) : Call → Builder
  | .beginNode name => b.beginNode name
  | .endNode => b.endNode
  | .prop name .empty => b.propEmpty name
  | .prop name (.u32 v) => b.propU32 name v
  | .prop name (.u64 v) => b.propU64 name v
  | .prop name (.string v) => b.propString name v
  | .prop name (.stringlist values) => b.propStringlist name values
  | .prop name (.bytes bytes) => b.propBytes name bytes
  | .prop name (.cells cells) => b.propCells name cells
  | .prop name (.reg address size) => b.propReg name address size

/-! ## The tree of a machine -/

/-- The handle of the interrupt controller. -/
def phandlePlic : U32 := 1
/-- The handle of the power button. -/
def phandleSyscon : U32 := 3
/-- The handle of the first hart's controller. -/
def phandleCpuIntcBase : U32 := 0x100

/-- The instruction set of a hart. -/
def defaultIsa : String := "rv64imafdc_zicsr_zifencei_zicond_zihintpause_zba_zbb_zbc_zbs"

/-- What `build` is given. -/
structure FdtConfig where
  dramBytes : U64 := 128 * 1024 * 1024
  bootargs : String := ""
  initrdStart : U64 := 0
  initrdEnd : U64 := 0
  harts : U32 := 1
  rngSeed : List U8 := []
  virtioNet : Bool := false
  virtioRng : Bool := false
  rtc : Bool := false
  isa : String := defaultIsa

section Properties

variable (config : FdtConfig)

/-- `config.harts.max(1)`. -/
def hartCount : ℕ := max config.harts.toNat 1

/-- The numbers of the harts. -/
def hartIds : List U32 := (List.range (hartCount config)).map fun h => BitVec.ofNat 32 h

/-- The properties of the root. -/
def rootProps : List (String × Value) :=
  [("#address-cells", .u32 2), ("#size-cells", .u32 2),
    ("compatible", .string "riscv-virtio"), ("model", .string "riscv-emu,virt")]

/-- The properties of `chosen`. -/
def chosenProps : List (String × Value) :=
  [("bootargs", .string config.bootargs), ("stdout-path", .string "/soc/serial@10000000")] ++
    (if config.rngSeed ≠ [] then [("rng-seed", .bytes config.rngSeed)] else []) ++
    (if config.initrdEnd > config.initrdStart then
      [("linux,initrd-start", .u64 config.initrdStart),
        ("linux,initrd-end", .u64 config.initrdEnd)]
    else [])

/-- The properties of `memory`. -/
def memoryProps : List (String × Value) :=
  [("device_type", .string "memory"), ("reg", .reg dramBase config.dramBytes)]

/-- The properties of `cpus`. -/
def cpusProps : List (String × Value) :=
  [("#address-cells", .u32 1), ("#size-cells", .u32 0),
    ("timebase-frequency", .u32 10000000)]

/-- `format!("cpu@{h}")`. -/
def cpuName (h : U32) : String := "cpu@" ++ toString h.toNat

/-- The properties of a hart. -/
def cpuProps (h : U32) : List (String × Value) :=
  [("device_type", .string "cpu"), ("reg", .u32 h), ("status", .string "okay"),
    ("compatible", .string "riscv"), ("riscv,isa", .string config.isa),
    ("mmu-type", .string "riscv,sv39")]

/-- The properties of a hart's interrupt controller. -/
def cpuIntcProps (h : U32) : List (String × Value) :=
  [("#interrupt-cells", .u32 1), ("interrupt-controller", .empty),
    ("compatible", .string "riscv,cpu-intc"), ("phandle", .u32 (phandleCpuIntcBase + h))]

/-- The properties of `soc`. -/
def socProps : List (String × Value) :=
  [("#address-cells", .u32 2), ("#size-cells", .u32 2),
    ("compatible", .stringlist ["simple-bus"]), ("ranges", .empty)]

/-- What the devices behind the PLIC have in common. -/
def deviceProps (compatible : String) (base size : U64) (irq : ℕ) : List (String × Value) :=
  [("compatible", .stringlist [compatible]), ("reg", .reg base size),
    ("interrupt-parent", .u32 phandlePlic), ("interrupts", .u32 (BitVec.ofNat 32 irq))]

/-- The properties of the serial port. -/
def serialProps : List (String × Value) :=
  deviceProps "ns16550a" uart0Base 0x100 uart0Irq ++ [("clock-frequency", .u32 3686400)]

/-- The cells that name two interrupts of each hart. -/
def hartCells (first second : U32) : List U32 :=
  (hartIds config).flatMap fun h =>
    [phandleCpuIntcBase + h, first] ++ [phandleCpuIntcBase + h, second]

/-- The properties of the interruptor. -/
def clintProps : List (String × Value) :=
  [("compatible", .stringlist ["sifive,clint0", "riscv,clint0"]),
    ("reg", .reg clintBase 0x10000), ("interrupts-extended", .cells (hartCells config 3 7))]

/-- The properties of the interrupt controller. -/
def plicProps : List (String × Value) :=
  [("#address-cells", .u32 0), ("#interrupt-cells", .u32 1),
    ("compatible", .stringlist ["sifive,plic-1.0.0", "riscv,plic0"]),
    ("interrupt-controller", .empty), ("reg", .reg plicBase 0x400000),
    ("interrupts-extended", .cells (hartCells config 11 9)), ("riscv,ndev", .u32 31),
    ("phandle", .u32 phandlePlic)]

/-- `/poweroff` and `/reboot`. -/
def sysconUserProps (value : U32) (compatible : String) : List (String × Value) :=
  [("value", .u32 value), ("offset", .u32 0), ("regmap", .u32 phandleSyscon),
    ("compatible", .string compatible)]

/-- The properties of the power button. -/
def sysconProps : List (String × Value) :=
  [("compatible", .stringlist ["syscon"]), ("reg", .reg sysconBase 0x1000),
    ("phandle", .u32 phandleSyscon)]

/-- One call for each property. -/
def propCalls (props : List (String × Value)) : List Call := props.map fun p => .prop p.1 p.2

/-- The calls from `begin_node` to the matching `end_node`. -/
def nodeCalls (name : String) (props : List (String × Value)) (children : List Call) : List Call :=
  [.beginNode name] ++ propCalls props ++ children ++ [.endNode]

/-- The calls for a hart. -/
def cpuCalls (h : U32) : List Call :=
  nodeCalls (cpuName h) (cpuProps config h) (nodeCalls "interrupt-controller" (cpuIntcProps h) [])

/-- The calls for the devices. -/
def socCalls : List Call :=
  nodeCalls "serial@10000000" serialProps [] ++
  nodeCalls "virtio_mmio@10001000" (deviceProps "virtio,mmio" virtioBase 0x1000 virtio0Irq) [] ++
  (if config.virtioNet then
    nodeCalls "virtio_mmio@10002000"
      (deviceProps "virtio,mmio" virtioNetBase 0x1000 virtioNetIrq) []
  else []) ++
  (if config.virtioRng then
    nodeCalls "virtio_mmio@10003000"
      (deviceProps "virtio,mmio" virtioRngBase 0x1000 virtioRngIrq) []
  else []) ++
  (if config.rtc then
    nodeCalls "rtc@101000" (deviceProps "google,goldfish-rtc" rtcBase 0x1000 rtcIrq) []
  else []) ++
  nodeCalls "clint@2000000" (clintProps config) [] ++
  nodeCalls "plic@c000000" (plicProps config) []

/-- The calls `build` makes, in order. -/
def program : List Call :=
  nodeCalls "" rootProps
    (nodeCalls "chosen" (chosenProps config) [] ++
    nodeCalls "memory@80000000" (memoryProps config) [] ++
    nodeCalls "cpus" cpusProps ((hartIds config).flatMap (cpuCalls config)) ++
    nodeCalls "soc" socProps (socCalls config) ++
    nodeCalls "poweroff" (sysconUserProps 0x5555 "syscon-poweroff") [] ++
    nodeCalls "reboot" (sysconUserProps 0x7777 "syscon-reboot") [] ++
    nodeCalls "syscon@100000" sysconProps [])

/-- The device tree blob of a machine. -/
def build : List U8 := ((program config).foldl Call.apply {}).finish

end Properties

/-! ## What the calls say -/

/-- The bytes of a property value. -/
def Value.encode : Value → Text
  | .empty => []
  | .u32 v => be32 v
  | .u64 v => be64 v
  | .string v => text v ++ [0]
  | .stringlist vs => vs.flatMap fun v => text v ++ [0]
  | .bytes b => b
  | .cells cs => cs.flatMap be32
  | .reg address size => be64 address ++ be64 size

/-- The node or property a call adds. -/
def Call.item : Call → Item
  | .beginNode name => .beginNode (text name)
  | .prop name v => .prop (text name) v.encode
  | .endNode => .endNode

/-- The names are C strings. -/
def Call.Named : Call → Prop
  | .beginNode name => 0 ∉ text name
  | .prop name _ => 0 ∉ text name
  | .endNode => True

namespace Builder

/-- `b'` has `bytes` more in its structure block, and a strings block that has grown. -/
structure Grows (b b' : Builder) (bytes : List U8) : Prop where
  struct : b'.struct = b.struct ++ bytes
  strings : b.strings <+: b'.strings

variable {b : Builder}

lemma Grows.push {b' : Builder} {bytes : List U8} (h : b.Grows b' bytes) (more : List U8) :
    b.Grows (b'.push more) (bytes ++ more) where
  struct := by rw [Builder.push, h.struct, List.append_assoc]
  strings := h.strings

/-- Padding the block is padding what was added, once the block was aligned before. -/
lemma Grows.pad {b' : Builder} {front value : List U8} (h : b.Grows b' (front ++ value))
    (hb : 4 ∣ b.struct.length) (hfront : 4 ∣ front.length) :
      b.Grows b'.pad (front ++ padded value) where
  struct := by
    have hmod : b'.struct.length % 4 = value.length % 4 := by
      rw [h.struct, List.length_append, List.length_append]
      omega
    rw [Builder.pad, padTo4, hmod, h.struct, padded, padding]
    simp only [List.append_assoc]
  strings := h.strings

lemma nameAt_of_position? {hay : List U8} {name : Text} {i : ℕ}
    (h : position? hay (name ++ [0]) = some i) : NameAt hay i name := by
  unfold position? at h
  split at h
  · have htake := List.find?_some h
    simp only [decide_eq_true_eq] at htake
    rw [NameAt, ← htake]
    exact List.take_prefix _ _
  · exact absurd h (by simp)

/-- An interned name stands where `intern` says. -/
lemma intern_spec (b : Builder) (name : String) : ∃ off, (b.intern name).1 = BitVec.ofNat 32 off ∧
    NameAt (b.intern name).2.strings off (text name) ∧ (b.intern name).2.struct = b.struct ∧
    b.strings <+: (b.intern name).2.strings := by
  unfold intern
  dsimp only
  cases h : position? b.strings (text name ++ [0]) with
  | some i => exact ⟨i, rfl, nameAt_of_position? h, rfl, List.prefix_rfl⟩
  | none =>
    refine ⟨b.strings.length, rfl, ?_, rfl, List.prefix_append _ _⟩
    rewrite [NameAt, List.drop_left]
    exact List.prefix_rfl

/-- The bytes of a property up to its value. -/
def PropFront (strings : List U8) (name : Text) (len : ℕ) (front : List U8) : Prop :=
  ∃ off, NameAt strings off name ∧
    front = be32 3 ++ be32 (BitVec.ofNat 32 len) ++ be32 (BitVec.ofNat 32 off)

lemma PropFront.four_dvd {strings : List U8} {name : Text} {len : ℕ} {front : List U8}
    (h : PropFront strings name len front) : 4 ∣ front.length := by
  obtain ⟨off, -, rfl⟩ := h
  exact ⟨3, rfl⟩

lemma PropFront.itemBytes {strings : List U8} {name value : Text} {front : List U8}
    (h : PropFront strings name value.length front) (hname : 0 ∉ name) :
    ItemBytes strings (.prop name value) (front ++ padded value) := by
  obtain ⟨off, hoff, rfl⟩ := h
  exact .prop hname hoff

lemma propHeader_grows (b : Builder) (name : String) (len : ℕ) : ∃ front,
    b.Grows (b.propHeader name len) front ∧
      PropFront (b.propHeader name len).strings (text name) len front := by
  obtain ⟨off, hoff, hname, hstruct, hstrings⟩ := b.intern_spec name
  unfold propHeader
  generalize b.intern name = interned at *
  refine ⟨be32 3 ++ be32 (BitVec.ofNat 32 len) ++ be32 (BitVec.ofNat 32 off), ⟨?_, hstrings⟩, off,
    hname, rfl⟩
  simp only [push, hoff, hstruct, List.append_assoc]

lemma push_push (b : Builder) (x y : List U8) : (b.push x).push y = b.push (x ++ y) := by
  simp only [push, List.append_assoc]

lemma push_nil (b : Builder) : b.push [] = b := by
  rw [push, List.append_nil]

lemma foldl_push {α : Type*} (f : α → List U8) (xs : List α) (b : Builder) :
    xs.foldl (fun b x => b.push (f x)) b = b.push (xs.flatMap f) := by
  induction xs generalizing b with
  | nil => exact b.push_nil.symm
  | cons x xs ih => rw [List.foldl_cons, ih, push_push, List.flatMap_cons]

lemma pad_eq_self (h : 4 ∣ b.struct.length) : b.pad = b := by
  have hmod : (4 - b.struct.length % 4) % 4 = 0 := by omega
  rw [pad, padTo4, hmod, List.replicate_zero, List.append_nil]

lemma four_dvd_length_push {bytes : List U8} (hb : 4 ∣ b.struct.length)
    (h : 4 ∣ bytes.length) : 4 ∣ (b.push bytes).struct.length := by
  rw [push, List.length_append]
  exact Nat.dvd_add hb h

lemma four_dvd_length_propHeader (hb : 4 ∣ b.struct.length) (name : String) (len : ℕ) :
    4 ∣ (b.propHeader name len).struct.length := by
  obtain ⟨front, hgrows, hfront⟩ := b.propHeader_grows name len
  rw [hgrows.struct, List.length_append]
  exact Nat.dvd_add hb hfront.four_dvd

/-- The property methods do one thing.  Those that do not pad have values of whole words. -/
lemma apply_prop (hb : 4 ∣ b.struct.length) (name : String) (v : Value) :
    Call.apply b (.prop name v) = ((b.propHeader name v.encode.length).push v.encode).pad := by
  have hwords : ∀ {len : ℕ} {bytes : List U8}, 4 ∣ bytes.length →
      (b.propHeader name len).push bytes = ((b.propHeader name len).push bytes).pad := fun h =>
    (pad_eq_self (four_dvd_length_push (four_dvd_length_propHeader hb name _) h)).symm
  cases v with
  | empty => exact (push_nil _).symm.trans (hwords ⟨0, rfl⟩)
  | u32 v => exact hwords ⟨1, rfl⟩
  | u64 v => exact hwords ⟨2, rfl⟩
  | string v =>
    rw [Call.apply, propString, push_push, Value.encode, List.length_append]
    rfl
  | stringlist values =>
    have hlen : (values.map fun v => (text v).length + 1).sum =
        (values.flatMap fun v => text v ++ [0]).length := by
      simp only [List.length_flatMap, List.length_append, List.length_singleton]
    rw [Call.apply, propStringlist, hlen]
    simp only [push_push]
    rw [foldl_push fun v => text v ++ [0]]
    rfl
  | bytes bytes => rfl
  | cells cells =>
    have hlen : (cells.flatMap be32).length = cells.length * 4 := by
      simp only [List.length_flatMap, length_be32, List.map_const', List.sum_replicate_nat]
    rw [Call.apply, propCells, foldl_push, Value.encode, hlen]
    exact hwords (by rw [hlen]; exact Nat.dvd_mul_left 4 _)
  | reg address size =>
    rw [Call.apply, propReg, push_push]
    exact hwords ⟨4, rfl⟩

lemma Grows.refl (b : Builder) : b.Grows b [] := ⟨(List.append_nil _).symm, List.prefix_rfl⟩

/-- A call adds the bytes of its item. -/
theorem apply_grows (hb : 4 ∣ b.struct.length) {c : Call} (hc : c.Named) :
    ∃ bytes, b.Grows (c.apply b) bytes ∧ ItemBytes (c.apply b).strings c.item bytes := by
  cases c with
  | beginNode name =>
    have hgrows : b.Grows ((b.push (be32 1)).push (text name ++ [0]))
      (be32 1 ++ (text name ++ [0])) :=
      ((Grows.refl b).push (be32 1)).push _
    refine ⟨be32 1 ++ padded (text name ++ [0]), ?_, .beginNode hc⟩
    rw [Call.apply, beginNode, push_push _ (text name)]
    exact hgrows.pad hb ⟨1, rfl⟩
  | prop name v =>
    obtain ⟨front, hgrows, hfront⟩ := b.propHeader_grows name v.encode.length
    rw [apply_prop hb]
    generalize b.propHeader name v.encode.length = headed at *
    exact ⟨front ++ padded v.encode, (hgrows.push v.encode).pad hb hfront.four_dvd,
      hfront.itemBytes hc⟩
  | endNode => exact ⟨be32 2, (Grows.refl b).push (be32 2), .endNode⟩

/-- The structure block holds the bytes of the items. -/
def Holds (b : Builder) (items : List Item) : Prop := Encodes b.strings items b.struct

lemma Holds.apply {items : List Item} (h : b.Holds items) {c : Call} (hc : c.Named) :
    (c.apply b).Holds (items ++ [c.item]) := by
  obtain ⟨bytes, hgrows, hbytes⟩ := apply_grows (Encodes.four_dvd h).1 hc
  rw [Holds, hgrows.struct]
  exact encodes_append.mpr ⟨b.struct, bytes, rfl, Encodes.mono h hgrows.strings,
    bytes, [], (List.append_nil _).symm, hbytes, rfl⟩

lemma Holds.foldl {items : List Item} (h : b.Holds items) {calls : List Call}
    (hcalls : ∀ c ∈ calls, c.Named) : (calls.foldl Call.apply b).Holds
    (items ++ calls.map Call.item) := by
  induction calls generalizing b items with
  | nil => simpa using h
  | cons c calls ih =>
    have hrest := ih (h.apply (hcalls c List.mem_cons_self)) fun d hd =>
      hcalls d (List.mem_cons_of_mem c hd)
    rwa [List.append_assoc] at hrest

/-- The bytes of both blocks. -/
def size (b : Builder) : ℕ := b.struct.length + b.strings.length

lemma length_strings_propHeader (b : Builder) (name : String) (len : ℕ) :
    (b.propHeader name len).strings.length ≤ b.strings.length + (text name).length + 1 := by
  change (b.intern name).2.strings.length ≤ _
  unfold intern
  dsimp only
  cases position? b.strings (text name ++ [0]) with
  | some i => exact Nat.le_add_right_of_le (Nat.le_add_right _ _)
  | none => simp [Nat.add_assoc]

end Builder

/-- The most a call can add to the two blocks. -/
def Call.room : Call → ℕ
  | .beginNode name => (text name).length + 8
  | .prop name v => (text name).length + v.encode.length + 16
  | .endNode => 4

namespace Builder

lemma size_apply_le {b : Builder} (hb : 4 ∣ b.struct.length) (c : Call) :
    (c.apply b).size ≤ b.size + c.room := by
  cases c with
  | beginNode name =>
    simp only [size, Call.room, Call.apply, beginNode, pad, padTo4, push, List.length_append,
      length_be32, List.length_singleton, List.length_replicate]
    omega
  | prop name v =>
    obtain ⟨front, hgrows, off, -, rfl⟩ := b.propHeader_grows name v.encode.length
    have hstrings := b.length_strings_propHeader name v.encode.length
    rw [apply_prop hb]
    simp only [size, Call.room, pad, padTo4, push, hgrows.struct, List.length_append, length_be32,
      List.length_replicate]
    omega
  | endNode =>
    simp only [size, Call.room, Call.apply, endNode, push, List.length_append, length_be32]
    omega

lemma size_foldl_le {b : Builder} (hb : 4 ∣ b.struct.length) {calls : List Call}
    (hcalls : ∀ c ∈ calls, c.Named) :
    (calls.foldl Call.apply b).size ≤ b.size + (calls.map Call.room).sum := by
  induction calls generalizing b with
  | nil => exact Nat.le_add_right _ _
  | cons c calls ih =>
    obtain ⟨bytes, hgrows, hbytes⟩ := apply_grows hb (hcalls c List.mem_cons_self)
    have halign : 4 ∣ (c.apply b).struct.length := by
      rw [hgrows.struct, List.length_append]
      exact Nat.dvd_add hb hbytes.four_dvd.1
    have hstep := size_apply_le hb c
    have hrest := ih halign fun d hd => hcalls d (List.mem_cons_of_mem c hd)
    rw [List.foldl_cons, List.map_cons, List.sum_cons]
    omega

/-- The header is that of blocks without gaps. -/
lemma finish_eq_layout (b : Builder) : b.finish = layout (b.struct ++ be32 9) b.strings := by
  have hoff : (40 : U32) + BitVec.ofNat 32 (be64 0 ++ be64 0).length = BitVec.ofNat 32 56 := by
    decide
  unfold finish
  dsimp only
  rw [hoff]
  simp only [push, layout, header, headerWords, List.flatMap_cons, List.flatMap_nil,
    List.append_nil, List.append_assoc, BitVec.ofNat_add]
  rfl

end Builder

/-! ## The names -/

lemma nul_not_mem_text {s : String} (h : Char.ofNat 0 ∉ s.toList) : 0 ∉ text s := by
  rw [text_eq_encode]
  exact fun hmem => h ((Utf8.mem_encode (by decide)).mp hmem)

lemma nul_not_mem_cpuName (h : U32) : 0 ∉ text (cpuName h) := by
  apply nul_not_mem_text
  rw [cpuName, String.toList_append, List.mem_append]
  rintro (hmem | hmem)
  · exact absurd hmem (by decide)
  · rw [Nat.toString_eq_repr, Nat.toList_repr] at hmem
    exact absurd (Nat.isDigit_of_mem_toDigits (by decide) (by decide) hmem) (by decide)

/-- The names of a list of properties are C strings. -/
abbrev PropsNamed (props : List (String × Value)) : Prop := ∀ p ∈ props, 0 ∉ text p.1

variable {name : String} {props : List (String × Value)} {calls : List Call}

lemma named_nodeCalls {children : List Call} : (∀ c ∈ nodeCalls name props children, c.Named) ↔
    0 ∉ text name ∧ PropsNamed props ∧ ∀ c ∈ children, c.Named := by
  simp only [nodeCalls, propCalls, List.forall_mem_append, List.forall_mem_singleton,
    List.forall_mem_map, Call.Named, and_true, and_assoc, PropsNamed]

lemma named_optional {present : Bool} (h : ∀ c ∈ calls, c.Named) :
    ∀ c ∈ (if present then calls else []), c.Named := by
  cases present with
  | true => exact h
  | false => exact List.forall_mem_nil _

lemma named_leaf (h : 0 ∉ text name) (hprops : PropsNamed props) :
    ∀ c ∈ nodeCalls name props [], c.Named :=
  named_nodeCalls.mpr ⟨h, hprops, List.forall_mem_nil _⟩

lemma named_device (h : 0 ∉ text name) {compatible : String} {base size : U64} {irq : ℕ} :
    ∀ c ∈ nodeCalls name (deviceProps compatible base size irq) [], c.Named :=
  named_leaf h (by simp +decide [PropsNamed, deviceProps])

lemma named_program (config : FdtConfig) : ∀ c ∈ program config, c.Named := by
  have hchosen : PropsNamed (chosenProps config) := by
    unfold chosenProps
    split_ifs <;> simp +decide [PropsNamed]
  have hcpus : ∀ c ∈ (hartIds config).flatMap (cpuCalls config), c.Named := by
    intro c hc
    obtain ⟨h, -, hc⟩ := List.mem_flatMap.mp hc
    refine named_nodeCalls.mpr ⟨nul_not_mem_cpuName h, ?_, named_leaf (by decide) ?_⟩ c hc
    · simp +decide [PropsNamed, cpuProps]
    · simp +decide [PropsNamed, cpuIntcProps]
  have hsoc : ∀ c ∈ socCalls config, c.Named := by
    simp only [socCalls, List.forall_mem_append]
    refine ⟨⟨⟨⟨⟨⟨?_, named_device (by decide)⟩, named_optional (named_device (by decide))⟩,
      named_optional (named_device (by decide))⟩, named_optional (named_device (by decide))⟩, ?_⟩,
        ?_⟩
    all_goals exact named_leaf (by decide) (by simp +decide [PropsNamed, clintProps, plicProps])
  refine named_nodeCalls.mpr ⟨by decide, by decide, ?_⟩
  simp only [List.forall_mem_append]
  refine ⟨⟨⟨⟨⟨⟨named_leaf (by decide) hchosen, ?_⟩,
    named_nodeCalls.mpr ⟨by decide, by decide, hcpus⟩⟩,
    named_nodeCalls.mpr ⟨by decide, by decide, hsoc⟩⟩, ?_⟩, ?_⟩, ?_⟩
  all_goals exact named_leaf (by decide) (by simp +decide [PropsNamed, memoryProps])

/-! ## The tree -/

/-- A tree of one node with its children. -/
def tree (name : String) (props : List (String × Value)) (children : Forest) : Forest :=
  .node ⟨text name, props.map fun p => (text p.1, p.2.encode)⟩ children .nil

/-- A tree that may be left out. -/
def optional (present : Bool) (f : Forest) : Forest := if present then f else .nil

/-- The tree of a hart. -/
def cpuTree (config : FdtConfig) (h : U32) : Forest :=
  tree (cpuName h) (cpuProps config h) (tree "interrupt-controller" (cpuIntcProps h) .nil)

/-- The trees of some harts. -/
def cpuTrees (config : FdtConfig) : List U32 → Forest
  | [] => .nil
  | h :: hs => (cpuTree config h).append (cpuTrees config hs)

/-- The trees of the devices. -/
def socTrees (config : FdtConfig) : Forest :=
  (tree "serial@10000000" serialProps .nil).append <|
  (tree "virtio_mmio@10001000"
    (deviceProps "virtio,mmio" virtioBase 0x1000 virtio0Irq) .nil).append <|
  (optional config.virtioNet
    (tree "virtio_mmio@10002000"
      (deviceProps "virtio,mmio" virtioNetBase 0x1000 virtioNetIrq) .nil)).append <|
  (optional config.virtioRng
    (tree "virtio_mmio@10003000"
      (deviceProps "virtio,mmio" virtioRngBase 0x1000 virtioRngIrq) .nil)).append <|
  (optional config.rtc
    (tree "rtc@101000" (deviceProps "google,goldfish-rtc" rtcBase 0x1000 rtcIrq) .nil)).append <|
  (tree "clint@2000000" (clintProps config) .nil).append <|
  tree "plic@c000000" (plicProps config) .nil

/-- What stands below the root. -/
def deviceTrees (config : FdtConfig) : Forest :=
  (tree "chosen" (chosenProps config) .nil).append <|
  (tree "memory@80000000" (memoryProps config) .nil).append <|
  (tree "cpus" cpusProps (cpuTrees config (hartIds config))).append <|
  (tree "soc" socProps (socTrees config)).append <|
  (tree "poweroff" (sysconUserProps 0x5555 "syscon-poweroff") .nil).append <|
  (tree "reboot" (sysconUserProps 0x7777 "syscon-reboot") .nil).append <|
  tree "syscon@100000" sysconProps .nil

/-- The root. -/
def rootNode : Node := ⟨text "", rootProps.map fun p => (text p.1, p.2.encode)⟩

/-- The tree that `build` describes. -/
def deviceTree (config : FdtConfig) : Forest := .node rootNode (deviceTrees config) .nil

lemma deviceTree_eq_tree (config : FdtConfig) :
    deviceTree config = tree "" rootProps (deviceTrees config) := rfl

lemma items_nodeCalls {children : Forest}
    (h : children.items = calls.map Call.item) :
    (tree name props children).items = (nodeCalls name props calls).map Call.item := by
  simp [tree, Forest.items, h, nodeCalls, propCalls, Call.item, Function.comp_def]

lemma items_leaf (name : String) (props : List (String × Value)) :
    (tree name props .nil).items = (nodeCalls name props []).map Call.item :=
  items_nodeCalls rfl

lemma items_optional {present : Bool} {f : Forest}
    (h : f.items = calls.map Call.item) :
    (optional present f).items = (if present then calls else []).map Call.item := by
  cases present with
  | true => exact h
  | false => rfl

lemma items_cpuTrees (config : FdtConfig) (hs : List U32) :
    (cpuTrees config hs).items = (hs.flatMap (cpuCalls config)).map Call.item := by
  induction hs with
  | nil => rfl
  | cons h hs ih =>
    rw [cpuTrees, Forest.items_append, ih, List.flatMap_cons, List.map_append, cpuTree,
      items_nodeCalls (items_leaf _ _), cpuCalls]

lemma items_socTrees (config : FdtConfig) :
    (socTrees config).items = (socCalls config).map Call.item := by
  simp only [socTrees, socCalls, Forest.items_append, List.map_append, List.append_assoc,
    items_leaf, items_optional (items_leaf _ _)]

/-- The tree has the nodes and properties of the calls, in their order. -/
lemma items_deviceTree (config : FdtConfig) :
    (deviceTree config).items = (program config).map Call.item := by
  rw [deviceTree_eq_tree, program]
  apply items_nodeCalls
  simp only [deviceTrees, Forest.items_append, List.map_append, List.append_assoc, items_leaf,
    items_nodeCalls (items_cpuTrees config _), items_nodeCalls (items_socTrees config)]

/-! ## Phandles -/

/-- The cells of a property value. -/
def cellsOf : Text → List Text
  | a :: b :: c :: d :: rest => [a, b, c, d] :: cellsOf rest
  | _ => []

/-- The phandles in the pairs of a controller and an interrupt of it.  An interrupt is one cell,
which is the `#interrupt-cells` of all controllers here. -/
def controllers : List Text → List Text
  | controller :: _ :: rest => controller :: controllers rest
  | _ => []

/-- The phandle of a node, if it has one. -/
def phandle (n : Node) : List Text := (n.value? (text "phandle")).toList

/-- The phandles a node refers to. -/
def references (n : Node) : List Text :=
  (n.value? (text "interrupt-parent")).toList ++ (n.value? (text "regmap")).toList ++
    controllers (cellsOf ((n.value? (text "interrupts-extended")).getD []))

lemma value?_tree (name : Text) (props : List (String × Value)) (key : String) :
    (Node.mk name (props.map fun p => (text p.1, p.2.encode))).value? (text key) =
      (props.lookup key).map Value.encode := by
  have htext : ∀ s : String, (text key == text s) = (key == s) := by
    intro s
    rw [Bool.eq_iff_iff, beq_iff_eq, beq_iff_eq]
    refine ⟨fun h => ?_, congrArg text⟩
    have hl := congrArg Utf8.lossy h
    rw [text_eq_encode, text_eq_encode, Utf8.lossy_encode, Utf8.lossy_encode] at hl
    exact String.toList_inj.mp hl
  rw [Node.value?]
  induction props with
  | nil => rfl
  | cons p props ih =>
    rw [List.map_cons, List.lookup_cons, List.lookup_cons, htext, ih]
    cases key == p.1 <;> rfl

/-- The encoded value of a property, if it is there. -/
def valueOf (props : List (String × Value)) (key : String) : Option Text :=
  (props.lookup key).map Value.encode

/-- The phandles and the references of the properties of a node. -/
def phandleOf (props : List (String × Value)) : List Text := (valueOf props "phandle").toList

/-- The handles that properties refer to. -/
def referencesOf (props : List (String × Value)) : List Text :=
  (valueOf props "interrupt-parent").toList ++ (valueOf props "regmap").toList ++
    controllers (cellsOf ((valueOf props "interrupts-extended").getD []))

lemma phandles_tree (name : String) (props : List (String × Value)) (children : Forest) :
    (tree name props children).nodes.flatMap phandle =
      phandleOf props ++ children.nodes.flatMap phandle := by
  simp only [tree, Forest.nodes, List.append_nil, List.flatMap_cons, phandle, value?_tree,
    phandleOf, valueOf]

lemma references_tree (name : String) (props : List (String × Value)) (children : Forest) :
    (tree name props children).nodes.flatMap references =
      referencesOf props ++ children.nodes.flatMap references := by
  simp only [tree, Forest.nodes, List.append_nil, List.flatMap_cons, references, value?_tree,
    referencesOf, valueOf]

lemma valueOf_chosenProps (config : FdtConfig) {key : String} (h : key ∉
    ["bootargs", "stdout-path", "rng-seed", "linux,initrd-start", "linux,initrd-end"]) :
    valueOf (chosenProps config) key = none := by
  simp only [List.mem_cons, List.not_mem_nil, or_false, not_or] at h
  obtain ⟨h₁, h₂, h₃, h₄, h₅⟩ := h
  unfold chosenProps
  split_ifs <;>
    simp [valueOf, List.lookup_cons, List.lookup_nil, beq_eq_false_iff_ne.mpr, h₁, h₂, h₃, h₄, h₅]

lemma phandles_cpuTrees (config : FdtConfig) (hs : List U32) :
    (cpuTrees config hs).nodes.flatMap phandle = hs.map fun h => be32 (phandleCpuIntcBase + h) := by
  induction hs with
  | nil => rfl
  | cons h hs ih =>
    rw [cpuTrees, Forest.nodes_append, List.flatMap_append, ih, cpuTree, phandles_tree,
      phandles_tree]
    rfl

lemma phandles_optional (present : Bool) (name compatible : String) (base size : U64) (irq : ℕ) :
    (optional present (tree name (deviceProps compatible base size irq) .nil)).nodes.flatMap
      phandle = [] := by
  cases present with
  | true => exact phandles_tree ..
  | false => rfl

lemma phandles_deviceTree (config : FdtConfig) : (deviceTree config).nodes.flatMap phandle =
    (hartIds config).map (fun h => be32 (phandleCpuIntcBase + h)) ++
      [be32 phandlePlic, be32 phandleSyscon] := by
  have hchosen : phandleOf (chosenProps config) = [] := by
    rw [phandleOf, valueOf_chosenProps config (by decide), Option.toList_none]
  simp only [deviceTree_eq_tree, deviceTrees, socTrees, Forest.nodes_append, List.flatMap_append,
    phandles_tree, phandles_cpuTrees, phandles_optional, hchosen]
  rfl

lemma cellsOf_flatMap_be32 (cells : List U32) : cellsOf (cells.flatMap be32) = cells.map be32 := by
  induction cells with
  | nil => rfl
  | cons c cells ih =>
    rw [List.map_cons, ← ih]
    rfl

lemma controllers_hartCells (config : FdtConfig) (first second : U32) :
    ∀ r ∈ controllers ((hartCells config first second).map be32),
      r ∈ (hartIds config).map fun h => be32 (phandleCpuIntcBase + h) := by
  unfold hartCells
  induction hartIds config with
  | nil => exact List.forall_mem_nil _
  | cons h hs ih =>
    intro r hr
    have hcases : r = be32 (phandleCpuIntcBase + h) ∨ r = be32 (phandleCpuIntcBase + h) ∨
        r ∈ controllers ((hs.flatMap fun h =>
          [phandleCpuIntcBase + h, first] ++ [phandleCpuIntcBase + h, second]).map be32) := by
      simpa [controllers] using hr
    rw [List.map_cons, List.mem_cons]
    rcases hcases with h | h | h
    · exact .inl h
    · exact .inl h
    · exact .inr (ih r h)

/-- The nodes that name the interrupts of the harts. -/
lemma referencesOf_interrupts {config : FdtConfig} {first second : U32}
    (hparent : props.lookup "interrupt-parent" = none) (hregmap : props.lookup "regmap" = none)
    (h : props.lookup "interrupts-extended" = some (.cells (hartCells config first second))) :
    ∀ r ∈ referencesOf props, r ∈ (hartIds config).map fun h => be32 (phandleCpuIntcBase + h) := by
  intro r hr
  apply controllers_hartCells config first second
  rw [← cellsOf_flatMap_be32]
  simpa only [referencesOf, valueOf, Value.encode, hparent, hregmap, h, Option.map_none,
    Option.map_some, Option.toList_none, List.nil_append, Option.getD_some] using hr

lemma references_cpuTrees (config : FdtConfig) (hs : List U32) :
    (cpuTrees config hs).nodes.flatMap references = [] := by
  induction hs with
  | nil => rfl
  | cons h hs ih =>
    rw [cpuTrees, Forest.nodes_append, List.flatMap_append, ih, cpuTree, references_tree,
      references_tree]
    rfl

lemma references_optional (present : Bool) (name compatible : String) (base size : U64) (irq : ℕ) :
    ∀ r ∈ (optional present (tree name (deviceProps compatible base size irq) .nil)).nodes.flatMap
      references,
      r = be32 phandlePlic := by
  cases present with
  | true =>
    intro r hr
    rw [optional, if_pos rfl, references_tree] at hr
    exact List.mem_singleton.mp hr
  | false => exact List.forall_mem_nil _

/-- The other nodes refer to nothing, to the PLIC or to the syscon. -/
lemma referencesOf_plain : referencesOf rootProps = [] ∧ referencesOf cpusProps = [] ∧
    referencesOf socProps = [] ∧ referencesOf sysconProps = [] ∧
    referencesOf serialProps = [be32 phandlePlic] := by decide

/-- Every reference is to the PLIC, to the syscon or to the controller of a hart. -/
lemma references_deviceTree (config : FdtConfig) :
    ∀ r ∈ (deviceTree config).nodes.flatMap references,
    r ∈ (deviceTree config).nodes.flatMap phandle := by
  have hchosen : referencesOf (chosenProps config) = [] := by
    rw [referencesOf, valueOf_chosenProps config (by decide),
      valueOf_chosenProps config (by decide), valueOf_chosenProps config (by decide)]
    rfl
  have hmemory : referencesOf (memoryProps config) = [] := rfl
  have hdevice : ∀ compatible base size irq,
      referencesOf (deviceProps compatible base size irq) = [be32 phandlePlic] := fun _ _ _ _ => rfl
  have huser : ∀ value compatible,
      referencesOf (sysconUserProps value compatible) = [be32 phandleSyscon] := fun _ _ => rfl
  have hinterrupts : ∀ r ∈ referencesOf (clintProps config) ++ referencesOf (plicProps config),
      r ∈ (hartIds config).map fun h => be32 (phandleCpuIntcBase + h) :=
    List.forall_mem_append.mpr
      ⟨referencesOf_interrupts rfl rfl rfl, referencesOf_interrupts rfl rfl rfl⟩
  obtain ⟨hroot, hcpus, hsoc, hsyscon, hserial⟩ := referencesOf_plain
  rw [phandles_deviceTree]
  intro r hr
  rw [List.mem_append]
  simp only [deviceTree_eq_tree, deviceTrees, socTrees, Forest.nodes, Forest.nodes_append,
    List.flatMap_append, List.flatMap_nil, references_tree, references_cpuTrees, hchosen, hmemory,
    hdevice, huser, hroot, hcpus, hsoc, hsyscon, hserial, List.mem_append, List.mem_singleton,
    List.not_mem_nil, false_or, or_false] at hr
  have hplic : r = be32 phandlePlic → r ∈ [be32 phandlePlic, be32 phandleSyscon] :=
    fun h => by simp [h]
  have hmap := fun h => hinterrupts r (List.mem_append.mpr h)
  rcases hr with (h | h | h | h | h | h) | h | h
  · exact .inr (hplic h)
  · exact .inr (hplic h)
  · exact .inr (hplic (references_optional _ _ _ _ _ _ r h))
  · exact .inr (hplic (references_optional _ _ _ _ _ _ r h))
  · exact .inr (hplic (references_optional _ _ _ _ _ _ r h))
  · exact .inl (hmap h)
  · exact .inr (by simp [h])
  · exact .inr (by simp [h])

lemma hartCount_le_length_program (config : FdtConfig) :
    hartCount config ≤ (program config).length := by
  have hcpu : ∀ h, (cpuCalls config h).length = 14 := fun _ => rfl
  have hcpus : ((hartIds config).flatMap (cpuCalls config)).length = hartCount config * 14 := by
    simp only [List.length_flatMap, hcpu, List.map_const', List.sum_replicate_nat, hartIds,
      List.length_map, List.length_range]
  simp only [program, nodeCalls, List.length_append, hcpus]
  omega

lemma number_phandleCpuIntc {h : ℕ} (hh : h < 2 ^ 30) :
    number (be32 (phandleCpuIntcBase + BitVec.ofNat 32 h)) = 0x100 + h := by
  rw [number_be32, BitVec.toNat_add, BitVec.toNat_ofNat, phandleCpuIntcBase]
  change (256 + h % 2 ^ 32) % 2 ^ 32 = _
  omega

lemma phandles_nodup {config : FdtConfig} (h : hartCount config < 2 ^ 30) :
    ((deviceTree config).nodes.flatMap phandle).Nodup := by
  rw [phandles_deviceTree]
  apply List.Nodup.of_map number
  have hmap : ((hartIds config).map fun h => be32 (phandleCpuIntcBase + h)).map number =
      (List.range (hartCount config)).map fun h => 0x100 + h := by
    rw [hartIds, List.map_map, List.map_map]
    refine List.map_congr_left fun k hk => ?_
    rw [Function.comp_apply, Function.comp_apply,
      number_phandleCpuIntc ((List.mem_range.mp hk).trans h)]
  rw [List.map_append, hmap]
  refine List.nodup_append.mpr ⟨?_, by decide, ?_⟩
  · exact List.nodup_range.map fun a b hab => Nat.add_left_cancel hab
  · intro a ha b hb
    obtain ⟨k, -, rfl⟩ := List.mem_map.mp ha
    have hsmall : b = 1 ∨ b = 3 := by
      have hnumbers : number (be32 phandlePlic) = 1 ∧ number (be32 phandleSyscon) = 3 := by decide
      simpa [hnumbers] using hb
    omega

lemma count_phandles (r : Text) (nodes : List Node) :
    (nodes.flatMap phandle).count r = nodes.countP fun n => n.value? (text "phandle") = some r := by
  induction nodes with
  | nil => rfl
  | cons n nodes ih =>
    rw [List.flatMap_cons, List.count_append, ih, List.countP_cons, phandle]
    cases n.value? (text "phandle") with
    | none => simp
    | some v => simp [List.count_cons, add_comm]

lemma length_build_le (config : FdtConfig) :
    (build config).length ≤ 60 + ((program config).map Call.room).sum := by
  have hempty : 4 ∣ ({} : Builder).struct.length := by decide
  have hsize := Builder.size_foldl_le hempty (named_program config)
  have hzero : ({} : Builder).size = 0 := rfl
  rw [Builder.size, hzero] at hsize
  rw [build, Builder.finish_eq_layout, length_layout, List.length_append, length_be32]
  omega

/-- The blob is read back as the tree of the calls, and a phandle a node refers to is that of
exactly one node. -/
theorem build_parses (config : FdtConfig) (hlen : (build config).length < 2 ^ 32) :
    ∃ root children, parse (build config) = some ⟨[], root, children⟩ ∧
      (Forest.node root children .nil).items = (program config).map Call.item ∧
      ∀ n ∈ (Forest.node root children .nil).nodes, ∀ r ∈ references n,
        ((Forest.node root children .nil).nodes.countP
          fun m => m.value? (text "phandle") = some r) = 1 := by
  have hempty : ({} : Builder).Holds [] := rfl
  have hholds := hempty.foldl (named_program config)
  rw [List.nil_append, Builder.Holds, ← items_deviceTree] at hholds
  have hsmall : hartCount config < 2 ^ 30 := by
    have hcalls := hartCount_le_length_program config
    have hitems := hholds.four_dvd.2
    rw [items_deviceTree, List.length_map] at hitems
    rw [build, Builder.finish_eq_layout, length_layout, List.length_append] at hlen
    omega
  refine ⟨rootNode, deviceTrees config, ?_, items_deviceTree config, fun n hn r hr => ?_⟩
  · rw [build, Builder.finish_eq_layout] at hlen ⊢
    exact parse_layout hholds hlen
  · rw [← count_phandles]
    exact List.count_eq_one_of_mem (phandles_nodup hsmall)
      (references_deviceTree config r (List.mem_flatMap.mpr ⟨n, hn, hr⟩))

/-- Three harts, an initial RAM disk, a seed and every optional device. -/
def fullConfig : FdtConfig where
  bootargs := "console=ttyS0"
  initrdStart := 0x82000000
  initrdEnd := 0x82100000
  harts := 3
  rngSeed := [1, 2, 3, 4, 5, 6, 7, 8]
  virtioNet := true
  virtioRng := true
  rtc := true

theorem build_parses_full :
    ∃ root children, parse (build fullConfig) = some ⟨[], root, children⟩ ∧
      (Forest.node root children .nil).items = (program fullConfig).map Call.item ∧
      ∀ n ∈ (Forest.node root children .nil).nodes, ∀ r ∈ references n,
        ((Forest.node root children .nil).nodes.countP fun m =>
          m.value? (text "phandle") = some r) = 1 :=
  build_parses fullConfig ((length_build_le fullConfig).trans_lt (by decide +kernel))

end Fdt

end RiscvEmu
