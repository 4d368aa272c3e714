import RiscvEmu.Virtio.Regions
import RiscvEmu.Lib.Exec
import RiscvEmu.Lib.Checked

/-!
# The ELF loader

`elf.rs`.  The file is untrusted: its header, program headers, section headers and symbols are read
at offsets it gives itself.  Additions, subtractions and slices stop the program where the source
would, so that the theorem can say that they never do.
-/

namespace RiscvEmu

open Exec Checked

namespace Elf

/-- A segment to load. -/
def ptLoad : U32 := 1
/-- The RISC-V architecture. -/
def emRiscv : U16 := 243
/-- Words of 64 bits. -/
def elfclass64 : U8 := 2
/-- Little endian. -/
def elfdata2lsb : U8 := 1
/-- A table of symbols. -/
def shtSymtab : U32 := 2
/-- A table of names. -/
def shtStrtab : U32 := 3

/-- The bytes of a file.  No slice is longer than the largest signed size. -/
structure File where
  bytes : List U8
  fits : bytes.length < 2 ^ 63

/-- What is known of an image in RAM. -/
structure LoadedImage where
  entry : U64
  tohost : U64
deriving DecidableEq, Repr

/-- Why a file is refused. -/
inductive ElfError where
  | notElf
  | truncated
  | notElf64
  | notLittleEndian
  | notRiscv (machine : U16)
  | noProgramHeaders
  | headerOutOfRange
  | segmentPastEnd
  | memszBelowFilesz
  | addressOverflows
  | doesNotFit (paddr endAddr : U64)
  | notMapped (paddr : U64)
  | bssDoesNotFit
  | noSegments
deriving DecidableEq, Repr

/-- A number as the source prints it after `0x`. -/
def hexText (v : U64) : String := "0x" ++ String.ofList (Nat.toDigits 16 v.toNat)

/-- The text of an error. -/
def ElfError.message : ElfError → String
  | notElf => "not an ELF file"
  | truncated => "truncated ELF header"
  | notElf64 => "not ELF64 (32-bit images unsupported)"
  | notLittleEndian => "not little-endian"
  | notRiscv machine =>
    "not a RISC-V image (e_machine=" ++ String.ofList (Nat.toDigits 10 machine.toNat) ++ ")"
  | noProgramHeaders => "no program headers"
  | headerOutOfRange => "program header out of range"
  | segmentPastEnd => "segment extends past end of file"
  | memszBelowFilesz => "segment memsz < filesz"
  | addressOverflows => "segment address overflows"
  | doesNotFit paddr endAddr =>
    "segment " ++ hexText paddr ++ ".." ++ hexText endAddr ++ " does not fit in mapped memory"
  | notMapped paddr => "segment does not fit in mapped memory at " ++ hexText paddr
  | bssDoesNotFit => "bss does not fit in mapped memory"
  | noSegments => "no PT_LOAD segments"

/-- How a run of the loader can fail: it stops, or it refuses the file. -/
inductive Failure where
  | panic (p : Panic)
  | refused (e : ElfError)
deriving DecidableEq, Repr

/-- The loader writes RAM as it goes. -/
abbrev LoadM := EStateM Failure Dram

/-- A computation that reads the file only. -/
def checked {α : Type} (x : Except Panic α) : LoadM α := fun d =>
  match x with
  | .ok a => .ok a d
  | .error p => .error (.panic p) d

/-- Refuse the file. -/
def refuse {α : Type} (e : ElfError) : LoadM α := throw (.refused e)

/-! ## Reading the file -/

section Read

variable (b : List U8)

/-- `[offset, offset + length)` lies inside the file. -/
def fits (offset length : U64) : Bool :=
  length.toNat ≤ b.length ∧ offset.toNat ≤ b.length - length.toNat

/-- A little-endian number of `n` bytes. -/
def rd (n : ℕ) (off : U64) : Except Panic U64 := do
  let hi ← add off (BitVec.ofNat 64 n)
  let bytes ← slice b off.toNat hi.toNat
  pure (readLe bytes)

/-- A halfword of the file. -/
def rd16 (off : U64) : Except Panic U16 := do
  let v ← rd b 2 off
  pure (v.setWidth 16)

/-- A word of the file. -/
def rd32 (off : U64) : Except Panic U32 := do
  let v ← rd b 4 off
  pure (v.setWidth 32)

/-- A doubleword of the file. -/
def rd64 (off : U64) : Except Panic U64 := rd b 8 off

/-- The same at a distance from an offset, by an addition that may overflow. -/
def rd32At (base off : U64) : Except Panic U32 := do
  let o ← add base off
  rd32 b o

/-- A field at an offset from a header. -/
def rd64At (base off : U64) : Except Panic U64 := do
  let o ← add base off
  rd64 b o

/-- Does the file begin as one should? -/
def isElf : Bool := b.length ≥ 4 ∧ b.take 4 = [0x7f, 0x45, 0x4c, 0x46]

/-! ## Symbols -/

/-- The value of the symbol at `ent` if it has the name wanted. -/
def symbolAt (strOff strSize : U64) (want : List U8) (ent : U64) : Except Panic (Option U64) := do
  let name ← rd32 b ent
  let nameOff : U64 := name.setWidth 64
  if nameOff = 0 ∨ nameOff ≥ strSize then pure none
  else do
    let length ← add nameOff 1
    if !fits b strOff length then pure none
    else do
      let start ← add strOff nameOff
      let tail ← slice b start.toNat b.length
      if tail.takeWhile (· ≠ 0) = want then do
        let value ← rd64At b ent 8
        pure (some value)
      else pure none

/-- The loop over a symbol table.  An entry size of zero never gets here. -/
def symbolLoop (symOff symSize symEntsize strOff strSize : U64) (want : List U8)
    (hent : symEntsize ≠ 0) (s : U64) : Except Panic (Option U64) :=
  if _h : s.toNat + symEntsize.toNat ≤ symSize.toNat then do
    let ent := symOff + s
    let _ ← add s symEntsize
    if !fits b ent 24 then pure none
    else
      match ← symbolAt b strOff strSize want ent with
      | some value => pure (some value)
      | none => symbolLoop symOff symSize symEntsize strOff strSize want hent (s + symEntsize)
  else pure none
termination_by symSize.toNat - s.toNat
decreasing_by
  have hpos : symEntsize.toNat ≠ 0 := fun h0 => hent (BitVec.eq_of_toNat_eq h0)
  have hsum : (s + symEntsize).toNat = s.toNat + symEntsize.toNat := by
    rw [BitVec.toNat_add]
    exact Nat.mod_eq_of_lt (by omega)
  omega

/-- One section header: the symbol, if this is a symbol table that has it. -/
def sectionAt (shoff shentsize : U64) (want : List U8) (sh : U64) : Except Panic (Option U64) := do
  let ty ← rd32At b sh 4
  if ty ≠ shtSymtab then pure none
  else do
    let symOff ← rd64At b sh 24
    let symSize ← rd64At b sh 32
    let strtabI ← rd32At b sh 40
    let symEntsize ← rd64At b sh 56
    if hent : symEntsize = 0 then pure none
    else do
      let strSh := shoff + strtabI.setWidth 64 * shentsize
      if !fits b strSh 64 then pure none
      else do
        let strTy ← rd32At b strSh 4
        if strTy ≠ shtStrtab then pure none
        else do
          let strOff ← rd64At b strSh 24
          let strSize ← rd64At b strSh 32
          symbolLoop b symOff symSize symEntsize strOff strSize want hent 0

/-- The loop over the section headers. -/
def sectionLoop (shoff shentsize : U64) (want : List U8) : List ℕ → Except Panic U64
  | [] => pure 0
  | i :: rest =>
    let sh := shoff + BitVec.ofNat 64 i * shentsize
    if !fits b sh 64 then pure 0
    else do
      match ← sectionAt b shoff shentsize want sh with
      | some value => pure value
      | none => sectionLoop shoff shentsize want rest

/-- The value of a symbol, or zero. -/
def findSymbol (shoff shentsize shnum : U64) (want : List U8) : Except Panic U64 :=
  if shoff = 0 ∨ shnum = 0 then pure 0
  else sectionLoop b shoff shentsize want (List.range shnum.toNat)

end Read

/-! ## Loading -/

/-- What a program header says of its segment. -/
structure Segment where
  offset : U64
  paddr : U64
  filesz : U64
  memsz : U64

/-- The program header at an offset. -/
def readSegment (b : List U8) (ph : U64) : Except Panic Segment := do
  let offset ← rd64At b ph 8
  let paddr ← rd64At b ph 24
  let filesz ← rd64At b ph 32
  let memsz ← rd64At b ph 40
  pure ⟨offset, paddr, filesz, memsz⟩

/-- Write to RAM or refuse the file. -/
def writeRam (addr : U64) (src : List U8) (e : ElfError) : LoadM Unit := fun d =>
  match d.writeBytes addr src with
  | some d' => .ok () d'
  | none => .error (.refused e) d

/-- Zero `[start + done, start + bss)` in pieces of at most `chunk` bytes. -/
def zeroLoop (start bss : U64) (chunk : ℕ) (hchunk : 0 < chunk) (done : U64) : LoadM Unit :=
  if _h : done < bss then do
    let n := min (bss - done).toNat chunk
    let _ ← checked (sub bss done)
    let zeros ← checked (slice (List.replicate chunk (0 : U8)) 0 n)
    let addr ← checked (add start done)
    writeRam addr zeros .bssDoesNotFit
    let _ ← checked (add done (BitVec.ofNat 64 n))
    zeroLoop start bss chunk hchunk (done + BitVec.ofNat 64 n)
  else pure ()
termination_by bss.toNat - done.toNat
decreasing_by
  have hlt : done.toNat < bss.toNat := _h
  have hsub : (bss - done).toNat = bss.toNat - done.toNat :=
    BitVec.toNat_sub_of_le (BitVec.le_def.mpr (Nat.le_of_lt hlt))
  have hn : (done + BitVec.ofNat 64 (min (bss - done).toNat chunk)).toNat =
      done.toNat + min (bss - done).toNat chunk := by
    rw [BitVec.toNat_add, BitVec.toNat_ofNat]
    omega
  omega

/-- The bytes zeroed at once. -/
def bssChunk : ℕ := 2 ^ 20

/-- Zero what the segment has beyond its part of the file. -/
def zeroBss (g : Segment) (bss : U64) (hbss : bss > 0) : LoadM Unit :=
  if ¬ g.paddr.toNat + g.filesz.toNat < 2 ^ 64 then refuse .bssDoesNotFit
  else
    zeroLoop (g.paddr + g.filesz) bss (min bss.toNat bssChunk)
      (Nat.lt_min.mpr ⟨hbss, Nat.two_pow_pos 20⟩) 0

/-- Copy a segment and zero the rest of it. -/
def loadSegment (b : List U8) (g : Segment) : LoadM Unit := do
  if !fits b g.offset g.filesz then refuse .segmentPastEnd
  else if g.memsz < g.filesz then refuse .memszBelowFilesz
  else if ¬ g.paddr.toNat + g.memsz.toNat < 2 ^ 64 then refuse .addressOverflows
  else do
    let endAddr := g.paddr + g.memsz
    let d ← get
    let ramEnd ← checked (add dramBase (BitVec.ofNat 64 d.len))
    if g.paddr < dramBase ∨ endAddr > ramEnd then refuse (.doesNotFit g.paddr endAddr)
    else do
      let fileEnd ← checked (add g.offset g.filesz)
      let data ← checked (slice b g.offset.toNat fileEnd.toNat)
      writeRam g.paddr data (.notMapped g.paddr)
      let bss ← checked (sub g.memsz g.filesz)
      if hbss : bss > 0 then zeroBss g bss hbss else pure ()

/-- The loop over the program headers; the number counts the segments loaded. -/
def segmentLoop (b : List U8) (phoff phentsize : U64) : List ℕ → U32 → LoadM U32
  | [], loaded => pure loaded
  | i :: rest, loaded =>
    let ph := phoff + BitVec.ofNat 64 i * phentsize
    if !fits b ph 56 then refuse .headerOutOfRange
    else do
      let ty ← checked (rd32 b ph)
      if ty ≠ ptLoad then segmentLoop b phoff phentsize rest loaded
      else do
        let g ← checked (readSegment b ph)
        loadSegment b g
        let loaded ← checked (add loaded 1)
        segmentLoop b phoff phentsize rest loaded

/-- `tohost`. -/
def tohostName : List U8 := [0x74, 0x6f, 0x68, 0x6f, 0x73, 0x74]

/-- Load a file into RAM. -/
def loadElf (f : File) : LoadM LoadedImage := do
  let b := f.bytes
  if !isElf b then refuse .notElf
  else if b.length < 64 then refuse .truncated
  else do
    let cls ← checked (index b 4)
    if cls ≠ elfclass64 then refuse .notElf64
    else do
      let data ← checked (index b 5)
      if data ≠ elfdata2lsb then refuse .notLittleEndian
      else do
        let machine ← checked (rd16 b 18)
        if machine ≠ emRiscv then refuse (.notRiscv machine)
        else do
          let entry ← checked (rd64 b 24)
          let phoff ← checked (rd64 b 32)
          let shoff ← checked (rd64 b 40)
          let phentsize ← checked (rd16 b 54)
          let phnum ← checked (rd16 b 56)
          let shentsize ← checked (rd16 b 58)
          let shnum ← checked (rd16 b 60)
          if phnum = 0 then refuse .noProgramHeaders
          else do
            let loaded ← segmentLoop b phoff (phentsize.setWidth 64) (List.range phnum.toNat) 0
            if loaded = 0 then refuse .noSegments
            else do
              let tohost ← checked (findSymbol b shoff (shentsize.setWidth 64) (shnum.setWidth 64)
                tohostName)
              pure ⟨entry, tohost⟩

/-! ## Reads inside the file -/

/-- The little-endian number of `n` bytes at `off`. -/
def field (b : List U8) (n off : ℕ) : U64 := readLe ((b.drop off).take n)

section Reads

variable {b : List U8} {off len k : U64}

lemma fits_iff : fits b off len = true ↔ off.toNat + len.toNat ≤ b.length := by
  simp only [fits, decide_eq_true_eq]
  omega

lemma rd_of_le (hb : b.length < 2 ^ 63) {n : ℕ} (h : off.toNat + n ≤ b.length) :
    rd b n off = .ok (field b n off.toNat) := by
  have hn : (BitVec.ofNat 64 n).toNat = n := Nat.mod_eq_of_lt (by omega)
  have hadd : (off + BitVec.ofNat 64 n).toNat = off.toNat + n := by
    rw [BitVec.toNat_add, hn]
    exact Nat.mod_eq_of_lt (by omega)
  unfold rd
  rw [bind_ok (add_of_lt (by omega)), hadd, bind_ok (slice_of_le (by omega) h)]
  rw [List.drop_take, Nat.add_sub_cancel_left]
  rfl

variable (hb : b.length < 2 ^ 63) (hfits : fits b off len = true)

include hb hfits

lemma add_of_fits (hk : k.toNat ≤ len.toNat) :
    add off k = .ok (off + k) ∧ (off + k).toNat = off.toNat + k.toNat := by
  have hle := fits_iff.mp hfits
  refine ⟨add_of_lt (by omega), ?_⟩
  rw [BitVec.toNat_add]
  exact Nat.mod_eq_of_lt (by omega)

lemma rd32At_of_fits (hk : k.toNat + 4 ≤ len.toNat) :
    rd32At b off k = .ok ((field b 4 (off.toNat + k.toNat)).setWidth 32) := by
  obtain ⟨hadd, hnat⟩ := add_of_fits (k := k) hb hfits (by omega)
  have hle := fits_iff.mp hfits
  unfold rd32At rd32
  rw [bind_ok hadd, bind_ok (rd_of_le hb (by omega)), hnat]
  rfl

lemma rd64At_of_fits (hk : k.toNat + 8 ≤ len.toNat) :
    rd64At b off k = .ok (field b 8 (off.toNat + k.toNat)) := by
  obtain ⟨hadd, hnat⟩ := add_of_fits (k := k) hb hfits (by omega)
  have hle := fits_iff.mp hfits
  unfold rd64At rd64
  rw [bind_ok hadd, rd_of_le hb (by omega), hnat]

lemma rd32_of_fits (hk : 4 ≤ len.toNat) : rd32 b off = .ok ((field b 4 off.toNat).setWidth 32) := by
  have hle := fits_iff.mp hfits
  unfold rd32
  rw [bind_ok (rd_of_le hb (by omega))]
  rfl

end Reads

/-! ## The symbol search returns -/

section Symbols

variable {b : List U8} (hb : b.length < 2 ^ 63)

include hb

lemma symbolAt_returns {strOff strSize ent : U64} {want : List U8} (hent : fits b ent 24 = true) :
    Returns (symbolAt b strOff strSize want ent) := by
  unfold symbolAt
  refine .bind ⟨_, rd32_of_fits hb hent (by decide)⟩ fun name _ => ?_
  have hname : (name.setWidth 64).toNat < 2 ^ 32 := by
    rw [BitVec.toNat_setWidth_of_le (by decide)]
    exact name.isLt
  dsimp only
  split
  · exact .pure _
  refine .bind ⟨_, add_of_lt (by simp; omega)⟩ fun length hlength => ?_
  split
  · exact .pure _
  · next hfit =>
      have hle := fits_iff.mp (by simpa using hfit : fits b strOff length = true)
      have hlen : length.toNat = (name.setWidth 64).toNat + 1 := toNat_of_add hlength
      refine .bind ⟨_, add_of_lt (by omega)⟩ fun start hstart => ?_
      have hnat := toNat_of_add hstart
      refine .bind ⟨_, slice_of_le (by omega) le_rfl⟩ fun tail _ => ?_
      split
      · exact .bind ⟨_, rd64At_of_fits hb hent (by decide)⟩ fun value _ => .pure _
      · exact .pure _

lemma symbolLoop_returns {symOff symSize symEntsize strOff strSize : U64} {want : List U8}
    (hent : symEntsize ≠ 0) (s : U64) :
    Returns (symbolLoop b symOff symSize symEntsize strOff strSize want hent s) := by
  -- the table ends at `symSize`, and every turn moves towards it
  induction hn : symSize.toNat - s.toNat using Nat.strong_induction_on generalizing s with
  | _ n ih =>
    rw [symbolLoop]
    split
    · next h =>
        have hpos : symEntsize.toNat ≠ 0 := fun h0 => hent (BitVec.eq_of_toNat_eq h0)
        refine .bind ⟨_, add_of_lt (by omega)⟩ fun s' hs' => ?_
        have hnat : (s + symEntsize).toNat = s.toNat + symEntsize.toNat := by
          rw [BitVec.toNat_add]
          exact Nat.mod_eq_of_lt (by omega)
        split
        · exact .pure _
        · next hfit =>
            refine .bind (symbolAt_returns hb (by simpa using hfit)) fun r _ => ?_
            split
            · exact .pure _
            · exact ih _ (by omega) _ rfl
    · exact .pure _

lemma sectionAt_returns {shoff shentsize sh : U64} {want : List U8} (hsh : fits b sh 64 = true) :
    Returns (sectionAt b shoff shentsize want sh) := by
  unfold sectionAt
  refine .bind ⟨_, rd32At_of_fits hb hsh (by decide)⟩ fun ty _ => ?_
  split
  · exact .pure _
  refine .bind ⟨_, rd64At_of_fits hb hsh (by decide)⟩ fun symOff _ => ?_
  refine .bind ⟨_, rd64At_of_fits hb hsh (by decide)⟩ fun symSize _ => ?_
  refine .bind ⟨_, rd32At_of_fits hb hsh (by decide)⟩ fun strtabI _ => ?_
  refine .bind ⟨_, rd64At_of_fits hb hsh (by decide)⟩ fun symEntsize _ => ?_
  split
  · exact .pure _
  dsimp only
  split
  · exact .pure _
  · next hfit =>
      have hstr : fits b (shoff + strtabI.setWidth 64 * shentsize) 64 = true := by simpa using hfit
      refine .bind ⟨_, rd32At_of_fits hb hstr (by decide)⟩ fun strTy _ => ?_
      split
      · exact .pure _
      refine .bind ⟨_, rd64At_of_fits hb hstr (by decide)⟩ fun strOff _ => ?_
      refine .bind ⟨_, rd64At_of_fits hb hstr (by decide)⟩ fun strSize _ => ?_
      exact symbolLoop_returns hb _ 0

lemma sectionLoop_returns {shoff shentsize : U64} {want : List U8} (is : List ℕ) :
    Returns (sectionLoop b shoff shentsize want is) := by
  induction is with
  | nil => exact .pure _
  | cons i is ih =>
    unfold sectionLoop
    dsimp only
    split
    · exact .pure _
    · next hfit =>
        refine .bind (sectionAt_returns hb (by simpa using hfit)) fun r _ => ?_
        split
        · exact .pure _
        · exact ih

lemma findSymbol_returns (shoff shentsize shnum : U64) (want : List U8) :
    Returns (findSymbol b shoff shentsize shnum want) := by
  unfold findSymbol
  split
  · exact .pure _
  · exact sectionLoop_returns hb _

end Symbols

/-! ## What a segment does to memory -/

namespace Segment

variable (g : Segment)

/-- The RAM offset `o` belongs to the segment. -/
def Covers (o : ℕ) : Prop :=
  g.paddr.toNat ≤ dramBase.toNat + o ∧ dramBase.toNat + o < g.paddr.toNat + g.memsz.toNat

instance (o : ℕ) : Decidable (g.Covers o) := by
  unfold Covers
  infer_instance

/-- The byte the segment has at an offset of its own: from the file, and zero beyond. -/
def byteAt (b : List U8) (i : ℕ) : U8 :=
  if i < g.filesz.toNat then b.getD (g.offset.toNat + i) 0 else 0

/-- The memory after the segment was loaded into it. -/
def write (b : List U8) (mem : ℕ → U8) (o : ℕ) : U8 :=
  if g.Covers o then g.byteAt b (dramBase.toNat + o - g.paddr.toNat) else mem o

end Segment

/-- What a byte of memory is after segments were loaded over each other: the last one that covers it
decides. -/
def loadedByte (b : List U8) (gs : List Segment) (mem : ℕ → U8) (o : ℕ) : U8 :=
  match gs.reverse.find? (·.Covers o) with
  | some g => g.byteAt b (dramBase.toNat + o - g.paddr.toNat)
  | none => mem o

lemma foldl_write (b : List U8) (gs : List Segment) (mem : ℕ → U8) :
    gs.foldl (fun m g => g.write b m) mem = loadedByte b gs mem := by
  funext o
  induction gs generalizing mem with
  | nil => rfl
  | cons g gs ih =>
    rw [List.foldl_cons, ih]
    unfold loadedByte
    rw [List.reverse_cons, List.find?_append]
    cases gs.reverse.find? (·.Covers o) with
    | some g' => rfl
    | none =>
      by_cases hg : g.Covers o
      · simp [Segment.write, hg]
      · simp [Segment.write, hg]

/-! ## Loading, step by step -/

/-- A run that does not stop early, and that ends as `Q` says unless the file is refused. -/
def Loads {α : Type} (m : LoadM α) (d : Dram) (Q : α → Dram → Prop) : Prop :=
  (∀ a d', m d = .ok a d' → Q a d') ∧ ∀ p d', m d ≠ .error (.panic p) d'

section Loads

variable {α β : Type} {d : Dram} {Q : α → Dram → Prop} {m : LoadM α}

lemma Loads.pure {a : α} (h : Q a d) : Loads (pure a : LoadM α) d Q := by
  refine ⟨fun a' d' h' => ?_, fun p d' h' => ?_⟩
  · cases h'
    exact h
  · cases h'

lemma Loads.refuse (e : ElfError) : Loads (refuse e : LoadM α) d Q := by
  refine ⟨fun a d' h => ?_, fun p d' h => ?_⟩ <;> cases h

lemma Loads.bind {f : α → LoadM β} {Q' : β → Dram → Prop} (hm : Loads m d Q)
    (hf : ∀ a d', Q a d' → Loads (f a) d' Q') : Loads (m >>= f) d Q' := by
  constructor
  · intro a' d' h
    obtain ⟨a, d₁, hs, hs'⟩ := bind_eq_ok.mp h
    exact (hf a d₁ (hm.1 a d₁ hs)).1 a' d' hs'
  · intro p d' h
    rcases bind_eq_error.mp h with hs | ⟨a, d₁, hs, hs'⟩
    · exact hm.2 p d' hs
    · exact (hf a d₁ (hm.1 a d₁ hs)).2 p d' hs'

lemma Loads.mono {Q' : α → Dram → Prop} (hm : Loads m d Q) (h : ∀ a d', Q a d' → Q' a d') :
    Loads m d Q' :=
  ⟨fun a d' hr => h a d' (hm.1 a d' hr), hm.2⟩

lemma Loads.get {Q : Dram → Dram → Prop} (h : Q d d) : Loads (get : LoadM Dram) d Q := by
  refine ⟨fun a d' h' => ?_, fun p d' h' => ?_⟩
  · cases h'
    exact h
  · cases h'

/-- A computation on the file that returns. -/
lemma Loads.checked {x : Except Panic α} {f : α → LoadM β} {Q' : β → Dram → Prop} (hx : Returns x)
    (hf : ∀ a, x = .ok a → Loads (f a) d Q') : Loads (checked x >>= f) d Q' := by
  obtain ⟨a, rfl⟩ := hx
  exact hf a rfl

end Loads

/-- The memory after a block was written at an address. -/
def written (addr : ℕ) (src : List U8) (mem : ℕ → U8) (o : ℕ) : U8 :=
  if addr ≤ dramBase.toNat + o ∧ dramBase.toNat + o < addr + src.length then
    src.getD (dramBase.toNat + o - addr) 0
  else mem o

/-- The memory after `[lo, hi)` was zeroed. -/
def zeroed (lo hi : ℕ) (mem : ℕ → U8) (o : ℕ) : U8 :=
  if lo ≤ dramBase.toNat + o ∧ dramBase.toNat + o < hi then 0 else mem o

/-- The length stays, and the memory is the one given. -/
def Became (d : Dram) (mem : ℕ → U8) (d' : Dram) : Prop := d'.len = d.len ∧ d'.mem = mem

section Steps

variable {d : Dram} {b : List U8}

lemma loads_writeRam (addr : U64) (src : List U8) (e : ElfError) :
    Loads (writeRam addr src e) d fun _ => Became d (written addr.toNat src d.mem) := by
  refine ⟨fun _ d' h => ?_, fun p d' h => ?_⟩
  · unfold writeRam at h
    split at h
    · next d₁ hd =>
        cases h
        obtain ⟨o, haddr, hle, hlen, hmem⟩ := Dram.writeBytes_eq_some hd
        have hfits := d.fits
        have hnat : addr.toNat = dramBase.toNat + o := by
          rw [haddr, BitVec.toNat_add, BitVec.toNat_ofNat, Nat.mod_eq_of_lt (a := o) (by omega)]
          exact Nat.mod_eq_of_lt (by omega)
        refine ⟨hlen, ?_⟩
        funext i
        rw [hmem, Bytes.storeBytes, written, hnat]
        by_cases hi : o ≤ i ∧ i < o + src.length
        · rw [if_pos hi, if_pos (by omega), Nat.add_sub_add_left]
        · rw [if_neg hi, if_neg (by omega)]
    · cases h
  · unfold writeRam at h
    split at h <;> cases h

lemma written_zeros (addr n : ℕ) (mem : ℕ → U8) :
    written addr (List.replicate n 0) mem = zeroed addr (addr + n) mem := by
  funext o
  unfold written zeroed
  rw [List.length_replicate]
  split
  · rw [List.getD_eq_getElem?_getD, List.getElem?_replicate]
    split <;> rfl
  · rfl

lemma zeroed_zeroed {lo mid hi : ℕ} (h₁ : lo ≤ mid) (h₂ : mid ≤ hi) (mem : ℕ → U8) :
    zeroed mid hi (zeroed lo mid mem) = zeroed lo hi mem := by
  funext o
  unfold zeroed
  split_ifs <;> first | rfl | omega

lemma zeroed_empty (lo : ℕ) (mem : ℕ → U8) : zeroed lo lo mem = mem := by
  funext o
  exact if_neg (by omega)

lemma loads_zeroLoop {start bss : U64} {chunk : ℕ} (hchunk : 0 < chunk)
    (hfits : start.toNat + bss.toNat < 2 ^ 64) (done : U64) (hdone : done ≤ bss) :
    Loads (zeroLoop start bss chunk hchunk done) d fun _ =>
      Became d (zeroed (start.toNat + done.toNat) (start.toNat + bss.toNat) d.mem) := by
  -- every piece is at least one byte
  induction hn : bss.toNat - done.toNat using Nat.strong_induction_on generalizing d done with
  | _ k ih =>
    have hle : done.toNat ≤ bss.toNat := hdone
    rw [zeroLoop]
    split
    · next hlt =>
        have hlt : done.toNat < bss.toNat := hlt
        have hsub : (bss - done).toNat = bss.toNat - done.toNat := BitVec.toNat_sub_of_le hdone
        dsimp only
        generalize hpiece : min (bss - done).toNat chunk = n
        have hnat : (BitVec.ofNat 64 n).toNat = n := Nat.mod_eq_of_lt (by omega)
        have hnext : (done + BitVec.ofNat 64 n).toNat = done.toNat + n := by
          rw [BitVec.toNat_add, hnat]
          exact Nat.mod_eq_of_lt (by omega)
        refine .checked ⟨_, sub_of_le hdone⟩ fun _ _ => ?_
        refine .checked ⟨_, slice_of_le (Nat.zero_le n) (by rw [List.length_replicate]; omega)⟩
          fun zeros hzeros => ?_
        refine .checked ⟨_, add_of_lt (by omega)⟩ fun addr haddr => ?_
        refine .bind (loads_writeRam addr zeros _) fun _ d₁ hd₁ => ?_
        refine .checked ⟨_, add_of_lt (by omega)⟩ fun _ _ => ?_
        refine (ih _ (by omega) _ (BitVec.le_def.mpr (by omega)) rfl).mono fun _ d₂ hd₂ => ?_
        have hz : zeros = List.replicate n 0 := by
          rw [slice_of_le (Nat.zero_le n) (by rw [List.length_replicate]; omega)] at hzeros
          cases hzeros
          rw [List.drop_zero, List.take_replicate]
          congr 1
          omega
        refine ⟨hd₂.1.trans hd₁.1, ?_⟩
        rw [hd₂.2, hd₁.2, toNat_of_add haddr, hz, written_zeros, hnext, ← Nat.add_assoc]
        exact zeroed_zeroed (by omega) (by omega) _
    · next hge =>
        have hge : ¬ done.toNat < bss.toNat := hge
        refine .pure ⟨rfl, ?_⟩
        rw [show done.toNat = bss.toNat by omega, zeroed_empty]

lemma loads_zeroBss {g : Segment} {bss : U64} (hbss : bss > 0)
    (hsum : g.filesz.toNat + bss.toNat = g.memsz.toNat)
    (hfits : g.paddr.toNat + g.memsz.toNat < 2 ^ 64) :
    Loads (zeroBss g bss hbss) d fun _ => Became d
      (zeroed (g.paddr.toNat + g.filesz.toNat) (g.paddr.toNat + g.memsz.toNat) d.mem) := by
  have hstart : (g.paddr + g.filesz).toNat = g.paddr.toNat + g.filesz.toNat := by
    rw [BitVec.toNat_add]
    exact Nat.mod_eq_of_lt (by omega)
  unfold zeroBss
  split
  · exact .refuse _
  · refine (loads_zeroLoop _ (by omega) 0 (Nat.zero_le _)).mono fun _ d' h => ?_
    rw [hstart] at h
    refine ⟨h.1, h.2.trans ?_⟩
    rw [show g.paddr.toNat + g.filesz.toNat + bss.toNat = g.paddr.toNat + g.memsz.toNat by omega]
    rfl

/-- The file's part and zeros after it are the segment. -/
lemma zeroed_written (g : Segment) (hfile : fits b g.offset g.filesz = true)
    (hsize : g.filesz.toNat ≤ g.memsz.toNat) (mem : ℕ → U8) :
    zeroed (g.paddr.toNat + g.filesz.toNat) (g.paddr.toNat + g.memsz.toNat)
      (written g.paddr.toNat ((b.take (g.offset.toNat + g.filesz.toNat)).drop g.offset.toNat) mem) =
      g.write b mem := by
  have hle := fits_iff.mp hfile
  have hlen : ((b.take (g.offset.toNat + g.filesz.toNat)).drop g.offset.toNat).length =
      g.filesz.toNat := by
    rw [List.length_drop, List.length_take]
    omega
  funext o
  unfold zeroed written
  rw [hlen]
  by_cases hz : g.paddr.toNat + g.filesz.toNat ≤ dramBase.toNat + o ∧
      dramBase.toNat + o < g.paddr.toNat + g.memsz.toNat
  · have hcov : g.Covers o := ⟨by omega, hz.2⟩
    rw [if_pos hz, Segment.write, if_pos hcov, Segment.byteAt, if_neg (by omega)]
  rw [if_neg hz]
  by_cases hf : g.paddr.toNat ≤ dramBase.toNat + o ∧
      dramBase.toNat + o < g.paddr.toNat + g.filesz.toNat
  · have hcov : g.Covers o := ⟨hf.1, by omega⟩
    rw [if_pos hf, Segment.write, if_pos hcov, Segment.byteAt, if_pos (by omega),
      List.getD_eq_getElem?_getD, List.getD_eq_getElem?_getD, List.getElem?_drop,
        List.getElem?_take,
      if_pos (by omega)]
  · have hcov : ¬ g.Covers o := by
      rintro ⟨hlo, hhi⟩
      omega
    rw [if_neg hf, Segment.write, if_neg hcov]

lemma loads_loadSegment (hb : b.length < 2 ^ 63) (g : Segment) :
    Loads (loadSegment b g) d fun _ => Became d (g.write b d.mem) := by
  have hram := d.fits
  unfold loadSegment
  split
  · exact .refuse _
  next hfile =>
  have hfile : fits b g.offset g.filesz = true := by simpa using hfile
  have hle := fits_iff.mp hfile
  split
  · exact .refuse _
  next hsize =>
  have hsize : g.filesz ≤ g.memsz := BitVec.not_lt.mp hsize
  have hsizeNat : g.filesz.toNat ≤ g.memsz.toNat := hsize
  split
  · exact .refuse _
  next hover =>
  have hover : g.paddr.toNat + g.memsz.toNat < 2 ^ 64 := not_not.mp hover
  refine .bind (.get ⟨rfl, rfl⟩ : Loads get d fun a d' => a = d ∧ d' = d) ?_
  rintro _ _ ⟨rfl, rfl⟩
  refine .checked ⟨_, add_of_lt ?_⟩ fun ramEnd _ => ?_
  · rw [BitVec.toNat_ofNat, Nat.mod_eq_of_lt (by omega)]
    exact hram
  split
  · exact .refuse _
  refine .checked ⟨_, add_of_lt (by omega)⟩ fun fileEnd hend => ?_
  have hend := toNat_of_add hend
  refine .checked ⟨_, slice_of_le (by omega) (by omega)⟩ fun data hdata => ?_
  have hdata : data = (b.take (g.offset.toNat + g.filesz.toNat)).drop g.offset.toNat := by
    rw [slice_of_le (by omega) (by omega), hend] at hdata
    exact (Except.ok.inj hdata).symm
  refine .bind (loads_writeRam _ _ _) fun _ d₁ hd₁ => ?_
  refine .checked ⟨_, sub_of_le hsize⟩ fun bss hbss => ?_
  have hbss : bss.toNat = g.memsz.toNat - g.filesz.toNat := by
    rw [sub_of_le hsize] at hbss
    cases hbss
    exact BitVec.toNat_sub_of_le hsize
  rw [hdata] at hd₁
  split
  · next hpos =>
      refine (loads_zeroBss hpos (by omega) hover).mono fun _ d₂ hd₂ => ?_
      refine ⟨hd₂.1.trans hd₁.1, ?_⟩
      rw [hd₂.2, hd₁.2]
      exact zeroed_written g hfile hsizeNat _
  · next hzero =>
      have hzero : bss.toNat = 0 := Nat.le_zero.mp (BitVec.le_def.mp (BitVec.not_lt.mp hzero))
      refine .pure ⟨hd₁.1, ?_⟩
      rw [hd₁.2, ← zeroed_written g hfile hsizeNat,
        show g.memsz.toNat = g.filesz.toNat by omega, zeroed_empty]

end Steps

/-! ## The whole file -/

/-- The loadable segment a program header at `ph` describes. -/
def segmentAt (b : List U8) (ph : ℕ) : Option Segment :=
  if (field b 4 ph).setWidth 32 = ptLoad then
    some ⟨field b 8 (ph + 8), field b 8 (ph + 24), field b 8 (ph + 32), field b 8 (ph + 40)⟩
  else none

/-- The loadable segments of the headers with the given numbers, in order. -/
def segmentsAt (b : List U8) (phoff phentsize : U64) (is : List ℕ) : List Segment :=
  is.filterMap fun i => segmentAt b (phoff + BitVec.ofNat 64 i * phentsize).toNat

/-- The loadable segments of a file, in header order. -/
def segments (b : List U8) : List Segment :=
  segmentsAt b (field b 8 32) (((field b 2 54).setWidth 16).setWidth 64)
    (List.range ((field b 2 56).setWidth 16).toNat)

section Whole

variable {b : List U8} (hb : b.length < 2 ^ 63)

include hb

lemma readSegment_of_fits {ph : U64} (hph : fits b ph 56 = true)
    (hty : (field b 4 ph.toNat).setWidth 32 = ptLoad) :
    ∃ g, readSegment b ph = .ok g ∧ segmentAt b ph.toNat = some g := by
  refine ⟨_, ?_, if_pos hty⟩
  unfold readSegment
  rw [bind_ok (rd64At_of_fits hb hph (by decide)), bind_ok (rd64At_of_fits hb hph (by decide)),
    bind_ok (rd64At_of_fits hb hph (by decide)), bind_ok (rd64At_of_fits hb hph (by decide))]
  rfl

lemma loads_segmentLoop {phoff phentsize : U64} (is : List ℕ) {d : Dram} {loaded : U32}
    (hloaded : loaded.toNat + is.length < 2 ^ 32) :
    Loads (segmentLoop b phoff phentsize is loaded) d fun _ =>
      Became d ((segmentsAt b phoff phentsize is).foldl (fun m g => g.write b m) d.mem) := by
  induction is generalizing d loaded with
  | nil => exact .pure ⟨rfl, rfl⟩
  | cons i is ih =>
    rw [List.length_cons] at hloaded
    unfold segmentLoop
    dsimp only
    split
    · exact .refuse _
    next hph =>
    have hph : fits b (phoff + BitVec.ofNat 64 i * phentsize) 56 = true := by simpa using hph
    refine .checked ⟨_, rd32_of_fits hb hph (by decide)⟩ fun ty hty => ?_
    rw [rd32_of_fits hb hph (by decide)] at hty
    split
    · next hne =>
        have hnone : segmentAt b (phoff + BitVec.ofNat 64 i * phentsize).toNat = none := by
          refine if_neg fun heq => hne ?_
          rw [← Except.ok.inj hty]
          exact heq
        have hsegs : segmentsAt b phoff phentsize (i :: is) = segmentsAt b phoff phentsize is :=
          List.filterMap_cons_none hnone
        rw [hsegs]
        exact ih (by omega)
    · next heq =>
        obtain ⟨g, hread, hseg⟩ := readSegment_of_fits hb hph
          ((Except.ok.inj hty).trans (not_not.mp heq))
        have hsegs : segmentsAt b phoff phentsize (i :: is) =
          g :: segmentsAt b phoff phentsize is :=
          List.filterMap_cons_some hseg
        rw [hsegs]
        refine .checked ⟨g, hread⟩ fun g' hg' => ?_
        cases hread.symm.trans hg'
        refine .bind (loads_loadSegment hb g) fun _ d₁ hd₁ => ?_
        have hone : (1 : U32).toNat = 1 := rfl
        refine .checked ⟨_, add_of_lt (by omega)⟩ fun n hn => ?_
        have hn := toNat_of_add hn
        refine (ih (by omega)).mono fun _ d₂ hd₂ => ?_
        refine ⟨hd₂.1.trans hd₁.1, ?_⟩
        rw [hd₂.2, hd₁.2, List.foldl_cons]

end Whole

lemma loads_loadElf (f : File) (d : Dram) :
    Loads (loadElf f) d fun _ => Became d (loadedByte f.bytes (segments f.bytes) d.mem) := by
  have hb := f.fits
  unfold loadElf
  dsimp only
  split
  · exact .refuse _
  split
  · exact .refuse _
  next hlen =>
  have hlen : 64 ≤ f.bytes.length := Nat.le_of_not_lt hlen
  have hrd : ∀ n (off : U64), off.toNat + n ≤ 64 → rd f.bytes n off =
    .ok (field f.bytes n off.toNat) :=
    fun n off hn => rd_of_le hb (by omega)
  have hrd16 : ∀ off : U64, off.toNat + 2 ≤ 64 →
      rd16 f.bytes off = .ok ((field f.bytes 2 off.toNat).setWidth 16) := fun off hn => by
    unfold rd16
    rw [bind_ok (hrd 2 off hn)]
    rfl
  refine .checked ⟨_, index_of_lt (by omega)⟩ fun cls _ => ?_
  split
  · exact .refuse _
  refine .checked ⟨_, index_of_lt (by omega)⟩ fun data _ => ?_
  split
  · exact .refuse _
  refine .checked ⟨_, hrd16 18 (by decide)⟩ fun machine _ => ?_
  split
  · exact .refuse _
  refine .checked ⟨_, hrd 8 24 (by decide)⟩ fun entry _ => ?_
  refine .checked ⟨_, hrd 8 32 (by decide)⟩ fun phoff hphoff => ?_
  cases (hrd 8 32 (by decide)).symm.trans hphoff
  refine .checked ⟨_, hrd 8 40 (by decide)⟩ fun shoff _ => ?_
  refine .checked ⟨_, hrd16 54 (by decide)⟩ fun phentsize hphent => ?_
  cases (hrd16 54 (by decide)).symm.trans hphent
  refine .checked ⟨_, hrd16 56 (by decide)⟩ fun phnum hphnum => ?_
  cases (hrd16 56 (by decide)).symm.trans hphnum
  refine .checked ⟨_, hrd16 58 (by decide)⟩ fun shentsize _ => ?_
  refine .checked ⟨_, hrd16 60 (by decide)⟩ fun shnum _ => ?_
  split
  · exact .refuse _
  refine .bind (loads_segmentLoop hb _ ?_) fun loaded d₁ hd₁ => ?_
  · rw [List.length_range]
    exact Nat.lt_of_le_of_lt (Nat.add_le_add_left (Nat.le_of_lt (BitVec.isLt _)) _) (by decide)
  split
  · exact .refuse _
  refine .checked (findSymbol_returns hb _ _ _ _) fun tohost _ => .pure ⟨hd₁.1, ?_⟩
  rw [hd₁.2, foldl_write]
  rfl

/-- For every file and every RAM the loader comes to an end without an index out of range or an
overflow; and when it accepts the file, every byte of RAM is the one of the last segment in header
order that covers it, or as it was. -/
theorem loadElf_total_exact (f : File) (d : Dram) :
    (∀ p d', loadElf f d ≠ .error (.panic p) d') ∧
    ∀ image d', loadElf f d = .ok image d' →
      d'.len = d.len ∧ ∀ o < d.len, d'.mem o = loadedByte f.bytes (segments f.bytes) d.mem o := by
  obtain ⟨hok, hpanic⟩ := loads_loadElf f d
  refine ⟨hpanic, fun image d' h => ?_⟩
  obtain ⟨hlen, hmem⟩ := hok image d' h
  exact ⟨hlen, fun o _ => congrFun hmem o⟩

/-- A number as it stands in a file. -/
def leBytes (n : ℕ) (v : U64) : List U8 := (List.range n).map (Bytes.byte v)

/-- A file with two segments, the second over the end of the first and with eight bytes beyond its
part of the file, and with a symbol for `tohost`. -/
def overlaidBytes : List U8 :=
  [0x7f, 0x45, 0x4c, 0x46, 2, 1] ++ List.replicate 12 0 ++ leBytes 2 243 ++ List.replicate 4 0 ++
    leBytes 8 dramBase ++ leBytes 8 64 ++ leBytes 8 244 ++ List.replicate 6 0 ++
    leBytes 2 56 ++ leBytes 2 2 ++ leBytes 2 64 ++ leBytes 2 2 ++ leBytes 2 0 ++
    -- the program headers
    leBytes 8 1 ++ leBytes 8 176 ++ leBytes 8 0 ++ leBytes 8 dramBase ++
      leBytes 8 8 ++ leBytes 8 8 ++ leBytes 8 0 ++
    leBytes 8 1 ++ leBytes 8 184 ++ leBytes 8 0 ++ leBytes 8 (dramBase + 4) ++
      leBytes 8 4 ++ leBytes 8 12 ++ leBytes 8 0 ++
    -- the two parts, the names and the symbols
    [0x13, 0, 0, 0, 1, 2, 3, 4] ++ [5, 6, 7, 8] ++ 0 :: tohostName ++ [0] ++
    List.replicate 24 0 ++ leBytes 8 1 ++ leBytes 8 (dramBase + 8) ++ leBytes 8 0 ++
    -- the section headers of the symbols and of their names
    leBytes 4 0 ++ leBytes 4 2 ++ List.replicate 16 0 ++ leBytes 8 196 ++ leBytes 8 48 ++
      leBytes 8 1 ++ leBytes 8 0 ++ leBytes 8 24 ++
    leBytes 4 0 ++ leBytes 4 3 ++ List.replicate 16 0 ++ leBytes 8 188 ++ leBytes 8 8 ++
      List.replicate 24 0

/-- The file. -/
def overlaid : File := ⟨overlaidBytes, by decide +kernel⟩

/-- One page of RAM that is not zero. -/
def usedRam : Dram := ⟨fun _ => 0xaa, 4096, 1, fun _ => false, [], false, page_fits⟩

/-- The second segment is over the first, the bytes it has not in the file are zero, and what
follows is as it was. -/
theorem loadElf_overlaid :
    ∃ d', loadElf overlaid usedRam = .ok ⟨dramBase, dramBase + 8⟩ d' ∧ d'.len = usedRam.len ∧
      (List.range 17).map d'.mem =
        [0x13, 0, 0, 0, 5, 6, 7, 8, 0, 0, 0, 0, 0, 0, 0, 0, 0xaa] := by
  have hrun : loadElf overlaid usedRam = .ok ⟨dramBase, dramBase + 8⟩ _ :=
    eq_ok_of_outcome (by decide +kernel)
  obtain ⟨hlen, hmem⟩ := (loadElf_total_exact overlaid usedRam).2 _ _ hrun
  refine ⟨_, hrun, hlen, ?_⟩
  have hbytes : (List.range 17).map
    (loadedByte overlaidBytes (segments overlaidBytes) usedRam.mem) =
      [0x13, 0, 0, 0, 5, 6, 7, 8, 0, 0, 0, 0, 0, 0, 0, 0, 0xaa] := by decide +kernel
  rw [← hbytes]
  refine List.map_congr_left fun o ho => hmem o ?_
  exact (List.mem_range.mp ho).trans (by decide)

end Elf

end RiscvEmu
