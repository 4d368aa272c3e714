import RiscvEmu.Virtio.Core

/-!
# The disk

`virtio/blk.rs`.  The backing store is a byte array in memory or a host file.  What the host does
with a file is outside the program: the model has the file's bytes and an oracle that says whether
the next operation on it fails.
-/

namespace RiscvEmu

namespace Virtio

/-- The bytes of a sector. -/
def sectorSize : ℕ := 512

/-- A host file: its bytes, and which of the operations still to come will fail. -/
structure HostFile where
  bytes : ℕ → U8
  length : ℕ
  fails : ℕ → Bool
  /-- The number of operations so far. -/
  ops : ℕ

/-- One more operation: does it succeed? -/
def HostFile.attempt (f : HostFile) : Bool × HostFile :=
  (!f.fails f.ops, { f with ops := f.ops + 1 })

/-- What holds the bytes of a disk. -/
inductive Store where
  | memory (bytes : List U8)
  | file (f : HostFile) (size : ℕ) (snapshot : Bool) (overlay : ℕ → Option (ℕ → U8))

/-- The disk. -/
structure Blk where
  store : Store
  /-- A pass stopped at its budget. -/
  backlog : Bool

namespace Blk

/-- A request to read. -/
def blkTIn : ℕ := 0
/-- A request to write. -/
def blkTOut : ℕ := 1
/-- A request to flush. -/
def blkTFlush : ℕ := 4
/-- A request for the name. -/
def blkTGetId : ℕ := 8
/-- The request was served. -/
def blkSOk : U8 := 0
/-- The request failed. -/
def blkSIoerr : U8 := 1
/-- There is no such request. -/
def blkSUnsupp : U8 := 2
/-- The most segments of a request. -/
def segMax : ℕ := 126
/-- The bytes of a request's header. -/
def headerBytes : ℕ := 16
/-- The requests of one pass. -/
def maxRequestsPerPass : ℕ := 8
/-- The bytes of one pass. -/
def maxBytesPerPass : ℕ := 2 ^ 20
/-- The bytes moved at once. -/
def chunkBytes : ℕ := 64 * 1024

/-- No disk. -/
def new : Blk := ⟨.memory [], false⟩

variable (b : Blk)

/-- Keep the image on disk; the size is the file's when it is opened. -/
def openImage (f : HostFile) (snapshot : Bool) : Blk :=
  { b with store := .file f f.length snapshot fun _ => none }

/-- The size of the disk. -/
def sizeBytes : ℕ :=
  match b.store with
  | .memory v => v.length
  | .file _ size _ _ => size

/-- The sectors of the disk. -/
def sectors : ℕ := b.sizeBytes / sectorSize

/-- Patch one sector of the overlay, if it has it, into the bytes read from `offset` on. -/
def patchSector (overlay : ℕ → Option (ℕ → U8)) (offset len : ℕ) (dst : List U8) (s : ℕ) :
    List U8 :=
  match overlay s with
  | none => dst
  | some sector =>
    let sectorStart := s * sectorSize
    let lo := max sectorStart offset
    let hi := min (sectorStart + sectorSize) (offset + len)
    dst.take (lo - offset) ++ (List.range (hi - lo)).map (fun i => sector (lo - sectorStart + i)) ++
      dst.drop (hi - offset)

/-- Read bytes of the disk, through the overlay. -/
def diskRead (offset n : ℕ) : Option (List U8) × Blk :=
  match b.store with
  | .memory v => (if offset + n ≤ v.length then some ((v.drop offset).take n) else none, b)
  | .file f size snapshot overlay =>
    let (ok, f') := f.attempt
    let b' := { b with store := .file f' size snapshot overlay }
    -- `read_exact` fails past the end of the file
    if ok ∧ (n = 0 ∨ offset + n ≤ f.length) then
      let dst := (List.range n).map fun i => f.bytes (offset + i)
      if snapshot ∧ n ≠ 0 then
        let first := offset / sectorSize
        let last := (offset + n - 1) / sectorSize
        (some ((List.range' first (last + 1 - first)).foldl (patchSector overlay offset n) dst), b')
      else (some dst, b')
    else (none, b')

/-- The sector a write of `n` bytes to it starts from: the overlay's, or else one seeded from the
image, of which a short last sector has fewer bytes.  A whole sector needs no seed. -/
def seedSector (s n : ℕ) : Option (ℕ → U8) × Blk :=
  match b.store with
  | .memory _ => (none, b)
  | .file _ size _ overlay =>
    match overlay s with
    | some sector => (some sector, b)
    | none =>
      if n = sectorSize then (some fun _ => 0, b)
      else
        let avail := min (size - s * sectorSize) sectorSize
        match b.diskRead (s * sectorSize) avail with
        | (some bytes, b') => (some fun i => bytes.getD i 0, b')
        | (none, b') => (none, b')

/-- Put a sector into the overlay. -/
def setSector (s : ℕ) (sector : ℕ → U8) : Blk :=
  match b.store with
  | .memory _ => b
  | .file f size snapshot overlay =>
    { b with store := .file f size snapshot (Function.update overlay s (some sector)) }

/-- The copy-on-write loop of a snapshot; every turn moves at least one byte. -/
def writeOverlay : ℕ → ℕ → List U8 → Blk → Bool × Blk
  | 0, _, _, b => (true, b)
  | turns + 1, offset, src, b =>
    if src = [] then (true, b)
    else
      let s := offset / sectorSize
      let within := offset % sectorSize
      let n := min (sectorSize - within) src.length
      match b.seedSector s n with
      | (none, b') => (false, b')
      | (some sector, b') =>
        writeOverlay turns (offset + n) (src.drop n) (b'.setSector s fun i =>
          if within ≤ i ∧ i < within + n then src.getD (i - within) 0 else sector i)

/-- Write bytes of the disk, or of the overlay. -/
def diskWrite (offset : ℕ) (src : List U8) : Bool × Blk :=
  match b.store with
  | .memory v =>
    if offset + src.length ≤ v.length then
      (true, { b with store := .memory (v.take offset ++ src ++ v.drop (offset + src.length)) })
    else (false, b)
  | .file f size snapshot overlay =>
    if snapshot then writeOverlay src.length offset src b
    else
      let (ok, f') := f.attempt
      let f'' := if ok then { f' with bytes := Bytes.storeBytes f'.bytes offset src } else f'
      (ok, { b with store := .file f'' size snapshot overlay })

/-- Flush what was written. -/
def diskFlush : Bool × Blk :=
  match b.store with
  | .file f size false overlay =>
    let (ok, f') := f.attempt
    (ok, { b with store := .file f' size false overlay })
  | _ => (true, b)

/-- Move one buffer in pieces of `chunkBytes`; every turn moves at least one byte. -/
def moveSegment (isRead : Bool) (s : Segment) :
    ℕ → ℕ → ℕ → Blk → Dma → Bool × Blk × Dma
  | 0, _, _, b, e => (true, b, e)
  | turns + 1, done, diskOffset, b, e =>
    if done ≥ s.len then (true, b, e)
    else
      let n := min chunkBytes (s.len - done)
      let guestAddr := s.addr + BitVec.ofNat 64 done
      let moved : Bool × Blk × Dma :=
        if isRead then
          match b.diskRead diskOffset n with
          | (none, b') => (false, b', e)
          | (some bytes, b') =>
            let (ok, e') := e.writeGuestBytes guestAddr bytes
            (ok, b', e')
        else
          match e.readGuestBytes guestAddr n with
          | none => (false, b, e)
          | some bytes =>
            let (ok, b') := b.diskWrite diskOffset bytes
            (ok, b', e)
      match moved with
      | (false, b', e') => (false, b', e')
      | (true, b', e') => moveSegment isRead s turns (done + n) (diskOffset + n) b' e'

/-- The loop over the data buffers: status, bytes written for the driver, and the state. -/
def moveSegments (isRead : Bool) :
    List Segment → ℕ → ℕ → Blk → Dma → U8 × ℕ × Blk × Dma
  | [], _, written, b, e => (blkSOk, written, b, e)
  | s :: segs, diskOffset, written, b, e =>
    match moveSegment isRead s s.len 0 diskOffset b e with
    | (false, b', e') => (blkSIoerr, written, b', e')
    | (true, b', e') =>
      let written := if isRead then written + s.len else written
      moveSegments isRead segs (diskOffset + s.len) written b' e'

/-- `riscv-emu-virtio`, padded to twenty bytes. -/
def idString : List U8 :=
  [0x72, 0x69, 0x73, 0x63, 0x76, 0x2d, 0x65, 0x6d, 0x75, 0x2d, 0x76, 0x69, 0x72, 0x74, 0x69, 0x6f,
    0, 0, 0, 0]

/-- The effect of a request of some kind on its data buffers. -/
def perform (kind sector : ℕ) (data : List Segment) (b : Blk) (e : Dma) : U8 × ℕ × Blk × Dma :=
  if kind = blkTIn ∨ kind = blkTOut then
    let isRead := kind == blkTIn
    let total := (data.map (·.len)).sum
    let directionOk := data.all fun s => s.deviceWrites == isRead
    let size := b.sizeBytes
    if !directionOk ∨ sector > size / sectorSize ∨ total > size ∨
        sector * sectorSize > size - total then (blkSIoerr, 0, b, e)
    else if total ≠ 0 then moveSegments isRead data (sector * sectorSize) 0 b e
    else (blkSOk, 0, b, e)
  else if kind = blkTFlush then
    let (ok, b') := b.diskFlush
    (if ok then blkSOk else blkSIoerr, 0, b', e)
  else if kind = blkTGetId then
    match data.head? with
    | some d =>
      if d.deviceWrites then
        let n := min d.len idString.length
        match e.writeGuestBytes d.addr (idString.take n) with
        | (true, e') => (blkSOk, n, b, e')
        | (false, e') => (blkSIoerr, 0, b, e')
      else (blkSIoerr, 0, b, e)
    | none => (blkSIoerr, 0, b, e)
  else (blkSUnsupp, 0, b, e)

/-- Serve one request and complete its chain. -/
def processRequest (queue : ℕ) (head : U16) (segs : List Segment) (b : Blk) (e : Dma) :
    Blk × Dma :=
  match segs.head?, segs.getLast? with
  | some first, some last =>
    if segs.length < 2 then (b, e.pushUsed queue head 0)
    else if first.deviceWrites ∨ first.len < headerBytes ∨ !last.deviceWrites ∨ last.len < 1 then
      (b, e.pushUsed queue head 0)
    else
      match e.readGuestBytes first.addr headerBytes with
      | none => (b, e.pushUsed queue head 0)
      | some header =>
        let kind := (readLe (header.take 4)).toNat
        let sector := (readLe (header.drop 8)).toNat
        let (status, written, b', e') := perform kind sector (segs.drop 1).dropLast b e
        let (_, e'') := e'.writeGuestBytes last.addr [status]
        (b', e''.pushUsed queue head (written + 1))
  | _, _ => (b, e.pushUsed queue head 0)

/-- The loop of a pass: at most `turns` requests, fewer if the bytes run out. -/
def serviceLoop (queue : ℕ) : ℕ → ℕ → ℕ → Blk → Dma → ℕ × Blk × Dma
  | 0, done, _, b, e => (done, { b with backlog := true }, e)
  | turns + 1, done, bytes, b, e =>
    match e.popChain queue with
    | (none, e') => (done, b, e')
    | (some (head, segs), e') =>
      let bytes := bytes + (segs.map (·.len)).sum
      let (b', e'') := processRequest queue head segs b e'
      if bytes ≥ maxBytesPerPass then (done + 1, { b' with backlog := true }, e'')
      else serviceLoop queue turns (done + 1) bytes b' e''

/-- One pass over a queue, and its signal. -/
def service (e : Dma) (queue : ℕ) : Blk × Dma :=
  let (done, b', e') := serviceLoop queue maxRequestsPerPass 0 0 { b with backlog := false } e
  (b', if done > 0 then e'.signalUsed queue else e')

/-- `struct virtio_blk_config`. -/
def configBytes : List U8 :=
  (List.range 8).map (Bytes.byte (BitVec.ofNat 64 b.sectors)) ++ List.replicate 4 0 ++
    (List.range 4).map (Bytes.byte (BitVec.ofNat 64 segMax)) ++ List.replicate 4 0 ++
    (List.range 4).map (Bytes.byte (BitVec.ofNat 64 sectorSize))

end Blk

instance : VirtioDevice Blk where
  features _ := (1 <<< 2) ||| (1 <<< 6) ||| (1 <<< 9)
  configRead b offset size := readConfig b.configBytes offset size
  notify b e queue := b.service e queue
  poll b e := if b.backlog then b.service e 0 else (b, e)

end Virtio

end RiscvEmu
