import Mathlib.Data.List.GetD
import RiscvEmu.Virtio.Blk

/-!
# Snapshots of a disk image

A snapshot keeps the sectors the guest wrote in an overlay and reads everything else from the
image.  Seen through `disk_read` and `disk_write` it is a plain array of bytes that starts as the
image, and the image itself is only ever read.
-/

namespace RiscvEmu

namespace Virtio

/-- A request to the backing store. -/
inductive DiskOp where
  | read (offset n : ℕ)
  | write (offset : ℕ) (src : List U8)

namespace DiskOp

/-- The first position past the bytes a request is about. -/
def extent : DiskOp → ℕ
  | .read offset n => offset + n
  | .write offset src => offset + src.length

/-- What the device does, and the bytes it answers with; `none` is a failure. -/
def serve : DiskOp → Blk → Option (List U8) × Blk
  | .read offset n, b => b.diskRead offset n
  | .write offset src, b =>
    let (ok, b') := b.diskWrite offset src
    (if ok then some [] else none, b')

/-- What an array of bytes does. -/
def onArray : DiskOp → List U8 → List U8 × List U8
  | .read offset n, a => ((a.drop offset).take n, a)
  | .write offset src, a => ([], a.take offset ++ src ++ a.drop (offset + src.length))

/-- A sequence of requests to the device. -/
def serveAll : List DiskOp → Blk → List (Option (List U8)) × Blk
  | [], b => ([], b)
  | op :: ops, b =>
    let (answer, b') := op.serve b
    let (answers, b'') := serveAll ops b'
    (answer :: answers, b'')

/-- The same sequence on an array. -/
def onArrayAll : List DiskOp → List U8 → List (List U8) × List U8
  | [], a => ([], a)
  | op :: ops, a =>
    let (answer, a') := op.onArray a
    let (answers, a'') := onArrayAll ops a'
    (answer :: answers, a'')

end DiskOp

namespace Blk

/-! ## Reading through the overlay -/

/-- The byte at `pos`: a written sector of the overlay shadows the image. -/
def overlaid (image : ℕ → U8) (overlay : ℕ → Option (ℕ → U8)) (pos : ℕ) : U8 :=
  match overlay (pos / sectorSize) with
  | some sector => sector (pos % sectorSize)
  | none => image pos

variable {image : ℕ → U8} {overlay : ℕ → Option (ℕ → U8)} {offset n : ℕ}

/-- Patching sector `s` replaces exactly the bytes of that sector. -/
lemma patchSector_map (g : ℕ → U8) {s : ℕ} (hlo : s * sectorSize < offset + n)
    (hhi : offset < s * sectorSize + sectorSize) :
    patchSector overlay offset n ((List.range n).map fun i => g (offset + i)) s =
      (List.range n).map fun i =>
        if (offset + i) / sectorSize = s then overlaid g overlay (offset + i)
          else g (offset + i) := by
  unfold patchSector
  split
  · next h =>
      refine List.map_congr_left fun i _ => ?_
      split
      · next hs => rw [overlaid, hs, h]
      · rfl
  · next sector h =>
      simp only [sectorSize] at hlo hhi ⊢
      refine List.ext_getElem ?_ fun i hi _ => ?_
      · simp only [List.length_append, List.length_take, List.length_map, List.length_range,
          List.length_drop]
        omega
      · simp only [List.length_append, List.length_take, List.length_map, List.length_range,
          List.length_drop] at hi
        simp only [List.getElem_append, List.length_append, List.length_take, List.length_map,
          List.length_range, List.getElem_take, List.getElem_map, List.getElem_range,
          List.getElem_drop]
        -- before the sector, inside it, after it
        split
        · split
          · rw [if_neg (by omega)]
          · rw [if_pos (by omega), overlaid, sectorSize,
              show (offset + i) / 512 = s by omega, h]
            dsimp only
            congr 1
            omega
        · rw [if_neg (by omega)]
          congr 2
          omega

/-- Patching all sectors a read touches gives the bytes seen through the overlay. -/
lemma foldl_patchSector {g : ℕ → U8} (count first : ℕ)
    (hg : ∀ pos, first ≤ pos / sectorSize → g pos = image pos)
    (hg' : ∀ pos, offset ≤ pos → pos / sectorSize < first → g pos = overlaid image overlay pos)
    (hfirst : offset < first * sectorSize + sectorSize)
    (hlast : ∀ k < count, (first + k) * sectorSize < offset + n)
    (hend : offset + n ≤ (first + count) * sectorSize) :
    (List.range' first count).foldl (patchSector overlay offset n)
        ((List.range n).map fun i => g (offset + i)) =
      (List.range n).map fun i => overlaid image overlay (offset + i) := by
  induction count generalizing first g with
  | zero =>
    refine List.map_congr_left fun i hi => hg' _ (by omega) ?_
    rw [List.mem_range] at hi
    simp only [sectorSize] at hend ⊢
    omega
  | succ count ih =>
    rw [List.range'_succ, List.foldl_cons,
      patchSector_map g (by simpa using hlast 0 (by omega)) hfirst]
    -- sector `first` is settled now
    refine ih (g := fun pos => if pos / sectorSize = first then overlaid g overlay pos else g pos)
      (first + 1) ?_ ?_ ?_ ?_ ?_
    · intro pos hpos
      rw [if_neg (by omega), hg pos (by omega)]
    · intro pos hle hpos
      split
      · next heq =>
          unfold overlaid
          split
          · rfl
          · exact hg pos (by omega)
      · exact hg' pos hle (by omega)
    · rw [Nat.succ_mul]
      omega
    · intro k hk
      rw [show first + 1 + k = first + (k + 1) by omega]
      exact hlast (k + 1) (by omega)
    · rwa [show first + 1 + count = first + (count + 1) by omega]

/-- A read patches the sectors from its first byte's to its last byte's. -/
lemma patch_sectors (image : ℕ → U8) (overlay : ℕ → Option (ℕ → U8)) (h0 : n ≠ 0) :
    (List.range' (offset / sectorSize)
      ((offset + n - 1) / sectorSize + 1 - offset / sectorSize)).foldl
        (patchSector overlay offset n) ((List.range n).map fun i => image (offset + i)) =
      (List.range n).map fun i => overlaid image overlay (offset + i) := by
  refine foldl_patchSector _ _ (fun _ _ => rfl) (fun pos hle hpos => ?_) ?_ ?_ ?_
  all_goals simp only [sectorSize] at *
  · omega
  · omega
  · intro k hk
    omega
  · omega

lemma diskRead_length {b : Blk} {bytes : List U8} (h : (b.diskRead offset n).1 = some bytes) :
    bytes.length = n := by
  unfold diskRead at h
  split at h
  · split at h
    · next hle =>
        cases h
        rw [List.length_take, List.length_drop]
        omega
    · cases h
  · next f _ snapshot overlay _ =>
      dsimp only at h
      split at h
      · split at h
        · next hsnap =>
            rw [patch_sectors f.bytes overlay hsnap.2] at h
            cases h
            simp
        · cases h
          simp
      · cases h

/-! ## The snapshot of an image -/

/-- The store is a snapshot of `f`: of the file only the number of operations made has changed. -/
def IsSnapshot (f : HostFile) (overlay : ℕ → Option (ℕ → U8)) (b : Blk) : Prop :=
  ∃ ops, b.store = .file { f with ops := ops } f.length true overlay

variable {f : HostFile} {b : Blk}

lemma IsSnapshot.setSector (h : IsSnapshot f overlay b) (s : ℕ) (sector : ℕ → U8) :
    IsSnapshot f (Function.update overlay s (some sector)) (b.setSector s sector) := by
  obtain ⟨ops, hb⟩ := h
  refine ⟨ops, ?_⟩
  rw [Blk.setSector, hb]

/-- A read gives what the overlay shows. -/
lemma IsSnapshot.diskRead (h : IsSnapshot f overlay b) (hf : ∀ k, f.fails k = false)
    (offset n : ℕ) (hn : offset + n ≤ f.length) :
    ∃ b', b.diskRead offset n =
        (some ((List.range n).map fun i => overlaid f.bytes overlay (offset + i)), b') ∧
      IsSnapshot f overlay b' := by
  obtain ⟨ops, hb⟩ := h
  refine ⟨{ b with store := .file { f with ops := ops + 1 } f.length true overlay }, ?_,
    ops + 1, rfl⟩
  rw [Blk.diskRead, hb]
  dsimp only [HostFile.attempt]
  rw [hf, if_pos ⟨rfl, .inr hn⟩]
  by_cases h0 : n = 0
  · subst h0
    rfl
  · rw [if_pos ⟨rfl, h0⟩]
    rw [patch_sectors f.bytes overlay h0]

/-! ## Writing to the overlay -/

/-- The bytes of `[offset, offset + src.length)` replaced by `src`. -/
def replaced (view : ℕ → U8) (offset : ℕ) (src : List U8) (pos : ℕ) : U8 :=
  if offset ≤ pos ∧ pos < offset + src.length then src.getD (pos - offset) 0 else view pos

lemma replaced_nil (view : ℕ → U8) (offset pos : ℕ) : replaced view offset [] pos = view pos := by
  rw [replaced, if_neg (by simp)]

/-- A block is replaced by replacing its first bytes and then the others. -/
lemma replaced_append (view : ℕ → U8) (offset : ℕ) (src src' : List U8) (pos : ℕ) :
    replaced (replaced view offset src) (offset + src.length) src' pos =
      replaced view offset (src ++ src') pos := by
  unfold replaced
  rw [List.length_append]
  split_ifs with h₁ h₂ h₂ h₃ h₃
  · rw [List.getD_append_right _ _ _ _ (by omega), Nat.sub_add_eq]
  · omega
  · rw [List.getD_append _ _ _ _ (by omega)]
  · omega
  · omega
  · rfl

/-- Writing part of one sector of the overlay. -/
lemma overlaid_update {s within n size : ℕ} {sector : ℕ → U8} (src : List U8)
    (hn : n ≤ src.length) (hwithin : within + n ≤ sectorSize)
    (hsector : ∀ i < sectorSize, s * sectorSize + i < size → ¬ (within ≤ i ∧ i < within + n) →
        sector i = overlaid image overlay (s * sectorSize + i)) {pos : ℕ} (hpos : pos < size) :
    overlaid image (Function.update overlay s (some fun i =>
        if within ≤ i ∧ i < within + n then src.getD (i - within) 0 else sector i)) pos =
      replaced (overlaid image overlay) (s * sectorSize + within) (src.take n) pos := by
  have hdiv := Nat.div_add_mod pos sectorSize
  have hmod : pos % sectorSize < sectorSize := Nat.mod_lt _ (by decide)
  have hlen : (src.take n).length = n := List.length_take_of_le hn
  rw [Nat.mul_comm] at hdiv
  rw [replaced, hlen]
  rcases eq_or_ne (pos / sectorSize) s with hs | hs
  · rw [hs] at hdiv
    rw [overlaid, hs, Function.update_self]
    dsimp only
    split
    · rw [if_pos (by omega), show pos % sectorSize - within =
        pos - (s * sectorSize + within) by omega,
        List.getD_eq_getElem?_getD, List.getD_eq_getElem?_getD, List.getElem?_take_of_lt (by omega)]
    · next hout =>
        rw [if_neg (by omega), hsector _ hmod (by omega) hout, hdiv]
  · rw [overlaid, Function.update_of_ne hs, if_neg, overlaid]
    simp only [sectorSize] at *
    omega

/-- The seed of a sector is what the overlay shows, wherever the write keeps it. -/
lemma IsSnapshot.seedSector (h : IsSnapshot f overlay b) (hf : ∀ k, f.fails k = false)
    (s n within : ℕ) (hs : s * sectorSize < f.length) (hwithin : within + n ≤ sectorSize) :
    ∃ sector b', b.seedSector s n = (some sector, b') ∧ IsSnapshot f overlay b' ∧
      ∀ i < sectorSize, s * sectorSize + i < f.length → ¬ (within ≤ i ∧ i < within + n) →
        sector i = overlaid f.bytes overlay (s * sectorSize + i) := by
  obtain ⟨ops, hb⟩ := id h
  rw [Blk.seedSector, hb]
  dsimp only
  split
  · next sector hsome =>
      refine ⟨sector, b, rfl, h, fun i hi _ _ => ?_⟩
      have hdiv : (s * sectorSize + i) / sectorSize = s := by
        simp only [sectorSize] at hi ⊢
        omega
      have hmod : (s * sectorSize + i) % sectorSize = i := by
        simp only [sectorSize] at hi ⊢
        omega
      rw [overlaid, hdiv, hsome, hmod]
  · split
    · exact ⟨_, b, rfl, h, fun i hi _ hout => absurd hi (by omega)⟩
    · obtain ⟨b', hread, hb'⟩ := h.diskRead hf (s * sectorSize)
        (min (f.length - s * sectorSize) sectorSize) (by omega)
      rw [hread]
      refine ⟨_, b', rfl, hb', fun i hi hlt _ => ?_⟩
      rw [List.getD_eq_getElem?_getD, List.getElem?_map, List.getElem?_range (by omega)]
      rfl

/-- The copy-on-write loop replaces the bytes it is given. -/
lemma IsSnapshot.writeOverlay (h : IsSnapshot f overlay b) (hf : ∀ k, f.fails k = false)
    {turns : ℕ} {src : List U8} (hturns : src.length ≤ turns)
    (hle : offset + src.length ≤ f.length) :
    ∃ overlay' b', writeOverlay turns offset src b = (true, b') ∧ IsSnapshot f overlay' b' ∧
      ∀ pos < f.length, overlaid f.bytes overlay' pos =
        replaced (overlaid f.bytes overlay) offset src pos := by
  induction turns generalizing offset src b overlay with
  | zero =>
    have hnil : src = [] := List.length_eq_zero_iff.mp (by omega)
    subst hnil
    exact ⟨overlay, b, rfl, h, fun pos _ => (replaced_nil _ _ _).symm⟩
  | succ turns ih =>
    rcases eq_or_ne src [] with rfl | hsrc
    · exact ⟨overlay, b, rfl, h, fun pos _ => (replaced_nil _ _ _).symm⟩
    have hpos : 0 < src.length := List.length_pos_iff.mpr hsrc
    have hmod : offset % sectorSize < sectorSize := Nat.mod_lt _ (by decide)
    have hdiv := Nat.div_add_mod offset sectorSize
    rw [Nat.mul_comm] at hdiv
    rw [Blk.writeOverlay, if_neg hsrc]
    dsimp only
    obtain ⟨n, hn⟩ : ∃ n, n = min (sectorSize - offset % sectorSize) src.length := ⟨_, rfl⟩
    rw [← hn]
    obtain ⟨sector, b₁, hseed, hb₁, hsector⟩ := h.seedSector hf
      (offset / sectorSize) n (offset % sectorSize) (by omega) (by omega)
    rw [hseed]
    dsimp only
    -- the rest of the loop, from the sector just written
    obtain ⟨overlay₂, b₂, hrest, hb₂, hview⟩ := ih (hb₁.setSector (offset / sectorSize) _)
      (show (src.drop n).length ≤ turns by rw [List.length_drop]; omega)
      (show offset + n + (src.drop n).length ≤ f.length by rw [List.length_drop]; omega)
    refine ⟨overlay₂, b₂, hrest, hb₂, fun pos hpos => ?_⟩
    have hfirst : ∀ p < f.length, _ := fun p hp =>
      overlaid_update src (by omega) (by omega) hsector hp
    rw [hview pos hpos, replaced, hfirst pos hpos, ← replaced, hdiv]
    have happ := replaced_append (overlaid f.bytes overlay) offset (src.take n) (src.drop n) pos
    rwa [List.length_take_of_le (by omega), List.take_append_drop] at happ

/-! ## Snapshots as arrays -/

/-- The store is a snapshot of `f` and shows the bytes `a`. -/
structure Shows (f : HostFile) (b : Blk) (a : List U8) : Prop where
  length : a.length = f.length
  store : ∃ overlay, IsSnapshot f overlay b ∧
    ∀ pos (h : pos < a.length), overlaid f.bytes overlay pos = a[pos]

lemma shows_openImage (f : HostFile) (b : Blk) :
    Shows f (b.openImage f true) ((List.range f.length).map f.bytes) where
  length := by simp
  store := ⟨fun _ => none, ⟨f.ops, rfl⟩, by simp [overlaid]⟩

variable {a : List U8}

lemma Shows.read (h : Shows f b a) (hf : ∀ k, f.fails k = false) (hn : offset + n ≤ a.length) :
    ∃ b', b.diskRead offset n = (some ((a.drop offset).take n), b') ∧ Shows f b' a := by
  obtain ⟨hlen, overlay, hb, hview⟩ := h
  obtain ⟨b', hread, hb'⟩ := hb.diskRead hf offset n (by omega)
  refine ⟨b', ?_, hlen, overlay, hb', hview⟩
  rw [hread]
  congr 2
  refine List.ext_getElem ?_ fun i hi _ => ?_
  · simp only [List.length_map, List.length_range, List.length_take, List.length_drop]
    omega
  · rw [List.length_map, List.length_range] at hi
    simp only [List.getElem_map, List.getElem_range, List.getElem_take, List.getElem_drop]
    exact hview _ (by omega)

lemma Shows.write (h : Shows f b a) (hf : ∀ k, f.fails k = false) {src : List U8}
    (hn : offset + src.length ≤ a.length) :
    ∃ b', b.diskWrite offset src = (true, b') ∧
      Shows f b' (a.take offset ++ src ++ a.drop (offset + src.length)) := by
  obtain ⟨hlen, overlay, hb, hview⟩ := h
  obtain ⟨overlay', b', hwrite, hb', hview'⟩ :=
    hb.writeOverlay hf (Nat.le_refl src.length) (show offset + src.length ≤ f.length by omega)
  obtain ⟨ops, hstore⟩ := hb
  have hlen' : (a.take offset ++ src ++ a.drop (offset + src.length)).length = a.length := by
    simp only [List.length_append, List.length_take, List.length_drop]
    omega
  refine ⟨b', ?_, hlen'.trans hlen, overlay', hb', fun pos hpos => ?_⟩
  · rw [diskWrite, hstore]
    exact hwrite
  rw [hlen'] at hpos
  rw [hview' pos (by omega), replaced]
  simp only [List.getElem_append, List.length_append, List.length_take, List.getElem_take,
    List.getElem_drop]
  -- before the block, inside it, after it
  split_ifs with hin hsrc hbefore
  · omega
  · rw [List.getD_eq_getElem _ _ (by omega)]
    congr 1
    omega
  · omega
  · exact hview pos (by omega)
  · omega
  · rw [hview pos (by omega)]
    congr 1
    omega

end Blk

namespace DiskOp

variable {f : HostFile} {b : Blk} {a : List U8}

lemma serve_shows (h : b.Shows f a) (hf : ∀ k, f.fails k = false) (op : DiskOp)
    (hop : op.extent ≤ f.length) :
    ∃ b', op.serve b = (some (op.onArray a).1, b') ∧ b'.Shows f (op.onArray a).2 := by
  rw [← h.length] at hop
  cases op with
  | read offset n => exact h.read hf hop
  | write offset src =>
    obtain ⟨b', hwrite, hb'⟩ := h.write hf hop
    refine ⟨b', ?_, hb'⟩
    rw [serve, hwrite]
    rfl

/-- A sequence of requests, on the device and on the array. -/
lemma serveAll_shows (h : b.Shows f a) (hf : ∀ k, f.fails k = false) (ops : List DiskOp)
    (hops : ∀ op ∈ ops, op.extent ≤ f.length) :
    ∃ b', serveAll ops b = ((onArrayAll ops a).1.map some, b') ∧
      b'.Shows f (onArrayAll ops a).2 := by
  induction ops generalizing b a with
  | nil => exact ⟨b, rfl, h⟩
  | cons op ops ih =>
    obtain ⟨b₁, hop, hb₁⟩ := serve_shows h hf op (hops op List.mem_cons_self)
    obtain ⟨b₂, hrest, hb₂⟩ := ih hb₁ fun op' hmem => hops op' (List.mem_cons_of_mem op hmem)
    refine ⟨b₂, ?_, hb₂⟩
    rw [serveAll, hop]
    dsimp only
    rw [hrest]
    rfl

/-- However a snapshot is read and written within its size, it answers like an array of bytes that
starts as the image, and the file is the same afterwards but for the number of operations on it. -/
theorem snapshot_is_array (f : HostFile) (hf : ∀ k, f.fails k = false) (b : Blk)
    (ops : List DiskOp) (hops : ∀ op ∈ ops, op.extent ≤ f.length) :
    (serveAll ops (b.openImage f true)).1 =
        (onArrayAll ops ((List.range f.length).map f.bytes)).1.map some ∧
      ∃ made overlay, (serveAll ops (b.openImage f true)).2.store =
        .file { f with ops := made } f.length true overlay := by
  obtain ⟨b', hserve, hb'⟩ := serveAll_shows (b.shows_openImage f) hf ops hops
  obtain ⟨overlay, ⟨made, hstore⟩, -⟩ := hb'.store
  rw [hserve]
  exact ⟨rfl, made, overlay, hstore⟩

/-- An image of 700 bytes, whose last sector is short: a write across the two sectors, and a read
around it. -/
theorem snapshot_is_array_sample :
    let f : HostFile := ⟨fun pos => BitVec.ofNat 8 pos, 700, fun _ => false, 0⟩
    let ops : List DiskOp := [.write 511 [1, 2], .read 510 4]
    (serveAll ops (Blk.new.openImage f true)).1 =
        (onArrayAll ops ((List.range f.length).map f.bytes)).1.map some ∧
      ∃ made overlay, (serveAll ops (Blk.new.openImage f true)).2.store =
        .file { f with ops := made } f.length true overlay :=
  snapshot_is_array _ (fun _ => rfl) _ _ (by decide)

end DiskOp

end Virtio

end RiscvEmu
