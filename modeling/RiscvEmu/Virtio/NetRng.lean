import RiscvEmu.Virtio.Core

/-!
# The network card and the entropy source

`virtio/net.rs` and `virtio/rng.rs`.  What a card is connected to is outside the device: it is
given by how it answers, as a function of all calls made to it so far.
-/

namespace RiscvEmu

namespace Virtio

/-! ## Network -/

/-- A call to the far side of the card. -/
inductive NetCall where
  | send (frame : List U8)
  | receive

/-- The far side of the card: its past and how it answers a receive. -/
structure NetBackend where
  calls : List NetCall
  receive : List NetCall → Option (List U8)
  ioPending : List NetCall → Bool

/-- The network card. -/
structure Net where
  backend : NetBackend
  mac : List U8
  pending : List (List U8)
  dropped : ℕ

namespace Net

/-- The queue of frames for the guest. -/
def rxQueue : ℕ := 0
/-- The queue of frames from the guest. -/
def txQueue : ℕ := 1
/-- The bytes of a frame's header. -/
def headerBytes : ℕ := 12
/-- The frames that may wait. -/
def maxPending : ℕ := 512

/-- The loop of `transmit`; the flag says that a chain was taken. -/
def transmitLoop : ℕ → Net → Dma → Bool → Net × Dma × Bool
  | 0, n, e, any => (n, e, any)
  | fuel + 1, n, e, any =>
    match e.popChain txQueue with
    | (none, e') => (n, e', any)
    | (some (head, segs), e') =>
      let total := segmentsLength segs false
      let packet := readFromSegments e' total segs 0 []
      let n' :=
        if total > headerBytes ∧ packet.length = total then
          { n with backend := { n.backend with
            calls := .send (packet.drop headerBytes) :: n.backend.calls } }
        else n
      transmitLoop fuel n' (e'.pushUsed txQueue head 0) true

/-- Send the frames that the guest has queued. -/
def transmit (n : Net) (e : Dma) : Net × Dma :=
  let (n', e', any) := transmitLoop e.fuel n e false
  (n', if any then e'.signalUsed txQueue else e')

/-- Fetch what the far side has, up to the bound on waiting frames. -/
def fetchFrames : ℕ → Net → Net
  | 0, n => n
  | turns + 1, n =>
    if n.pending.length < maxPending then
      let answer := n.backend.receive n.backend.calls
      let n' := { n with backend := { n.backend with calls := .receive :: n.backend.calls } }
      match answer with
      | some f => fetchFrames turns { n' with pending := n'.pending ++ [f] }
      | none => n'
    else n

/-- The loop of `deliver` over the waiting frames. -/
def deliverLoop : List (List U8) → Net → Dma → Bool → Net × Dma × Bool
  | [], n, e, any => ({ n with pending := [] }, e, any)
  | f :: rest, n, e, any =>
    match e.popChain rxQueue with
    | (none, e') => ({ n with pending := f :: rest }, e', any)
    | (some (head, segs), e') =>
      let size := headerBytes + f.length
      if segmentsLength segs true ≥ size then
        let header : List U8 := [0, 0, 0, 0, 0, 0, 0, 0, 0, 0, 1, 0]
        let e' := writeToSegments e' segs 0 header
        let e' := writeToSegments e' segs headerBytes f
        deliverLoop rest n (e'.pushUsed rxQueue head size) true
      else deliverLoop rest { n with dropped := n.dropped + 1 } (e'.pushUsed rxQueue head 0) any

/-- Deliver the frames that have come. -/
def deliver (n : Net) (e : Dma) : Net × Dma :=
  if !e.queueReady rxQueue then (n, e)
  else
    let n := fetchFrames maxPending n
    let (n', e', any) := deliverLoop n.pending n e false
    (n', if any then e'.signalUsed rxQueue else e')

end Net

instance : VirtioDevice Net where
  features _ := (1 <<< 5) ||| (1 <<< 16)
  configRead n offset size := readConfig (n.mac ++ [1, 0]) offset size
  notify n e queue :=
    if queue = Net.txQueue then n.transmit e
    else if queue = Net.rxQueue then n.deliver e
    else (n, e)
  poll n e := n.deliver e

/-! ## Entropy -/

/-- The entropy source. -/
structure Rng where
  state : U64

namespace Rng

/-- The state in place of zero. -/
def fallbackState : U64 := 0x9e3779b97f4a7c15

/-- A generator from the host's entropy. -/
def new (entropy : U64) : Rng := ⟨if entropy = 0 then fallbackState else entropy⟩

/-- The next word of the generator. -/
def nextU64 (r : Rng) : U64 × Rng :=
  let s := r.state ^^^ (r.state >>> 12)
  let s := s ^^^ (s <<< 25)
  let s := s ^^^ (s >>> 27)
  (s * 0x2545f4914f6cdd1d, ⟨s⟩)

/-- The bytes of `turns` words. -/
def words : ℕ → Rng → List U8 × Rng
  | 0, r => ([], r)
  | turns + 1, r =>
    let (v, r') := r.nextU64
    let (bytes, r'') := words turns r'
    ((List.range 8).map (Bytes.byte v) ++ bytes, r'')

/-- Bytes of the generator. -/
def randomBytes (n : ℕ) (r : Rng) : List U8 × Rng :=
  let (bytes, r') := words ((n + 7) / 8) r
  (bytes.take n, r')

/-- Fill the buffers of a chain; the number is the bytes written. -/
def fill : List Segment → Rng → Dma → ℕ → Rng × Dma × ℕ
  | [], r, e, written => (r, e, written)
  | s :: segs, r, e, written =>
    if s.deviceWrites then
      let (bytes, r') := randomBytes s.len r
      match e.writeGuestBytes s.addr bytes with
      | (true, e') => fill segs r' e' (written + s.len)
      | (false, e') => fill segs r' e' written
    else fill segs r e written

/-- Fill and complete chains while there are any. -/
def notifyLoop (queue : ℕ) : ℕ → Rng → Dma → Bool → Rng × Dma × Bool
  | 0, r, e, any => (r, e, any)
  | fuel + 1, r, e, any =>
    match e.popChain queue with
    | (none, e') => (r, e', any)
    | (some (head, segs), e') =>
      let (r', e'', written) := fill segs r e' 0
      notifyLoop queue fuel r' (e''.pushUsed queue head written) true

end Rng

instance : VirtioDevice Rng where
  features _ := 0
  configRead _ _ _ := 0
  notify r e queue :=
    let (r', e', any) := Rng.notifyLoop queue e.fuel r e false
    (r', if any then e'.signalUsed queue else e')
  poll r e := (r, e)

end Virtio

end RiscvEmu
