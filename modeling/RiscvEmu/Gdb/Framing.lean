import RiscvEmu.Types
import RiscvEmu.Lib.Utf8

/-!
# The debugger's packets

The hex digits and the packet framing of `gdb.rs`.  A packet is a dollar sign, the payload, a hash
sign and two hex digits, the sum of the payload's bytes modulo 256.  The stub collects what the
socket delivers in a buffer and takes packets off its front; a packet whose end has not arrived
stays there.
-/

namespace RiscvEmu

namespace Gdb

/-- Text, character by character. -/
abbrev Str := List Char

/-! ## Hex -/

/-- The digits. -/
def hexDigits : Str := "0123456789abcdef".toList

/-- A digit. -/
def hexDigit (v : U8) : Char := hexDigits.getD v.toNat '0'

/-- The two digits of a byte. -/
def byteHex (b : U8) : Str := [hexDigit (b >>> 4), hexDigit (b &&& 15)]

/-- Bytes as digits. -/
def toHex (bytes : List U8) : Str := bytes.flatMap byteHex

/-- The value of a digit. -/
def hexValue (c : U8) : Option U8 :=
  if 0x30 ≤ c ∧ c ≤ 0x39 then some (c - 0x30)
  else if 0x61 ≤ c ∧ c ≤ 0x66 then some (c - 0x61 + 10)
  else if 0x41 ≤ c ∧ c ≤ 0x46 then some (c - 0x41 + 10)
  else none

/-- The byte of two digits. -/
def hexByte (hi lo : U8) : Option U8 := do
  let h ← hexValue hi
  let l ← hexValue lo
  pure (h <<< 4 ||| l)

/-- The loop over pairs of digits; `none` too for a digit left over. -/
def hexPairs : List U8 → Option (List U8)
  | [] => some []
  | hi :: lo :: rest => do
    let b ← hexByte hi lo
    let bytes ← hexPairs rest
    pure (b :: bytes)
  | [_] => none

/-- Digits as bytes. -/
def fromHex (s : Str) : Option (List U8) :=
  let b := Utf8.encode s
  if b.length % 2 ≠ 0 then none else hexPairs b

/-! ## Packets -/

/-- An acknowledgment. -/
def plus : U8 := 0x2b
/-- A request to send again. -/
def minus : U8 := 0x2d
/-- The begin of a packet. -/
def dollar : U8 := 0x24
/-- The end of a packet. -/
def hash : U8 := 0x23

/-- The sum of the bytes in 32 bits. -/
def byteSum (bytes : List U8) : U32 := bytes.foldl (fun a b => a + b.setWidth 32) 0

/-- A packet with its checksum. -/
def encodePacket (payload : Str) : Str :=
  let sum : U8 := (byteSum (Utf8.encode payload) &&& 0xff).setWidth 8
  '$' :: payload ++ '#' :: byteHex sum

/-- The two digits after the hash sign are the sum of the payload. -/
def checks (payload : List U8) (hi lo : U8) : Bool :=
  match hexValue hi, hexValue lo with
  | some h, some l => (h <<< 4 ||| l).setWidth 32 = byteSum payload &&& 0xff
  | _, _ => false

/-- What the loop over the buffer comes to: a payload if there is one, the buffer it leaves, and
what it sends. -/
structure Scan where
  found : Option (List U8)
  inbuf : List U8
  written : List U8

/-- Send something before what follows. -/
def Scan.after (bytes : List U8) (s : Scan) : Scan := { s with written := bytes ++ s.written }

/-- The inner loop of `read_packet`.  A refused packet is answered by a minus sign and skipped. -/
def scan (lastSent : List U8) (inbuf : List U8) : Scan :=
  match inbuf with
  | [] => ⟨none, [], []⟩
  | c :: rest =>
    if c = plus then scan lastSent rest
    else if c = minus then (scan lastSent rest).after lastSent
    else if c ≠ dollar then scan lastSent rest
    else
      match (c :: rest).findIdx? (· = hash) with
      | none => ⟨none, c :: rest, []⟩
      | some at_ =>
        if (c :: rest).length < at_ + 3 then ⟨none, c :: rest, []⟩
        else
          let payload := ((c :: rest).take at_).drop 1
          let hi := (c :: rest).getD (at_ + 1) 0
          let lo := (c :: rest).getD (at_ + 2) 0
          if checks payload hi lo then ⟨some payload, (c :: rest).drop (at_ + 3), [plus]⟩
          else (scan lastSent ((c :: rest).drop (at_ + 3))).after [minus]
termination_by inbuf.length
decreasing_by
  all_goals simp only [List.length_cons, List.length_drop]
  all_goals omega

/-! ## The socket -/

/-- What reads find once everything has arrived. -/
inductive Ending where
  | silent
  | closed
  | failed
deriving DecidableEq, Repr

/-- The debugger's socket: what it will deliver, where `none` is a moment without data, and what
was sent to it. -/
structure Socket where
  arrivals : List (Option (List U8))
  ending : Ending
  written : List U8

/-- The result of a read. -/
inductive Read where
  | data (bytes : List U8)
  | wouldBlock
  | failed

/-- A read with nothing more to come; no bytes at all is the end. -/
def Ending.read : Ending → Read
  | silent => .wouldBlock
  | closed => .data []
  | failed => .failed

/-- The size of the buffer a read fills. -/
def bufBytes : ℕ := 4096

namespace Socket

variable (s : Socket)

/-- A read takes what has arrived, as far as the buffer goes. -/
def read : Read × Socket :=
  match s.arrivals with
  | [] => (s.ending.read, s)
  | none :: rest => (.wouldBlock, { s with arrivals := rest })
  | some chunk :: rest =>
    (.data (chunk.take bufBytes), { s with
      arrivals := if chunk.length ≤ bufBytes then rest else some (chunk.drop bufBytes) :: rest })

/-- Send bytes to the debugger. -/
def write (bytes : List U8) : Socket := { s with written := s.written ++ bytes }

/-- How much is still to come. -/
def toCome : ℕ := (s.arrivals.map fun a => (a.getD []).length + 1).sum

variable {s}

lemma toCome_read (h : s.arrivals ≠ []) : s.read.2.toCome < s.toCome := by
  unfold read toCome
  cases ha : s.arrivals with
  | nil => exact absurd ha h
  | cons a rest =>
    cases a with
    | none => simp
    | some chunk =>
      dsimp only
      split_ifs with hlen
      · simp
      · simp only [List.map_cons, List.sum_cons, Option.getD_some, List.length_drop]
        have : 0 < bufBytes := by decide
        omega

lemma arrivals_of_data {bytes : List U8} {s' : Socket} (h : s.read = (.data bytes, s'))
    (hne : bytes ≠ []) : s.arrivals ≠ [] := by
  intro ha
  rw [read, ha] at h
  dsimp only at h
  cases hend : s.ending with
  | closed =>
    rw [hend] at h
    exact hne (Read.data.inj (Prod.mk.inj h).1).symm
  | silent | failed =>
    rw [hend] at h
    cases (Prod.mk.inj h).1

end Socket

/-- The part of the stub's state that packets are read with. -/
structure Link where
  client : Option Socket
  inbuf : List U8
  lastSent : Str

/-- How a call of `read_packet` ends. -/
inductive Reading where
  | packet (payload : Str)
  | nothing
  /-- It waits for data that never comes. -/
  | waiting
deriving DecidableEq, Repr

namespace Link

variable (l : Link)

/-- Serve what is in the buffer. -/
def scanned : Option (List U8) × Link :=
  let s := scan (Utf8.encode l.lastSent) l.inbuf
  (s.found, { l with inbuf := s.inbuf, client := l.client.map (·.write s.written) })

/-- The bytes still to come. -/
def toCome : ℕ := (l.client.map Socket.toCome).getD 0

lemma toCome_scanned : l.scanned.2.toCome = l.toCome := by
  unfold toCome scanned
  cases l.client <;> rfl

end Link

/-- One turn of the outer loop of `read_packet`: how the call ends, or `none` if it goes on. -/
def readTurn (block : Bool) (l : Link) : Option Reading × Link :=
  match l.scanned with
  | (some payload, l) => (some (.packet (Utf8.lossy payload)), l)
  | (none, l) =>
    match l.client with
    | none => (some .nothing, l)
    | some sock =>
      match sock.read with
      | (.data bytes, sock') =>
        if bytes = [] then (some .nothing, { l with client := some sock' })
        else (none, { l with client := some sock', inbuf := l.inbuf ++ bytes })
      | (.failed, sock') => (some .nothing, { l with client := some sock' })
      | (.wouldBlock, sock') =>
        if !block then (some .nothing, { l with client := some sock' })
        else if sock.arrivals = [] then (some .waiting, { l with client := some sock' })
        else (none, { l with client := some sock' })

/-- A turn that goes on has read something. -/
lemma toCome_readTurn {block : Bool} {l l' : Link} (h : readTurn block l = (none, l')) :
    l'.toCome < l.toCome := by
  rw [← l.toCome_scanned]
  unfold readTurn at h
  split at h
  · cases h
  · next l₁ hl =>
      rw [hl]
      split at h
      · cases h
      · next sock hc =>
          have hcome : l₁.toCome = sock.toCome := by
            rw [Link.toCome, hc]
            rfl
          rw [hcome]
          split at h
          · next bytes sock' hr =>
              split at h
              · cases h
              · next hb =>
                  cases h
                  have := Socket.toCome_read (Socket.arrivals_of_data hr hb)
                  rwa [hr] at this
          · cases h
          · next sock' hr =>
              split at h
              · cases h
              split at h
              · cases h
              · next ha =>
                  cases h
                  have := Socket.toCome_read ha
                  rwa [hr] at this

/-- `read_packet`. -/
def readPacket (block : Bool) (l : Link) : Reading × Link :=
  match _h : readTurn block l with
  | (some r, l') => (r, l')
  | (none, l') => readPacket block l'
termination_by l.toCome
decreasing_by exact toCome_readTurn _h

/-- Successive blocking calls of `read_packet`. -/
def readPackets : ℕ → Link → List Reading × Link
  | 0, l => ([], l)
  | n + 1, l =>
    let (r, l') := readPacket true l
    let (rs, l'') := readPackets n l'
    (r :: rs, l'')

/-! ## Hex round trip -/

/-- The byte of a digit. -/
def hexCode (v : U8) : U8 := BitVec.ofNat 8 (hexDigit v).toNat

lemma hexDigit_ascii (v : U8) : (hexDigit v).toNat < 128 := by
  have hall : hexDigits.all (fun d => d.toNat < 128) = true := by decide
  unfold hexDigit
  rw [List.getD_eq_getElem?_getD]
  cases h : hexDigits[v.toNat]? with
  | none => decide
  | some d => exact of_decide_eq_true (List.all_eq_true.mp hall d (List.mem_of_getElem? h))

lemma encode_byteHex (b : U8) :
    Utf8.encode (byteHex b) = [hexCode (b >>> 4), hexCode (b &&& 15)] := by
  unfold byteHex
  rw [Utf8.encode_cons, Utf8.encode_cons, Utf8.encodeChar_ascii (hexDigit_ascii _),
    Utf8.encodeChar_ascii (hexDigit_ascii _)]
  rfl

lemma hexByte_hexCode (b : U8) : hexByte (hexCode (b >>> 4)) (hexCode (b &&& 15)) = some b := by
  have hall : ∀ i : Fin 256,
    hexByte (hexCode (BitVec.ofFin i >>> 4)) (hexCode (BitVec.ofFin i &&& 15)) =
      some (BitVec.ofFin i) := by decide +kernel
  exact hall b.toFin

lemma encode_toHex (bytes : List U8) :
    Utf8.encode (toHex bytes) = bytes.flatMap fun b : U8 =>
      [hexCode (b >>> 4), hexCode (b &&& 15)] := by
  induction bytes with
  | nil => rfl
  | cons b bytes ih =>
    rw [toHex, List.flatMap_cons, Utf8.encode_append, encode_byteHex, List.flatMap_cons, ← ih]
    rfl

lemma hexPairs_toHex (bytes : List U8) : hexPairs (Utf8.encode (toHex bytes)) = some bytes := by
  rw [encode_toHex]
  induction bytes with
  | nil => rfl
  | cons b bytes ih =>
    rw [List.flatMap_cons, List.cons_append, List.cons_append, List.nil_append, hexPairs,
      hexByte_hexCode, ih]
    rfl

lemma fromHex_toHex (bytes : List U8) : fromHex (toHex bytes) = some bytes := by
  have heven : (Utf8.encode (toHex bytes)).length % 2 = 0 := by
    rw [encode_toHex]
    induction bytes with
    | nil => rfl
    | cons b bytes ih =>
      simp only [List.flatMap_cons, List.length_append, List.length_cons, List.length_nil]
      omega
  unfold fromHex
  dsimp only
  rw [if_neg (by omega), hexPairs_toHex]

/-! ## Checksums -/

/-- The two digits say the sum of the bytes modulo 256. -/
def Carries (payload : List U8) (hi lo : U8) : Prop :=
  ∃ h l, hexValue hi = some h ∧ hexValue lo = some l ∧
    16 * h.toNat + l.toNat = (payload.map BitVec.toNat).sum % 256

lemma byteSum_toNat (bytes : List U8) :
    (byteSum bytes).toNat = (bytes.map BitVec.toNat).sum % 2 ^ 32 := by
  have hfold : ∀ a : U32, (bytes.foldl (fun a b => a + b.setWidth 32) a).toNat =
      (a.toNat + (bytes.map BitVec.toNat).sum) % 2 ^ 32 := by
    induction bytes with
    | nil =>
      intro a
      exact (Nat.mod_eq_of_lt a.isLt).symm
    | cons b bytes ih =>
      intro a
      rw [List.foldl_cons, ih, BitVec.toNat_add, List.map_cons, List.sum_cons,
        BitVec.toNat_setWidth_of_le (by decide)]
      omega
  rw [byteSum, hfold]
  simp

lemma hexValue_lt {c v : U8} (h : hexValue c = some v) : v.toNat < 16 := by
  unfold hexValue at h
  split_ifs at h with h₁ h₂ h₃
  all_goals
    cases h
    bv_omega

lemma checks_iff (payload : List U8) (hi lo : U8) :
    checks payload hi lo = true ↔ Carries payload hi lo := by
  unfold checks Carries
  cases hh : hexValue hi with
  | none => simp
  | some h =>
    cases hl : hexValue lo with
    | none => simp
    | some l =>
      have h16 := hexValue_lt hh
      have l16 := hexValue_lt hl
      have hbyte : ((h <<< 4 ||| l).setWidth 32).toNat = 16 * h.toNat + l.toNat := by
        rw [BitVec.toNat_setWidth_of_le (by decide), BitVec.toNat_or, BitVec.toNat_shiftLeft,
          Nat.mod_eq_of_lt (by rw [Nat.shiftLeft_eq]; omega),
          ← Nat.shiftLeft_add_eq_or_of_lt (by omega), Nat.shiftLeft_eq]
        omega
      have hsum : (byteSum payload &&& 0xff).toNat = (payload.map BitVec.toNat).sum % 256 := by
        rw [BitVec.toNat_and, byteSum_toNat]
        exact (Nat.and_two_pow_sub_one_eq_mod _ 8).trans (Nat.mod_mod_of_dvd _ (by decide))
      rw [decide_eq_true_iff, ← BitVec.toNat_inj, hbyte, hsum]
      constructor
      · exact fun heq => ⟨h, l, rfl, rfl, heq⟩
      · rintro ⟨h', l', hh', hl', heq⟩
        cases hh'
        cases hl'
        exact heq

lemma checks_byteHex (payload : List U8) :
    let sum : U8 := (byteSum payload &&& 0xff).setWidth 8
    checks payload (hexCode (sum >>> 4)) (hexCode (sum &&& 15)) = true := by
  intro sum
  have hbyte := hexByte_hexCode sum
  unfold hexByte at hbyte
  unfold checks
  cases hh : hexValue (hexCode (sum >>> 4)) with
  | none =>
    rw [hh] at hbyte
    cases hbyte
  | some h =>
    cases hl : hexValue (hexCode (sum &&& 15)) with
    | none =>
      rw [hh, hl] at hbyte
      cases hbyte
    | some l =>
      rw [hh, hl] at hbyte
      have hor : h <<< 4 ||| l = sum := Option.some.inj hbyte
      dsimp only
      rw [hor, decide_eq_true_iff]
      apply BitVec.eq_of_toNat_eq
      have hlt : (byteSum payload &&& 0xff).toNat < 256 :=
        Nat.lt_of_le_of_lt Nat.and_le_right (by decide)
      rw [BitVec.toNat_setWidth, BitVec.toNat_setWidth, Nat.mod_eq_of_lt hlt,
        Nat.mod_eq_of_lt (by omega)]

/-! ## One packet at the front of the buffer -/

/-- A packet on the wire. -/
def framed (payload : List U8) (hi lo : U8) : List U8 := dollar :: payload ++ [hash, hi, lo]

section Front

variable {lastSent payload : List U8} {hi lo : U8}

lemma findIdx_of_not_mem {xs : List U8} (hx : hash ∉ xs) : xs.findIdx? (· = hash) = none := by
  rw [List.findIdx?_eq_none_iff]
  intro x hmem
  exact decide_eq_false (ne_of_mem_of_not_mem hmem hx)

lemma findIdx_framed (hp : hash ∉ payload) (rest : List U8) :
    (dollar :: (payload ++ hash :: rest)).findIdx? (· = hash) = some (payload.length + 1) := by
  have hd : hash ∉ dollar :: payload := by
    simp only [List.mem_cons, not_or]
    exact ⟨by decide, hp⟩
  rw [← List.cons_append, List.findIdx?_append, findIdx_of_not_mem hd]
  simp [List.findIdx?_cons]

lemma scan_dollar (rest : List U8) :
    scan lastSent (dollar :: rest) =
      match (dollar :: rest).findIdx? (· = hash) with
      | none => ⟨none, dollar :: rest, []⟩
      | some at_ =>
        if (dollar :: rest).length < at_ + 3 then ⟨none, dollar :: rest, []⟩
        else if checks (((dollar :: rest).take at_).drop 1) ((dollar :: rest).getD (at_ + 1) 0)
            ((dollar :: rest).getD (at_ + 2) 0) then
          ⟨some (((dollar :: rest).take at_).drop 1), (dollar :: rest).drop (at_ + 3), [plus]⟩
        else (scan lastSent ((dollar :: rest).drop (at_ + 3))).after [minus] := by
  rw [scan, if_neg (by decide), if_neg (by decide), if_neg (by decide)]

lemma scan_framed (hp : hash ∉ payload) (rest : List U8) :
    scan lastSent (framed payload hi lo ++ rest) =
      if checks payload hi lo then ⟨some payload, rest, [plus]⟩
      else (scan lastSent rest).after [minus] := by
  have hshape : framed payload hi lo ++ rest = dollar :: (payload ++ hash :: hi :: lo :: rest) := by
    simp [framed]
  have hlen : ¬ (dollar :: (payload ++ hash :: hi :: lo :: rest)).length <
      payload.length + 1 + 3 := by
    simp
  rw [hshape, scan_dollar, findIdx_framed hp]
  dsimp only
  rw [if_neg hlen]
  simp

/-- A packet that has not arrived as a whole stays in the buffer. -/
lemma scan_cut (hp : hash ∉ payload) {buf missing : List U8} (hm : missing ≠ [])
    (hbuf : framed payload hi lo = buf ++ missing) : scan lastSent buf = ⟨none, buf, []⟩ := by
  cases buf with
  | nil => rw [scan]
  | cons c buf =>
    obtain ⟨rfl, htail⟩ : dollar = c ∧ payload ++ [hash, hi, lo] = buf ++ missing :=
      List.cons.inj hbuf
    have hlt : buf.length < payload.length + 3 := by
      have hl := congrArg List.length htail
      have := List.length_pos_iff.mpr hm
      simp only [List.length_append, List.length_cons, List.length_nil] at hl
      omega
    rw [scan_dollar]
    rcases List.append_eq_append_iff.mp htail with ⟨a, rfl, hrest⟩ | ⟨a, hpay, -⟩
    · cases a with
      | nil =>
        rw [List.append_nil, findIdx_of_not_mem]
        simp only [List.mem_cons, not_or]
        exact ⟨by decide, hp⟩
      | cons x a =>
        obtain ⟨rfl, -⟩ : hash = x ∧ [hi, lo] = a ++ missing := List.cons.inj hrest
        rw [findIdx_framed hp]
        dsimp only
        rw [if_pos]
        rw [List.length_cons]
        omega
    · rw [findIdx_of_not_mem]
      simp only [List.mem_cons, not_or]
      refine ⟨by decide, fun hmem => hp ?_⟩
      rw [hpay]
      exact List.mem_append_left _ hmem

end Front

/-! ## A stream of packets -/

/-- What the debugger sends: a packet, an acknowledgement, or a packet with a wrong checksum. -/
inductive Item where
  | packet (payload : Str)
  | ack
  | corrupt (payload : List U8) (hi lo : U8)

namespace Item

/-- The bytes of an item. -/
def bytes : Item → List U8
  | packet payload => Utf8.encode (encodePacket payload)
  | ack => [plus]
  | corrupt payload hi lo => framed payload hi lo

/-- The payload, if it is a packet. -/
def payload? : Item → Option Str
  | packet payload => some payload
  | _ => none

/-- Payloads have no hash sign and are shorter than 16 MiB, and the checksum of a corrupt packet is
wrong. -/
def Sound : Item → Prop
  | packet payload => '#' ∉ payload ∧ (Utf8.encode payload).length < 2 ^ 24
  | ack => True
  | corrupt payload hi lo => hash ∉ payload ∧ payload.length < 2 ^ 24 ∧ ¬ Carries payload hi lo

end Item

/-- The bytes of a list of items. -/
def stream (items : List Item) : List U8 := items.flatMap Item.bytes

/-- The payloads in a list of items. -/
def payloads (items : List Item) : List Str := items.filterMap Item.payload?

lemma encode_encodePacket (payload : Str) :
    let sum : U8 := (byteSum (Utf8.encode payload) &&& 0xff).setWidth 8
    Utf8.encode (encodePacket payload) =
      framed (Utf8.encode payload) (hexCode (sum >>> 4)) (hexCode (sum &&& 15)) := by
  intro sum
  have hdollar : Utf8.encodeChar '$' = [dollar] := Utf8.encodeChar_ascii (by decide)
  have hhash : Utf8.encodeChar '#' = [hash] := Utf8.encodeChar_ascii (by decide)
  unfold encodePacket framed
  dsimp only
  rw [List.cons_append, Utf8.encode_cons, Utf8.encode_append, Utf8.encode_cons,
    encode_byteHex, hdollar, hhash]
  rfl

lemma hash_not_mem_encode {payload : Str} (h : '#' ∉ payload) : hash ∉ Utf8.encode payload :=
  fun hmem => h ((Utf8.mem_encode (c := '#') (by decide)).mp hmem)

/-- An item at the front of the buffer is taken off if it is a packet, and skipped if not. -/
lemma scan_item (lastSent : List U8) {i : Item} (hi : i.Sound) (rest : List U8) :
    (∃ p, i.payload? = some (Utf8.lossy p) ∧
      scan lastSent (i.bytes ++ rest) = ⟨some p, rest, [plus]⟩) ∨
    (i.payload? = none ∧ ∃ sent, scan lastSent (i.bytes ++ rest) =
      (scan lastSent rest).after sent) := by
  cases i with
  | packet payload =>
    refine Or.inl ⟨Utf8.encode payload, ?_, ?_⟩
    · rw [Utf8.lossy_encode]
      rfl
    · rw [Item.bytes, encode_encodePacket, scan_framed (hash_not_mem_encode hi.1),
        if_pos (checks_byteHex _)]
  | ack =>
    refine Or.inr ⟨rfl, [], ?_⟩
    change scan lastSent (plus :: rest) = _
    rw [scan, if_pos rfl]
    rfl
  | corrupt payload hi' lo =>
    refine Or.inr ⟨rfl, [minus], ?_⟩
    have hwrong : ¬ checks payload hi' lo = true := fun h => hi.2.2 ((checks_iff _ _ _).mp h)
    rw [Item.bytes, scan_framed hi.1, if_neg hwrong]

/-- An item that has not arrived as a whole stays. -/
lemma scan_item_cut (lastSent : List U8) {i : Item} (hi : i.Sound) {buf missing : List U8}
    (hm : missing ≠ []) (hbuf : i.bytes = buf ++ missing) : scan lastSent buf =
    ⟨none, buf, []⟩ := by
  cases i with
  | packet payload =>
    rw [Item.bytes, encode_encodePacket] at hbuf
    exact scan_cut (hash_not_mem_encode hi.1) hm hbuf
  | ack =>
    obtain rfl : buf = [] := by
      rcases List.append_eq_singleton_iff.mp hbuf.symm with ⟨h, -⟩ | ⟨-, h⟩
      · exact h
      · exact absurd h hm
    rw [scan]
  | corrupt payload hi' lo => exact scan_cut hi.1 hm hbuf

/-- What serving a buffer does to a stream of which it is the beginning: it skips what is no packet
and takes the first packet off, or keeps the beginning of what has not arrived. -/
lemma scan_stream (lastSent : List U8) (items : List Item) (hitems : ∀ i ∈ items, i.Sound)
    (buf pending : List U8) (hbuf : buf ++ pending = stream items) :
    let r := scan lastSent buf
    ∃ items', (∀ i ∈ items', i.Sound) ∧ r.inbuf ++ pending = stream items' ∧
      (∀ p, r.found = some p → payloads items = Utf8.lossy p :: payloads items') ∧
      (r.found = none → payloads items = payloads items' ∧
        (pending = [] → payloads items = [])) := by
  dsimp only
  induction items generalizing buf with
  | nil =>
    obtain ⟨rfl, rfl⟩ : buf = [] ∧ pending = [] := List.append_eq_nil_iff.mp hbuf
    rw [scan]
    exact ⟨[], hitems, rfl, by simp, fun _ => ⟨rfl, fun _ => rfl⟩⟩
  | cons i items ih =>
    have hi := hitems i List.mem_cons_self
    have hrest : ∀ j ∈ items, j.Sound := fun j hj => hitems j (List.mem_cons_of_mem _ hj)
    -- either the whole item has arrived, or a part of it is missing
    have hsplit : (∃ b, buf = i.bytes ++ b ∧ b ++ pending = stream items) ∨
        ∃ missing, missing ≠ [] ∧ i.bytes = buf ++ missing ∧ pending = missing ++ stream items := by
      rcases List.append_eq_append_iff.mp (hbuf : buf ++ pending = i.bytes ++ stream items) with
        ⟨a, hb, hp⟩ | ⟨a, hb, hp⟩
      · by_cases ha : a = []
        · subst ha
          exact Or.inl ⟨[], by rw [hb, List.append_nil, List.append_nil], hp⟩
        · exact Or.inr ⟨a, ha, hb, hp⟩
      · exact Or.inl ⟨a, hb, hp.symm⟩
    rcases hsplit with ⟨b, rfl, hb⟩ | ⟨missing, hm, hcut, rfl⟩
    · rcases scan_item lastSent hi b with ⟨p, hp, hscan⟩ | ⟨hnone, sent, hscan⟩
      · rw [hscan]
        refine ⟨items, hrest, hb, fun q hq => ?_, by simp⟩
        cases hq
        exact List.filterMap_cons_some hp
      · rw [hscan]
        have hsame : payloads (i :: items) = payloads items := List.filterMap_cons_none hnone
        rw [hsame]
        exact ih hrest b hb
    · rw [scan_item_cut lastSent hi hm hcut]
      refine ⟨i :: items, hitems, hbuf, by simp, fun _ => ⟨rfl, fun hnil => ?_⟩⟩
      exact absurd (List.append_eq_nil_iff.mp hnil).1 hm

/-! ## Reading the stream -/

namespace Socket

/-- All that is to come. -/
def content (s : Socket) : List U8 := (s.arrivals.filterMap id).flatten

/-- What arrives arrives in non-empty chunks. -/
def Chunked (s : Socket) : Prop := ∀ c, some c ∈ s.arrivals → c ≠ []

end Socket

/-- The buffer and what is to come are the bytes of a sequence of items. -/
structure Carrying (l : Link) (items : List Item) : Prop where
  sound : ∀ i ∈ items, i.Sound
  client : ∃ s, l.client = some s ∧ s.Chunked ∧ l.inbuf ++ s.content = stream items

section Turns

variable {block : Bool} {l l' : Link}

lemma readPacket_of_some {r : Reading} (h : readTurn block l = (some r, l')) :
    readPacket block l = (r, l') := by
  rw [readPacket]
  split
  · next heq =>
      cases h.symm.trans heq
      rfl
  · next heq => cases h.symm.trans heq

lemma readPacket_of_none (h : readTurn block l = (none, l')) :
    readPacket block l = readPacket block l' := by
  rw [readPacket]
  split
  · next heq => cases h.symm.trans heq
  · next heq =>
      cases h.symm.trans heq
      rfl

end Turns

/-- A read takes the front of what is to come, or a moment without data, or finds nothing left. -/
lemma Socket.content_read {s : Socket} (hs : s.Chunked) :
    s.read.2.Chunked ∧
    ((∃ bytes, s.read.1 = .data bytes ∧ bytes ≠ [] ∧ bytes ++ s.read.2.content = s.content) ∨
      (s.read.1 = .wouldBlock ∧ s.arrivals ≠ [] ∧ s.read.2.content = s.content) ∨
      (s.arrivals = [] ∧ s.content = [])) := by
  cases ha : s.arrivals with
  | nil =>
    have hread : s.read.2 = s := by
      rw [read, ha]
    rw [hread]
    exact ⟨hs, Or.inr (Or.inr ⟨rfl, by rw [content, ha]; rfl⟩)⟩
  | cons a rest =>
    have hrest : ∀ c, some c ∈ rest → c ≠ [] := by
      intro c hc
      exact hs c (ha ▸ List.mem_cons_of_mem _ hc)
    cases a with
    | none =>
      have hread : s.read = (.wouldBlock, { s with arrivals := rest }) := by
        rw [read, ha]
      rw [hread]
      refine ⟨hrest, Or.inr (Or.inl ⟨rfl, List.cons_ne_nil _ _, ?_⟩)⟩
      rw [content, content, ha]
      rfl
    | some chunk =>
      have hchunk : chunk ≠ [] := hs chunk (ha ▸ List.mem_cons_self)
      have htake : chunk.take bufBytes ≠ [] := by
        rw [Ne, List.take_eq_nil_iff, not_or]
        exact ⟨by decide, hchunk⟩
      have hcontent : s.content = chunk ++ (rest.filterMap id).flatten := by
        rw [content, ha]
        rfl
      by_cases hlen : chunk.length ≤ bufBytes
      · have hread : s.read = (.data chunk, { s with arrivals := rest }) := by
          rw [read, ha]
          dsimp only
          rw [if_pos hlen, List.take_of_length_le hlen]
        rw [hread, hcontent]
        exact ⟨hrest, Or.inl ⟨chunk, rfl, hchunk, rfl⟩⟩
      · have hread : s.read = (.data (chunk.take bufBytes),
            { s with arrivals := some (chunk.drop bufBytes) :: rest }) := by
          rw [read, ha]
          dsimp only
          rw [if_neg hlen]
        rw [hread, hcontent]
        refine ⟨fun c hc => ?_, Or.inl ⟨_, rfl, htake, ?_⟩⟩
        · rcases List.mem_cons.mp hc with heq | hc
          · cases heq
            rw [Ne, List.drop_eq_nil_iff]
            exact hlen
          · exact hrest c hc
        · change chunk.take bufBytes ++ (chunk.drop bufBytes ++ (rest.filterMap id).flatten) = _
          rw [← List.append_assoc, List.take_append_drop]

/-- A turn of a blocking call takes the first payload, or brings more of the stream into the buffer,
or finds that there is no payload left. -/
lemma readTurn_carrying {l : Link} {items : List Item} (h : Carrying l items) :
    ∃ items', Carrying (readTurn true l).2 items' ∧
      ((∃ p, (readTurn true l).1 = some (.packet p) ∧ payloads items = p :: payloads items') ∨
        ((readTurn true l).1 = none ∧ payloads items = payloads items') ∨
        (payloads items = [] ∧ ∃ r, (readTurn true l).1 = some r ∧ ∀ p, r ≠ .packet p)) := by
  obtain ⟨hsound, s, hs, hchunk, hbuf⟩ := h
  obtain ⟨items', hsound', hleft, hfound, hnone⟩ :=
    scan_stream (Utf8.encode l.lastSent) items hsound l.inbuf s.content hbuf
  let r := scan (Utf8.encode l.lastSent) l.inbuf
  let s₁ := s.write r.written
  have hscanned : l.scanned = (r.found, ⟨some s₁, r.inbuf, l.lastSent⟩) := by
    unfold Link.scanned
    rw [hs]
    rfl
  unfold readTurn
  rw [hscanned]
  cases hf : r.found with
  | some p =>
    exact ⟨items', ⟨hsound', s₁, rfl, hchunk, hleft⟩, Or.inl ⟨_, rfl, hfound p hf⟩⟩
  | none =>
    obtain ⟨hsame, hlast⟩ := hnone hf
    have hchunk₁ : s₁.Chunked := hchunk
    have hleft₁ : r.inbuf ++ s₁.content = stream items' := hleft
    obtain ⟨hchunk', hread⟩ := Socket.content_read hchunk₁
    dsimp only
    rcases hread with ⟨bytes, hdata, hne, hcont⟩ | ⟨hblock, harr, hcont⟩ | ⟨harr, hcont⟩
    · have hr : s₁.read = (.data bytes, s₁.read.2) := Prod.ext hdata rfl
      rw [hr]
      dsimp only
      rw [if_neg hne]
      refine ⟨items', ⟨hsound', _, rfl, hchunk', ?_⟩, Or.inr (Or.inl ⟨rfl, hsame⟩)⟩
      rw [List.append_assoc, hcont]
      exact hleft₁
    · have hr : s₁.read = (.wouldBlock, s₁.read.2) := Prod.ext hblock rfl
      rw [hr]
      dsimp only
      rw [if_neg (by decide), if_neg harr]
      refine ⟨items', ⟨hsound', _, rfl, hchunk', ?_⟩, Or.inr (Or.inl ⟨rfl, hsame⟩)⟩
      rw [hcont]
      exact hleft₁
    · have hcarry : Carrying ⟨some s₁, r.inbuf, l.lastSent⟩ items' :=
        ⟨hsound', s₁, rfl, hchunk, hleft⟩
      have hturn : ∀ ending, s₁.ending = ending → s₁.read = (ending.read, s₁) := by
        rintro ending rfl
        rw [Socket.read, harr]
      cases hend : s₁.ending with
      | silent =>
        rw [hturn _ hend]
        dsimp only [Ending.read]
        rw [if_neg (by decide), if_pos harr]
        exact ⟨items', hcarry, Or.inr (Or.inr ⟨hlast hcont, _, rfl, by simp⟩)⟩
      | closed | failed =>
        rw [hturn _ hend]
        exact ⟨items', hcarry, Or.inr (Or.inr ⟨hlast hcont, _, rfl, by simp⟩)⟩

/-- A blocking call takes the first payload; when there is none left it returns none. -/
lemma readPacket_carrying (l : Link) (items : List Item) (h : Carrying l items) :
    (∃ p items', payloads items = p :: payloads items' ∧ (readPacket true l).1 = .packet p ∧
      Carrying (readPacket true l).2 items') ∨
    (payloads items = [] ∧ ∀ p, (readPacket true l).1 ≠ .packet p) := by
  induction hn : l.toCome using Nat.strong_induction_on generalizing l items with
  | _ n ih =>
    obtain ⟨items', hcarry, hturn⟩ := readTurn_carrying h
    rcases hturn with ⟨p, hp, hpay⟩ | ⟨hnone, hpay⟩ | ⟨hpay, r, hr, hne⟩
    · rw [readPacket_of_some (Prod.ext hp rfl)]
      exact Or.inl ⟨p, items', hpay, rfl, hcarry⟩
    · have hturn : readTurn true l = (none, (readTurn true l).2) := Prod.ext hnone rfl
      rw [readPacket_of_none hturn, hpay]
      exact ih _ (hn ▸ toCome_readTurn hturn) _ _ hcarry rfl
    · rw [readPacket_of_some (Prod.ext hr rfl)]
      exact Or.inr ⟨hpay, hne⟩

/-- Successive calls return the payloads in order, and then none. -/
lemma readPackets_carrying (l : Link) (items : List Item) (h : Carrying l items) :
    let n := (payloads items).length
    (readPackets n l).1 = (payloads items).map .packet ∧
      ∀ p, (readPacket true (readPackets n l).2).1 ≠ .packet p := by
  dsimp only
  induction hp : payloads items generalizing l items with
  | nil =>
    rcases readPacket_carrying l items h with ⟨p, items', hpay, -⟩ | ⟨-, hne⟩
    · cases hp.symm.trans hpay
    · exact ⟨rfl, hne⟩
  | cons p ps ih =>
    rcases readPacket_carrying l items h with ⟨q, items', hpay, hq, hcarry⟩ | ⟨hpay, -⟩
    · obtain ⟨rfl, rfl⟩ := List.cons.inj (hp.symm.trans hpay)
      obtain ⟨hrest, hlast⟩ := ih _ items' hcarry rfl
      refine ⟨?_, hlast⟩
      change (readPacket true l).1 :: _ = _
      rw [hq, List.map_cons, hrest]
    · cases hp.symm.trans hpay

/-- The bytes of any sequence of packets, acknowledgements and corrupt packets, in whatever chunks
they arrive, are read as exactly the payloads of the packets, in order, and as nothing else; and a
byte string is read back from its hex digits. -/
theorem packets_round_trip (items : List Item) (hitems : ∀ i ∈ items, i.Sound) (s : Socket)
    (hs : s.Chunked) (hcontent : s.content = stream items) (lastSent : Str) (bytes : List U8) :
    (let n := (payloads items).length
      let after := readPackets n ⟨some s, [], lastSent⟩
      after.1 = (payloads items).map .packet ∧ ∀ p, (readPacket true after.2).1 ≠ .packet p) ∧
    fromHex (toHex bytes) = some bytes :=
  ⟨readPackets_carrying ⟨some s, [], lastSent⟩ items ⟨hitems, s, rfl, hs, hcontent⟩,
    fromHex_toHex bytes⟩

/-- Two packets with a corrupt one between them. -/
def sampleItems : List Item := [.packet ['?'], .corrupt [0x67] 0x30 0x30, .ack, .packet ['g']]

/-- Their bytes in chunks, one cut inside a checksum. -/
def sampleSocket : Socket where
  arrivals := [some [0x24, 0x3f, 0x23, 0x33, 0x66, 0x24], none,
    some [0x67, 0x23, 0x30, 0x30, 0x2b, 0x24, 0x67, 0x23], some [0x36], some [0x37]]
  ending := .silent
  written := []

theorem packets_round_trip_sample :
    ((readPackets 2 ⟨some sampleSocket, [], []⟩).1 = [.packet ['?'], .packet ['g']] ∧
      ∀ p, (readPacket true (readPackets 2 ⟨some sampleSocket, [], []⟩).2).1 ≠ .packet p) ∧
    fromHex (toHex [0xab]) = some [0xab] := by
  have hwrong : ¬ Carries [0x67] 0x30 0x30 := fun h => absurd ((checks_iff _ _ _).mpr h) (by decide)
  have hitems : ∀ i ∈ sampleItems, i.Sound := by
    intro i hi
    simp only [sampleItems, List.mem_cons, List.not_mem_nil, or_false] at hi
    rcases hi with rfl | rfl | rfl | rfl
    · exact ⟨by decide, by decide⟩
    · exact ⟨by decide, by decide, hwrong⟩
    · trivial
    · exact ⟨by decide, by decide⟩
  have hs : sampleSocket.Chunked := by
    intro c hc
    simp only [sampleSocket, List.mem_cons, Option.some.injEq, List.not_mem_nil, or_false] at hc
    rcases hc with rfl | h | rfl | rfl | rfl
    · decide
    · cases h
    all_goals decide
  exact packets_round_trip sampleItems hitems sampleSocket hs (by decide) [] [0xab]

end Gdb

end RiscvEmu
