import Mathlib.Data.Nat.Basic
import RiscvEmu.Lib.SortedMap
import RiscvEmu.Types

/-!
# The TCP proxy of the user-mode network stack

The part of `net/usernet.rs` that plays TCP with the guest: each connection of the guest is a flow
with a host socket behind it.  What a host socket answers is outside the program: the model has all
calls made to it with their answers, and how it answers the next one.

Three things are kept for the statements and read by no function: the number of a flow's
connection, the flow that a queued segment belongs to, and the flows that are gone.
-/

namespace RiscvEmu

namespace UserNet

/-- The sender is done. -/
def tcpFin : U8 := 0x01
/-- Opens a connection. -/
def tcpSyn : U8 := 0x02
/-- Refuses or breaks off. -/
def tcpRst : U8 := 0x04
/-- Data to be handed on. -/
def tcpPsh : U8 := 0x08
/-- The acknowledgment counts. -/
def tcpAck : U8 := 0x10

/-- The MTU less the headers of IP and TCP. -/
def mssOurs : ℕ := 1460
/-- The room for bytes to the host. -/
def toHostLimit : ℕ := 128 * 1024
/-- The number of flows. -/
def maxTcpFlows : ℕ := 256
/-- Timeouts, in milliseconds. -/
def tcpHandshakeTimeout : ℕ := 20000
/-- For flows that are closing. -/
def tcpLingerTimeout : ℕ := 60000

/-- Sequence numbers wrap, so "before" is a signed difference. -/
def seqLt (a b : U32) : Bool := (a - b).toInt < 0
/-- Not after, in sequence space. -/
def seqLe (a b : U32) : Bool := (a - b).toInt ≤ 0

/-- The number of a flow. -/
def flowKey (guestPort : U16) (ip : U32) (port : U16) : U64 :=
  (guestPort.setWidth 64 <<< 48) ||| (ip.setWidth 64 <<< 16) ||| port.setWidth 64

/-! ## Host sockets -/

/-- How far connecting has come. -/
inductive ConnectState where
  | pending
  | up
  | failed

/-- An answer to `recv`, with the bytes it put into the buffer. -/
inductive Recv where
  | data (bytes : List U8)
  | wouldBlock
  | eof
  | error

/-- A call to a host socket. -/
inductive HostCall where
  | pollConnect
  | send (data : List U8) (accepted : Option ℕ)
  | recv (room : ℕ) (answer : Recv)
  | shutdownWrite

/-- How the host answers on a socket, after the calls so far, the most recent first.  It takes a
part of what it is given and fills at most the room it is given. -/
structure Host where
  connected : List HostCall → ConnectState
  accepts : List HostCall → List U8 → Option ℕ
  receives : List HostCall → ℕ → Recv
  accepts_le : ∀ calls data n, accepts calls data = some n → n ≤ data.length
  receives_le : ∀ calls room bytes, receives calls room = .data bytes → bytes.length ≤ room

/-- A socket of the host. -/
structure HostTcp extends Host where
  calls : List HostCall

namespace HostTcp

variable (s : HostTcp)

/-- Has the socket connected? -/
def pollConnect : ConnectState × HostTcp :=
  (s.connected s.calls, { s with calls := .pollConnect :: s.calls })

/-- How many bytes the socket took, or `none` on an error. -/
def send (data : List U8) : Option ℕ × HostTcp :=
  let n := s.accepts s.calls data
  (n, { s with calls := .send data n :: s.calls })

/-- Take bytes from the host. -/
def recv (room : ℕ) : Recv × HostTcp :=
  let answer := s.receives s.calls room
  (answer, { s with calls := .recv room answer :: s.calls })

/-- Tell the host that the guest is done. -/
def shutdownWrite : HostTcp := { s with calls := .shutdownWrite :: s.calls }

end HostTcp

/-! ## Flows -/

/-- How far a flow has come. -/
inductive TcpState where
  | connecting
  | synAckSent
  | established
deriving DecidableEq

/-- A segment from the guest, as `handle_tcp` takes it apart. -/
structure TcpIn where
  sport : U16
  dport : U16
  seq : U32
  ack : U32
  flags : U8
  win : U16
  /-- The header with its options. -/
  header : List U8
  data : List U8
deriving DecidableEq

/-- A connection, with its number and the segment that opened it kept for reference. -/
structure TcpFlow where
  /-- The number of its connection to the host. -/
  conn : ℕ
  /-- The SYN it was opened for. -/
  opening : TcpIn
  state : TcpState
  sock : HostTcp
  guestPort : U16
  dstIp : U32
  dstPort : U16
  /-- The next sequence number to use. -/
  sndNxt : U32
  /-- The oldest one that the guest has not acknowledged. -/
  sndUna : U32
  /-- The next one expected from the guest. -/
  rcvNxt : U32
  guestWindow : U32
  mss : U16
  /-- Bytes of the guest not yet written to the host socket. -/
  toHost : List U8
  guestFin : Bool
  hostShut : Bool
  hostEof : Bool
  finSent : Bool
  finAcked : Bool
  last : ℕ

/-- A segment for the guest, and the flow it belongs to as it was when the segment was queued. -/
structure TcpOut where
  srcIp : U32
  srcPort : U16
  dstPort : U16
  flags : U8
  seq : U32
  ack : U32
  window : U16
  data : List U8
  withMss : Bool
  flow : Option TcpFlow

/-- Two bytes, big endian. -/
def rd16 (p : List U8) (i : ℕ) : U16 :=
  ((p.getD i 0).setWidth 16 <<< 8) ||| (p.getD (i + 1) 0).setWidth 16

/-- Four bytes, big endian. -/
def rd32 (p : List U8) (i : ℕ) : U32 :=
  ((rd16 p i).setWidth 32 <<< 16) ||| (rd16 p (i + 2)).setWidth 32

namespace TcpIn

/-- `none` for a segment that is dropped. -/
def parse (p : List U8) : Option TcpIn :=
  if p.length < 20 then none
  else
    let hlen := (p.getD 12 0 >>> 4).toNat * 4
    if hlen < 20 ∨ hlen > p.length then none
    else some ⟨rd16 p 0, rd16 p 2, rd32 p 4, rd32 p 8, p.getD 13 0, rd16 p 14, p.take hlen,
      p.drop hlen⟩

variable (g : TcpIn)

/-- Does it open a connection? -/
def syn : Bool := g.flags &&& tcpSyn != 0
/-- Is the sender done? -/
def fin : Bool := g.flags &&& tcpFin != 0
/-- Does it break off? -/
def rst : Bool := g.flags &&& tcpRst != 0
/-- Does it acknowledge? -/
def hasAck : Bool := g.flags &&& tcpAck != 0

/-- The walk over the options of a SYN; every turn advances. -/
def mssLoop (header : List U8) : ℕ → ℕ → U16 → U16
  | 0, _, mss => mss
  | turns + 1, i, mss =>
    if i + 1 < header.length then
      let kind := header.getD i 0
      if kind = 0 then mss
      else if kind = 1 then mssLoop header turns (i + 1) mss
      else
        let olen := (header.getD (i + 1) 0).toNat
        if olen < 2 ∨ i + olen > header.length then mss
        else
          mssLoop header turns (i + olen)
            (if kind = 2 ∧ olen = 4 then
              BitVec.ofNat 16 (min (rd16 header (i + 2)).toNat mssOurs)
            else mss)
    else mss

/-- The guest's maximum segment size, from the options of its SYN. -/
def guestMss : U16 :=
  let mss := mssLoop g.header g.header.length 20 536
  if mss < 64 then 536 else mss

end TcpIn

namespace TcpFlow

variable (f : TcpFlow)

/-- The window to advertise. -/
def windowFor : U16 := BitVec.ofNat 16 (min (toHostLimit - f.toHost.length) 65535)

/-- `queue_tcp`. -/
def segment (flags : U8) (seq ack : U32) (data : List U8) (withMss : Bool) : TcpOut :=
  ⟨f.dstIp, f.dstPort, f.guestPort, flags, seq, ack, f.windowFor, data, withMss, some f⟩

/-- A reply that carries the next sequence number and acknowledges what has come. -/
def reply (flags : U8) (data : List U8) : TcpOut := f.segment flags f.sndNxt f.rcvNxt data false

/-- The end of the handshake. -/
def establish (g : TcpIn) : TcpFlow :=
  if g.hasAck ∧ f.state = .synAckSent ∧ g.ack = f.sndNxt then { f with state := .established }
    else f

/-- An acknowledgment of bytes sent to the guest, with its window. -/
def advance (g : TcpIn) : TcpFlow :=
  if g.hasAck ∧ f.state = .established ∧ seqLe f.sndUna g.ack ∧ seqLe g.ack f.sndNxt then
    { f with
      sndUna := g.ack
      guestWindow := g.win.setWidth 32
      finAcked := f.finAcked || (f.finSent && g.ack == f.sndNxt) }
  else f

/-- What a segment acknowledges. -/
def acknowledge (g : TcpIn) : TcpFlow := (f.establish g).advance g

/-- The data of a segment: what is new of it is taken if there is room. -/
def acceptData (g : TcpIn) : TcpFlow :=
  let data := if seqLt g.seq f.rcvNxt then g.data.drop (f.rcvNxt - g.seq).toNat else g.data
  if data ≠ [] ∧ (seqLt g.seq f.rcvNxt ∨ g.seq = f.rcvNxt) ∧
      f.toHost.length + data.length ≤ toHostLimit then
    { f with toHost := f.toHost ++ data, rcvNxt := f.rcvNxt + BitVec.ofNat 32 data.length }
  else f

/-- The end of the guest's stream, if everything before it has come. -/
def acceptFin (g : TcpIn) : TcpFlow :=
  if g.fin ∧ !f.guestFin ∧ g.seq + BitVec.ofNat 32 g.data.length = f.rcvNxt then
    { f with rcvNxt := f.rcvNxt + 1, guestFin := true }
  else f

/-- Data and end of a segment for an established flow. -/
def accept (g : TcpIn) : TcpFlow := (f.acceptData g).acceptFin g

/-- Whether the segment is answered with an acknowledgment. -/
def needAck (g : TcpIn) : Bool :=
  !g.data.isEmpty || (!f.guestFin && (f.accept g).guestFin)

/-- The flow was used. -/
def touch (now : ℕ) : TcpFlow := { f with last := now }

/-- A segment for the flow: the flow after it, and what is queued for the guest. -/
def handle (now : ℕ) (g : TcpIn) : TcpFlow × List TcpOut :=
  let f := (f.touch now).acknowledge g
  if f.state = .established then
    let f' := f.accept g
    (f', if f.needAck g then [f'.reply tcpAck []] else [])
  else (f, [])

/-! ### Pumping -/

/-- Guest to host; every turn that goes on has handed over a byte.  The flag is an error. -/
def sendLoop : ℕ → TcpFlow → List TcpOut → TcpFlow × List TcpOut × Bool
  | 0, f, out => (f, out, false)
  | turns + 1, f, out =>
    if f.toHost = [] then (f, out, false)
    else
      match f.sock.send f.toHost with
      | (none, sock) => ({ f with sock := sock }, out, true)
      | (some 0, sock) => ({ f with sock := sock }, out, false)
      | (some (n + 1), sock) =>
        let f := { f with sock := sock, toHost := f.toHost.drop (n + 1) }
        sendLoop turns f (out ++ [f.reply tcpAck []])

/-- Half-close the host socket when everything has been handed over. -/
def shut : TcpFlow :=
  if f.guestFin ∧ f.toHost = [] ∧ !f.hostShut then
    { f with sock := f.sock.shutdownWrite, hostShut := true }
  else f

/-- Host to guest, never more than the guest has room for.  The flag is an error. -/
def recvLoop (now : ℕ) : ℕ → TcpFlow → List TcpOut → TcpFlow × List TcpOut × Bool
  | 0, f, out => (f, out, false)
  | turns + 1, f, out =>
    if f.hostEof then (f, out, false)
    else
      let inFlight := f.sndNxt - f.sndUna
      if f.guestWindow ≤ inFlight then (f, out, false)
      else
        let room := min (min (f.guestWindow - inFlight).toNat f.mss.toNat) mssOurs
        match f.sock.recv room with
        | (.wouldBlock, sock) => ({ f with sock := sock }, out, false)
        | (.eof, sock) =>
          let f := { f with sock := sock, hostEof := true }
          ({ f with sndNxt := f.sndNxt + 1, finSent := true },
            out ++ [f.reply (tcpFin ||| tcpAck) []], false)
        | (.error, sock) =>
          let f := { f with sock := sock }
          (f, out ++ [f.reply (tcpRst ||| tcpAck) []], true)
        | (.data bytes, sock) =>
          let f := { f with sock := sock }
          recvLoop now turns
            { f with sndNxt := f.sndNxt + BitVec.ofNat 32 bytes.length, last := now }
            (out ++ [f.reply (tcpPsh ||| tcpAck) bytes])

/-- One flow's turn of `pump_tcp`: the flow, what is queued for the guest, and whether it goes. -/
def pump (now : ℕ) : TcpFlow × List TcpOut × Bool :=
  match f.state with
  | .connecting =>
    match f.sock.pollConnect with
    | (.up, sock) =>
      let f := { f with sock := sock }
      ({ f with sndNxt := f.sndNxt + 1, state := .synAckSent, last := now },
        [f.segment (tcpSyn ||| tcpAck) f.sndNxt f.rcvNxt [] true], false)
    | (.failed, sock) =>
      let f := { f with sock := sock }
      (f,
        [⟨f.dstIp, f.dstPort, f.guestPort, tcpRst ||| tcpAck, 0, f.rcvNxt, 0, [], false, some f⟩],
        true)
    | (.pending, sock) => ({ f with sock := sock }, [], now - f.last > tcpHandshakeTimeout)
  | .synAckSent => (f, [], now - f.last > tcpHandshakeTimeout)
  | .established =>
    match sendLoop f.toHost.length f [] with
    | (f, out, true) => (f, out ++ [f.reply (tcpRst ||| tcpAck) []], true)
    | (f, out, false) =>
      let (f, out, failed) := recvLoop now 32 f.shut out
      (f, out, failed || (f.finAcked && f.guestFin && f.toHost.isEmpty) ||
        (decide (now - f.last > tcpLingerTimeout) && (f.guestFin || f.hostEof)))

end TcpFlow

/-! ## The stack -/

/-- The addresses of the network. -/
structure Config where
  guestIp : U32
  gatewayIp : U32
  dnsIp : U32
  netmask : U32
  hostIp : U32
  dnsServer : U32
  dnsPort : U16

end UserNet

open UserNet in
/-- The stack. -/
structure UserNet where
  cfg : Config
  /-- The segments queued for the guest so far, oldest first. -/
  rx : List TcpOut
  dropped : ℕ
  nextIss : U32
  tcp : SortedMap ℕ TcpFlow
  /-- The other end of the `n`th connection to the host. -/
  connect : ℕ → U32 → U16 → Host
  connects : ℕ
  /-- The flows that are gone, as they were last. -/
  closed : List TcpFlow

namespace UserNet

/-- The stack at the start. -/
def new (cfg : Config) (connect : ℕ → U32 → U16 → Host) : UserNet where
  cfg := cfg
  rx := []
  dropped := 0
  nextIss := 0x20000000
  tcp := .empty
  connect := connect
  connects := 0
  closed := []

variable (u : UserNet)

/-- Queue segments for the guest. -/
def queue (out : List TcpOut) : UserNet := { u with rx := u.rx ++ out }

/-- Take a flow out of the table. -/
def remove (key : ℕ) : UserNet :=
  { u with tcp := u.tcp.erase key, closed := u.closed ++ (u.tcp.get? key).toList }

/-- The host address behind one that the guest uses. -/
def mapDestination (virtIp : U32) (virtPort : U16) : Option (U32 × U16) :=
  if virtIp = u.cfg.gatewayIp then some (u.cfg.hostIp, virtPort)
  else if virtIp = u.cfg.dnsIp then
    if virtPort ≠ 53 then none else some (u.cfg.dnsServer, u.cfg.dnsPort)
  else if virtIp &&& u.cfg.netmask = u.cfg.guestIp &&& u.cfg.netmask then none
  else if virtIp = 0xffffffff ∨ virtIp >>> 28 = 0xe then none
  else some (virtIp, virtPort)

/-- A reset in answer to a segment for a connection that does not exist. -/
def resetFor (dstIp : U32) (g : TcpIn) (hadAck : Bool) (segLen : ℕ) : TcpOut :=
  if hadAck then ⟨dstIp, g.dport, g.sport, tcpRst, g.ack, 0, 0, [], false, none⟩
  else
    ⟨dstIp, g.dport, g.sport, tcpRst ||| tcpAck, 0, g.seq + BitVec.ofNat 32 segLen, 0, [],
      false, none⟩

/-- The flow of a SYN. -/
def newFlow (now : ℕ) (dst : U32) (g : TcpIn) (host : Host) : TcpFlow where
  conn := u.connects
  opening := g
  state := .connecting
  sock := ⟨host, []⟩
  guestPort := g.sport
  dstIp := dst
  dstPort := g.dport
  sndNxt := u.nextIss
  sndUna := u.nextIss
  rcvNxt := g.seq + 1
  guestWindow := g.win.setWidth 32
  mss := g.guestMss
  toHost := []
  guestFin := false
  hostShut := false
  hostEof := false
  finSent := false
  finAcked := false
  last := now

/-- Service the host sockets, flow by flow. -/
def pumpTcp (now : ℕ) : UserNet :=
  let turns := u.tcp.entries.map fun e => e.2.pump now
  { u with
    tcp := u.tcp.filterMap fun f =>
      let (f, _, gone) := f.pump now
      if gone then none else some f
    rx := u.rx ++ turns.flatMap fun t => t.2.1
    closed := u.closed ++ (turns.filter fun t => t.2.2).map fun t => t.1 }

/-- The number of a segment's flow. -/
def keyOf (dst : U32) (g : TcpIn) : ℕ := (flowKey g.sport dst g.dport).toNat

/-- A SYN: a new connection, unless one is being set up. -/
def handleSyn (now : ℕ) (dst : U32) (g : TcpIn) : UserNet :=
  let key := keyOf dst g
  if (u.tcp.get? key).any fun f => f.state != .established then u
  else
    let u := u.remove key
    match if u.tcp.size ≥ maxTcpFlows then none else u.mapDestination dst g.dport with
    | none => u.queue [resetFor dst g false 1]
    | some (hostIp, hostPort) =>
      { u with
        nextIss := u.nextIss + 64000
        tcp := u.tcp.insert key (u.newFlow now dst g (u.connect u.connects hostIp hostPort))
        connects := u.connects + 1 }

/-- `handle_tcp` on a segment taken apart; `later` is when it gets to the sockets. -/
def handleSegment (now later : ℕ) (dst : U32) (g : TcpIn) : UserNet :=
  if g.syn ∧ !g.hasAck then u.handleSyn now dst g
  else
    let key := keyOf dst g
    match u.tcp.get? key with
    | none =>
      if g.rst then u
      else u.queue [resetFor dst g g.hasAck (g.data.length + g.syn.toNat + g.fin.toNat)]
    | some f =>
      if g.rst then u.remove key
      else
        let (f, out) := f.handle now g
        let u := { u with tcp := u.tcp.insert key f, rx := u.rx ++ out }
        if f.state = .established then u.pumpTcp later else u

/-- A TCP packet from the guest. -/
def handleTcp (now later : ℕ) (dst : U32) (p : List U8) : UserNet :=
  match TcpIn.parse p with
  | none => { u with dropped := u.dropped + 1 }
  | some g => u.handleSegment now later dst g

/-- The number of ICMP. -/
def protoIcmp : U8 := 1
/-- The number of TCP. -/
def protoTcp : U8 := 6
/-- The number of UDP. -/
def protoUdp : U8 := 17

/-- Protocol, destination and body of an IPv4 packet; `none` for one that is dropped. -/
def ipv4Body (p : List U8) : Option (U8 × U32 × List U8) :=
  if p.length < 20 ∨ p.getD 0 0 >>> 4 ≠ 4 then none
  else
    let ihl := (p.getD 0 0 &&& 0x0f).toNat * 4
    let total := (rd16 p 2).toNat
    if ihl < 20 ∨ total < ihl ∨ total > p.length then none
    -- fragments are not reassembled
    else if rd16 p 6 &&& 0x3fff ≠ 0 then none
    else some (p.getD 9 0, rd32 p 16, (p.take total).drop ihl)

/-- A packet of the guest.  Pings and datagrams do not touch the flows. -/
def handleIpv4 (now later : ℕ) (p : List U8) : UserNet :=
  match ipv4Body p with
  | none => { u with dropped := u.dropped + 1 }
  | some (proto, dst, body) =>
    if proto = protoTcp then u.handleTcp now later dst body
    else if proto = protoIcmp ∨ proto = protoUdp then u
    else { u with dropped := u.dropped + 1 }

/-- What happens to the stack: a packet of the guest, or the sockets are serviced. -/
inductive Event where
  | packet (now later : ℕ) (p : List U8)
  | pump (now : ℕ)

/-- What an event does. -/
def step : Event → UserNet
  | .packet now later p => u.handleIpv4 now later p
  | .pump now => u.pumpTcp now

/-- What a list of events does. -/
def run (events : List Event) : UserNet := events.foldl step u

end UserNet

end RiscvEmu
