import RiscvEmu.Net.Flows

/-!
# The guest's byte stream reaches the host

Each connection carries one byte stream of the guest, and its segments are slices of it, as often
and in whatever order they come.  What the host socket has been given, followed by what waits for
it, is the stream up to the last byte acknowledged.
-/

namespace RiscvEmu

namespace UserNet

/-- What the guest says on a connection: the number of its SYN, and the bytes up to its FIN. -/
structure GuestStream where
  isn : U32
  bytes : List U8

/-- The bytes a host socket has been given. -/
def handed : List HostCall → List U8
  | [] => []
  | .send data (some n) :: older => handed older ++ data.take n
  | _ :: older => handed older

namespace TcpFlow

variable (f : TcpFlow)

/-- The bytes taken from the guest. -/
def taken : List U8 := handed f.sock.calls ++ f.toHost

/-- The position in the stream that `rcv_nxt` stands for; the end of the stream takes one. -/
def position : ℕ := f.taken.length + f.guestFin.toNat

/-- A segment is the slice of the stream at a position not too far from `rcv_nxt`. -/
def IsSliceAt (s : GuestStream) (g : TcpIn) (pos : ℕ) : Prop :=
  g.seq = s.isn + 1 + BitVec.ofNat 32 pos ∧
    pos ≤ f.position + 2 ^ 31 ∧ f.position ≤ pos + 2 ^ 31 ∧
    g.data = (s.bytes.drop pos).take g.data.length ∧
    (g.fin → pos + g.data.length = s.bytes.length)

instance (s : GuestStream) (g : TcpIn) (pos : ℕ) : Decidable (f.IsSliceAt s g pos) :=
  inferInstanceAs (Decidable (_ ∧ _ ∧ _ ∧ _ ∧ _))

/-- The segment is a slice of the stream. -/
def IsSlice (s : GuestStream) (g : TcpIn) : Prop := ∃ pos, f.IsSliceAt s g pos

/-- The stream has arrived up to `rcv_nxt`, and the socket is half-closed only behind all of it. -/
structure Delivered (s : GuestStream) : Prop where
  exact : f.taken = s.bytes.take f.taken.length
  rcvNxt : f.rcvNxt = s.isn + 1 + BitVec.ofNat 32 f.position
  fin : f.guestFin → f.taken = s.bytes
  shut : ∀ newer older, f.sock.calls = newer ++ .shutdownWrite :: older →
    f.guestFin ∧ handed older = s.bytes

end TcpFlow

/-! ## Sequence numbers of positions -/

lemma seqLt_iff {a b : U32} : seqLt a b ↔ 2 ^ 31 ≤ (a - b).toNat := by
  rw [seqLt, decide_eq_true_iff, BitVec.toInt_neg_iff]
  omega

section

variable (base : U32) (pos d : ℕ)

lemma toNat_sub_behind :
    (base + BitVec.ofNat 32 (pos + d) - (base + BitVec.ofNat 32 pos)).toNat = d % 2 ^ 32 := by
  simp only [BitVec.toNat_sub, BitVec.toNat_add, BitVec.toNat_ofNat]
  omega

lemma toNat_sub_ahead : (base + BitVec.ofNat 32 pos - (base + BitVec.ofNat 32 (pos + d))).toNat =
    (2 ^ 32 - d % 2 ^ 32) % 2 ^ 32 := by
  simp only [BitVec.toNat_sub, BitVec.toNat_add, BitVec.toNat_ofNat]
  omega

/-- Near each other, equal sequence numbers are equal positions. -/
lemma position_eq {pos pos' : ℕ} (hle : pos ≤ pos') (hnear : pos' < pos + 2 ^ 32)
    (h : base + BitVec.ofNat 32 pos = base + BitVec.ofNat 32 pos') : pos = pos' := by
  obtain ⟨d, rfl⟩ := Nat.exists_eq_add_of_le hle
  have hzero := toNat_sub_behind base pos d
  rw [← h, BitVec.sub_self, BitVec.toNat_zero] at hzero
  omega

end

/-! ## Segments -/

lemma segment_data_length {e : Event} {dst : U32} {g : TcpIn} (h : e.segment = some (dst, g)) :
    g.data.length < 2 ^ 16 := by
  rcases e with ⟨now, later, p⟩ | now
  · rw [Event.segment] at h
    rcases hbody : ipv4Body p with _ | ⟨proto, dst', body⟩
    · simp [hbody] at h
    · have hlen : body.length < 2 ^ 16 := by
        rw [ipv4Body] at hbody
        dsimp only at hbody
        split_ifs at hbody
        cases hbody
        rw [List.length_drop, List.length_take]
        have := (rd16 p 2).isLt
        omega
      simp only [hbody] at h
      split_ifs at h
      rw [Option.map_eq_some_iff] at h
      obtain ⟨g', hparse, hg⟩ := h
      cases hg
      rw [TcpIn.parse] at hparse
      dsimp only at hparse
      split_ifs at hparse
      cases hparse
      rw [List.length_drop]
      omega
  · cases h

namespace TcpFlow

variable {f : TcpFlow} {s : GuestStream} {g : TcpIn}

/-- What of a slice is taken is the continuation of what has been taken. -/
lemma Delivered.extend (hf : f.Delivered s) {data : List U8} {n : ℕ} (hdata : data ≠ [])
    (hslice : data = (s.bytes.drop f.position).take n) :
    Delivered { f with toHost := f.toHost ++ data, rcvNxt :=
      f.rcvNxt + BitVec.ofNat 32 data.length } s := by
  have hopen : f.guestFin = false := by
    by_contra hfin
    rw [Bool.not_eq_false] at hfin
    refine hdata ?_
    rw [hslice, List.drop_eq_nil_of_le, List.take_nil]
    rw [position, hf.fin hfin]
    exact Nat.le_add_right _ _
  have hpos : f.position = f.taken.length := by rw [position, hopen]; rfl
  have htaken :
    TcpFlow.taken
      { f with toHost := f.toHost ++ data, rcvNxt := f.rcvNxt + BitVec.ofNat 32 data.length } =
      f.taken ++ data := (List.append_assoc _ _ _).symm
  rw [hpos] at hslice
  constructor
  · rw [htaken, List.length_append, List.take_add, ← hf.exact]
    congr 1
    have hle : data.length ≤ n := by rw [hslice, List.length_take]; exact Nat.min_le_left _ _
    rw [hslice, List.length_take]
    simp
  · rw [position, htaken, List.length_append]
    show f.rcvNxt + _ = _
    rw [hf.rcvNxt, hpos, hopen, BitVec.add_assoc, ← BitVec.ofNat_add]
    rfl
  · intro hfin
    exact absurd (hopen ▸ hfin) (by simp)
  · exact hf.shut

lemma Delivered.acceptData (hf : f.Delivered s) (hg : f.IsSlice s g)
    (hlen : g.data.length < 2 ^ 16) :
    (f.acceptData g).Delivered s := by
  obtain ⟨pos, hseq, hahead, hbehind, hdata, -⟩ := hg
  rw [TcpFlow.acceptData]
  split_ifs with hlt hacc hacc
  · refine hf.extend hacc.1 (n := g.data.length - (f.rcvNxt - g.seq).toNat) ?_
    rcases Nat.le_total pos f.position with hle | hle
    · -- an overlap: the part not seen starts at `rcv_nxt`
      obtain ⟨d, hd⟩ := Nat.exists_eq_add_of_le hle
      have hskip : (f.rcvNxt - g.seq).toNat = d := by
        rw [hf.rcvNxt, hseq, hd, toNat_sub_behind, Nat.mod_eq_of_lt (by omega)]
      rw [hskip, hd, ← List.drop_drop, ← List.drop_take, ← hdata]
    · -- far ahead, taken for far behind: nothing is left of it
      obtain ⟨d, hd⟩ := Nat.exists_eq_add_of_le hle
      rw [seqLt_iff, hf.rcvNxt, hseq, hd, toNat_sub_behind] at hlt
      refine absurd (List.drop_eq_nil_of_le ?_) hacc.1
      rw [hf.rcvNxt, hseq, hd, toNat_sub_ahead]
      omega
  · exact hf
  · refine hf.extend hacc.1 (n := g.data.length) ?_
    have heq : g.seq = f.rcvNxt := hacc.2.1.resolve_left hlt
    have hpos : f.position = pos := by
      rw [hf.rcvNxt, hseq] at heq
      rcases Nat.le_total pos f.position with hle | hle
      · exact (position_eq _ hle (by omega) heq).symm
      · exact position_eq _ hle (by omega) heq.symm
    rw [hpos, ← hdata]
  · exact hf

lemma Delivered.acceptFin (hf : f.Delivered s)
    (hseq : ∃ pos, g.seq = s.isn + 1 + BitVec.ofNat 32 pos ∧
      pos ≤ f.position + 2 ^ 31 ∧ (g.fin → pos + g.data.length = s.bytes.length))
    (hlen : g.data.length < 2 ^ 16) : (f.acceptFin g).Delivered s := by
  obtain ⟨pos, hseq, hahead, hend⟩ := hseq
  rw [TcpFlow.acceptFin]
  split_ifs with hfin
  · obtain ⟨hg, hopen, heq⟩ := hfin
    have hopen : f.guestFin = false := by simpa using hopen
    have hpos : f.position = f.taken.length := by rw [position, hopen]; rfl
    -- the end of the stream is where `rcv_nxt` is, so everything has come
    have hle : f.taken.length ≤ s.bytes.length := by
      rw [hf.exact, List.length_take]
      exact Nat.min_le_right _ _
    have hall : f.taken.length = s.bytes.length := by
      refine position_eq (s.isn + 1) hle (by have := hend hg; omega) ?_
      rw [← hpos, ← hf.rcvNxt, ← heq, hseq, ← hend hg, BitVec.ofNat_add, BitVec.add_assoc]
    have htaken : f.taken = s.bytes := by
      rw [hf.exact, hall, List.take_length]
    refine ⟨hf.exact, ?_, fun _ => htaken, fun newer older h => ⟨rfl, (hf.shut newer older h).2⟩⟩
    rw [position]
    show f.rcvNxt + 1 = s.isn + 1 + BitVec.ofNat 32 (f.taken.length + 1)
    rw [hf.rcvNxt, hpos, BitVec.ofNat_add, ← BitVec.add_assoc]
    rfl
  · exact hf

/-- The position only moves forward when data is taken. -/
lemma position_acceptData (f : TcpFlow) (g : TcpIn) : f.position ≤ (f.acceptData g).position := by
  rw [TcpFlow.acceptData]
  split_ifs
  all_goals simp only [position, taken, List.length_append]
  all_goals omega

lemma Delivered.accept (hf : f.Delivered s) (hg : f.IsSlice s g) (hlen : g.data.length < 2 ^ 16) :
    (f.accept g).Delivered s := by
  refine (hf.acceptData hg hlen).acceptFin ?_ hlen
  obtain ⟨pos, hseq, hahead, -, -, hend⟩ := hg
  have := position_acceptData f g
  exact ⟨pos, hseq, by omega, hend⟩

/-- Acknowledgments have nothing to do with what the guest sends. -/
structure SameInput (f f' : TcpFlow) : Prop where
  sock : f'.sock = f.sock
  toHost : f'.toHost = f.toHost
  rcvNxt : f'.rcvNxt = f.rcvNxt
  guestFin : f'.guestFin = f.guestFin

lemma sameInput_acknowledge (f : TcpFlow) (now : ℕ) (g : TcpIn) :
    SameInput f ((f.touch now).acknowledge g) := by
  rw [acknowledge, advance, establish]
  split_ifs <;> exact ⟨rfl, rfl, rfl, rfl⟩

lemma SameInput.position {f' : TcpFlow} (h : SameInput f f') : f'.position = f.position := by
  rw [TcpFlow.position, TcpFlow.position, taken, taken, h.sock, h.toHost, h.guestFin]

lemma SameInput.delivered {f' : TcpFlow} (h : SameInput f f') (hf : f.Delivered s) :
    f'.Delivered s := by
  have htaken : f'.taken = f.taken := by rw [taken, taken, h.sock, h.toHost]
  refine ⟨by rw [htaken]; exact hf.exact, by rw [h.rcvNxt, h.position]; exact hf.rcvNxt, ?_, ?_⟩
  · rw [htaken, h.guestFin]
    exact hf.fin
  · rw [h.sock, h.guestFin]
    exact hf.shut

lemma Delivered.handle (hf : f.Delivered s) (hg : f.IsSlice s g) (hlen : g.data.length < 2 ^ 16)
    (now : ℕ) : (f.handle now g).1.Delivered s := by
  have hsame := sameInput_acknowledge f now g
  rcases f.handle_cases now g with ⟨-, h⟩ | ⟨-, h, -⟩ <;> rw [h]
  · exact hsame.delivered hf
  · refine (hsame.delivered hf).accept ?_ hlen
    obtain ⟨pos, hslice⟩ := hg
    refine ⟨pos, ?_⟩
    rwa [IsSliceAt, hsame.position]

/-! ## Moves -/

/-- A call that gives the socket nothing and does not close it. -/
lemma Delivered.call (hf : f.Delivered s) {f' : TcpFlow} {c : HostCall}
    (hcalls : f'.sock.calls = c :: f.sock.calls) (hc : c ≠ .shutdownWrite)
    (htaken : f'.taken = f.taken) (hrcv : f'.rcvNxt = f.rcvNxt)
    (hfin : f'.guestFin = f.guestFin) : f'.Delivered s := by
  refine ⟨by rw [htaken]; exact hf.exact, ?_, by rw [htaken, hfin]; exact hf.fin,
    fun newer older h => ?_⟩
  · rw [position, htaken, hrcv, hfin]
    exact hf.rcvNxt
  · rw [hcalls] at h
    rcases newer with _ | ⟨c', newer⟩
    · exact absurd (List.cons.inj h).1 hc
    · rw [hfin]
      exact hf.shut newer older (List.cons.inj h).2

lemma Delivered.move {f' : TcpFlow} {out : List TcpOut} (hf : f.Delivered s) (h : Move f out f') :
    f'.Delivered s := by
  cases h with
  | poll => exact hf.call rfl nofun rfl rfl rfl
  | refuse => exact hf
  | synAck now h => exact ⟨hf.exact, hf.rcvNxt, hf.fin, hf.shut⟩
  | send =>
    refine hf.call rfl nofun ?_ rfl rfl
    rw [taken, taken, HostTcp.send]
    dsimp only
    rcases f.sock.accepts f.sock.calls f.toHost with _ | n
    · rfl
    · rw [handed, List.append_assoc, Option.getD_some, List.take_append_drop]
  | note => exact hf
  | shut hfin hempty =>
    have hall : handed f.sock.calls = s.bytes := by
      have := hf.fin hfin
      rwa [taken, hempty, List.append_nil] at this
    refine ⟨hf.exact, hf.rcvNxt, hf.fin, fun newer older h => ?_⟩
    rcases newer with _ | ⟨c, newer⟩
    · rw [List.nil_append, HostTcp.shutdownWrite] at h
      exact ⟨hfin, (List.cons.inj h).2 ▸ hall⟩
    · exact hf.shut newer older (List.cons.inj h).2
  | idle => exact hf.call rfl nofun rfl rfl rfl
  | eof => exact hf.call rfl nofun rfl rfl rfl
  | data => exact hf.call rfl nofun rfl rfl rfl

end TcpFlow

/-! ## Runs -/

/-- On every connection the guest sends slices of its stream there. -/
def SendsSlices (streams : ℕ → GuestStream) (u : UserNet) (e : Event) : Prop :=
  (∀ g, u.Opens e g (u.step e) → g.seq = (streams u.connects).isn) ∧
    ∀ f g, u.Meets e f g → f.IsSlice (streams f.conn) g

lemma sendsSlices_pump (streams : ℕ → GuestStream) (u : UserNet) (now : ℕ) :
    SendsSlices streams u (.pump now) := by
  constructor
  · rintro g ⟨⟨dst, hseg⟩, -⟩
    cases hseg
  · rintro f g ⟨dst, hseg, -⟩
    cases hseg

/-- What to check of a segment. -/
lemma sendsSlices_packet {streams : ℕ → GuestStream} {u : UserNet} {e : Event} {dst : U32}
    {g : TcpIn} (pos : ℕ) (hseg : e.segment = some (dst, g))
    (hopens : (u.step e).connects = u.connects ∨ g.seq = (streams u.connects).isn)
    (hslice : (u.tcp.get? (keyOf dst g)).all fun f => f.IsSliceAt (streams f.conn) g pos) :
    SendsSlices streams u e := by
  refine ⟨fun g' hg' => ?_, fun f g' hg' => ?_⟩
  · obtain ⟨⟨dst', hseg'⟩, hnext⟩ := hg'
    obtain ⟨rfl, rfl⟩ := Prod.mk.inj (Option.some.inj (hseg.symm.trans hseg'))
    exact hopens.resolve_left (by omega)
  · obtain ⟨dst', hseg', -, -, hget⟩ := hg'
    obtain ⟨rfl, rfl⟩ := Prod.mk.inj (Option.some.inj (hseg.symm.trans hseg'))
    rw [hget, Option.all_some, decide_eq_true_iff] at hslice
    exact ⟨pos, hslice⟩

/-- Whatever segments come in whatever order, with sockets serviced and host writes taken in part at
any time, every flow has delivered its stream exactly. -/
theorem streams_delivered (cfg : Config) (connect : ℕ → U32 → U16 → Host)
    (streams : ℕ → GuestStream)
    (events : List Event) (h : (new cfg connect).Along (SendsSlices streams) events) :
    ∀ f ∈ ((new cfg connect).run events).flows, f.Delivered (streams f.conn) := by
  refine flows_run (P := fun f _ => f.Delivered (streams f.conn)) ?_ ?_ ?_
    (numbered_new cfg connect)
    (fun f hf => nomatch hf) h
  · intro u e g now dst host hok hg
    have hisn : (u.newFlow now dst g host).rcvNxt = (streams u.connects).isn + 1 :=
      congrArg (· + 1) (hok.1 g hg)
    refine ⟨rfl, ?_, nofun, fun newer older h => by cases newer <;> cases h⟩
    rw [hisn]
    exact (BitVec.add_zero _).symm
  · intro u e f g out now hok hg hf
    obtain ⟨dst, hseg, -⟩ := id hg
    rw [f.handle_conn now g]
    exact hf.handle (hok.2 f g hg) (segment_data_length hseg) now
  · intro f f' out new hmove hf
    rw [hmove.conn_eq]
    exact hf.move hmove

section Sample

/-- A packet from the guest at 10.0.2.15, port 1000, to port 80 of its gateway. -/
def guestPacket (flags : U8) (seq ack : U32) (data : List U8) : List U8 :=
  let be16 (x : U16) : List U8 := [x.extractLsb' 8 8, x.extractLsb' 0 8]
  let be32 (x : U32) : List U8 := be16 (x.extractLsb' 16 16) ++ be16 (x.extractLsb' 0 16)
  [0x45, 0] ++ be16 (BitVec.ofNat 16 (40 + data.length)) ++
  [0, 0, 0, 0, 64, 6, 0, 0, 10, 0, 2, 15, 10, 0, 2, 2] ++
    be16 1000 ++ be16 80 ++ be32 seq ++ be32 ack ++ [0x50, flags] ++ be16 4096 ++
      [0, 0, 0, 0] ++ data

/-- The addresses of the samples. -/
def sampleConfig : Config :=
  ⟨0x0a00020f, 0x0a000202, 0x0a000203, 0xffffff00, 0x7f000001, 0x08080808, 53⟩

/-- A host that is up, takes one byte at a time, and has nothing to say. -/
def sampleHost : Host where
  connected _ := .up
  accepts _ data := some (min 1 data.length)
  receives _ _ := .wouldBlock
  accepts_le _ _ _ h := Option.some.inj h ▸ Nat.min_le_right _ _
  receives_le _ _ _ h := nomatch h

/-- A stream of three bytes whose sequence numbers wrap around. -/
def sampleStream : GuestStream := ⟨0xffffffff, [1, 2, 3]⟩

/-- A handshake, the last byte before the others, two bytes, and all of it again with the end. -/
def sampleEvents : List Event :=
  [.packet 0 0 (guestPacket tcpSyn 0xffffffff 0 []), .pump 1,
    .packet 2 2 (guestPacket tcpAck 2 0x20000001 [3]),
      .packet 3 3 (guestPacket tcpAck 0 0x20000001 [1, 2]),
    .packet 4 4 (guestPacket (tcpAck ||| tcpFin) 0 0x20000001 [1, 2, 3])]

theorem streams_delivered_sample :
    (∀ f ∈ ((new sampleConfig fun _ _ _ => sampleHost).run sampleEvents).flows,
        f.Delivered sampleStream) ∧
      ((new sampleConfig fun _ _ _ => sampleHost).run sampleEvents).flows.map
      (fun f => handed f.sock.calls) =
        [[1, 2, 3]] := by
  refine ⟨streams_delivered _ _ (fun _ => sampleStream) _
    ⟨?_, ?_, ?_, ?_, ?_, trivial⟩, by decide +kernel⟩
  · exact sendsSlices_packet 0 rfl (.inr (by decide +kernel)) (by decide +kernel)
  · exact sendsSlices_pump _ _ _
  · exact sendsSlices_packet 2 rfl (.inl (by decide +kernel)) (by decide +kernel)
  · exact sendsSlices_packet 0 rfl (.inl (by decide +kernel)) (by decide +kernel)
  · exact sendsSlices_packet 0 rfl (.inl (by decide +kernel)) (by decide +kernel)

end Sample

end UserNet

end RiscvEmu
