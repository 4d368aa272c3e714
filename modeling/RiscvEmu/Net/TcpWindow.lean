import Mathlib.Data.List.Nodup
import RiscvEmu.Net.TcpStream

/-!
# What the guest is sent

The segments of a flow carry the bytes of the host one after another, within the guest's window and
its maximum segment size, and the oldest unacknowledged number stays between where it was and the
next one to send.  Two parts have a hole.  With nothing in flight, an acknowledgment half the
sequence space away passes both comparisons.  And a maximum segment size below 64 is not taken from
the guest.
-/

namespace RiscvEmu

namespace UserNet

/-- The bytes that came from a host socket. -/
def received : List HostCall → List U8
  | [] => []
  | .recv _ (.data bytes) :: older => received older ++ bytes
  | _ :: older => received older

/-! ## The guest's maximum segment size -/

namespace TcpIn

/-- The options of a header from byte `i` on: their kinds and their data. -/
def options (header : List U8) : ℕ → ℕ → List (U8 × List U8)
  | 0, _ => []
  | turns + 1, i =>
    if i + 1 < header.length then
      let kind := header.getD i 0
      if kind = 0 then []
      else if kind = 1 then options header turns (i + 1)
      else
        let olen := (header.getD (i + 1) 0).toNat
        if olen < 2 ∨ i + olen > header.length then []
        else (kind, (header.drop (i + 2)).take (olen - 2)) :: options header turns (i + olen)
    else []

/-- An option that announces a maximum segment size. -/
def isMss (o : U8 × List U8) : Bool := o.1 = 2 ∧ o.2.length = 2

/-- The maximum segment size that the options announce: the last of them counts. -/
def announced (opts : List (U8 × List U8)) : Option U16 :=
  ((opts.filter isMss).getLast?).map fun o => rd16 o.2 0

/-- The maximum segment size of the sender of a SYN, which is 536 if it does not announce one. -/
def announcedMss (g : TcpIn) : U16 := (announced (options g.header g.header.length 20)).getD 536

lemma announced_cons_of_isMss {o : U8 × List U8} (h : isMss o = true) (opts : List (U8 × List U8)) :
    announced (o :: opts) = some ((announced opts).getD (rd16 o.2 0)) := by
  rw [announced, announced, List.filter_cons_of_pos h, List.getLast?_cons]
  cases (opts.filter isMss).getLast? <;> rfl

lemma announced_cons_of_not_isMss {o : U8 × List U8} (h : ¬ isMss o = true)
    (opts : List (U8 × List U8)) : announced (o :: opts) = announced opts := by
  rw [announced, announced, List.filter_cons_of_neg h]

lemma rd16_take_drop (header : List U8) (i : ℕ) :
    rd16 ((header.drop i).take 2) 0 = rd16 header i := by
  simp [rd16, List.getD_eq_getElem?_getD, List.getElem?_drop]

/-- The loop finds what is announced, up to the size the proxy uses itself. -/
lemma mssLoop_eq (header : List U8) (turns i : ℕ) (mss : U16) : mssLoop header turns i mss =
    match announced (options header turns i) with
    | some v => BitVec.ofNat 16 (min v.toNat mssOurs)
    | none => mss := by
  induction turns generalizing i mss with
  | zero => rfl
  | succ turns ih =>
    rw [mssLoop, options]
    dsimp only
    split_ifs with hmore hend hpad hbad hmss
    · rfl
    · exact ih _ _
    · rfl
    · -- an announcement; a later one has precedence
      have hlen : ((header.drop (i + 2)).take 2).length = 2 := by
        rw [List.length_take, List.length_drop]
        omega
      have hopt : isMss (header.getD i 0, (header.drop (i + 2)).take 2) = true := by
        rw [isMss, decide_eq_true_eq]
        exact ⟨hmss.1, hlen⟩
      rw [ih, hmss.2]
      dsimp only [Nat.reduceSub]
      rw [announced_cons_of_isMss hopt, rd16_take_drop]
      cases announced (options header turns (i + 4)) <;> rfl
    · have hother : ¬ isMss (header.getD i 0,
          (header.drop (i + 2)).take ((header.getD (i + 1) 0).toNat - 2)) = true := by
        intro h
        simp only [isMss, decide_eq_true_eq, List.length_take, List.length_drop] at h
        exact hmss ⟨h.1, by omega⟩
      rw [ih, announced_cons_of_not_isMss hother]
    · rfl

/-- The size that a flow uses is not above what is announced, if that is at least 64. -/
lemma guestMss_le {g : TcpIn} (h : 64 ≤ g.announcedMss.toNat) :
    g.guestMss.toNat ≤ g.announcedMss.toNat := by
  rw [announcedMss] at h ⊢
  rw [guestMss, mssLoop_eq]
  cases hopt : announced (options g.header g.header.length 20) with
  | none => simp
  | some v =>
    rw [hopt, Option.getD_some] at h
    have hlt := v.isLt
    have hmin : (BitVec.ofNat 16 (min v.toNat mssOurs)).toNat = min v.toNat mssOurs := by
      rw [BitVec.toNat_ofNat, mssOurs]
      omega
    have hbig : ¬ BitVec.ofNat 16 (min v.toNat mssOurs) < (64 : U16) := by
      rw [BitVec.lt_def, hmin, mssOurs]
      have : (64 : U16).toNat = 64 := rfl
      omega
    dsimp only
    rw [if_neg hbig, hmin, Option.getD_some]
    exact Nat.min_le_left _ _

end TcpIn

/-! ## What is sent -/

namespace TcpOut

/-- The segment ends the stream. -/
def isFin (o : TcpOut) : Bool := o.flags &&& tcpFin != 0

/-- The sequence numbers that data and end of a segment take. -/
def space (o : TcpOut) : ℕ := o.data.length + o.isFin.toNat

end TcpOut

/-- The sequence numbers that segments take. -/
def totalSpace (out : List TcpOut) : ℕ := (out.map TcpOut.space).sum

lemma totalSpace_append (out new : List TcpOut) :
    totalSpace (out ++ new) = totalSpace out + totalSpace new := by
  rw [totalSpace, List.map_append, List.sum_append]
  rfl

/-- Segments stand one after another from a sequence number on. -/
def Placed (base : U32) : List TcpOut → Prop
  | [] => True
  | o :: out => (0 < o.space → o.seq = base) ∧ Placed (base + BitVec.ofNat 32 o.space) out

lemma placed_append {base : U32} {out new : List TcpOut} :
    Placed base (out ++ new) ↔ Placed base out ∧
      Placed (base + BitVec.ofNat 32 (totalSpace out)) new := by
  induction out generalizing base with
  | nil => simp [Placed, totalSpace]
  | cons a out ih =>
    rw [List.cons_append, Placed, Placed, ih, and_assoc, BitVec.add_assoc, ← BitVec.ofNat_add]
    rfl

/-- Segments that carry nothing stand anywhere. -/
lemma placed_of_space_eq_zero {base : U32} {out : List TcpOut} (h : ∀ o ∈ out, o.space = 0) :
    Placed base out := by
  induction out generalizing base with
  | nil => trivial
  | cons a out ih =>
    refine ⟨fun hpos => absurd (h a List.mem_cons_self) hpos.ne', ih fun o ho => ?_⟩
    exact h o (List.mem_cons_of_mem a ho)

lemma totalSpace_eq_zero {out : List TcpOut} (h : ∀ o ∈ out, o.space = 0) : totalSpace out = 0 := by
  induction out with
  | nil => rfl
  | cons a out ih =>
    rw [totalSpace, List.map_cons, List.sum_cons, h a List.mem_cons_self, Nat.zero_add]
    exact ih fun o ho => h o (List.mem_cons_of_mem a ho)

lemma fin_mem_of_quiet {out new : List TcpOut} (hnew : ∀ o ∈ new, o.space = 0)
    (h : ∃ o ∈ out ++ new, o.isFin) : ∃ o ∈ out, o.isFin := by
  obtain ⟨o, ho, hfin⟩ := h
  rcases List.mem_append.mp ho with ho | ho
  · exact ⟨o, ho, hfin⟩
  · have hzero := hnew o ho
    rw [TcpOut.space, hfin] at hzero
    cases hzero

namespace TcpFlow

variable (f : TcpFlow)

/-- The sequence numbers in flight. -/
def inFlight : ℕ := (f.sndNxt - f.sndUna).toNat

/-- The segments of a flow are the host's bytes in order, its end after the last of them, no segment
larger than the maximum that the guest has announced and none beyond the window it had given. -/
structure SendsInOrder (iss : U32) (out : List TcpOut) : Prop where
  payload : out.flatMap TcpOut.data = received f.sock.calls
  placed : Placed (iss + 1) out
  last : out.Pairwise fun a b => a.isFin → b.space = 0
  mss : ∀ o ∈ out, o.data.length ≤ f.opening.announcedMss.toNat
  window : ∀ o ∈ out, 0 < o.space → ∃ f₀, o.flow = some f₀ ∧ o.seq = f₀.sndNxt ∧
    f₀.inFlight + o.space ≤ f₀.guestWindow.toNat

/-- Where the flow is with what it has sent. -/
structure Account (iss : U32) (out : List TcpOut) : Prop extends f.SendsInOrder iss out where
  start : f.state = .connecting → f.sndNxt = iss ∧ f.sndUna = iss ∧ totalSpace out = 0
  next : f.state ≠ .connecting → f.sndNxt = iss + 1 + BitVec.ofNat 32 (totalSpace out)
  eof : (∃ o ∈ out, o.isFin) → f.hostEof
  inFlight_lt : f.inFlight < 2 ^ 16
  guestWindow_lt : f.guestWindow.toNat < 2 ^ 16
  mss_le : f.mss.toNat ≤ f.opening.announcedMss.toNat

/-- The flow has the same maximum segment size, for the same announcement. -/
structure SameMss (f f' : TcpFlow) : Prop where
  mss : f'.mss = f.mss
  opening : f'.opening = f.opening

/-- An acknowledgment half the sequence space away when nothing is in flight. -/
def Strays (g : TcpIn) : Prop :=
  g.hasAck ∧ f.state = .established ∧ f.sndUna = f.sndNxt ∧ g.ack = f.sndNxt + 0x80000000

/-! ## Moves -/

variable {f} {f' : TcpFlow} {iss : U32} {out new : List TcpOut}

lemma SendsInOrder.quiet (hf : f.SendsInOrder iss out)
    (hcalls : received f'.sock.calls = received f.sock.calls)
    (hmss : f.SameMss f') (hnew : ∀ o ∈ new, o.space = 0) : f'.SendsInOrder iss (out ++ new) := by
  have hempty : ∀ o ∈ new, o.data = [] := fun o ho =>
    List.eq_nil_of_length_eq_zero (Nat.eq_zero_of_add_eq_zero_right (hnew o ho))
  refine ⟨?_, ?_, ?_, fun o ho => ?_, fun o ho hpos => ?_⟩
  · rw [List.flatMap_append, List.flatMap_eq_nil_iff.mpr hempty, List.append_nil, hcalls]
    exact hf.payload
  · exact placed_append.mpr ⟨hf.placed, placed_of_space_eq_zero hnew⟩
  · refine List.pairwise_append.mpr ⟨hf.last, ?_, fun a _ b hb _ => hnew b hb⟩
    exact List.pairwise_of_forall_mem_list fun a _ b hb _ => hnew b hb
  · rw [hmss.opening]
    rcases List.mem_append.mp ho with ho | ho
    · exact hf.mss o ho
    · rw [hempty o ho]
      exact Nat.zero_le _
  · rcases List.mem_append.mp ho with ho | ho
    · exact hf.window o ho hpos
    · exact absurd (hnew o ho) hpos.ne'

/-- Segments that carry nothing, from a flow that sends on from where it was. -/
lemma Account.quiet (hf : f.Account iss out)
    (hcalls : received f'.sock.calls = received f.sock.calls)
    (hmss : f.SameMss f') (hnew : ∀ o ∈ new, o.space = 0)
    (hstate : f'.state = .connecting ↔ f.state = .connecting) (hnxt : f'.sndNxt = f.sndNxt)
    (heof : f'.hostEof = f.hostEof) (huna : f.state = .connecting → f'.sndUna = f.sndUna)
    (hin : f'.inFlight < 2 ^ 16) (hwin : f'.guestWindow.toNat < 2 ^ 16) :
      f'.Account iss (out ++ new) where
  toSendsInOrder := hf.toSendsInOrder.quiet hcalls hmss hnew
  start h := by
    rw [hnxt, huna (hstate.mp h), totalSpace_append, totalSpace_eq_zero hnew]
    exact hf.start (hstate.mp h)
  next h := by
    rw [hnxt, totalSpace_append, totalSpace_eq_zero hnew]
    exact hf.next (mt hstate.mpr h)
  eof h := by
    rw [heof]
    exact hf.eof (fin_mem_of_quiet hnew h)
  inFlight_lt := hin
  guestWindow_lt := hwin
  mss_le := by
    rw [hmss.mss, hmss.opening]
    exact hf.mss_le

/-- Segments that carry nothing, from a flow that stands where it stood. -/
lemma Account.still (hf : f.Account iss out)
    (hcalls : received f'.sock.calls = received f.sock.calls)
    (hnew : ∀ o ∈ new, o.space = 0) (hmss : f.SameMss f') (hstate : f'.state = f.state)
    (hnxt : f'.sndNxt = f.sndNxt) (heof : f'.hostEof = f.hostEof) (huna : f'.sndUna = f.sndUna)
    (hwin : f'.guestWindow = f.guestWindow) : f'.Account iss (out ++ new) := by
  refine hf.quiet hcalls hmss hnew (by rw [hstate]) hnxt heof (fun _ => huna) ?_ ?_
  · rw [inFlight, hnxt, huna]
    exact hf.inFlight_lt
  · rw [hwin]
    exact hf.guestWindow_lt

/-- A segment that carries data or the end: it comes next, and it fits. -/
lemma Account.emit (hf : f.Account iss out) {o : TcpOut} (hstate : f.state = .established)
    (hopen : f.hostEof = false) (hcalls : received f'.sock.calls = received f.sock.calls ++ o.data)
    (hmss : f.SameMss f') (hsame : f'.state = f.state) (hseq : o.seq = f.sndNxt)
    (hlen : o.data.length ≤ f.mss.toNat) (hflow : ∃ f₀, o.flow = some f₀ ∧ f₀.sndNxt = f.sndNxt ∧
      f₀.sndUna = f.sndUna ∧ f₀.guestWindow = f.guestWindow)
    (hwindow : f.inFlight + o.space ≤ f.guestWindow.toNat)
    (hnxt : f'.sndNxt = f.sndNxt + BitVec.ofNat 32 o.space) (huna : f'.sndUna = f.sndUna)
    (hwin : f'.guestWindow = f.guestWindow) (heof : o.isFin → f'.hostEof) :
    f'.Account iss (out ++ [o]) := by
  have hne : f.state ≠ .connecting := by rw [hstate]; decide
  have hnofin : ∀ a ∈ out, a.isFin = false := by
    intro a ha
    by_contra hfin
    rw [hf.eof ⟨a, ha, by simpa using hfin⟩] at hopen
    cases hopen
  have htotal : totalSpace [o] = o.space := by simp [totalSpace]
  constructor
  · refine ⟨?_, ?_, ?_, fun a ha => ?_, fun a ha hpos => ?_⟩
    · rw [List.flatMap_append, hf.payload, hcalls]
      simp
    · refine placed_append.mpr ⟨hf.placed, fun _ => ?_, trivial⟩
      rw [hseq, hf.next hne]
    · refine List.pairwise_append.mpr
        ⟨hf.last, List.pairwise_singleton _ _, fun a ha b _ hfin => ?_⟩
      rw [hnofin a ha] at hfin
      cases hfin
    · rw [hmss.opening]
      rcases List.mem_append.mp ha with ha | ha
      · exact hf.mss a ha
      · rw [List.mem_singleton.mp ha]
        exact hlen.trans hf.mss_le
    · rcases List.mem_append.mp ha with ha | ha
      · exact hf.window a ha hpos
      · rw [List.mem_singleton.mp ha]
        obtain ⟨f₀, hf₀, hnxt₀, huna₀, hwin₀⟩ := hflow
        exact ⟨f₀, hf₀, hseq.trans hnxt₀.symm, by rwa [inFlight, hnxt₀, huna₀, hwin₀]⟩
  · intro h
    exact absurd (hsame ▸ h) hne
  · intro _
    rw [hnxt, hf.next hne, totalSpace_append, htotal, BitVec.add_assoc, ← BitVec.ofNat_add]
  · rintro ⟨a, ha, hfin⟩
    rcases List.mem_append.mp ha with ha | ha
    · rw [hnofin a ha] at hfin
      cases hfin
    · exact heof (List.mem_singleton.mp ha ▸ hfin)
  · have hlt := hf.guestWindow_lt
    have hadd : f'.inFlight = f.inFlight + o.space := by
      rw [inFlight, inFlight, hnxt, huna]
      rw [inFlight] at hwindow
      simp only [BitVec.toNat_sub, BitVec.toNat_add, BitVec.toNat_ofNat] at hwindow ⊢
      omega
    omega
  · rw [hwin]
    exact hf.guestWindow_lt
  · rw [hmss.mss, hmss.opening]
    exact hf.mss_le

/-- What may be received fits. -/
lemma MayReceive.inFlight_lt (h : f.MayReceive) : f.inFlight < f.guestWindow.toNat := by
  have hlt := h.2.2
  rwa [BitVec.not_le, BitVec.lt_def] at hlt

lemma MayReceive.inFlight_add_room (h : f.MayReceive) :
    f.inFlight + f.room ≤ f.guestWindow.toNat := by
  have hlt := h.inFlight_lt
  rw [inFlight] at hlt ⊢
  rw [room]
  have hsub : (f.guestWindow - (f.sndNxt - f.sndUna)).toNat =
      f.guestWindow.toNat - (f.sndNxt - f.sndUna).toNat := BitVec.toNat_sub_of_le hlt.le
  omega

lemma Account.move (hf : f.Account iss out) (h : Move f new f') : f'.Account iss (out ++ new) := by
  have hnothing : ∀ o ∈ ([] : List TcpOut), o.space = 0 := by simp
  cases h with
  | poll => exact hf.still rfl hnothing ⟨rfl, rfl⟩ rfl rfl rfl rfl rfl
  | refuse =>
    refine hf.still rfl ?_ ⟨rfl, rfl⟩ rfl rfl rfl rfl rfl
    simp [TcpOut.space, TcpOut.isFin, tcpRst, tcpAck, tcpFin]
  | synAck now h =>
    obtain ⟨hnxt, huna, hzero⟩ := hf.start h
    have hnew : ∀ o ∈ [f.segment (tcpSyn ||| tcpAck) f.sndNxt f.rcvNxt [] true], o.space = 0 := by
      simp [TcpOut.space, TcpOut.isFin, segment, tcpSyn, tcpAck, tcpFin]
    refine ⟨hf.toSendsInOrder.quiet rfl ⟨rfl, rfl⟩ hnew, by simp, fun _ => ?_, ?_, ?_,
      hf.guestWindow_lt, hf.mss_le⟩
    · rw [totalSpace_append, hzero, totalSpace_eq_zero hnew, hnxt]
      exact (BitVec.add_zero _).symm
    · exact fun h => hf.eof (fin_mem_of_quiet hnew h)
    · rw [inFlight]
      show (f.sndNxt + 1 - f.sndUna).toNat < 2 ^ 16
      rw [hnxt, huna, BitVec.add_comm, BitVec.add_sub_cancel]
      decide
  | send => exact hf.still rfl hnothing ⟨rfl, rfl⟩ rfl rfl rfl rfl rfl
  | note flags _ h =>
    refine hf.still rfl ?_ ⟨rfl, rfl⟩ rfl rfl rfl rfl rfl
    rcases h with rfl | rfl <;>
      simp [TcpOut.space, TcpOut.isFin, reply, segment, tcpRst, tcpAck, tcpFin]
  | shut => exact hf.still rfl hnothing ⟨rfl, rfl⟩ rfl rfl rfl rfl rfl
  | idle h hnone =>
    refine hf.still ?_ hnothing ⟨rfl, rfl⟩ rfl rfl rfl rfl rfl
    rw [HostTcp.recv] at hnone ⊢
    dsimp only at hnone ⊢
    rcases hanswer : f.sock.receives f.sock.calls f.room with bytes | _ | _ | _
    · exact absurd hanswer (hnone bytes)
    all_goals rfl
  | eof h heof =>
    have hspace (f₀ : TcpFlow) : (f₀.reply (tcpFin ||| tcpAck) []).space = 1 := by
      simp [TcpOut.space, TcpOut.isFin, reply, segment, tcpAck, tcpFin]
    have hfits := h.inFlight_lt
    refine hf.emit h.1 h.2.1 ?_ ⟨rfl, rfl⟩ rfl rfl (Nat.zero_le _) ⟨_, rfl, rfl, rfl, rfl⟩ ?_ ?_ rfl
      rfl fun _ => rfl
    · rw [HostTcp.recv] at heof ⊢
      dsimp only at heof ⊢
      rw [heof]
      exact (List.append_nil _).symm
    · rwa [hspace]
    · rw [hspace]
      rfl
  | data now bytes h hdata =>
    have hspace (f₀ : TcpFlow) : (f₀.reply (tcpPsh ||| tcpAck) bytes).space = bytes.length := by
      simp [TcpOut.space, TcpOut.isFin, reply, segment, tcpAck, tcpPsh, tcpFin]
    have hroom : bytes.length ≤ f.room := f.sock.receives_le _ _ _ hdata
    have hfits := h.inFlight_add_room
    refine hf.emit h.1 h.2.1 ?_ ⟨rfl, rfl⟩ rfl rfl ?_ ⟨_, rfl, rfl, rfl, rfl⟩ ?_ ?_ rfl rfl
      fun hfin => ?_
    · rw [HostTcp.recv] at hdata ⊢
      dsimp only at hdata ⊢
      rw [hdata]
      rfl
    · have : f.room ≤ f.mss.toNat := (Nat.min_le_left _ _).trans (Nat.min_le_right _ _)
      exact hroom.trans this
    · rw [hspace]
      omega
    · rw [hspace]
    · simp [TcpOut.isFin, reply, segment, tcpAck, tcpPsh, tcpFin] at hfin

/-! ## Segments -/

lemma seqLe_iff {a b : U32} : seqLe a b ↔ (a - b).toNat = 0 ∨ 2 ^ 31 ≤ (a - b).toNat := by
  rw [seqLe, decide_eq_true_iff, BitVec.toInt_eq_toNat_cond]
  have := (a - b).isLt
  split_ifs <;> omega

/-- With little in flight, the two comparisons let in what is in flight, and one thing more. -/
lemma ack_cases {una nxt ack : U32} (hsmall : (nxt - una).toNat < 2 ^ 16) (hlow : seqLe una ack)
    (hhigh : seqLe ack nxt) :
    (ack - una).toNat + (nxt - ack).toNat = (nxt - una).toNat ∨ una = nxt ∧ ack =
      nxt + 0x80000000 := by
  rw [seqLe_iff] at hlow hhigh
  have h₁ := una.isLt
  have h₂ := nxt.isLt
  have h₃ := ack.isLt
  by_cases heq : una = nxt ∧ ack = nxt + 0x80000000
  · exact .inr heq
  · left
    have hhalf : (0x80000000 : U32).toNat = 2 ^ 31 := rfl
    rw [← BitVec.toNat_inj, ← BitVec.toNat_inj, BitVec.toNat_add, hhalf] at heq
    simp only [BitVec.toNat_sub] at *
    omega

/-- What a segment may do to the account: the oldest unacknowledged number moves over some of what
is in flight. -/
structure Advances (f f' : TcpFlow) : Prop where
  state : f'.state = .connecting ↔ f.state = .connecting
  calls : f'.sock = f.sock
  mss : f.SameMss f'
  sndNxt : f'.sndNxt = f.sndNxt
  hostEof : f'.hostEof = f.hostEof
  una : f'.sndUna = f.sndUna ∧ f'.guestWindow = f.guestWindow ∨
    f'.state = .established ∧ f'.guestWindow.toNat < 2 ^ 16 ∧
      (f'.sndUna - f.sndUna).toNat + f'.inFlight = f.inFlight

lemma Advances.sndUna_le {f f' : TcpFlow} (h : Advances f f') :
    (f'.sndUna - f.sndUna).toNat ≤ f.inFlight := by
  rcases h.una with ⟨heq, -⟩ | ⟨-, -, hsum⟩
  · rw [heq, BitVec.sub_self]
    exact Nat.zero_le _
  · omega

lemma advances_acknowledge {g : TcpIn} (hsmall : f.inFlight < 2 ^ 16) (hstray : ¬f.Strays g)
    (now : ℕ) :
    Advances f ((f.touch now).acknowledge g) := by
  rw [acknowledge]
  have hestablish : Advances f ((f.touch now).establish g) ∧
      ((f.touch now).establish g).sndUna = f.sndUna ∧
      (((f.touch now).establish g).state = f.state ∨ g.ack = f.sndNxt) := by
    rw [establish]
    split_ifs with h
    · have hstate : f.state = .synAckSent := h.2.1
      exact ⟨⟨by simp [hstate], rfl, ⟨rfl, rfl⟩, rfl, rfl, .inl ⟨rfl, rfl⟩⟩, rfl, .inr h.2.2⟩
    · exact ⟨⟨.rfl, rfl, ⟨rfl, rfl⟩, rfl, rfl, .inl ⟨rfl, rfl⟩⟩, rfl, .inl rfl⟩
  obtain ⟨hadv, huna, hstate⟩ := hestablish
  generalize (f.touch now).establish g = f₁ at hadv huna hstate
  rw [advance]
  split_ifs with h
  · obtain ⟨hack, hest, hlow, hhigh⟩ := h
    refine ⟨hadv.state, hadv.calls, ⟨hadv.mss.mss, hadv.mss.opening⟩, hadv.sndNxt, hadv.hostEof,
      .inr ⟨hest, ?_, ?_⟩⟩
    · rw [BitVec.toNat_setWidth]
      have := g.win.isLt
      omega
    · rw [huna] at hlow
      rw [hadv.sndNxt] at hhigh
      rw [inFlight, inFlight, hadv.sndNxt]
      refine (ack_cases hsmall hlow hhigh).resolve_right fun hbad => ?_
      rcases hstate with hstate | hall
      · exact hstray ⟨hack, hstate ▸ hest, hbad⟩
      · -- the handshake ends with an acknowledgment of everything
        have := hall.symm.trans hbad.2
        simp at this
  · exact hadv

lemma advances_accept (f : TcpFlow) (g : TcpIn) :
    (f.accept g).state = f.state ∧ (f.accept g).sock = f.sock ∧
    f.SameMss (f.accept g) ∧ (f.accept g).sndNxt = f.sndNxt ∧ (f.accept g).hostEof = f.hostEof ∧
    (f.accept g).sndUna = f.sndUna ∧ (f.accept g).guestWindow = f.guestWindow := by
  rw [accept, acceptFin, acceptData]
  split_ifs <;> exact ⟨rfl, rfl, ⟨rfl, rfl⟩, rfl, rfl, rfl, rfl⟩

lemma advances_handle {g : TcpIn} (hsmall : f.inFlight < 2 ^ 16) (hstray : ¬f.Strays g) (now : ℕ) :
    Advances f (f.handle now g).1 := by
  have hack := advances_acknowledge hsmall hstray now
  rcases f.handle_cases now g with ⟨-, h⟩ | ⟨-, h, -⟩ <;> rw [h]
  · exact hack
  · obtain ⟨hstate, hsock, hmss, hnxt, heof, huna, hwin⟩ :=
      advances_accept ((f.touch now).acknowledge g) g
    refine ⟨by rw [hstate]; exact hack.state, by rw [hsock, hack.calls],
      ⟨hmss.mss.trans hack.mss.mss, hmss.opening.trans hack.mss.opening⟩,
      by rw [hnxt, hack.sndNxt], by rw [heof, hack.hostEof], ?_⟩
    rw [huna, hwin, hstate, inFlight, hnxt, huna]
    exact hack.una

lemma Account.handle {g : TcpIn} (hf : f.Account iss out) (hstray : ¬f.Strays g) (now : ℕ) :
    (f.handle now g).1.Account iss (out ++ (f.handle now g).2) := by
  have hadv := advances_handle hf.inFlight_lt hstray now
  have hnew : ∀ o ∈ (f.handle now g).2, o.space = 0 := by
    rcases f.handle_cases now g with ⟨-, h⟩ | ⟨-, -, h | h⟩ <;> rw [h]
    · simp
    · simp
    · simp [TcpOut.space, TcpOut.isFin, reply, segment, tcpAck, tcpFin]
  have hcalls : received (f.handle now g).1.sock.calls = received f.sock.calls := by rw [hadv.calls]
  have hlt := hf.inFlight_lt
  rcases hadv.una with ⟨huna, hwin⟩ | ⟨hest, hwin, hsum⟩
  · refine hf.quiet hcalls hadv.mss hnew hadv.state hadv.sndNxt hadv.hostEof (fun _ => huna) ?_ ?_
    · rwa [inFlight, hadv.sndNxt, huna]
    · rw [hwin]
      exact hf.guestWindow_lt
  · refine hf.quiet hcalls hadv.mss hnew hadv.state hadv.sndNxt hadv.hostEof (fun h => ?_)
      (by omega) hwin
    rw [← hadv.state, hest] at h
    cases h

/-! ## Whose acknowledgment it is -/

lemma Move.sndUna_eq (h : Move f out f') : f'.sndUna = f.sndUna := by
  cases h <;> rfl

lemma Pumped.sndUna_eq (h : Pumped f out f') : f'.sndUna = f.sndUna := by
  induction h with
  | refl => rfl
  | snoc _ hmove ih => rw [hmove.sndUna_eq, ih]

/-- Half the sequence space away is both before and after. -/
lemma seqLe_half (x : U32) : seqLe x (x + 0x80000000) ∧ seqLe (x + 0x80000000) x := by
  have hhalf : (0x80000000 : U32).toNat = 2 ^ 31 := rfl
  have hx := x.isLt
  rw [seqLe_iff, seqLe_iff, BitVec.toNat_sub, BitVec.toNat_sub, BitVec.toNat_add, hhalf]
  omega

lemma Strays.handle {g : TcpIn} (h : f.Strays g) (now : ℕ) :
    (f.handle now g).1.sndUna = f.sndUna + 0x80000000 ∧ (f.handle now g).1.state =
      .established := by
  obtain ⟨hack, hstate, huna, hg⟩ := h
  have hsame : (f.touch now).establish g = f.touch now :=
    if_neg fun h => by rw [show f.state = .synAckSent from h.2.1] at hstate; cases hstate
  have hle : seqLe f.sndUna g.ack ∧ seqLe g.ack f.sndNxt := by
    rw [hg, huna]
    exact seqLe_half f.sndNxt
  have hadv : ((f.touch now).acknowledge g).sndUna = f.sndUna + 0x80000000 ∧
      ((f.touch now).acknowledge g).state = .established := by
    rw [acknowledge, hsame, advance, if_pos ⟨hack, hstate, hle⟩]
    refine ⟨?_, hstate⟩
    rw [huna]
    exact hg
  rcases f.handle_cases now g with ⟨hne, -⟩ | ⟨-, h, -⟩
  · exact absurd hadv.2 hne
  · obtain ⟨hstate, -, -, -, -, huna, -⟩ := advances_accept ((f.touch now).acknowledge g) g
    rw [h, huna, hstate]
    exact hadv

end TcpFlow

/-! ## Runs -/

variable {u : UserNet} {e : Event}

/-- After the step every flow has sent its bytes in order and within the window, and its oldest
unacknowledged number has neither moved backwards nor passed the next one to send. -/
def Respects (u : UserNet) (e : Event) : Prop :=
  ∀ f' ∈ (u.step e).flows, (∃ iss, f'.SendsInOrder iss ((u.step e).sent f'.conn)) ∧
    seqLt f'.sndNxt f'.sndUna = false ∧
    ∀ f ∈ u.flows, f.conn = f'.conn → seqLt f'.sndUna f.sndUna = false

/-- The event is no acknowledgment that strays. -/
def NoneStrays (u : UserNet) (e : Event) : Prop := ∀ f g, u.Meets e f g → ¬f.Strays g

/-- The event is no acknowledgment that strays, and no SYN that opens a connection and announces a
maximum segment size below 64. -/
structure Friendly (u : UserNet) (e : Event) : Prop where
  acks : u.NoneStrays e
  mss : ∀ g, u.Opens e g (u.step e) → 64 ≤ g.announcedMss.toNat

/-- Every flow is accounted for. -/
def Accounted (u : UserNet) : Prop :=
  u.Numbered ∧ ∀ f ∈ u.flows, ∃ iss, f.Account iss (u.sent f.conn)

lemma seqLt_eq_false {a b : U32} (h : (a - b).toNat < 2 ^ 16) : seqLt a b = false := by
  rw [← Bool.not_eq_true, seqLt_iff]
  omega

lemma account_newFlow (u : UserNet) (now : ℕ) (dst : U32) {g : TcpIn} (host : Host)
    (hmss : 64 ≤ g.announcedMss.toNat) : (u.newFlow now dst g host).Account u.nextIss [] where
  payload := rfl
  placed := trivial
  last := .nil
  mss := by simp
  window := by simp
  start _ := ⟨rfl, rfl, rfl⟩
  next h := absurd rfl h
  eof h := nomatch h.choose_spec.1
  inFlight_lt := by
    rw [TcpFlow.inFlight, show (u.newFlow now dst g host).sndNxt =
      (u.newFlow now dst g host).sndUna from rfl, BitVec.sub_self]
    decide
  guestWindow_lt := by
    show (g.win.setWidth 32).toNat < 2 ^ 16
    rw [BitVec.toNat_setWidth]
    have := g.win.isLt
    omega
  mss_le := TcpIn.guestMss_le hmss

lemma Accounted.step (hu : u.Accounted) (he : u.Friendly e) : (u.step e).Accounted := by
  refine ⟨(step_steps hu.1 e).numbered, flows_step (P := fun f out => ∃ iss, f.Account iss out)
    ?_ ?_ ?_ hu.1 hu.2 he⟩
  · intro u e g now dst host hok hopens
    exact ⟨_, account_newFlow u now dst host (hok.mss g hopens)⟩
  · intro u e f g out now hok hg hf
    exact hf.imp fun iss hf => hf.handle (hok.acks f g hg) now
  · intro f f' out new hmove hf
    exact hf.imp fun iss hf => hf.move hmove

/-- The oldest unacknowledged number stays within what was in flight. -/
lemma Accounted.sndUna_le (hu : u.Accounted) (he : u.NoneStrays e) {f f' : TcpFlow}
    (hf : f ∈ u.flows) (hf' : f' ∈ (u.step e).flows) (hconn : f.conn = f'.conn) :
    (f'.sndUna - f.sndUna).toNat ≤ f.inFlight := by
  rcases (step_steps hu.1 e).follows f' hf' with ⟨f₀, hf₀, out, hturn, -⟩ |
    ⟨now, dst, g, host, -, rfl, -⟩
  · have hsame : f₀.conn = f'.conn := by
      cases hturn with
      | quiet h => exact h.conn_eq.symm
      | handled now g hg h => rw [h.conn_eq, f₀.handle_conn now g]
    obtain rfl : f₀ = f := List.inj_on_of_nodup_map hu.1.nodup hf₀ hf (hsame.trans hconn.symm)
    obtain ⟨iss, hacc⟩ := hu.2 f₀ hf
    cases hturn with
    | quiet h =>
      rw [h.sndUna_eq, BitVec.sub_self]
      exact Nat.zero_le _
    | handled now g hg h =>
      rw [h.sndUna_eq]
      exact (TcpFlow.advances_handle hacc.inFlight_lt (he f₀ g hg) now).sndUna_le
  · exact absurd hconn (hu.1.conn_lt f hf).ne

lemma Accounted.respects (hu : u.Accounted) (he : u.Friendly e) : u.Respects e := by
  intro f' hf'
  obtain ⟨iss, hacc⟩ := (hu.step he).2 f' hf'
  refine ⟨⟨iss, hacc.toSendsInOrder⟩, seqLt_eq_false hacc.inFlight_lt, fun f hf hconn => ?_⟩
  obtain ⟨_, hacc₀⟩ := hu.2 f hf
  exact seqLt_eq_false ((hu.sndUna_le he.acks hf hf' hconn).trans_lt hacc₀.inFlight_lt)

/-- The step that takes in a stray acknowledgment moves backwards. -/
lemma Respects.noneStrays (h : u.Respects e) : u.NoneStrays e := by
  intro f g hg hstray
  obtain ⟨now, later, k, hget, hstep⟩ := step_of_meets hg
  obtain ⟨huna, hstate⟩ := hstray.handle now
  rw [if_pos hstate] at hstep
  have hmem : f ∈ u.flows := (flows_of_get? hget).mem_iff.mpr List.mem_cons_self
  -- the flow is serviced in the same step, which leaves the number alone
  obtain ⟨f', hf', hconn, huna'⟩ : ∃ f' ∈ (u.step e).flows, f.conn = f'.conn ∧
      f'.sndUna = f.sndUna + 0x80000000 := by
    have hpumped := (f.handle now g).1.pump_pumped later
    refine ⟨((f.handle now g).1.pump later).1, ?_, ?_, hpumped.sndUna_eq.trans huna⟩
    · rw [hstep, (flows_pumpTcp _ later).mem_iff]
      refine List.mem_append_left _ (List.mem_map.mpr ⟨(k, (f.handle now g).1), ?_, rfl⟩)
      exact SortedMap.insert_perm.mem_iff.mpr List.mem_cons_self
    · rw [hpumped.conn_eq, f.handle_conn now g]
  have hback := (h f' hf').2.2 f hmem hconn
  rw [huna', ← Bool.not_eq_true, seqLt_iff, BitVec.add_comm, BitVec.add_sub_cancel] at hback
  exact hback (by decide)

/-- In a run without stray acknowledgments and in which no connection is opened with a maximum
segment size below 64, every step respects the guest.  And a run that does has no stray
acknowledgment. -/
theorem flows_respect_guest (cfg : Config) (connect : ℕ → U32 → U16 → Host) (events : List Event) :
    ((new cfg connect).Along Friendly events → (new cfg connect).Along Respects events) ∧
      ((new cfg connect).Along Respects events → (new cfg connect).Along NoneStrays events) := by
  constructor
  · intro h
    refine h.imp (I := Accounted) (fun hu he => hu.respects he) (fun hu he => hu.step he) ?_
    exact ⟨numbered_new cfg connect, fun f hf => nomatch hf⟩
  · intro h
    exact h.imp (I := fun _ => True) (fun _ he => he.noneStrays) (fun _ _ => trivial) trivial

section Sample

/-- A SYN of the guest that announces a maximum segment size. -/
def guestSyn (mss : U16) : List U8 :=
  [0x45, 0, 0, 44, 0, 0, 0, 0, 64, 6, 0, 0, 10, 0, 2, 15, 10, 0, 2, 2, 0x03, 0xe8, 0, 80,
    0, 0, 0, 0, 0, 0, 0, 0, 0x60, tcpSyn, 0x10, 0, 0, 0, 0, 0, 2, 4, mss.extractLsb' 8 8,
      mss.extractLsb' 0 8]

/-- A host that is up, has a hundred bytes to say, and then ends. -/
def talkingHost : Host where
  connected _ := .up
  accepts _ data := some data.length
  receives calls room :=
    if (received calls).length < 100 then
      .data (List.replicate (min room (100 - (received calls).length)) 7)
    else .eof
  accepts_le _ _ _ h := (Option.some.inj h).ge
  receives_le calls room bytes h := by
    split at h
    · cases h
      rw [List.length_replicate]
      exact Nat.min_le_left _ _
    · cases h

/-- The guest is not respected in two runs.  After a handshake comes an acknowledgment half the
sequence space ahead: the oldest unacknowledged number goes there, which is before where it was.
And a guest that takes 63 bytes is sent a hundred. -/
theorem guest_not_respected :
    (¬(new sampleConfig fun _ _ _ => sampleHost).Along Respects
      [.packet 0 0 (guestPacket tcpSyn 0 0 []), .pump 1,
        .packet 2 2 (guestPacket tcpAck 1 0x20000001 []),
        .packet 3 3 (guestPacket tcpAck 1 0xa0000001 [])]) ∧
    ¬(new sampleConfig fun _ _ _ => talkingHost).Along Respects
      [.packet 0 0 (guestSyn 63), .pump 1, .packet 2 2 (guestPacket tcpAck 1 0x20000001 [])] := by
  constructor
  · intro h
    have hlast := h.2.2.2.1
    rw [Respects] at hlast
    have hall := List.all_eq_true.mpr fun f' hf' => List.all_eq_true.mpr fun f hf =>
      decide_eq_true ((hlast f' hf').2.2 f hf)
    revert hall
    decide +kernel
  · intro h
    have hlast := h.2.2.1
    rw [Respects] at hlast
    have hall := List.all_eq_true.mpr fun f' hf' => List.all_eq_true.mpr fun o ho =>
      decide_eq_true ((hlast f' hf').1.choose_spec.mss o ho)
    revert hall
    decide +kernel

/-- The same guest takes 64 bytes at a time. -/
def friendlyEvents : List Event :=
  [.packet 0 0 (guestSyn 64), .pump 1, .packet 2 2 (guestPacket tcpAck 1 0x20000001 []),
    .packet 3 3 (guestPacket tcpAck 1 0x20000041 [])]

lemma friendly_packet {dst : U32} {g : TcpIn} (hseg : e.segment = some (dst, g))
    (hack : ((u.tcp.get? (keyOf dst g)).all fun f => f.sndUna ≠ f.sndNxt ∨
      g.ack ≠ f.sndNxt + 0x80000000) = true) (hmss : 64 ≤ g.announcedMss.toNat) : u.Friendly e := by
  refine ⟨?_, ?_⟩
  · rintro f g' ⟨dst', hseg', -, -, hget⟩ ⟨-, -, huna, hhalf⟩
    rw [hseg] at hseg'
    cases hseg'
    rw [hget, Option.all_some, decide_eq_true_eq] at hack
    rcases hack with hack | hack
    · exact hack huna
    · exact hack hhalf
  · rintro g' ⟨⟨dst', hseg'⟩, -⟩
    rw [hseg] at hseg'
    cases hseg'
    exact hmss

theorem flows_respect_guest_sample :
    (new sampleConfig fun _ _ _ => talkingHost).Along Respects friendlyEvents ∧
      ((new sampleConfig fun _ _ _ => talkingHost).run friendlyEvents).rx.map
          (fun o => (o.seq, o.data.length, o.isFin)) =
        [(0x20000000, 0, false), (0x20000001, 64, false), (0x20000041, 36, false),
          (0x20000065, 0, true)] := by
  refine ⟨(flows_respect_guest _ _ _).1 ⟨?_, ?_, ?_, ?_, trivial⟩, by decide +kernel⟩
  · exact friendly_packet rfl (by decide +kernel) (by decide +kernel)
  · exact ⟨fun f g h => (nomatch h.choose_spec.1), fun g h => (nomatch h.1.choose_spec)⟩
  · exact friendly_packet rfl (by decide +kernel) (by decide +kernel)
  · exact friendly_packet rfl (by decide +kernel) (by decide +kernel)

end Sample

end UserNet

end RiscvEmu
