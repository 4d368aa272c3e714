import Mathlib.Data.List.Chain
import RiscvEmu.Net.TcpWindow

/-!
# What the guest may send

Each segment for the guest carries the next sequence number expected from it and a window; the sum
is the right edge, up to which the guest may send.  The window is what is free of a bounded buffer,
so it shrinks as the buffer fills, but never by more than has been acknowledged: the right edge does
not move backwards, and what lies before it still fits when it comes.
-/

namespace RiscvEmu

namespace UserNet

/-- Where the guest may send up to, by this segment. -/
def TcpOut.edge (o : TcpOut) : U32 := o.ack + o.window.setWidth 32

namespace TcpFlow

/-- The part of a segment that the flow has not seen, if it starts at or before what is expected. -/
def fresh (f : TcpFlow) (g : TcpIn) : List U8 := g.data.drop (f.rcvNxt - g.seq).toNat

/-- The segment starts at or before what is expected and ends at or before the edge. -/
def InWindow (f : TcpFlow) (g : TcpIn) (edge : U32) : Prop :=
  seqLe g.seq f.rcvNxt ∧ seqLe (g.seq + BitVec.ofNat 32 g.data.length) edge

instance (f : TcpFlow) (g : TcpIn) (edge : U32) : Decidable (f.InWindow g edge) :=
  inferInstanceAs (Decidable (_ ∧ _))

/-- What has been advertised to the guest: the right edge has only moved forward, and the window of
the last segment is still free. -/
structure Advertised (f : TcpFlow) (out : List TcpOut) : Prop where
  room : f.toHost.length ≤ toHostLimit
  forward : out.IsChain fun a b => seqLe a.edge b.edge
  last : ∀ o ∈ out.getLast?, o.ack = f.rcvNxt ∧ o.window.toNat ≤ f.windowFor.toNat
  closed : f.state = .connecting → ∀ o ∈ out, o.window = 0
  opened : f.state ≠ .connecting → out ≠ []

variable {f f' : TcpFlow} {out new : List TcpOut} {g : TcpIn}

lemma windowFor_toNat (f : TcpFlow) :
    f.windowFor.toNat = min (toHostLimit - f.toHost.length) 65535 := by
  rw [windowFor, BitVec.toNat_ofNat]
  omega

/-! ## Moves -/

/-- Nothing is sent, and nothing comes into the buffer. -/
lemma Advertised.silent (hf : f.Advertised out) (hhost : f'.toHost.length ≤ f.toHost.length)
    (hrcv : f'.rcvNxt = f.rcvNxt) (hstate : f'.state = .connecting ↔ f.state = .connecting) :
    f'.Advertised out := by
  refine ⟨hhost.trans hf.room, hf.forward, fun o ho => ?_, fun h => hf.closed (hstate.mp h),
    fun h => hf.opened (mt hstate.mpr h)⟩
  obtain ⟨hack, hwin⟩ := hf.last o ho
  refine ⟨hack.trans hrcv.symm, hwin.trans ?_⟩
  rw [windowFor_toNat, windowFor_toNat]
  omega

/-- The edge moves forward by little. -/
lemma seqLe_of_forward {a w w' : U32} {k : ℕ} (hw : w.toNat ≤ k + w'.toNat)
    (hk : k + w'.toNat < 2 ^ 31) : seqLe (a + w) (a + BitVec.ofNat 32 k + w') := by
  rw [seqLe_iff]
  simp only [BitVec.toNat_sub, BitVec.toNat_add, BitVec.toNat_ofNat]
  have ha := a.isLt
  have hw₀ := w.isLt
  omega

/-- A segment is sent after `k` sequence numbers have been taken. -/
lemma Advertised.emit (hf : f.Advertised out) {o : TcpOut} {k : ℕ}
    (hroom : f'.toHost.length ≤ toHostLimit)
    (hrcv : f'.rcvNxt = f.rcvNxt + BitVec.ofNat 32 k) (hack : o.ack = f'.rcvNxt)
    (hwin : o.window.toNat ≤ f'.windowFor.toNat) (hstate : f'.state = .connecting → o.window = 0)
    (hsame : f'.state = .connecting → f.state = .connecting) (hk : k < 2 ^ 30)
    (hprev : ∀ a ∈ out.getLast?, a.window.toNat ≤ k + o.window.toNat) :
      f'.Advertised (out ++ [o]) := by
  refine ⟨hroom, ?_, ?_, ?_, by simp⟩
  · refine hf.forward.append (List.isChain_singleton o) fun a ha b hb => ?_
    obtain rfl : o = b := by simpa using hb
    rw [TcpOut.edge, TcpOut.edge, hack, hrcv, (hf.last a ha).1]
    have hsmall := o.window.isLt
    have hold := hprev a ha
    refine seqLe_of_forward ?_ ?_ <;> simp only [BitVec.toNat_setWidth] <;> omega
  · intro a ha
    obtain rfl : o = a := by simpa using ha
    exact ⟨hack, hwin⟩
  · intro h a ha
    rcases List.mem_append.mp ha with ha | ha
    · exact hf.closed (hsame h) a ha
    · rw [List.mem_singleton.mp ha]
      exact hstate h

/-- A segment that acknowledges what has been acknowledged. -/
lemma Advertised.reply (hf : f.Advertised out) {o : TcpOut} (hack : o.ack = f.rcvNxt)
    (hwin : o.window = f.windowFor) (hhost : f'.toHost = f.toHost) (hrcv : f'.rcvNxt = f.rcvNxt)
    (hstate : f'.state ≠ .connecting) : f'.Advertised (out ++ [o]) := by
  have hsame : f'.windowFor = f.windowFor := by rw [windowFor, windowFor, hhost]
  refine hf.emit (k := 0) (hhost ▸ hf.room) (hrcv.trans (BitVec.add_zero _).symm)
    (hack.trans hrcv.symm) (by rw [hwin, hsame]) (fun h => absurd h hstate)
    (fun h => absurd h hstate) (by decide) fun a ha => ?_
  rw [hwin, Nat.zero_add]
  exact (hf.last a ha).2

lemma Advertised.move (hf : f.Advertised out) (h : Move f new f') : f'.Advertised (out ++ new) := by
  cases h with
  | poll | shut | idle =>
    rw [List.append_nil]
    exact hf.silent le_rfl rfl .rfl
  | send =>
    rw [List.append_nil]
    exact hf.silent (by rw [List.length_drop]; omega) rfl .rfl
  | refuse hstate =>
    -- nothing has been let in before
    refine hf.emit (k := 0) hf.room (BitVec.add_zero _).symm rfl (Nat.zero_le _) (fun _ => rfl) id
      (by decide)
      fun a ha => ?_
    rw [hf.closed hstate a (List.mem_of_getLast? ha)]
    exact Nat.zero_le _
  | synAck => exact hf.reply rfl rfl rfl rfl (by simp)
  | note flags hstate => exact hf.reply rfl rfl rfl rfl (by simp [hstate])
  | eof h => exact hf.reply rfl rfl rfl rfl (by simp [h.1])
  | data now bytes h => exact hf.reply rfl rfl rfl rfl (by simp [h.1])

/-! ## Segments -/

/-- What is taken of a segment goes into the buffer, and the end takes one sequence number. -/
lemma accept_taken (f : TcpFlow) (g : TcpIn) (hroom : f.toHost.length ≤ toHostLimit) :
    ∃ n fin, (f.accept g).toHost.length = f.toHost.length + n ∧ fin ≤ 1 ∧
      (f.accept g).rcvNxt = f.rcvNxt + BitVec.ofNat 32 (n + fin) ∧
      (f.accept g).toHost.length ≤ toHostLimit := by
  have hdata : ∃ n, (f.acceptData g).toHost.length = f.toHost.length + n ∧
      (f.acceptData g).rcvNxt = f.rcvNxt + BitVec.ofNat 32 n ∧
      (f.acceptData g).toHost.length ≤ toHostLimit := by
    rw [acceptData]
    generalize (if seqLt g.seq f.rcvNxt then g.data.drop (f.rcvNxt - g.seq).toNat
      else g.data) = data
    split_ifs with h
    · exact ⟨data.length, List.length_append, rfl, by rw [List.length_append]; exact h.2.2⟩
    · exact ⟨0, rfl, (BitVec.add_zero _).symm, hroom⟩
  obtain ⟨n, hlen, hrcv, hle⟩ := hdata
  rw [accept, acceptFin]
  split_ifs
  · refine ⟨n, 1, hlen, le_rfl, ?_, hle⟩
    rw [hrcv, BitVec.ofNat_add, BitVec.add_assoc]
    rfl
  · exact ⟨n, 0, hlen, Nat.zero_le _, hrcv, hle⟩

/-- A segment that is not answered has changed nothing. -/
lemma accept_of_not_needAck (h : f.needAck g = false) : f.accept g = f := by
  rw [needAck, Bool.or_eq_false_iff, Bool.not_eq_false', List.isEmpty_iff] at h
  obtain ⟨hempty, hfin⟩ := h
  have hdata : f.acceptData g = f := by
    rw [acceptData, hempty]
    simp
  rw [accept, hdata] at hfin ⊢
  rw [acceptFin] at hfin ⊢
  split_ifs at hfin ⊢ with h
  · simp [h.2.1] at hfin
  · rfl

lemma SameInput.advertised (h : SameInput f f') (hf : f.Advertised out)
    (hstate : f'.state = .connecting ↔ f.state = .connecting) : f'.Advertised out :=
  hf.silent (by rw [h.toHost]) h.rcvNxt hstate

lemma acknowledge_connecting (f : TcpFlow) (now : ℕ) (g : TcpIn) :
    ((f.touch now).acknowledge g).state = .connecting ↔ f.state = .connecting := by
  rw [acknowledge, advance, establish]
  split_ifs <;> simp_all [touch]

/-- When a segment comes has nothing to do with its acknowledgment. -/
lemma acknowledge_touch (f : TcpFlow) (now : ℕ) (g : TcpIn) :
    (f.touch now).acknowledge g = (f.acknowledge g).touch now := by
  have hestablish : (f.touch now).establish g = (f.establish g).touch now := by
    rw [establish, establish, apply_ite (fun f : TcpFlow => f.touch now)]
    rfl
  rw [acknowledge, hestablish, acknowledge, advance, advance,
    apply_ite (fun f : TcpFlow => f.touch now)]
  rfl

lemma Advertised.handle (hf : f.Advertised out) (now : ℕ) (g : TcpIn) :
    (f.handle now g).1.Advertised (out ++ (f.handle now g).2) := by
  have hack := (sameInput_acknowledge f now g).advertised hf (acknowledge_connecting f now g)
  rw [TcpFlow.handle]
  generalize (f.touch now).acknowledge g = f₁ at hack
  dsimp only
  split_ifs with hstate hneed
  · -- answered: the window has shrunk by what is acknowledged at most
    obtain ⟨n, fin, hlen, hfin, hrcv, hle⟩ := accept_taken f₁ g hack.room
    have hstate' : (f₁.accept g).state ≠ .connecting := by
      rw [(advances_accept f₁ g).1, hstate]
      decide
    refine hack.emit hle hrcv rfl le_rfl (fun h => absurd h hstate') (fun h => absurd h hstate') ?_
      fun a ha => ?_
    · rw [toHostLimit] at hle
      omega
    · refine (hack.last a ha).2.trans ?_
      change _ ≤ n + fin + (f₁.accept g).windowFor.toNat
      rw [windowFor_toNat, windowFor_toNat, hlen]
      omega
  · rw [List.append_nil, accept_of_not_needAck (by simpa using hneed)]
    exact hack
  · rw [List.append_nil]
    exact hack

/-- What is new of a segment that ends before the edge is no more than the window. -/
lemma fresh_length {w : U16} (hlen : g.data.length < 2 ^ 16)
    (hend : seqLe (g.seq + BitVec.ofNat 32 g.data.length) (f.rcvNxt + w.setWidth 32)) :
    (f.fresh g).length ≤ w.toNat := by
  rw [fresh, List.length_drop]
  rw [seqLe_iff] at hend
  simp only [BitVec.toNat_sub, BitVec.toNat_add, BitVec.toNat_ofNat,
    BitVec.toNat_setWidth] at hend ⊢
  have hseq := g.seq.isLt
  have hrcv := f.rcvNxt.isLt
  have hw := w.isLt
  omega

/-- The part that is looked at is the one that is new. -/
lemma trimmed_eq_fresh (hstart : seqLe g.seq f.rcvNxt) :
    (if seqLt g.seq f.rcvNxt then g.data.drop (f.rcvNxt - g.seq).toNat else g.data) = f.fresh g ∧
      (seqLt g.seq f.rcvNxt ∨ g.seq = f.rcvNxt) := by
  by_cases hlt : seqLt g.seq f.rcvNxt
  · rw [if_pos hlt]
    exact ⟨rfl, .inl hlt⟩
  · have heq : g.seq = f.rcvNxt := by
      rw [seqLe_iff] at hstart
      rw [seqLt_iff] at hlt
      have hzero : (g.seq - f.rcvNxt).toNat = 0 := by omega
      have hseq := g.seq.isLt
      have hrcv := f.rcvNxt.isLt
      rw [BitVec.toNat_sub] at hzero
      exact BitVec.eq_of_toNat_eq (by omega)
    rw [if_neg hlt, fresh, heq, BitVec.sub_self]
    exact ⟨rfl, .inr rfl⟩

lemma toHost_accept (hg : seqLe g.seq f.rcvNxt)
    (hroom : f.toHost.length + (f.fresh g).length ≤ toHostLimit) :
    (f.accept g).toHost = f.toHost ++ f.fresh g := by
  obtain ⟨htrim, hstart⟩ := trimmed_eq_fresh hg
  have hfin (f : TcpFlow) : (f.acceptFin g).toHost = f.toHost := by
    rw [acceptFin]
    split_ifs <;> rfl
  rw [accept, hfin, acceptData, htrim]
  split_ifs with h
  · rfl
  · have hempty : f.fresh g = [] := by
      by_contra hne
      exact h ⟨hne, hstart, hroom⟩
    rw [hempty, List.append_nil]

/-- All that is new of a segment in the window is taken. -/
lemma Advertised.takes (hf : f.Advertised out) {o : TcpOut} (ho : o ∈ out.getLast?)
    (hg : f.InWindow g o.edge) (hlen : g.data.length < 2 ^ 16) (now : ℕ)
    (hstate : ((f.touch now).acknowledge g).state = .established) :
    (f.handle now g).1.toHost = f.toHost ++ f.fresh g := by
  obtain ⟨hack, hwin⟩ := hf.last o ho
  have hsame := sameInput_acknowledge f now g
  have hhandle : (f.handle now g).1 = ((f.touch now).acknowledge g).accept g := by
    rw [TcpFlow.handle, if_pos hstate]
  have hfresh : ((f.touch now).acknowledge g).fresh g = f.fresh g := by
    rw [fresh, fresh, hsame.rcvNxt]
  have hend := hg.2
  rw [TcpOut.edge, hack] at hend
  have hfits := fresh_length hlen hend
  have hroom := hf.room
  rw [windowFor_toNat] at hwin
  rw [hhandle, toHost_accept, hsame.toHost, hfresh]
  · rw [hsame.rcvNxt]
    exact hg.1
  · rw [hsame.toHost, hfresh]
    omega

end TcpFlow

/-! ## Runs -/

lemma advertised_run (cfg : Config) (connect : ℕ → U32 → U16 → Host) (events : List Event) :
    ∀ f ∈ ((new cfg connect).run events).flows,
      f.Advertised (((new cfg connect).run events).sent f.conn) := by
  have hall (u : UserNet) : u.Along (fun _ _ => True) events := by
    induction events generalizing u with
    | nil => trivial
    | cons e events ih => exact ⟨trivial, ih _⟩
  refine flows_run (P := TcpFlow.Advertised) ?_ ?_ ?_ (numbered_new cfg connect)
    (fun f hf => nomatch hf) (hall _)
  · intro u e g now dst host _ _
    exact ⟨Nat.zero_le _, .nil, nofun, fun _ => by simp, fun h => absurd rfl h⟩
  · intro u e f g out now _ _ hf
    exact hf.handle now g
  · intro f f' out new hmove hf
    exact hf.move hmove

/-- Whatever comes in whatever order: no flow buffers more than its limit, the right edge advertised
to the guest has only moved forward, and of a segment for an established flow that starts at or
before what is expected and ends at or before the edge advertised last, all that is new is taken. -/
theorem right_edge_kept (cfg : Config) (connect : ℕ → U32 → U16 → Host) (events : List Event)
    (f : TcpFlow) (hf : f ∈ ((new cfg connect).run events).flows) :
    f.toHost.length ≤ toHostLimit ∧
    (((new cfg connect).run events).sent f.conn).IsChain (fun a b => seqLe a.edge b.edge) ∧
    ∀ (e : Event) (g : TcpIn), ((new cfg connect).run events).Meets e f g → g.syn = false →
      (f.acknowledge g).state = .established →
      ∃ last, (((new cfg connect).run events).sent f.conn).getLast? = some last ∧
        (f.InWindow g last.edge → ∃ now later k,
          ((new cfg connect).run events).step e =
            (((new cfg connect).run events).put k (f.handle now g).1 (f.handle now g).2).pumpTcp
              later ∧
          (f.handle now g).1.toHost = f.toHost ++ f.fresh g) := by
  have hadv := advertised_run cfg connect events f hf
  refine ⟨hadv.room, hadv.forward, fun e g hg _ hstate => ?_⟩
  have hest (now : ℕ) : ((f.touch now).acknowledge g).state = .established := by
    rw [TcpFlow.acknowledge_touch]
    exact hstate
  have hopen : f.state ≠ .connecting := by
    rw [Ne, ← TcpFlow.acknowledge_connecting f 0 g, hest]
    decide
  obtain ⟨last, hlast⟩ :=
    Option.ne_none_iff_exists'.mp (mt List.getLast?_eq_none_iff.mp (hadv.opened hopen))
  obtain ⟨dst, hseg, -⟩ := id hg
  refine ⟨last, hlast, fun hin => ?_⟩
  obtain ⟨now, later, k, -, hstep⟩ := step_of_meets hg
  refine ⟨now, later, k, ?_, hadv.takes hlast hin (segment_data_length hseg) now (hest now)⟩
  rw [hstep, if_pos]
  rw [TcpFlow.handle, if_pos (hest now)]
  exact (TcpFlow.advances_accept _ g).1.trans (hest now)

section Sample

/-- After the handshake, with nothing in the buffer. -/
def greeted : List Event := [.packet 0 0 (guestPacket tcpSyn 0xffffffff 0 []), .pump 1,
  .packet 2 2 (guestPacket tcpAck 0 0x20000001 [])]

/-- Two bytes, the first of them the one expected. -/
def twoBytes : Event := .packet 3 3 (guestPacket tcpAck 0 0x20000001 [1, 2])

theorem right_edge_kept_sample :
    ∃ f ∈ ((new sampleConfig fun _ _ _ => sampleHost).run greeted).flows,
    ∃ g, ((new sampleConfig fun _ _ _ => sampleHost).run greeted).Meets twoBytes f g ∧
      ∃ now, (f.handle now g).1.toHost = f.toHost ++ f.fresh g ∧ f.fresh g = [1, 2] := by
  obtain ⟨⟨dst, g⟩, hseg⟩ :=
    Option.isSome_iff_exists.mp (show twoBytes.segment.isSome by decide +kernel)
  have hsome : (twoBytes.segment.all fun x => !x.2.syn && !x.2.rst &&
      (((new sampleConfig fun _ _ _ => sampleHost).run greeted).tcp.get? (keyOf x.1 x.2)).any
        fun f =>
        (f.acknowledge x.2).state = .established ∧ f.fresh x.2 = [1, 2] ∧
        (((new sampleConfig fun _ _ _ => sampleHost).run greeted).sent f.conn).getLast?.all fun o =>
          f.InWindow x.2 o.edge) = true := by decide +kernel
  rw [hseg, Option.all_some, Bool.and_eq_true, Bool.and_eq_true, Option.any_eq_true] at hsome
  obtain ⟨⟨hsyn, hrst⟩, f, hget, hf⟩ := hsome
  rw [decide_eq_true_eq] at hf
  obtain ⟨hstate, hfresh, hin⟩ := hf
  have hsyn : g.syn = false := by simpa using hsyn
  have hmeets : ((new sampleConfig fun _ _ _ => sampleHost).run greeted).Meets twoBytes f g :=
    ⟨dst, hseg, by simp [hsyn], by simpa using hrst, hget⟩
  have hmem : f ∈ ((new sampleConfig fun _ _ _ => sampleHost).run greeted).flows :=
    (flows_of_get? hget).mem_iff.mpr List.mem_cons_self
  obtain ⟨-, -, htakes⟩ := right_edge_kept _ _ _ f hmem
  obtain ⟨last, hlast, htaken⟩ := htakes twoBytes g hmeets hsyn hstate
  rw [hlast, Option.all_some, decide_eq_true_eq] at hin
  obtain ⟨now, later, k, -, hhost⟩ := htaken hin
  exact ⟨f, hmem, g, hmeets, now, hhost, hfresh⟩

end Sample

end UserNet

end RiscvEmu
