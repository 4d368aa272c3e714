import RiscvEmu.Net.UserNet

/-!
# The life of a flow

What the stack does to one flow, said once: every turn of `pump` is a chain of the moves below, and
a step of the stack takes each flow through at most one segment and then such a chain.  What holds
of a flow through its life follows from these.
-/

open scoped List

namespace RiscvEmu

namespace UserNet

namespace TcpFlow

/-- The most that can be received from the host at once. -/
def room (f : TcpFlow) : ℕ :=
  min (min (f.guestWindow - (f.sndNxt - f.sndUna)).toNat f.mss.toNat) mssOurs

/-- Whether host data may be sent on to the guest. -/
def MayReceive (f : TcpFlow) : Prop :=
  f.state = .established ∧ f.hostEof = false ∧ ¬f.guestWindow ≤ f.sndNxt - f.sndUna

/-- One move of a flow when it is serviced, with what is queued for the guest. -/
inductive Move : TcpFlow → List TcpOut → TcpFlow → Prop
  | poll (f : TcpFlow) : Move f [] { f with sock := f.sock.pollConnect.2 }
  | refuse (f : TcpFlow) (h : f.state = .connecting) : Move f
      [⟨f.dstIp, f.dstPort, f.guestPort, tcpRst ||| tcpAck, 0, f.rcvNxt, 0, [], false, some f⟩] f
  | synAck (f : TcpFlow) (now : ℕ) (h : f.state = .connecting) : Move f
      [f.segment (tcpSyn ||| tcpAck) f.sndNxt f.rcvNxt [] true]
      { f with sndNxt := f.sndNxt + 1, state := .synAckSent, last := now }
  | send (f : TcpFlow) : Move f []
      { f with
        sock := (f.sock.send f.toHost).2
        toHost := f.toHost.drop ((f.sock.send f.toHost).1.getD 0) }
  | note (f : TcpFlow) (flags : U8) (hstate : f.state = .established)
      (h : flags = tcpAck ∨ flags = tcpRst ||| tcpAck) : Move f [f.reply flags []] f
  | shut (f : TcpFlow) (hfin : f.guestFin = true) (hempty : f.toHost = []) :
      Move f [] { f with sock := f.sock.shutdownWrite, hostShut := true }
  | idle (f : TcpFlow) (h : f.MayReceive) (hnone : ∀ bytes, (f.sock.recv f.room).1 ≠ .data bytes) :
      Move f [] { f with sock := (f.sock.recv f.room).2 }
  | eof (f : TcpFlow) (h : f.MayReceive) (heof : (f.sock.recv f.room).1 = .eof) : Move f
      [TcpFlow.reply { f with sock := (f.sock.recv f.room).2, hostEof := true }
        (tcpFin ||| tcpAck) []]
      { f with
        sock := (f.sock.recv f.room).2
        hostEof := true
        sndNxt := f.sndNxt + 1
        finSent := true }
  | data (f : TcpFlow) (now : ℕ) (bytes : List U8) (h : f.MayReceive)
      (hdata : (f.sock.recv f.room).1 = .data bytes) : Move f
      [TcpFlow.reply { f with sock := (f.sock.recv f.room).2 } (tcpPsh ||| tcpAck) bytes]
      { f with
        sock := (f.sock.recv f.room).2
        sndNxt := f.sndNxt + BitVec.ofNat 32 bytes.length
        last := now }

/-- A chain of moves. -/
inductive Pumped : TcpFlow → List TcpOut → TcpFlow → Prop
  | refl (f : TcpFlow) : Pumped f [] f
  | snoc {f f₁ f₂ : TcpFlow} {out new : List TcpOut} :
      Pumped f out f₁ → Move f₁ new f₂ → Pumped f (out ++ new) f₂

variable {f f₁ f₂ : TcpFlow} {out out' new : List TcpOut}

lemma Move.pumped (h : Move f out f₁) : Pumped f out f₁ := .snoc (.refl f) h

lemma Pumped.trans (h : Pumped f out f₁) (h' : Pumped f₁ out' f₂) : Pumped f (out ++ out') f₂ := by
  induction h' with
  | refl => rwa [List.append_nil]
  | snoc _ hmove ih =>
    rw [← List.append_assoc]
    exact .snoc ih hmove

lemma Pumped.keeps {P : TcpFlow → List TcpOut → Prop}
    (hmove : ∀ {f f' out new}, Move f new f' → P f out → P f' (out ++ new)) (h : Pumped f new f₁)
    (hf : P f out) : P f₁ (out ++ new) := by
  induction h with
  | refl => rwa [List.append_nil]
  | snoc _ hm ih =>
    rw [← List.append_assoc]
    exact hmove hm ih

/-! ## Servicing a flow is a chain of moves -/

lemma sendLoop_pumped (turns : ℕ) (f : TcpFlow) (out : List TcpOut) (hf : f.state = .established) :
    (sendLoop turns f out).1.state = f.state ∧
      ∃ new, (sendLoop turns f out).2.1 = out ++ new ∧ Pumped f new (sendLoop turns f out).1 := by
  induction turns generalizing f out with
  | zero => exact ⟨rfl, [], (List.append_nil out).symm, .refl f⟩
  | succ turns ih =>
    rw [sendLoop]
    split_ifs with hempty
    · exact ⟨rfl, [], (List.append_nil out).symm, .refl f⟩
    have hmove := Move.send f
    rcases hsend : f.sock.send f.toHost with ⟨_ | _ | n, sock⟩
    · rw [hsend] at hmove
      exact ⟨rfl, [], (List.append_nil out).symm, hmove.pumped⟩
    · rw [hsend] at hmove
      exact ⟨rfl, [], (List.append_nil out).symm, hmove.pumped⟩
    · -- room opened up: an acknowledgment, and on
      rw [hsend] at hmove
      dsimp only
      obtain ⟨hstate, new, hnew, hpumped⟩ := ih
        { f with sock := sock, toHost := f.toHost.drop (n + 1) }
        (out ++ [TcpFlow.reply { f with sock := sock, toHost := f.toHost.drop (n + 1) } tcpAck []])
          hf
      refine ⟨hstate, _, hnew.trans (List.append_assoc _ _ _), ?_⟩
      have hnote := Move.note { f with sock := sock, toHost := f.toHost.drop (n + 1) } tcpAck
        hf (.inl rfl)
      exact (hmove.pumped.trans hnote.pumped).trans hpumped

lemma recvLoop_pumped (now turns : ℕ) (f : TcpFlow) (out : List TcpOut)
    (hf : f.state = .established) :
    ∃ new, (recvLoop now turns f out).2.1 = out ++ new ∧
      Pumped f new (recvLoop now turns f out).1 := by
  induction turns generalizing f out with
  | zero => exact ⟨[], (List.append_nil out).symm, .refl f⟩
  | succ turns ih =>
    rw [recvLoop]
    dsimp only
    split_ifs with heof hwindow
    · exact ⟨[], (List.append_nil out).symm, .refl f⟩
    · exact ⟨[], (List.append_nil out).symm, .refl f⟩
    have hmay : f.MayReceive := ⟨hf, by simpa using heof, hwindow⟩
    have hidle := Move.idle f hmay
    have heof := Move.eof f hmay
    have hdata := fun bytes => Move.data f now bytes hmay
    rw [room] at hidle heof hdata
    generalize f.sock.recv _ = answer at hidle heof hdata ⊢
    obtain ⟨bytes | _ | _ | _, sock⟩ := answer
    · obtain ⟨new, hnew, hpumped⟩ := ih
        { f with sock := sock, sndNxt := f.sndNxt + BitVec.ofNat 32 bytes.length, last := now }
        (out ++ [TcpFlow.reply { f with sock := sock } (tcpPsh ||| tcpAck) bytes]) hf
      exact ⟨_, hnew.trans (List.append_assoc _ _ _), (hdata bytes rfl).pumped.trans hpumped⟩
    · exact ⟨[], (List.append_nil out).symm, (hidle fun _ => nofun).pumped⟩
    · exact ⟨_, rfl, (heof rfl).pumped⟩
    · have hnote := Move.note { f with sock := sock } _ hf (.inr rfl)
      exact ⟨_, rfl, (hidle fun _ => nofun).pumped.trans hnote.pumped⟩

lemma shut_pumped (f : TcpFlow) : Pumped f [] f.shut ∧ f.shut.state = f.state := by
  rw [TcpFlow.shut]
  split_ifs with h
  · exact ⟨(Move.shut f h.1 h.2.1).pumped, rfl⟩
  · exact ⟨.refl f, rfl⟩

theorem pump_pumped (f : TcpFlow) (now : ℕ) : Pumped f (f.pump now).2.1 (f.pump now).1 := by
  rw [pump]
  split
  next hstate =>
    have hpoll := Move.poll f
    generalize f.sock.pollConnect = answer at hpoll ⊢
    obtain ⟨_ | _ | _, sock⟩ := answer
    · exact hpoll.pumped
    · exact hpoll.pumped.trans (Move.synAck { f with sock := sock } now hstate).pumped
    · exact .snoc hpoll.pumped (Move.refuse { f with sock := sock } hstate)
  next => exact .refl f
  next hstate =>
    obtain ⟨hsame, new, hnew, hsend⟩ := sendLoop_pumped f.toHost.length f [] hstate
    rw [List.nil_append] at hnew
    rcases hloop : sendLoop f.toHost.length f [] with ⟨f₁, out₁, failed⟩
    rw [hloop] at hsame hnew hsend
    obtain rfl : out₁ = new := hnew
    rcases failed
    · obtain ⟨hshut, hsame'⟩ := shut_pumped f₁
      obtain ⟨new, hnew, hrecv⟩ := recvLoop_pumped now 32 f₁.shut out₁
        (hsame'.trans (hsame.trans hstate))
      dsimp only
      rw [hnew]
      simpa using (hsend.trans hshut).trans hrecv
    · exact hsend.trans (Move.note f₁ _ (hsame.trans hstate) (.inr rfl)).pumped

/-! ## What no move changes -/

lemma Move.conn_eq (h : Move f out f₁) : f₁.conn = f.conn := by
  cases h <;> rfl

lemma Pumped.conn_eq (h : Pumped f out f₁) : f₁.conn = f.conn := by
  induction h with
  | refl => rfl
  | snoc _ hmove ih => rw [hmove.conn_eq, ih]

end TcpFlow

/-- The connection a queued segment belongs to. -/
def TcpOut.owner (o : TcpOut) : Option ℕ := o.flow.map TcpFlow.conn

namespace TcpFlow

variable {f f₁ : TcpFlow} {out : List TcpOut}

lemma Move.owner (h : Move f out f₁) : ∀ o ∈ out, o.owner = some f.conn := by
  cases h <;> simp [TcpOut.owner, reply, segment]

lemma Pumped.owner (h : Pumped f out f₁) : ∀ o ∈ out, o.owner = some f.conn := by
  induction h with
  | refl => simp
  | snoc hp hmove ih =>
    intro o ho
    rcases List.mem_append.mp ho with ho | ho
    · exact ih o ho
    · rw [hmove.owner o ho, hp.conn_eq]

lemma acknowledge_conn (f : TcpFlow) (g : TcpIn) : (f.acknowledge g).conn = f.conn := by
  rw [acknowledge, advance, establish]
  split_ifs <;> rfl

lemma accept_conn (f : TcpFlow) (g : TcpIn) : (f.accept g).conn = f.conn := by
  rw [accept, acceptFin, acceptData]
  split_ifs <;> rfl

/-- What a segment does: its acknowledgment is seen to, and on an established flow its data is taken
and answered. -/
lemma handle_cases (f : TcpFlow) (now : ℕ) (g : TcpIn) :
    let f₁ := (f.touch now).acknowledge g
    f₁.state ≠ .established ∧ f.handle now g = (f₁, []) ∨
      f₁.state = .established ∧ (f.handle now g).1 = f₁.accept g ∧
        ((f.handle now g).2 = [] ∨ (f.handle now g).2 = [(f₁.accept g).reply tcpAck []]) := by
  intro f₁
  rw [handle]
  by_cases hstate : f₁.state = .established
  · refine .inr ⟨hstate, ?_⟩
    rw [if_pos hstate]
    refine ⟨rfl, ?_⟩
    by_cases hneed : f₁.needAck g
    · exact .inr (if_pos hneed)
    · exact .inl (if_neg hneed)
  · exact .inl ⟨hstate, if_neg hstate⟩

lemma handle_conn (f : TcpFlow) (now : ℕ) (g : TcpIn) : (f.handle now g).1.conn = f.conn := by
  have hack : ((f.touch now).acknowledge g).conn = f.conn := acknowledge_conn _ g
  rcases f.handle_cases now g with ⟨-, h⟩ | ⟨-, h, -⟩
  · rw [h, hack]
  · rw [h, accept_conn, hack]

lemma handle_owner (f : TcpFlow) (now : ℕ) (g : TcpIn) :
    ∀ o ∈ (f.handle now g).2, o.owner = some f.conn := by
  have hack : ((f.touch now).acknowledge g).conn = f.conn := acknowledge_conn _ g
  rcases f.handle_cases now g with ⟨-, h⟩ | ⟨-, -, h | h⟩ <;> rw [h]
  · simp
  · simp
  · simp [TcpOut.owner, reply, segment, accept_conn, hack]

/-- A segment for the flow, if one comes, and then the flow is serviced. -/
inductive Turn (comes : TcpIn → Prop) : TcpFlow → List TcpOut → TcpFlow → Prop
  | quiet {f f' : TcpFlow} {out : List TcpOut} (h : Pumped f out f') : Turn comes f out f'
  | handled {f f' : TcpFlow} {out : List TcpOut} (now : ℕ) (g : TcpIn) (hg : comes g)
      (h : Pumped (f.handle now g).1 out f') : Turn comes f ((f.handle now g).2 ++ out) f'

lemma Turn.keeps {P : TcpFlow → List TcpOut → Prop} {comes : TcpIn → Prop} {f f' : TcpFlow}
    {out new : List TcpOut}
    (hhandle : ∀ {g} now, comes g → P f out → P (f.handle now g).1 (out ++ (f.handle now g).2))
    (hmove : ∀ {f f' out new}, Move f new f' → P f out → P f' (out ++ new))
    (h : Turn comes f new f') (hf : P f out) : P f' (out ++ new) := by
  cases h with
  | quiet h => exact h.keeps hmove hf
  | handled now g hg h =>
    rw [← List.append_assoc]
    exact h.keeps hmove (hhandle now hg hf)

end TcpFlow

/-! ## The flows of the stack -/

/-- All flows there have been. -/
def flows (u : UserNet) : List TcpFlow := u.tcp.entries.map Prod.snd ++ u.closed

/-- What has been queued for the guest on a connection. -/
def sent (u : UserNet) (n : ℕ) : List TcpOut := u.rx.filter fun o => o.owner = some n

/-- Flows have connections of their own, and numbers are not used before they are given out. -/
structure Numbered (u : UserNet) : Prop where
  nodup : (u.flows.map TcpFlow.conn).Nodup
  conn_lt : ∀ f ∈ u.flows, f.conn < u.connects
  owner_lt : ∀ o ∈ u.rx, ∀ n, o.owner = some n → n < u.connects

section Pump

variable {l : List TcpFlow} {turn : TcpFlow → TcpFlow × List TcpOut × Bool}

lemma filter_flatMap_of_notMem {n : ℕ} (howner : ∀ f, ∀ o ∈ (turn f).2.1, o.owner = some f.conn)
    (hn : n ∉ l.map TcpFlow.conn) :
    ((l.map turn).flatMap fun t => t.2.1).filter (fun o => o.owner = some n) = [] := by
  rw [List.filter_eq_nil_iff]
  intro o ho
  obtain ⟨t, ht, ho⟩ := List.mem_flatMap.mp ho
  obtain ⟨f, hf, rfl⟩ := List.mem_map.mp ht
  have hne : f.conn ≠ n := fun h => hn (h ▸ List.mem_map_of_mem hf)
  simpa [howner f o ho] using hne

lemma filter_flatMap_of_mem {f : TcpFlow} (howner : ∀ f, ∀ o ∈ (turn f).2.1, o.owner = some f.conn)
    (hl : (l.map TcpFlow.conn).Nodup) (hf : f ∈ l) :
    ((l.map turn).flatMap fun t => t.2.1).filter (fun o => o.owner = some f.conn) =
    (turn f).2.1 := by
  obtain ⟨before, after, rfl⟩ := List.append_of_mem hf
  rw [List.map_append, List.map_cons] at hl
  have hnot : f.conn ∉ before.map TcpFlow.conn ∧ f.conn ∉ after.map TcpFlow.conn := by
    rw [List.nodup_append, List.nodup_cons] at hl
    exact ⟨fun h => hl.2.2 _ h _ List.mem_cons_self rfl, hl.2.1.1⟩
  have hself : ((turn f).2.1).filter (fun o => o.owner = some f.conn) = (turn f).2.1 :=
    List.filter_eq_self.mpr fun o ho => by simp [howner f o ho]
  rw [List.map_append, List.map_cons, List.flatMap_append, List.flatMap_cons, List.filter_append,
    List.filter_append, filter_flatMap_of_notMem howner hnot.1,
      filter_flatMap_of_notMem howner hnot.2,
    hself, List.nil_append, List.append_nil]

end Pump

variable {u : UserNet} {now : ℕ}

lemma pump_owner (now : ℕ) (f : TcpFlow) : ∀ o ∈ (f.pump now).2.1, o.owner = some f.conn :=
  (f.pump_pumped now).owner

lemma flows_pumpTcp (u : UserNet) (now : ℕ) :
    (u.pumpTcp now).flows ~ (u.tcp.entries.map fun e => (e.2.pump now).1) ++ u.closed := by
  rw [flows, pumpTcp]
  dsimp only
  refine (List.perm_append_comm_assoc _ _ _).trans
    ((List.Perm.append_left _ ?_).trans List.perm_append_comm)
  rw [SortedMap.filterMap]
  dsimp only
  induction u.tcp.entries with
  | nil => rfl
  | cons e l ih =>
    rcases hgone : (e.2.pump now).2.2
    · simpa [hgone] using ih
    · simpa [hgone] using (List.perm_middle.trans (ih.cons _))

lemma mem_flows_pumpTcp {f' : TcpFlow} (h : f' ∈ (u.pumpTcp now).flows) :
    f' ∈ u.closed ∨ ∃ f ∈ u.tcp.entries.map Prod.snd, f' = (f.pump now).1 := by
  rw [(flows_pumpTcp u now).mem_iff, List.mem_append] at h
  rcases h with h | h
  · obtain ⟨e, he, rfl⟩ := List.mem_map.mp h
    exact .inr ⟨e.2, List.mem_map_of_mem he, rfl⟩
  · exact .inl h

lemma conns_pumpTcp (u : UserNet) (now : ℕ) :
    (u.pumpTcp now).flows.map TcpFlow.conn ~ u.flows.map TcpFlow.conn := by
  refine ((flows_pumpTcp u now).map _).trans (List.Perm.of_eq ?_)
  rw [flows, List.map_append, List.map_append, List.map_map, List.map_map]
  congr 1
  exact List.map_congr_left fun e _ => (e.2.pump_pumped now).conn_eq

lemma Numbered.pumpTcp (hu : u.Numbered) (now : ℕ) : (u.pumpTcp now).Numbered where
  nodup := (conns_pumpTcp u now).nodup_iff.mpr hu.nodup
  conn_lt f hf := by
    obtain ⟨f₀, hf₀, hconn⟩ :=
      List.mem_map.mp ((conns_pumpTcp u now).mem_iff.mp (List.mem_map_of_mem hf))
    exact hconn ▸ hu.conn_lt f₀ hf₀
  owner_lt o ho n hn := by
    rcases List.mem_append.mp ho with ho | ho
    · exact hu.owner_lt o ho n hn
    · obtain ⟨t, ht, ho⟩ := List.mem_flatMap.mp ho
      obtain ⟨e, he, rfl⟩ := List.mem_map.mp ht
      rw [pump_owner now e.2 o ho] at hn
      cases hn
      exact hu.conn_lt e.2 (List.mem_append_left _ (List.mem_map_of_mem he))

/-- Servicing the sockets takes every flow through a chain of moves. -/
theorem pumpTcp_flow (hu : u.Numbered) {f' : TcpFlow} (h : f' ∈ (u.pumpTcp now).flows) :
    ∃ f ∈ u.flows, ∃ out, f.Pumped out f' ∧ (u.pumpTcp now).sent f'.conn =
      u.sent f'.conn ++ out := by
  have hsent (n : ℕ) : (u.pumpTcp now).sent n = u.sent n ++
      (((u.tcp.entries.map Prod.snd).map fun f => f.pump now).flatMap fun t => t.2.1).filter
        fun o => o.owner = some n := by
    rw [sent, pumpTcp, sent, List.filter_append, List.map_map]
    rfl
  have hnodup := hu.nodup
  rw [flows, List.map_append, List.nodup_append] at hnodup
  rcases mem_flows_pumpTcp h with hclosed | ⟨f, hf, rfl⟩
  · refine ⟨f', List.mem_append_right _ hclosed, [], .refl f', ?_⟩
    rw [hsent, filter_flatMap_of_notMem (pump_owner now)]
    exact fun hmem => hnodup.2.2 _ hmem _ (List.mem_map_of_mem hclosed) rfl
  · refine ⟨f, List.mem_append_left _ hf, _, f.pump_pumped now, ?_⟩
    rw [hsent, (f.pump_pumped now).conn_eq, filter_flatMap_of_mem (pump_owner now) hnodup.1 hf]

/-! ### Segments -/

variable {k : ℕ} {f f₁ f' : TcpFlow} {out : List TcpOut}

/-- The flow at a key is changed, with something queued for it. -/
def put (u : UserNet) (k : ℕ) (f : TcpFlow) (out : List TcpOut) : UserNet :=
  { u with tcp := u.tcp.insert k f, rx := u.rx ++ out }

lemma flows_of_get? (h : u.tcp.get? k = some f) :
    u.flows ~ f :: ((u.tcp.erase k).entries.map Prod.snd ++ u.closed) :=
  ((SortedMap.perm_erase h).map Prod.snd).append_right u.closed

lemma flows_put (u : UserNet) (k : ℕ) (f : TcpFlow) (out : List TcpOut) :
    (u.put k f out).flows ~ f :: ((u.tcp.erase k).entries.map Prod.snd ++ u.closed) :=
  (SortedMap.insert_perm.map Prod.snd).append_right u.closed

lemma Numbered.put (hu : u.Numbered) (h : u.tcp.get? k = some f) (hconn : f₁.conn = f.conn)
    (howner : ∀ o ∈ out, o.owner = some f.conn) : (u.put k f₁ out).Numbered := by
  have hperm : (u.put k f₁ out).flows.map TcpFlow.conn ~ u.flows.map TcpFlow.conn := by
    refine ((flows_put u k f₁ out).map _).trans (.trans ?_ ((flows_of_get? h).map _).symm)
    rw [List.map_cons, List.map_cons, hconn]
  have hf : f.conn < u.connects := hu.conn_lt f ((flows_of_get? h).mem_iff.mpr List.mem_cons_self)
  refine ⟨hperm.nodup_iff.mpr hu.nodup, fun f' hf' => ?_, fun o ho n hn => ?_⟩
  · obtain ⟨f₀, hf₀, heq⟩ := List.mem_map.mp (hperm.mem_iff.mp (List.mem_map_of_mem hf'))
    exact heq ▸ hu.conn_lt f₀ hf₀
  · rcases List.mem_append.mp ho with ho | ho
    · exact hu.owner_lt o ho n hn
    · rw [howner o ho] at hn
      cases hn
      exact hf

/-- Only the flow at the key changes, and only for it something is queued. -/
lemma put_flow (hu : u.Numbered) (h : u.tcp.get? k = some f) (hconn : f₁.conn = f.conn)
    (howner : ∀ o ∈ out, o.owner = some f.conn) (hf' : f' ∈ (u.put k f₁ out).flows) :
    f' = f₁ ∧ (u.put k f₁ out).sent f'.conn = u.sent f'.conn ++ out ∨
      f' ∈ u.flows ∧ (u.put k f₁ out).sent f'.conn = u.sent f'.conn := by
  have hsent (n : ℕ) : (u.put k f₁ out).sent n = u.sent n ++ out.filter fun o => o.owner = some n :=
    List.filter_append _ _
  rw [(flows_put u k f₁ out).mem_iff] at hf'
  rcases List.mem_cons.mp hf' with rfl | hf'
  · refine .inl ⟨rfl, ?_⟩
    rw [hsent, List.filter_eq_self.mpr fun o ho => by simp [howner o ho, hconn]]
  · refine .inr ⟨(flows_of_get? h).mem_iff.mpr (List.mem_cons_of_mem _ hf'), ?_⟩
    have hne : f.conn ≠ f'.conn := by
      have hnodup := ((flows_of_get? h).map TcpFlow.conn).nodup_iff.mp hu.nodup
      rw [List.map_cons, List.nodup_cons] at hnodup
      exact fun heq => hnodup.1 (heq ▸ List.mem_map_of_mem hf')
    rw [hsent, List.filter_eq_nil_iff.mpr fun o ho => by simp [howner o ho, hne], List.append_nil]

lemma flows_remove (u : UserNet) (k : ℕ) : (u.remove k).flows ~ u.flows := by
  rw [flows, flows, remove]
  dsimp only
  rcases hget : u.tcp.get? k with _ | f
  · rw [SortedMap.erase_of_get?_none hget, Option.toList_none, List.append_nil]
  · have hperm := ((SortedMap.perm_erase hget).map Prod.snd).append_right u.closed
    refine .trans ?_ hperm.symm
    rw [Option.toList_some, ← List.append_assoc]
    exact List.perm_append_comm.trans (List.Perm.refl _)

/-! ## One step -/

/-- The segment an event brings, and where it goes. -/
def Event.segment : Event → Option (U32 × TcpIn)
  | .packet _ _ p =>
    match ipv4Body p with
    | none => none
    | some (proto, dst, body) =>
      if proto = protoTcp then (TcpIn.parse body).map fun g => (dst, g) else none
  | .pump _ => none

/-- The event is a segment for the flow, other than one that ends it. -/
def Meets (u : UserNet) (e : Event) (f : TcpFlow) (g : TcpIn) : Prop :=
  ∃ dst, e.segment = some (dst, g) ∧ ¬(g.syn ∧ !g.hasAck) ∧ g.rst = false ∧
    u.tcp.get? (keyOf dst g) = some f

/-- The event is a SYN, and a connection is opened for it. -/
def Opens (u : UserNet) (e : Event) (g : TcpIn) (u' : UserNet) : Prop :=
  (∃ dst, e.segment = some (dst, g)) ∧ u'.connects = u.connects + 1

/-- Where a flow comes from: it had its turn, or it is new. -/
def Follows (u : UserNet) (e : Event) (u' : UserNet) (f' : TcpFlow) : Prop :=
  (∃ f ∈ u.flows, ∃ out, f.Turn (u.Meets e f) out f' ∧ u'.sent f'.conn = u.sent f'.conn ++ out) ∨
    ∃ now dst g host, u.Opens e g u' ∧ f' = u.newFlow now dst g host ∧ u'.sent f'.conn = []

/-- A step keeps the numbering, and its flows follow from those before. -/
structure Steps (u : UserNet) (e : Event) (u' : UserNet) : Prop where
  numbered : u'.Numbered
  follows : ∀ f' ∈ u'.flows, u.Follows e u' f'

variable {e : Event} {u' : UserNet}

lemma Steps.of_same (hu : u.Numbered) (hflows : u'.flows ~ u.flows)
    (hconnects : u'.connects = u.connects)
    (hrx : ∃ new, u'.rx = u.rx ++ new ∧ ∀ o ∈ new, o.owner = none) : Steps u e u' := by
  obtain ⟨new, hrx, hnone⟩ := hrx
  refine ⟨⟨(hflows.map _).nodup_iff.mpr hu.nodup, ?_, ?_⟩, fun f' hf' => ?_⟩
  · intro f hf
    rw [hconnects]
    exact hu.conn_lt f (hflows.mem_iff.mp hf)
  · intro o ho n hn
    rw [hrx] at ho
    rcases List.mem_append.mp ho with ho | ho
    · rw [hconnects]
      exact hu.owner_lt o ho n hn
    · rw [hnone o ho] at hn
      cases hn
  · refine .inl ⟨f', hflows.mem_iff.mp hf', [], .quiet (.refl f'), ?_⟩
    have hnew : new.filter (fun o => o.owner = some f'.conn) = [] :=
      List.filter_eq_nil_iff.mpr fun o ho => by simp [hnone o ho]
    rw [sent, hrx, List.filter_append, hnew]
    rfl

variable {dst : U32} {g : TcpIn}

lemma Steps.of_new {host : Host} (hu : u.Numbered) (hg : e.segment = some (dst, g))
    (hflows : u'.flows ~ u.newFlow now dst g host :: u.flows)
    (hconnects : u'.connects = u.connects + 1) (hrx : u'.rx = u.rx) : Steps u e u' := by
  have hfresh : u.connects ∉ u.flows.map TcpFlow.conn := by
    intro hmem
    obtain ⟨f, hf, heq⟩ := List.mem_map.mp hmem
    exact (hu.conn_lt f hf).ne heq
  refine ⟨⟨?_, fun f hf => ?_, fun o ho n hn => ?_⟩, fun f' hf' => ?_⟩
  · rw [(hflows.map TcpFlow.conn).nodup_iff, List.map_cons, List.nodup_cons]
    exact ⟨hfresh, hu.nodup⟩
  · rw [hconnects]
    rcases List.mem_cons.mp (hflows.mem_iff.mp hf) with rfl | hf
    · exact Nat.lt_succ_self u.connects
    · exact Nat.lt_succ_of_lt (hu.conn_lt f hf)
  · rw [hconnects]
    exact Nat.lt_succ_of_lt (hu.owner_lt o (hrx ▸ ho) n hn)
  · have hsent (n : ℕ) : u'.sent n = u.sent n := by rw [sent, sent, hrx]
    rcases List.mem_cons.mp (hflows.mem_iff.mp hf') with rfl | hf
    · refine .inr ⟨now, dst, g, host, ⟨⟨dst, hg⟩, hconnects⟩, rfl, ?_⟩
      rw [hsent, sent, List.filter_eq_nil_iff]
      intro o ho
      have hne : o.owner ≠ some (u.newFlow now dst g host).conn :=
        fun h => (hu.owner_lt o ho _ h).false
      simpa using hne
    · exact .inl ⟨f', hf, [], .quiet (.refl f'), by rw [hsent, List.append_nil]⟩

lemma steps_pumpTcp (hu : u.Numbered) (now : ℕ) : Steps u e (u.pumpTcp now) := by
  refine ⟨hu.pumpTcp now, fun f' hf' => ?_⟩
  obtain ⟨f, hf, out, hpumped, hsent⟩ := pumpTcp_flow hu hf'
  exact .inl ⟨f, hf, out, .quiet hpumped, hsent⟩

lemma steps_remove (hu : u.Numbered) (k : ℕ) : Steps u e (u.remove k) :=
  .of_same hu (flows_remove u k) rfl ⟨[], (List.append_nil _).symm, by simp⟩

lemma resetFor_owner (dst : U32) (g : TcpIn) (hadAck : Bool) (len : ℕ) :
    (resetFor dst g hadAck len).owner = none := by
  rw [resetFor]
  split_ifs <;> rfl

lemma steps_queue_reset {hadAck : Bool} {len : ℕ} (hu : u.Numbered)
    (hflows : u'.flows ~ u.flows) (hconnects : u'.connects = u.connects) (hrx : u'.rx = u.rx) :
    Steps u e (u'.queue [resetFor dst g hadAck len]) := by
  refine .of_same hu hflows hconnects ⟨_, congrArg (· ++ _) hrx, fun o ho => ?_⟩
  rw [List.mem_singleton.mp ho, resetFor_owner]

lemma steps_handleSyn (hu : u.Numbered) (hg : e.segment = some (dst, g)) :
    Steps u e (u.handleSyn now dst g) := by
  have hflows := flows_remove u (keyOf dst g)
  rw [handleSyn]
  split_ifs
  · exact .of_same hu (.refl _) rfl ⟨[], (List.append_nil _).symm, by simp⟩
  · dsimp only
    split
    · exact steps_queue_reset hu hflows rfl rfl
    next hostIp hostPort _ =>
      have hnew := hflows.cons (u.newFlow now dst g (u.connect u.connects hostIp hostPort))
      refine .of_new hu hg (.trans ?_ hnew) rfl rfl
      refine (flows_put (u.remove (keyOf dst g)) (keyOf dst g) _ []).trans (.cons _ ?_)
      rw [flows, remove]
      dsimp only
      rw [SortedMap.erase_erase]

/-- A segment for a flow, and then all flows are serviced if it is established. -/
lemma steps_handled {later : ℕ} (hu : u.Numbered) (hget : u.tcp.get? k = some f)
    (hg : u.Meets e f g) :
    Steps u e (if (f.handle now g).1.state = .established then
      (u.put k (f.handle now g).1 (f.handle now g).2).pumpTcp later
      else u.put k (f.handle now g).1 (f.handle now g).2) := by
  have hconn := f.handle_conn now g
  have howner := f.handle_owner now g
  have hmem : f ∈ u.flows := (flows_of_get? hget).mem_iff.mpr List.mem_cons_self
  have hput := hu.put hget hconn howner
  split_ifs
  · refine ⟨hput.pumpTcp later, fun f' hf' => ?_⟩
    obtain ⟨f₁, hf₁, out, hpumped, hsent⟩ := pumpTcp_flow hput hf'
    have hsame := hpumped.conn_eq
    rcases put_flow hu hget hconn howner hf₁ with ⟨rfl, hsent₁⟩ | ⟨hf₁, hsent₁⟩
    · refine .inl ⟨f, hmem, _, .handled now g hg hpumped, ?_⟩
      rw [hsent, hsame, hsent₁, List.append_assoc]
    · refine .inl ⟨f₁, hf₁, out, .quiet hpumped, ?_⟩
      rw [hsent, hsame, hsent₁]
  · refine ⟨hput, fun f' hf' => ?_⟩
    rcases put_flow hu hget hconn howner hf' with ⟨rfl, hsent₁⟩ | ⟨hf₁, hsent₁⟩
    · refine .inl ⟨f, hmem, _, .handled now g hg (.refl _), ?_⟩
      rw [hsent₁, List.append_nil]
    · exact .inl ⟨f', hf₁, [], .quiet (.refl f'), by rw [hsent₁, List.append_nil]⟩

lemma steps_handleSegment {later : ℕ} (hu : u.Numbered)
    (hg : e.segment = some (dst, g)) : Steps u e (u.handleSegment now later dst g) := by
  have hsame : Steps u e u := .of_same hu (.refl _) rfl ⟨[], (List.append_nil _).symm, by simp⟩
  rw [handleSegment]
  by_cases hsyn : g.syn ∧ !g.hasAck
  · rw [if_pos hsyn]
    exact steps_handleSyn hu hg
  · rw [if_neg hsyn]
    dsimp only
    rcases hget : u.tcp.get? (keyOf dst g) with _ | f
    · dsimp only
      split_ifs
      · exact hsame
      · exact steps_queue_reset hu (.refl _) rfl rfl
    · dsimp only
      by_cases hrst : g.rst
      · rw [if_pos hrst]
        exact steps_remove hu _
      · rw [if_neg hrst]
        exact steps_handled hu hget ⟨dst, hg, hsyn, by simpa using hrst, hget⟩

theorem step_steps (hu : u.Numbered) (e : Event) : Steps u e (u.step e) := by
  have hdrop : Steps u e { u with dropped := u.dropped + 1 } :=
    .of_same hu (.refl _) rfl ⟨[], (List.append_nil _).symm, by simp⟩
  rcases e with ⟨now, later, p⟩ | now
  · rw [step, handleIpv4]
    rcases hbody : ipv4Body p with _ | ⟨proto, dst, body⟩
    · exact hdrop
    · dsimp only
      split_ifs with htcp hother
      · rw [handleTcp]
        rcases hparse : TcpIn.parse body with _ | g
        · exact hdrop
        · exact steps_handleSegment hu (by simp [Event.segment, hbody, htcp, hparse])
      · exact .of_same hu (.refl _) rfl ⟨[], (List.append_nil _).symm, by simp⟩
      · exact hdrop
  · exact steps_pumpTcp hu now

/-- What the step does when the event is a segment for a flow. -/
lemma step_of_meets (h : u.Meets e f g) : ∃ now later k, u.tcp.get? k = some f ∧
    u.step e = if (f.handle now g).1.state = .established then
      (u.put k (f.handle now g).1 (f.handle now g).2).pumpTcp later
      else u.put k (f.handle now g).1 (f.handle now g).2 := by
  obtain ⟨dst, hseg, hsyn, hrst, hget⟩ := h
  rcases e with ⟨now, later, p⟩ | now
  · refine ⟨now, later, keyOf dst g, hget, ?_⟩
    rw [Event.segment] at hseg
    rcases hbody : ipv4Body p with _ | ⟨proto, dst', body⟩
    · simp [hbody] at hseg
    · simp only [hbody] at hseg
      split_ifs at hseg with htcp
      obtain ⟨g', hparse, hg⟩ := Option.map_eq_some_iff.mp hseg
      cases hg
      have hrst : ¬g.rst := by simp [hrst]
      rw [step, handleIpv4, hbody]
      dsimp only
      rw [if_pos htcp, handleTcp, hparse]
      dsimp only
      rw [handleSegment, if_neg hsyn]
      dsimp only
      rw [hget]
      dsimp only
      rw [if_neg hrst]
      rfl
  · cases hseg

/-! ## Runs -/

lemma numbered_new (cfg : Config) (connect : ℕ → U32 → U16 → Host) :
    (new cfg connect).Numbered where
  nodup := .nil
  conn_lt _ hf := nomatch hf
  owner_lt _ ho := nomatch ho

/-- Something holds of every step of a run. -/
def Along (p : UserNet → Event → Prop) : UserNet → List Event → Prop
  | _, [] => True
  | u, e :: events => p u e ∧ Along p (u.step e) events

/-- What a step keeps and what follows from it, along a run. -/
lemma Along.imp {p q : UserNet → Event → Prop} {I : UserNet → Prop} {events : List Event}
    (h : u.Along q events) (himp : ∀ {u e}, I u → q u e → p u e)
    (hstep : ∀ {u e}, I u → q u e → I (u.step e)) (hu : I u) : u.Along p events := by
  induction events generalizing u with
  | nil => trivial
  | cons e events ih => exact ⟨himp hu h.1, ih h.2 (hstep hu h.1)⟩

section

variable {P : TcpFlow → List TcpOut → Prop} {ok : UserNet → Event → Prop} {events : List Event}
  (hnew : ∀ {u e g} now dst host, ok u e → u.Opens e g (u.step e) →
    P (u.newFlow now dst g host) [])
  (hhandle : ∀ {u e f g out} now, ok u e → u.Meets e f g → P f out →
    P (f.handle now g).1 (out ++ (f.handle now g).2))
  (hmove : ∀ {f f' out new}, TcpFlow.Move f new f' → P f out → P f' (out ++ new))
include hnew hhandle hmove

/-- What a new flow has, and segments and moves keep, a step keeps of all flows. -/
lemma flows_step (hu : u.Numbered) (hflows : ∀ f ∈ u.flows, P f (u.sent f.conn)) (he : ok u e) :
    ∀ f ∈ (u.step e).flows, P f ((u.step e).sent f.conn) := by
  intro f' hf'
  rcases (step_steps hu e).follows f' hf' with ⟨f, hf, out, hturn, hsent⟩ |
    ⟨now, dst, g, host, hg, rfl, hsent⟩
  · have hconn : f'.conn = f.conn := by
      cases hturn with
      | quiet h => exact h.conn_eq
      | handled now g hg h => rw [h.conn_eq, f.handle_conn now g]
    rw [hsent, hconn]
    exact hturn.keeps (fun now hg => hhandle now he hg) hmove (hflows f hf)
  · rw [hsent]
    exact hnew now dst host he hg

lemma flows_run (hu : u.Numbered) (hflows : ∀ f ∈ u.flows, P f (u.sent f.conn))
    (hrun : u.Along ok events) :
    ∀ f ∈ (u.run events).flows, P f ((u.run events).sent f.conn) := by
  induction events generalizing u with
  | nil => exact hflows
  | cons e events ih =>
    exact ih (step_steps hu e).numbered (flows_step hnew hhandle hmove hu hflows hrun.1) hrun.2

end

/-! ## How many flows -/

lemma size_pumpTcp (now : ℕ) : (u.pumpTcp now).tcp.size ≤ u.tcp.size := List.length_filterMap_le _ _

lemma size_handleSegment (hu : u.tcp.size ≤ maxTcpFlows) (now later : ℕ) (dst : U32) (g : TcpIn) :
    (u.handleSegment now later dst g).tcp.size ≤ maxTcpFlows := by
  have hremove : (u.remove (keyOf dst g)).tcp.size ≤ _ := (List.length_filter_le _ _).trans hu
  unfold handleSegment handleSyn
  dsimp only
  split
  · split
    · exact hu
    split
    · exact hremove
    · next hroom =>
      -- the flow of the key is gone, and there was room for one more
      split_ifs at hroom with hfull
      rw [SortedMap.size, SortedMap.insert_perm.length_eq]
      exact (congrArg List.length SortedMap.erase_erase).trans_lt (not_le.mp hfull)
  split
  · split <;> exact hu
  next f hf =>
  have hput (f') : (u.tcp.insert (keyOf dst g) f').size ≤ maxTcpFlows := by
    rw [SortedMap.size, SortedMap.insert_perm.length_eq]
    exact (SortedMap.perm_erase hf).length_eq.symm.trans_le hu
  repeat' split
  exacts [hremove, (size_pumpTcp _).trans (hput _), hput _]

/-- However many connections the guest asks for, the proxy keeps to its limit. -/
theorem tcp_flows_bounded (cfg : Config) (connect : ℕ → U32 → U16 → Host) (events : List Event) :
    ((new cfg connect).run events).tcp.size ≤ maxTcpFlows := by
  have hnew : (new cfg connect).tcp.size ≤ maxTcpFlows := Nat.zero_le _
  generalize new cfg connect = u at hnew ⊢
  induction events generalizing u with
  | nil => exact hnew
  | cons e events ih =>
    refine ih (u.step e) ?_
    unfold step handleIpv4 handleTcp
    repeat' split
    all_goals first
      | exact hnew
      | exact (size_pumpTcp _).trans hnew
      | exact size_handleSegment hnew _ _ _ _

end UserNet

end RiscvEmu
