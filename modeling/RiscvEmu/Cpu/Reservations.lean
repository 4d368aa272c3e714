import RiscvEmu.Shared

/-!
# Reservations

A reservation is split: the hart has the virtual address, its mailbox the physical granule.  The
history tells what the reservation of a hart should be (`held`): a load-reserved takes it, a
store-conditional and a trap of the hart give it up, and so do a start of the hart by another one
and a store of another hart to the granule.  In every reachable state the two halves are there
exactly if the history tells of a reservation, and they are that one (`recorded_reachable`).
-/

namespace RiscvEmu

open Exec

/-! ## What the history tells -/

/-- The virtual address and the granule that hart `i` has reserved. -/
def held (i : ℕ) : List Event → Option (U64 × U64)
  | [] => none
  | .loadReserved h va pa _ _ :: log => if h = i then some (va, pa >>> 3) else held i log
  | .scStart h _ :: log => if h = i then none else held i log
  | .trap h :: log => if h = i then none else held i log
  | .start h :: log => if h = i then none else held i log
  | .store h pa n :: log =>
    if h = i then held i log else (held i log).filter fun r => !touchesGranule pa n r.2
  | _ :: log => held i log

/-- Events that do not matter to reservations. -/
def Event.neutral : Event → Bool
  | .loadReserved .. | .scStart .. | .trap .. | .start .. | .store .. => false
  | _ => true

lemma held_neutral {e : Event} (h : e.neutral) (i : ℕ) (log : List Event) :
    held i (e :: log) = held i log := by
  cases e <;> first | rfl | cases h

lemma held_other {i h : ℕ} (hne : h ≠ i) (log : List Event) :
    (∀ va pa n v, held i (.loadReserved h va pa n v :: log) = held i log) ∧
    (∀ va, held i (.scStart h va :: log) = held i log) ∧ held i (.trap h :: log) = held i log ∧
    held i (.start h :: log) = held i log :=
  ⟨fun _ _ _ _ => if_neg hne, fun _ => if_neg hne, if_neg hne, if_neg hne⟩

/-- An event that leaves a reservation of hart `i` on granule `g` to it. -/
def Event.spares (i : ℕ) (g : U64) : Event → Bool
  | .loadReserved h .. => h ≠ i
  | .scStart h _ => h ≠ i
  | .trap h => h ≠ i
  | .start h => h ≠ i
  | .store h pa n => h = i ∨ touchesGranule pa n g = false
  | _ => true

/-- An event either begins a reservation or spares the one there was. -/
lemma held_cons {i : ℕ} {va g : U64} {e : Event} {log : List Event}
    (h : held i (e :: log) = some (va, g)) :
    (∃ (pa : U64) (n : ℕ) (v : U64), e = .loadReserved i va pa n v ∧ g = pa >>> 3) ∨
      (e.spares i g ∧ held i log = some (va, g)) := by
  cases e with
  | loadReserved j va' pa n v =>
    by_cases hj : j = i
    · simp only [held, hj, if_true, Option.some.injEq, Prod.mk.injEq] at h
      exact .inl ⟨pa, n, v, by rw [hj, h.1], h.2.symm⟩
    · rw [(held_other hj log).1] at h
      exact .inr ⟨by simp [Event.spares, hj], h⟩
  | scStart j va' =>
    by_cases hj : j = i
    · simp [held, hj] at h
    · rw [(held_other hj log).2.1] at h
      exact .inr ⟨by simp [Event.spares, hj], h⟩
  | trap j =>
    by_cases hj : j = i
    · simp [held, hj] at h
    · rw [(held_other hj log).2.2.1] at h
      exact .inr ⟨by simp [Event.spares, hj], h⟩
  | start j =>
    by_cases hj : j = i
    · simp [held, hj] at h
    · rw [(held_other hj log).2.2.2] at h
      exact .inr ⟨by simp [Event.spares, hj], h⟩
  | store j pa n =>
    by_cases hj : j = i
    · exact .inr ⟨by simp [Event.spares, hj], by simpa [held, hj] using h⟩
    · simp only [held, if_neg hj, Option.filter_eq_some_iff] at h
      exact .inr ⟨by simpa [Event.spares, hj] using h.2, h.1⟩
  | scDone | pteUpdate | dma | image | fill | flush | csrWrite =>
    rw [held_neutral rfl] at h
    exact .inr ⟨rfl, h⟩

lemma held_of_spares {i : ℕ} {va g : U64} {e : Event} {log : List Event} (he : e.spares i g)
    (h : held i log = some (va, g)) : held i (e :: log) = some (va, g) := by
  cases e with
  | store j pa n =>
    by_cases hj : j = i
    · simpa [held, hj] using h
    · have htouch : touchesGranule pa n g = false := by simpa [Event.spares, hj] using he
      simp [held, hj, h, htouch]
  | loadReserved j | scStart j | trap j | start j =>
    have hj : j ≠ i := by simpa [Event.spares] using he
    simpa [held, hj] using h
  | scDone | pteUpdate | dma | image | fill | flush | csrWrite => exact h

/-- What a reservation in the history looks like: a load-reserved, and nothing since then that
would have ended it. -/
lemma held_eq_some {i : ℕ} {va g : U64} {log : List Event} (h : held i log = some (va, g)) :
    ∃ (mid old : List Event) (pa : U64) (n : ℕ) (v : U64),
      log = mid ++ .loadReserved i va pa n v :: old ∧ g = pa >>> 3 ∧ ∀ e ∈ mid, e.spares i g := by
  induction log with
  | nil => cases h
  | cons e log ih =>
    rcases held_cons h with ⟨pa, n, v, rfl, hg⟩ | ⟨he, hlog⟩
    · exact ⟨[], log, pa, n, v, rfl, hg, by simp⟩
    · obtain ⟨mid, old, pa, n, v, rfl, hg, hmid⟩ := ih hlog
      exact ⟨e :: mid, old, pa, n, v, rfl, hg, List.forall_mem_cons.mpr ⟨he, hmid⟩⟩

/-! ## What does not touch reservations -/

/-- Neither the mailboxes' granules nor what the history tells has changed. -/
structure Calm (s t : Sys) : Prop where
  numHarts : t.numHarts = s.numHarts
  reservation : ∀ i, (t.mail i).reservation = (s.mail i).reservation
  held : ∀ i, RiscvEmu.held i t.log = RiscvEmu.held i s.log

instance : IsPreorder Sys Calm where
  refl _ := ⟨rfl, fun _ => rfl, fun _ => rfl⟩
  trans _ _ _ h g :=
    ⟨g.numHarts.trans h.numHarts, fun i => (g.reservation i).trans (h.reservation i),
    fun i => (g.held i).trans (h.held i)⟩

lemma SysQuiet.calm {s t : Sys} (h : SysQuiet s t) : Calm s t :=
  ⟨h.numHarts, fun i => by rw [h.mail], fun i => by rw [h.log]⟩

lemma calm_emit (s : Sys) {e : Event} (he : e.neutral) : Calm s (s.emit e) :=
  ⟨rfl, fun _ => rfl, fun i => held_neutral he i s.log⟩

lemma calm_of_mail {s : Sys} {mail : ℕ → Mailbox}
    (h : ∀ i, (mail i).reservation = (s.mail i).reservation) :
    Calm s { s with mail := mail } := ⟨rfl, h, fun _ => rfl⟩

lemma DeviceMoves.calm {s t : Sys} (h : DeviceMoves s t) : Calm s t := by
  induction h with
  | refl => exact refl_of Calm s
  | tail _ hstep ih =>
    refine trans_of Calm ih ?_
    cases hstep with
    | quiet hq => exact hq.calm
    | dma _ => exact ⟨rfl, fun _ => rfl, fun _ => rfl⟩

lemma OuterStep.calm {s t : Sys} (h : OuterStep s t) : Calm s t := by
  cases h with
  | device hd => exact DeviceMoves.calm (.single hd)
  | image _ => exact ⟨rfl, fun _ => rfl, fun _ => rfl⟩

lemma calm_busStore {addr : U64} {size : ℕ} {value : U64} {s t : Sys}
    (h : Bus.store addr size value s = .ok () t) : Calm s t := by
  rcases busStore_ok h with ⟨-, ram, -, rfl⟩ | ⟨-, hmoves, -⟩
  · exact ⟨rfl, fun _ => rfl, fun _ => rfl⟩
  · exact DeviceMoves.calm hmoves

lemma calm_writeBack (s : Sys) (hart : ℕ) (pteAddr value : U64) :
    Calm s (s.writeBack hart pteAddr value) := by
  unfold Sys.writeBack
  split
  · next h => exact trans_of Calm (calm_busStore h) (calm_emit _ rfl)
  · next h => exact (busStore_error h).2.calm

lemma calm_translate (hart : ℕ) : TranslateKeeps hart (OnBus Calm) where
  countHit s := refl_of Calm s.sys
  walked s csrs va := (quiet_walkFrom csrs va s.sys).calm
  setSlot s _ _ := refl_of Calm s.sys
  writeBack s _ _ := calm_writeBack s.sys hart _ _

/-! ## What a hart does to reservations -/

/-- The reservation whose two halves are there. -/
def Hart.reservation (s : Hart) : Option (U64 × U64) :=
  let g := (s.sys.mail s.cpu.hartid).reservation
  if s.cpu.reservationValid ∧ g ≠ noRes then some (s.cpu.reservationAddr, g) else none

/-- It is the one the history tells. -/
def Hart.Recorded (s : Hart) : Prop := held s.cpu.hartid s.sys.log = s.reservation

/-- The granule the history tells of is the one in the mailbox. -/
def Consistent (i : ℕ) (s : Sys) : Prop :=
  ∀ va g, held i s.log = some (va, g) → g = (s.mail i).reservation

lemma Hart.Recorded.consistent {s : Hart} (h : s.Recorded) : Consistent s.cpu.hartid s.sys := by
  intro va g hg
  rw [h, Hart.reservation] at hg
  split_ifs at hg
  cases hg
  rfl

/-- What hart `j` guarantees to the others: it leaves a reservation and what the history tells of
it, or ends both. -/
def Honours (j : ℕ) (s t : Sys) : Prop :=
  ∀ i, i ≠ j → i < s.numHarts → j < s.numHarts → Consistent i s →
    (t.mail i).reservation = (s.mail i).reservation ∧ held i t.log = held i s.log ∨
      (t.mail i).reservation = noRes ∧ held i t.log = none

lemma Calm.honours {j : ℕ} {s t : Sys} (h : Calm s t) : Honours j s t :=
  fun i _ _ _ _ => .inl ⟨h.reservation i, h.held i⟩

/-- The part of an operation of a hart that concerns the others. -/
structure Fair (s t : Hart) : Prop where
  hartid : t.cpu.hartid = s.cpu.hartid
  numHarts : t.sys.numHarts = s.sys.numHarts
  honours : Honours s.cpu.hartid s.sys t.sys

instance : IsPreorder Hart Fair where
  refl s := ⟨rfl, rfl, (refl_of Calm s.sys).honours⟩
  trans s t u h g := by
    refine ⟨g.hartid.trans h.hartid, g.numHarts.trans h.numHarts, ?_⟩
    intro i hne hi hj hcons
    have hg := g.honours i (by rw [h.hartid]; exact hne) (by rw [h.numHarts]; exact hi)
      (by rw [h.hartid, h.numHarts]; exact hj)
    rcases h.honours i hne hi hj hcons with ⟨hres, hheld⟩ | ⟨hres, hheld⟩
    · have hmid : Consistent i t.sys := fun va g hva => (hcons va g (hheld ▸ hva)).trans hres.symm
      rw [hres, hheld] at hg
      exact hg hmid
    · -- once ended, it stays so
      have hmid : Consistent i t.sys := fun va g hva => by rw [hheld] at hva; cases hva
      rcases hg hmid with ⟨hres', hheld'⟩ | hended
      · exact .inr ⟨hres'.trans hres, hheld'.trans hheld⟩
      · exact .inr hended

/-- An operation of a hart after which its reservation is recorded, if it was. -/
structure Accounted (s t : Hart) : Prop extends Fair s t where
  recorded : s.Recorded → t.Recorded

instance : IsPreorder Hart Accounted where
  refl s := ⟨refl_of Fair s, id⟩
  trans _ _ _ h g := ⟨trans_of Fair h.toFair g.toFair, fun hs => g.recorded (h.recorded hs)⟩

/-- A part of a hart that has to do with reservations. -/
def Cpu.reserved (c : Cpu) : ℕ × Bool × U64 := (c.hartid, c.reservationValid, c.reservationAddr)

lemma Fair.of_calm {s t : Hart} (hid : t.cpu.hartid = s.cpu.hartid) (h : Calm s.sys t.sys) :
    Fair s t :=
  ⟨hid, h.numHarts, h.honours⟩

lemma Accounted.of_calm {s t : Hart} (hcpu : t.cpu.reserved = s.cpu.reserved)
    (h : Calm s.sys t.sys) :
    Accounted s t := by
  obtain ⟨hid, hvalid, haddr⟩ : t.cpu.hartid = s.cpu.hartid ∧
      t.cpu.reservationValid = s.cpu.reservationValid ∧ t.cpu.reservationAddr =
        s.cpu.reservationAddr := by
    simpa [Cpu.reserved] using hcpu
  refine ⟨.of_calm hid h, fun hs => ?_⟩
  unfold Hart.Recorded Hart.reservation at hs ⊢
  rwa [hid, hvalid, haddr, h.reservation, h.held]

/-- Without the private half there is no reservation. -/
lemma Accounted.of_released {s t : Hart} (h : Fair s t) (hvalid : t.cpu.reservationValid = false)
    (hheld : held t.cpu.hartid t.sys.log = none) : Accounted s t :=
  ⟨h, fun _ => hheld.trans (if_neg fun hv => by simp [hvalid] at hv).symm⟩

/-! ## Memory accesses -/

lemma calm_translateFor (va : U64) (ty : AccessType) (p : U32) (s : Hart) :
    Calm s.sys (final (translateFor va ty p) s).sys := by
  rw [final_translateFor]
  exact (calm_translate s.cpu.hartid).translate s.cpu.csrs va ty p ⟨s.cpu.mmu, s.sys⟩

/-- A store of hart `j` and the cancelling of reservations that follows it. -/
lemma honours_stored {j : ℕ} (t : Sys) (pa : U64) (n : ℕ) :
    Honours j t (if t.numHarts > 1 then (t.emit (.store j pa n)).noteStore j pa n
      else t.emit (.store j pa n)) := by
  intro i hne hi hj hcons
  have hmany : t.numHarts > 1 := by omega
  have hne' : j ≠ i := Ne.symm hne
  have hheld : held i ((t.emit (.store j pa n)).noteStore j pa n).log =
      (held i t.log).filter fun r => !touchesGranule pa n r.2 := if_neg hne'
  rw [if_pos hmany, hheld]
  by_cases htouch : touchesGranule pa n (t.mail i).reservation
  · refine .inr ⟨by simp [Sys.noteStore, Sys.emit, hne, hi, htouch], ?_⟩
    refine Option.filter_eq_none_iff.mpr fun r hr => ?_
    rw [hcons r.1 r.2 hr, htouch]
    decide
  · have hsame : ((t.emit (.store j pa n)).noteStore j pa n).mail i = t.mail i := by
      simp [Sys.noteStore, Sys.emit, htouch]
    refine .inl ⟨by rw [hsame], ?_⟩
    cases hr : held i t.log with
    | none => rfl
    | some r =>
      refine Option.filter_some_pos ?_
      rw [hcons r.1 r.2 hr]
      simpa using htouch

lemma accounted_storeAt (pa : U64) (n : ℕ) (v : U64) : Keeps Accounted (storeAt pa n v) := by
  refine keeps_of_cases (fun s _ t hst => ?_) fun s _ t hst => ?_
  swap
  · obtain ⟨w, hw, rfl⟩ := storeAt_eq_error.mp hst
    exact .of_calm rfl (busStore_error hw).2.calm
  · obtain ⟨t, hw, rfl⟩ := storeAt_eq_ok.mp hst
    unfold Hart.stored
    refine trans_of Accounted (.of_calm rfl (calm_busStore hw) : Accounted s { s with sys := t }) ?_
    refine ⟨⟨rfl, ?_, honours_stored t pa n⟩, fun hs => ?_⟩
    · dsimp only
      split <;> rfl
    · -- the hart's own mailbox is left, and its own store does not end its reservation
      have hlog : ∀ u : Sys, u.log = .store s.cpu.hartid pa n :: t.log →
          held s.cpu.hartid u.log = held s.cpu.hartid t.log := fun u hu => by simp [hu, held]
      have hmail :
        ((if t.numHarts > 1 then (t.emit (.store s.cpu.hartid pa n)).noteStore s.cpu.hartid pa n
          else t.emit (.store s.cpu.hartid pa n)).mail s.cpu.hartid) = t.mail s.cpu.hartid := by
        split <;> simp [Sys.noteStore, Sys.emit]
      unfold Hart.Recorded Hart.reservation at hs ⊢
      dsimp only at hs ⊢
      rw [hlog _ (by split <;> rfl), hs]
      rw [show (t.emit (.store s.cpu.hartid pa n)).numHarts = t.numHarts from rfl, hmail]

lemma memKeeps_accounted : MemKeeps Accounted where
  translate va ty p s := .of_calm (by rw [final_translateFor]; rfl) (calm_translateFor va ty p s)
  load pa n ty s := by
    rw [final_liftSys]
    exact .of_calm rfl (quiet_busLoad pa n ty s.sys).calm
  store := accounted_storeAt

/-! ## Taking and using a reservation -/

/-- The hart that has made the load takes the reservation. -/
def Hart.reserve (s : Hart) (va pa : U64) (n : ℕ) (v : U64) : Hart :=
  { s with sys := s.sys.emit (.loadReserved s.cpu.hartid va pa n v) }.mapMail fun m =>
  { m with reservation := pa >>> 3 }

/-- What a load-reserved leaves, once its load has succeeded. -/
lemma loadReserved_of_ok {va v : U64} {n : ℕ} {s t : Hart} (h : memLoad va n .load s = .ok v t) :
    ∃ (u : Hart) (pa : U64), loadReserved va n s = .ok v (u.reserve va pa n v) ∧ Calm t.sys u.sys ∧
      u.cpu.reserved = (t.cpu.hartid, true, va) := by
  let t₁ : Hart := { t with cpu := { t.cpu with reservationValid := true, reservationAddr := va } }
  let u := final (translateFor va .load t₁.cpu.dataPrivilege) t₁
  have hcalm : Calm t.sys u.sys := calm_translateFor va .load _ t₁
  have hcpu : u.cpu.reserved = (t.cpu.hartid, true, va) := by
    change (final (translateFor va .load t₁.cpu.dataPrivilege) t₁).cpu.reserved = _
    rw [final_translateFor]
    rfl
  have hmod : modifyCpu (fun c => { c with reservationValid := true, reservationAddr := va }) t =
    .ok () t₁ := rfl
  unfold loadReserved
  rw [bind_of_ok h, bind_of_ok hmod, bind_of_ok (get_apply t₁)]
  cases hpa : translateFor va .load t₁.cpu.dataPrivilege t₁ with
  | ok pa w =>
    have hw : u = w := final_of_ok hpa
    rw [bind_of_ok (attempt_of_ok hpa)]
    exact ⟨u, pa, by rw [hw]; rfl, hcalm, hcpu⟩
  | error e w =>
    have hw : u = w := final_of_error hpa
    rw [bind_of_ok (attempt_of_error hpa)]
    exact ⟨u, va, by rw [hw]; rfl, hcalm, hcpu⟩

/-- What a hart does to its own half of the mailboxes and of the history concerns nobody else. -/
lemma Fair.of_own {s t : Hart} (hid : t.cpu.hartid = s.cpu.hartid)
    (hnum : t.sys.numHarts = s.sys.numHarts)
    (hmail : ∀ i, i ≠ s.cpu.hartid → (t.sys.mail i).reservation = (s.sys.mail i).reservation)
    (hheld : ∀ i, i ≠ s.cpu.hartid → held i t.sys.log = held i s.sys.log) : Fair s t :=
  ⟨hid, hnum, fun i hne _ _ _ => .inl ⟨hmail i hne, hheld i hne⟩⟩

lemma reservation_mapMail (s : Hart) (f : Mailbox → Mailbox) {i : ℕ} (hne : i ≠ s.cpu.hartid) :
    ((s.mapMail f).sys.mail i).reservation = (s.sys.mail i).reservation :=
  congrArg Mailbox.reservation (Function.update_of_ne hne _ _)

/-- To the others it is as if nothing had happened. -/
lemma fair_reserve (s : Hart) (va pa : U64) (n : ℕ) (v : U64) : Fair s (s.reserve va pa n v) :=
  .of_own rfl rfl (fun _ hne => reservation_mapMail _ _ hne)
    fun _ hne => (held_other (Ne.symm hne) s.sys.log).1 va pa n v

lemma granule_ne_noRes (pa : U64) : pa >>> 3 ≠ noRes := by
  intro h
  have h61 := congrArg BitVec.toNat h
  rw [BitVec.toNat_ushiftRight, Nat.shiftRight_eq_div_pow] at h61
  have hno : noRes.toNat = 2 ^ 64 - 1 := by decide
  omega

lemma accounted_loadReserved (va : U64) (n : ℕ) : Keeps Accounted (loadReserved va n) := by
  intro s
  have hload := memKeeps_accounted.memLoad va n .load s
  cases h : memLoad va n .load s with
  | error e t =>
    rw [final_of_error h] at hload
    rw [final, loadReserved, bind_of_error h]
    exact hload
  | ok v t =>
    rw [final_of_ok h] at hload
    obtain ⟨u, pa, heq, hcalm, hcpu⟩ := loadReserved_of_ok h
    have hid : u.cpu.hartid = t.cpu.hartid := congrArg Prod.fst hcpu
    have haddr : u.cpu.reservationAddr = va := congrArg (fun r => r.2.2) hcpu
    have hfair : Fair t u := .of_calm hid hcalm
    rw [final_of_ok heq]
    refine ⟨trans_of Fair (trans_of Fair hload.toFair hfair) (fair_reserve u va pa n v),
      fun _ => ?_⟩
    have hvalid : u.cpu.reservationValid = true := congrArg (fun r => r.2.1) hcpu
    have hheld : held u.cpu.hartid (.loadReserved u.cpu.hartid va pa n v :: u.sys.log) =
      some (va, pa >>> 3) := by
      simp [held]
    have hmail : (u.reserve va pa n v).sys.mail u.cpu.hartid =
        { u.sys.mail u.cpu.hartid with reservation := pa >>> 3 } := Function.update_self _ _ _
    have hthere : (u.reserve va pa n v).reservation = some (va, pa >>> 3) := by
      change (if u.cpu.reservationValid ∧
        ((u.reserve va pa n v).sys.mail u.cpu.hartid).reservation ≠ noRes then
        some (u.cpu.reservationAddr, ((u.reserve va pa n v).sys.mail u.cpu.hartid).reservation)
          else none) = _
      rw [hmail, haddr]
      exact if_pos ⟨hvalid, granule_ne_noRes pa⟩
    exact hheld.trans hthere.symm

/-- An operation of a hart after which it still has no reservation in the history. -/
structure Unheld (s t : Hart) : Prop where
  hartid : t.cpu.hartid = s.cpu.hartid
  none : held s.cpu.hartid s.sys.log = none → held s.cpu.hartid t.sys.log = none

instance : IsPreorder Hart Unheld where
  refl _ := ⟨rfl, id⟩
  trans _ _ _ h g := ⟨g.hartid.trans h.hartid, fun hs => by
    have ht := g.none
    rw [h.hartid] at ht
    exact ht (h.none hs)⟩

lemma Unheld.of_calm {s t : Hart} (hid : t.cpu.hartid = s.cpu.hartid) (h : Calm s.sys t.sys) :
    Unheld s t :=
  ⟨hid, fun hs => (h.held _).trans hs⟩

/-- The hart's own stores take nothing from it and give it nothing. -/
lemma unheld_storeAt (pa : U64) (n : ℕ) (v : U64) : Keeps Unheld (storeAt pa n v) := by
  refine keeps_of_cases (fun s _ t h => ?_) fun s _ t h => ?_
  · obtain ⟨w, hw, rfl⟩ := storeAt_eq_ok.mp h
    refine ⟨rfl, fun hs => ?_⟩
    rw [(stored_sys ..).2.2, held, if_pos rfl]
    exact ((calm_busStore hw).held _).trans hs
  · obtain ⟨w, hw, rfl⟩ := storeAt_eq_error.mp h
    exact .of_calm rfl (busStore_error hw).2.calm

lemma memKeeps_unheld : MemKeeps Unheld where
  translate va ty p s := .of_calm (by rw [final_translateFor]) (calm_translateFor va ty p s)
  load pa n ty s := by
    rw [final_liftSys]
    exact .of_calm rfl (quiet_busLoad pa n ty s.sys).calm
  store := unheld_storeAt

/-- An operation of a hart that has given its reservation up. -/
structure Released (s t : Hart) : Prop extends Fair s t where
  valid : s.cpu.reservationValid = false → t.cpu.reservationValid = false
  none : held s.cpu.hartid s.sys.log = none → held s.cpu.hartid t.sys.log = none

instance : IsPreorder Hart Released where
  refl s := ⟨refl_of Fair s, id, id⟩
  trans _ _ _ h g := ⟨trans_of Fair h.toFair g.toFair, fun hs => g.valid (h.valid hs), fun hs => by
    have ht := g.none
    rw [h.hartid] at ht
    exact ht (h.none hs)⟩

lemma Released.of_calm {s t : Hart} (hid : t.cpu.hartid = s.cpu.hartid)
    (hvalid : t.cpu.reservationValid = s.cpu.reservationValid) (h : Calm s.sys t.sys) :
      Released s t :=
  ⟨.of_calm hid h, fun hs => hvalid.trans hs, fun hs => (h.held _).trans hs⟩

/-- Giving up the shared half concerns nobody else. -/
lemma released_unreserve (s : Hart) (e : Event) (he : e.neutral) :
    Released s ({ s with sys := s.sys.emit e }.mapMail fun m => { m with reservation := noRes }) :=
  ⟨.of_own rfl rfl (fun _ hne => reservation_mapMail _ _ hne) fun i _ =>
    held_neutral he i s.sys.log, id, fun hs => (held_neutral he _ s.sys.log).trans hs⟩

lemma released_dropShared (s : Hart) :
    Released s (s.mapMail fun m => { m with reservation := noRes }) :=
  ⟨.of_own rfl rfl (fun _ hne => reservation_mapMail _ _ hne) fun _ _ => rfl, id, id⟩

lemma getReg_reserved (c : Cpu) (i : ℕ) : (c.getReg i).2.reserved = c.reserved := by
  unfold Cpu.getReg
  split
  · rfl
  · split <;> rfl

lemma released_memStore (va : U64) (n : ℕ) (v : U64) : Keeps Released (memStore va n v) := fun s =>
  ⟨(memKeeps_accounted.memStore va n v s).toFair, fun hs =>
    ((memKeeps_same Cpu.reservationValid fun _ _ => rfl).memStore va n v s).trans hs,
    (memKeeps_unheld.memStore va n v s).none⟩

/-- The beginning of a store-conditional. -/
def Hart.scBegin (s : Hart) (va : U64) : Hart :=
  { cpu := { s.cpu with reservationValid := false }, sys := s.sys.emit (.scStart s.cpu.hartid va) }

lemma fair_scBegin (s : Hart) (va : U64) : Fair s (s.scBegin va) :=
  .of_own rfl rfl (fun _ _ => rfl) fun _ hne => (held_other (Ne.symm hne) s.sys.log).2.1 va

/-- The hart has the two halves of a reservation for this address. -/
def Hart.holds (s : Hart) (va : U64) : Bool :=
  s.cpu.reservationValid ∧ s.cpu.reservationAddr = va ∧
    (s.sys.mail s.cpu.hartid).reservation ≠ noRes

/-- A store-conditional finds a reservation exactly if the history tells of one at its address. -/
lemma Hart.Recorded.holds_iff {s : Hart} (h : s.Recorded) (va : U64) :
    s.holds va = true ↔ ∃ g, held s.cpu.hartid s.sys.log = some (va, g) := by
  rw [h, Hart.reservation]
  unfold Hart.holds
  rw [decide_eq_true_eq]
  split_ifs with hboth
  · constructor
    · rintro ⟨-, rfl, -⟩
      exact ⟨_, rfl⟩
    · rintro ⟨g, hg⟩
      cases hg
      exact ⟨hboth.1, rfl, hboth.2⟩
  · constructor
    · exact fun hthere => absurd ⟨hthere.1, hthere.2.2⟩ hboth
    · rintro ⟨g, hg⟩
      cases hg

/-- And that is the one it finds. -/
lemma Hart.Recorded.held {s : Hart} (h : s.Recorded) {va : U64} (hholds : s.holds va = true) :
    RiscvEmu.held s.cpu.hartid s.sys.log = some (va, (s.sys.mail s.cpu.hartid).reservation) := by
  obtain ⟨g, hg⟩ := (h.holds_iff va).mp hholds
  rw [hg, h.consistent va g hg]

/-- A store-conditional after its beginning. -/
def scRest (va : U64) (n rs2 : ℕ) (holds : Bool) : HartM Bool := do
  let src ← readReg rs2
  if holds then do
    memStore va n src
    modify fun s =>
      { s with sys := s.sys.emit (.scDone s.cpu.hartid va (lastStore s.sys.log) n src) }.mapMail
        fun m => { m with reservation := noRes }
    pure true
  else do
    modify fun s => s.mapMail fun m => { m with reservation := noRes }
    pure false

lemma storeConditional_eq (va : U64) (n rs2 : ℕ) (s : Hart) :
    storeConditional va n rs2 s = scRest va n rs2 (s.holds va) (s.scBegin va) := rfl

lemma released_scRest (va : U64) (n rs2 : ℕ) (holds : Bool) :
    Keeps Released (scRest va n rs2 holds) := by
  refine .bind (fun s => ?_) fun src => ?_
  · have hreg := getReg_reserved s.cpu rs2
    exact .of_calm (congrArg Prod.fst hreg) (congrArg (fun r => r.2.1) hreg) (refl_of Calm s.sys)
  split
  · refine .bind (released_memStore _ _ _) fun _ => .bind (.modify fun s => ?_) fun _ => .pure _
    exact released_unreserve s _ rfl
  · exact .bind (.modify fun s => released_dropShared s) fun _ => .pure _

lemma accounted_storeConditional (va : U64) (n rs2 : ℕ) :
    Keeps Accounted (storeConditional va n rs2) := by
  intro s
  have hrest := released_scRest va n rs2 (s.holds va) (s.scBegin va)
  have heq : final (storeConditional va n rs2) s =
    final (scRest va n rs2 (s.holds va)) (s.scBegin va) := by
    unfold final
    rw [storeConditional_eq]
  have hnone : held s.cpu.hartid (s.scBegin va).sys.log = none := if_pos rfl
  rw [heq]
  refine .of_released (trans_of Fair (fair_scBegin s va) hrest.toFair) (hrest.valid rfl) ?_
  rw [hrest.hartid]
  exact hrest.none hnone

/-! ## Everything a hart does -/

lemma setReg_reserved (c : Cpu) (i : ℕ) (v : U64) : (c.setReg i v).reserved = c.reserved := by
  rw [Cpu.setReg_eq]
  rfl

lemma runAlu_reserved (c : Cpu) (op : AluOp) (a b : U64) :
    (c.runAlu op a b).2.reserved = c.reserved := by
  unfold Cpu.runAlu
  split <;> rfl

lemma probeKeeps_accounted : ProbeKeeps Accounted where
  readReg i s := .of_calm (getReg_reserved s.cpu i) (refl_of Calm s.sys)
  alu op a b s := .of_calm (runAlu_reserved s.cpu op a b) (refl_of Calm s.sys)
  nextPc s _ := .of_calm rfl (refl_of Calm s.sys)
  memLoad va n := memKeeps_accounted.memLoad va n .load
  memStore va n v := memKeeps_accounted.memStore va n v
  loadReserved := accounted_loadReserved
  storeConditional := accounted_storeConditional

lemma accounted_nextInst : Keeps Accounted nextInst := by
  refine memKeeps_accounted.nextInst (fun s => ?_) fun s pa inst => ?_
  · unfold Hart.checkEpoch
    split
    · exact .of_calm rfl (calm_emit s.sys rfl)
    · exact refl_of Accounted s
  · exact .of_calm rfl ⟨rfl, fun _ => rfl, fun _ => rfl⟩

/-- Letters do not carry reservations. -/
lemma calm_mapPeer (s : Hart) (id : ℕ) {f : Mailbox → Mailbox}
    (hf : ∀ m, (f m).reservation = m.reservation) :
    Calm s.sys (s.mapPeer id f).sys := by
  refine calm_of_mail fun i => ?_
  rcases eq_or_ne i id with rfl | hi
  · rw [Function.update_self, hf]
  · rw [Function.update_of_ne hi]

lemma calm_mapMail (s : Hart) {f : Mailbox → Mailbox}
    (hf : ∀ m, (f m).reservation = m.reservation) :
    Calm s.sys (s.mapMail f).sys := calm_mapPeer s s.cpu.hartid hf

lemma accounted_enterTrap (s : Hart) (cause tval epc : U64) (isInterrupt : Bool) :
    Accounted s (s.enterTrap cause tval epc isInterrupt) :=
  .of_released (.of_own rfl rfl (fun _ hne => reservation_mapMail _ _ hne)
    fun _ hne => (held_other (Ne.symm hne) s.sys.log).2.2.1) rfl (if_pos rfl)

/-- A hart that is started gives up what it held. -/
lemma accounted_clearStarted (s : Hart) :
    Accounted s { s with sys := s.sys.emit (.start s.cpu.hartid) }.clearReservation :=
  .of_released (.of_own rfl rfl (fun _ hne => reservation_mapMail _ _ hne)
    fun _ hne => (held_other (Ne.symm hne) s.sys.log).2.2.2) rfl (if_pos rfl)

lemma accounted_startAt (s : Hart) (addr arg : U64) : Accounted s (s.startAt addr arg) := by
  have hcpu : ∀ (t : Hart) (c : Cpu), c.reserved = t.cpu.reserved →
    Accounted t { t with cpu := c } :=
    fun t c hc => .of_calm hc (refl_of Calm t.sys)
  have hmail : Accounted s (s.mapMail fun m => { m with parked := false }) :=
    .of_calm rfl (calm_mapMail s fun _ => rfl)
  have hfence : ∀ t : Hart, Accounted t t.remoteFence := fun t => .of_calm rfl (calm_emit t.sys rfl)
  refine trans_of Accounted (trans_of Accounted (trans_of Accounted hmail (hcpu _ _ ?_))
    (accounted_clearStarted _)) (hfence _)
  exact (setReg_reserved _ _ _).trans (setReg_reserved _ _ _)

lemma hartKeeps_accounted : HartKeeps Accounted where
  probe := probeKeeps_accounted
  nextInst := accounted_nextInst
  update inst f hf s := by
    cases hf with
    | setReg i v => exact .of_calm (setReg_reserved s.cpu i v) (refl_of Calm s.sys)
    | fence | fenceI => exact .of_calm rfl (calm_emit s.sys rfl)
    | setTimer deadline => exact .of_calm rfl ⟨rfl, fun _ => rfl, fun _ => rfl⟩
    | takeInput u => exact .of_calm rfl ⟨rfl, fun _ => rfl, fun _ => rfl⟩
    | sendIpi id => exact .of_calm rfl (calm_mapPeer s id fun _ => rfl)
    | sendFence id => exact .of_calm rfl (calm_mapPeer s id fun _ => rfl)
    | sendStart id => exact .of_calm rfl (calm_mapPeer s id fun _ => rfl)
    | stop => exact .of_calm rfl (calm_mapMail s fun _ => rfl)
    | _ => exact .of_calm rfl (refl_of Calm s.sys)
  csrWrite addr v := keeps_csrWrite (fun s => .of_calm rfl (refl_of Calm s.sys)) fun addr v => by
      refine .modify fun s => ?_
      dsimp only
      split_ifs <;> exact .of_calm rfl ⟨rfl, fun _ => rfl, fun _ => rfl⟩
  move f hf s := by
    cases hf with
    | enterTrap => exact accounted_enterTrap s _ _ _ _
    | takeMail => exact .of_calm rfl (calm_mapMail s fun _ => rfl)
    | startAt addr arg => exact accounted_startAt s addr arg
    | enterKernel entry dtb =>
      exact .of_calm ((setReg_reserved _ _ _).trans (setReg_reserved _ _ _)) (refl_of Calm s.sys)
    | publishLive | beginRound | drive => exact .of_calm rfl ⟨rfl, fun _ => rfl, fun _ => rfl⟩
    | _ => exact .of_calm rfl (refl_of Calm s.sys)

/-! ## Runs -/

/-- What holds of each hart, and what it guarantees to the others. -/
lemma recorded_rule : RelyGuarantee.Rule Own OuterStep
    (fun i c s => c.hartid = i ∧ (i < s.numHarts → Hart.Recorded ⟨c, s⟩))
    (fun j s t => t.numHarts = s.numHarts ∧ j < s.numHarts ∧ Honours j s t) := by
  refine ⟨?_, ?_, ?_, ?_⟩
  · rintro i c s c' s' ⟨hi, f, hf, heq⟩ ⟨hid, hrec⟩
    have hop := hartKeeps_accounted.op hf ⟨c, s⟩
    rw [heq] at hop
    exact ⟨hop.hartid.trans hid, fun _ => hop.recorded (hrec hi)⟩
  · rintro i c s c' s' ⟨hi, f, hf, heq⟩ ⟨hid, -⟩
    have hop := hartKeeps_accounted.op hf ⟨c, s⟩
    rw [heq] at hop
    have hhonours := hop.honours
    rw [hid] at hhonours
    exact ⟨hop.numHarts, hi, hhonours⟩
  · rintro i j c s s' hne ⟨hid, hrec⟩ ⟨hnum, hj, hg⟩
    refine ⟨hid, fun hi => ?_⟩
    rw [hnum] at hi
    have hown := hrec hi
    have hcons := hown.consistent
    unfold Hart.Recorded Hart.reservation at hown ⊢
    dsimp only at hown hcons ⊢
    rw [hid] at hown hcons ⊢
    rcases hg i hne hi hj hcons with ⟨hres, hheld⟩ | ⟨hres, hheld⟩
    · rw [hres, hheld, hown]
    · rw [hres, hheld, if_neg fun h => h.2 rfl]
  · rintro i c s s' ⟨hid, hrec⟩ ho
    have hcalm := ho.calm
    have hacc : Accounted ⟨c, s⟩ ⟨c, s'⟩ := .of_calm rfl hcalm
    exact ⟨hid, fun hi => hacc.recorded (hrec (hcalm.numHarts ▸ hi))⟩

/-- In every reachable state a reservation is the one the history tells. -/
theorem recorded_reachable {cfg : Config} {m : Machine} (hm : Reachable cfg m) {i : ℕ}
    (hi : i < m.sys.numHarts) : (m.hart i).Recorded ∧ (m.harts i).hartid = i := by
  obtain ⟨ls, rfl⟩ := hm
  have hinit : ∀ j, ((Machine.init cfg).harts j).hartid = j ∧
      (j < (Machine.init cfg).sys.numHarts → Hart.Recorded ((Machine.init cfg).hart j)) :=
    fun j => ⟨rfl, fun _ => rfl⟩
  have hrun := recorded_rule.run (w := (Machine.init cfg).world) hinit (moves_run _ ls) i
  exact ⟨hrun.2 hi, hrun.1⟩

end RiscvEmu
