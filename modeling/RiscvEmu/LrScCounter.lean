import RiscvEmu.LrSc
import RiscvEmu.Cpu.OwnWrites
import RiscvEmu.Virtio.Regions

/-!
# Counters kept by store-conditionals

A reservation excludes the other harts: between a load-reserved and the store-conditional that
succeeds, no other hart has stored to the granule.  So if a doubleword is written only by
store-conditionals of one more than their load-reserved loaded, no increment is lost, whatever the
interleaving: its value is the initial one plus the number of store-conditionals that succeeded.
-/

namespace RiscvEmu

open Exec

/-! ## What the history tells of a doubleword -/

/-- The doubleword of RAM at a physical address. -/
def Sys.doubleword (s : Sys) (d : U64) : U64 := Bytes.load s.ram.mem (d - dramBase).toNat 8

/-- What hart `i` last loaded with a reservation: from where, how many bytes, and the value. -/
def lastLr (i : ℕ) : List Event → Option (U64 × ℕ × U64)
  | [] => none
  | .loadReserved h _ pa n v :: log => if h = i then some (pa, n, v) else lastLr i log
  | _ :: log => lastLr i log

/-- All that wrote the doubleword at `d` were store-conditionals of eight bytes, each of one more
than the last load-reserved of its hart loaded from there. -/
def onlyIncrements (d : U64) : List Event → Bool
  | [] => true
  | .scDone h va _ n src :: .store h' pa n' :: log =>
    ((Event.store h' pa n').hits (d >>> 3) → h' = h ∧ va.toNat % 8 = 0 ∧ n = 8 ∧ pa = d ∧ n' = 8 ∧
      lastLr h log = some (d, 8, src - 1)) && onlyIncrements d log
  | e :: log => !e.hits (d >>> 3) && onlyIncrements d log

/-- A store-conditional of eight bytes has written `d`. -/
def Event.succeeds (d : U64) : Event → Bool
  | .scDone _ va pa n _ => pa = d ∧ n = 8 ∧ va.toNat % 8 = 0
  | _ => false

/-- How often this happened. -/
def successes (d : U64) (log : List Event) : ℕ := log.countP (Event.succeeds d)

section History

variable {d : U64} {e : Event} {log es : List Event}

lemma lastLr_cons (he : e.ordinary) (i : ℕ) : lastLr i (e :: log) = lastLr i log := by
  cases e <;> first | rfl | cases he

lemma lastLr_append (hes : ∀ e ∈ es, e.ordinary) (i : ℕ) : lastLr i (es ++ log) = lastLr i log := by
  induction es with
  | nil => rfl
  | cons e es ih =>
    rw [List.forall_mem_cons] at hes
    exact (lastLr_cons hes.1 i).trans (ih hes.2)

lemma successes_cons (he : e.succeeds d = false) : successes d (e :: log) = successes d log :=
  List.countP_cons_of_neg (by simp [he])

lemma successes_append (hes : ∀ e ∈ es, e.ordinary) :
    successes d (es ++ log) = successes d log := by
  induction es with
  | nil => rfl
  | cons e es ih =>
    rw [List.forall_mem_cons] at hes
    have he : e.succeeds d = false := by
      cases e <;> first | rfl | cases hes.1
    exact (successes_cons he).trans (ih hes.2)

lemma onlyIncrements_cons (he : e.ordinary) :
    onlyIncrements d (e :: log) = (!e.hits (d >>> 3) && onlyIncrements d log) := by
  cases e <;> first | rfl | cases he

lemma onlyIncrements_append (hes : ∀ e ∈ es, e.ordinary) (h : onlyIncrements d (es ++ log)) :
    (∀ e ∈ es, e.hits (d >>> 3) = false) ∧ onlyIncrements d log := by
  induction es with
  | nil => exact ⟨by simp, h⟩
  | cons e es ih =>
    rw [List.forall_mem_cons] at hes
    rw [List.cons_append, onlyIncrements_cons hes.1, Bool.and_eq_true, Bool.not_eq_true'] at h
    obtain ⟨hall, hlog⟩ := ih hes.2 h.2
    exact ⟨List.forall_mem_cons.mpr ⟨h.1, hall⟩, hlog⟩

/-- A store-conditional is an increment, or it has not written the doubleword. -/
lemma onlyIncrements_scDone {i n : ℕ} {va pa src : U64}
    (h : onlyIncrements d (.scDone i va pa n src :: log)) :
    onlyIncrements d log ∨ ∃ older, log = .store i d 8 :: older ∧ va.toNat % 8 = 0 ∧ n = 8 ∧
      lastLr i older = some (d, 8, src - 1) ∧ onlyIncrements d older := by
  cases log with
  | nil => exact .inl rfl
  | cons e log =>
    cases e with
    | store j pa' n' =>
      rw [onlyIncrements, Bool.and_eq_true, decide_eq_true_eq] at h
      by_cases hhits : (Event.store j pa' n').hits (d >>> 3) = true
      · obtain ⟨rfl, hva, hn, rfl, rfl, hlr⟩ := h.1 hhits
        exact .inr ⟨log, rfl, hva, hn, hlr, h.2⟩
      · rw [onlyIncrements_cons rfl]
        simp [hhits, h.2]
    | _ => exact .inl h

end History

/-! ## What happens besides -/

/-- Events other than load-reserved and the ends of store-conditionals; the doubleword is as it was
if none of them wrote it. -/
structure Ordinary (d : U64) (s t : Sys) : Prop where
  len : t.ram.len = s.ram.len
  log : ∃ es, t.log = es ++ s.log ∧ (∀ e ∈ es, e.ordinary) ∧
    (InRam s.ram d 8 → (∀ e ∈ es, e.hits (d >>> 3) = false) → t.doubleword d = s.doubleword d)

lemma inRam_len {a b : Dram} (h : b.len = a.len) {d : U64} {n : ℕ} (hin : InRam a d n) :
    InRam b d n := by
  rw [InRam, Dram.inRange_iff] at hin ⊢
  rwa [h]

section Ordinary

variable {d : U64} {s t : Sys}

instance : IsPreorder Sys (Ordinary d) where
  refl _ := ⟨rfl, [], rfl, by simp, fun _ _ => rfl⟩
  trans s t u h g := by
    obtain ⟨es, hlog, hes, hword⟩ := h.log
    obtain ⟨es', hlog', hes', hword'⟩ := g.log
    refine ⟨g.len.trans h.len, es' ++ es, by rw [hlog', hlog, List.append_assoc],
      List.forall_mem_append.mpr ⟨hes', hes⟩, fun hin hall => ?_⟩
    rw [List.forall_mem_append] at hall
    exact (hword' (inRam_len h.len hin) hall.1).trans (hword hin hall.2)

lemma Ordinary.of_ram (hlog : t.log = s.log) (hlen : t.ram.len = s.ram.len)
    (hmem : t.ram.mem = s.ram.mem) : Ordinary d s t :=
  ⟨hlen, [], hlog, by simp, fun _ _ => by rw [Sys.doubleword, Sys.doubleword, hmem]⟩

lemma SysQuiet.ordinary (h : SysQuiet s t) : Ordinary d s t :=
  .of_ram h.log (by rw [h.ram]) (by rw [h.ram])

variable {e : Event} {ram : Dram} {addr : U64}

lemma ordinary_emit (s : Sys) (he : e.ordinary) : Ordinary d s (s.emit e) :=
  ⟨rfl, [e], rfl, by simpa using he, fun _ _ => rfl⟩

/-- A write that has not hit the granule of an aligned doubleword wrote none of its bytes. -/
lemma outside_of_not_hits {n i : ℕ} (hd : d.toNat % 8 = 0)
    (hin : InRam ram d 8) (hregion : e.region = some (addr, n)) (hbase : dramBase ≤ addr)
    (hend : (addr - dramBase).toNat + n ≤ ram.len) (h : e.hits (d >>> 3) = false)
    (hlo : (d - dramBase).toNat ≤ i) (hhi : i < (d - dramBase).toNat + 8) :
    ¬((addr - dramBase).toNat ≤ i ∧ i < (addr - dramBase).toNat + n) := by
  intro hover
  obtain ⟨hdb, -⟩ := hin
  have hfits := ram.fits
  rw [BitVec.toNat_sub_of_le hbase] at hend hover
  rw [BitVec.toNat_sub_of_le hdb] at hlo hhi
  rw [BitVec.le_def] at hbase hdb
  have hsum : (addr + BitVec.ofNat 64 (dramBase.toNat + i - addr.toNat)).toNat =
    dramBase.toNat + i := by
    rw [BitVec.toNat_add, BitVec.toNat_ofNat, Nat.add_mod_mod, Nat.mod_eq_of_lt (by omega)]
    omega
  refine absurd h ?_
  rw [Event.hits, hregion, Bool.not_eq_false, decide_eq_true_eq]
  refine ⟨by omega, dramBase.toNat + i - addr.toNat, by omega, BitVec.eq_of_toNat_eq ?_⟩
  rw [BitVec.toNat_ushiftRight, BitVec.toNat_ushiftRight, hsum, Nat.shiftRight_eq_div_pow,
    Nat.shiftRight_eq_div_pow]
  omega

lemma ordinary_write {n : ℕ} (hd : d.toNat % 8 = 0)
    (he : e.ordinary) (hregion : e.region = some (addr, n)) (hlen : ram.len = s.ram.len)
    (hblock : s.ram.HasBlock addr n)
    (hmem : ∀ i, ¬((addr - dramBase).toNat ≤ i ∧ i < (addr - dramBase).toNat + n) →
      ram.mem i = s.ram.mem i) :
    Ordinary d s ({ s with ram := ram }.emit e) := by
  refine ⟨hlen, [e], rfl, by simpa using he, fun hin hall => ?_⟩
  have hmiss := hall e (List.mem_singleton_self e)
  exact Bytes.load_congr fun i hlo hhi =>
    hmem i (outside_of_not_hits hd hin hregion hblock.1 hblock.2 hmiss hlo hhi)

lemma ordinary_writeBytes {src : List U8} (hd : d.toNat % 8 = 0)
    (h : s.ram.writeBytes addr src = some ram) :
    Ordinary d s ({ s with ram := ram }.emit (.dma addr src.length)) := by
  obtain ⟨o, rfl, hend, hlen, hmem⟩ := Dram.writeBytes_eq_some h
  have hfits := s.ram.fits
  have ho : (dramBase + BitVec.ofNat 64 o - dramBase).toNat = o := by
    rw [BitVec.add_comm, BitVec.add_sub_cancel, BitVec.toNat_ofNat, Nat.mod_eq_of_lt (by omega)]
  have hbase : dramBase ≤ dramBase + BitVec.ofNat 64 o := by
    rw [BitVec.le_def, BitVec.toNat_add, BitVec.toNat_ofNat, Nat.add_mod_mod,
      Nat.mod_eq_of_lt (by omega)]
    omega
  refine ordinary_write hd rfl rfl hlen ⟨hbase, by rwa [ho]⟩ fun i hi => ?_
  rw [ho] at hi
  rw [hmem, Bytes.storeBytes_of_not_mem hi]

lemma ordinary_loadImage {bytes : List U8} (hd : d.toNat % 8 = 0)
    (h : s.ram.loadImage addr bytes = some ram) :
    Ordinary d s ({ s with ram := ram }.emit (.image addr bytes.length)) := by
  unfold Dram.loadImage Dram.offsetOf at h
  by_cases hbase : dramBase ≤ addr
  · rw [if_pos hbase] at h
    dsimp only at h
    split at h
    · cases h
    · next hfit =>
        cases h
        refine ordinary_write hd rfl rfl rfl ⟨hbase, by omega⟩ fun i hi => ?_
        exact Bytes.storeBytes_of_not_mem hi
  · rw [if_neg hbase] at h
    cases h

lemma DeviceMoves.ordinary (hd : d.toNat % 8 = 0) (h : DeviceMoves s t) : Ordinary d s t := by
  induction h with
  | refl => exact refl_of (Ordinary d) s
  | tail _ hstep ih =>
    refine trans_of (Ordinary d) ih ?_
    cases hstep with
    | quiet hq => exact hq.ordinary
    | dma hw => exact ordinary_writeBytes hd hw

lemma OuterStep.ordinary (hd : d.toNat % 8 = 0) (h : OuterStep s t) : Ordinary d s t := by
  cases h with
  | device hdev => exact DeviceMoves.ordinary hd (.single hdev)
  | image hi => exact ordinary_loadImage hd hi

/-- A store over the bus and the event that records it. -/
lemma ordinary_stored {pa v : U64} {n : ℕ} (hd : d.toNat % 8 = 0) (he : e.ordinary)
    (hregion : e.region = some (pa, n)) (h : Bus.store pa n v s = .ok () t) :
    Ordinary d s (t.emit e) := by
  rcases busStore_ok h with ⟨hin, ram, hram, rfl⟩ | ⟨-, hmoves, -⟩
  · obtain ⟨hrange, hmem, hlen⟩ := Dram.store_eq_some hram
    rw [Dram.inRange_iff] at hrange
    refine ordinary_write hd he hregion hlen ⟨hin.1, by omega⟩ fun i hi => ?_
    rw [hmem, Bytes.store_of_not_mem (by omega)]
  · exact trans_of (Ordinary d) (DeviceMoves.ordinary hd hmoves) (ordinary_emit t he)

end Ordinary

/-! ## Memory accesses -/

section Accesses

variable {d : U64} (hd : d.toNat % 8 = 0)

include hd

lemma plainKeeps_ordinary : PlainKeeps (Ordinary d) where
  load pa n ty s := (quiet_busLoad pa n ty s).ordinary
  stored _ _ _ _ _ h _ := ordinary_stored hd rfl rfl h
  writtenBack _ _ _ _ h _ := ordinary_stored hd rfl rfl h
  refused _ _ _ _ _ _ h := (busStore_error h).2.ordinary
  emit s _ he := ordinary_emit s he
  reserve _ _ _ := .of_ram rfl rfl rfl
  markCode _ _ := .of_ram rfl (Dram.markCodePage_len _ _) (Dram.markCodePage_mem _ _)

lemma memKeeps_ordinary : MemKeeps (OnShared (Ordinary d)) := (plainKeeps_ordinary hd).memKeeps

variable {v va : U64} {n : ℕ} {t s : Hart}

omit hd in
/-- After a load of one page, the same address translates to where the load was. -/
lemma memLoad_again (hcross : crossesPage va n = false)
    (h : memLoad va n .load s = .ok v t) :
    ∃ (pa : U64) (s₁ : Hart), translateFor va .load s.cpu.dataPrivilege s = .ok pa s₁ ∧
      Bus.load pa n .load s₁.sys = .ok v t.sys ∧ t.cpu.dataPrivilege = s.cpu.dataPrivilege ∧
      Cached .load t.cpu.csrs s.cpu.dataPrivilege va t.cpu.mmu ∧
      pa = target t.cpu.csrs s.cpu.dataPrivilege t.cpu.mmu va := by
  rw [memLoad, if_neg (by simp [hcross])] at h
  obtain ⟨_, _, hget, h⟩ := bind_eq_ok.mp h
  cases hget
  obtain ⟨pa, s₁, htranslate, h⟩ := bind_eq_ok.mp h
  obtain ⟨u, hu, rfl⟩ := zoom_eq_ok.mp h
  obtain ⟨w, hw, hs₁⟩ := translateFor_eq_ok.mp htranslate
  obtain ⟨hload, hpa⟩ := cached_of_ok hw
  refine ⟨pa, s₁, htranslate, hu, ?_, ?_, ?_⟩ <;> subst hs₁
  · rfl
  · exact hload
  · exact hpa

/-- An aligned load of eight bytes: the address now translates to where the load was, and if that is
in RAM the value is there. -/
lemma memLoad_aligned (hva : va.toNat % 8 = 0)
    (h : memLoad va 8 .load s = .ok v t) :
    t.cpu.dataPrivilege = s.cpu.dataPrivilege ∧
      Cached .load t.cpu.csrs s.cpu.dataPrivilege va t.cpu.mmu ∧
      (target t.cpu.csrs s.cpu.dataPrivilege t.cpu.mmu va = d → InRam s.sys.ram d 8 →
        t.sys.doubleword d = v) := by
  have hcross := crossesPage_of_aligned (show amoSize 3 = some 8 from rfl) hva
  obtain ⟨pa, s₁, htranslate, hload, hpriv, hcached, rfl⟩ := memLoad_again hcross h
  refine ⟨hpriv, hcached, fun hpa hin => ?_⟩
  have hs₁ := ((memKeeps_ordinary hd).translate va .load s.cpu.dataPrivilege).of_ok htranslate
  rw [hpa, busLoad_ram (inRam_len hs₁.len hin)] at hload
  obtain ⟨hv, hsys⟩ := EStateM.Result.ok.inj hload
  rw [← hv, ← hsys]
  rfl

/-- A load-reserved, once its load has succeeded: what it says it loaded from `d` is there. -/
lemma loadReserved_ordinary (h : memLoad va n .load s = .ok v t) :
    ∃ (u : Hart) (pa : U64), loadReserved va n s = .ok v (u.reserve va pa n v) ∧
      Ordinary d s.sys u.sys ∧
      (pa = d → n = 8 → InRam s.sys.ram d 8 → u.sys.doubleword d = v) := by
  let t₁ : Hart := { t with cpu := { t.cpu with reservationValid := true, reservationAddr := va } }
  have hmod : modifyCpu (fun c => { c with reservationValid := true, reservationAddr := va }) t =
    .ok () t₁ := rfl
  have hst : Ordinary d s.sys t.sys := ((memKeeps_ordinary hd).memLoad va n .load).of_ok h
  have hst₁ : Ordinary d s.sys t₁.sys := hst
  have hkeeps := (memKeeps_ordinary hd).translate va .load t₁.cpu.dataPrivilege
  -- of an aligned load the second translation finds what the first one did
  have hagain (hva : va.toNat % 8 = 0) (hn : n = 8) : ∃ k,
    translateFor va .load t₁.cpu.dataPrivilege t₁ =
      .ok (target t.cpu.csrs s.cpu.dataPrivilege t.cpu.mmu va) (t₁.withHits k) := by
    subst hn
    obtain ⟨hpriv, hcached, -⟩ := memLoad_aligned hd hva h
    have hpriv₁ : t₁.cpu.dataPrivilege = s.cpu.dataPrivilege := hpriv
    rw [hpriv₁]
    exact translateFor_of_cached (s := t₁) hcached
  unfold loadReserved
  rw [bind_of_ok h, bind_of_ok hmod, bind_of_ok (get_apply t₁)]
  cases hpa : translateFor va .load t₁.cpu.dataPrivilege t₁ with
  | ok pa w =>
    rw [bind_of_ok (attempt_of_ok hpa)]
    refine ⟨w, pa, rfl, trans_of (Ordinary d) hst₁ (hkeeps.of_ok hpa), ?_⟩
    rintro rfl rfl hin
    have hva : va.toNat % 8 = 0 := by
      obtain ⟨w', hw', -⟩ := translateFor_eq_ok.mp hpa
      rw [← target_mod_eight t₁.cpu.csrs t₁.cpu.dataPrivilege w'.mmu va, ← (cached_of_ok hw').2]
      exact hd
    obtain ⟨k, hk⟩ := hagain hva rfl
    obtain ⟨hpa', hw⟩ := EStateM.Result.ok.inj (hpa.symm.trans hk)
    rw [hw]
    exact (memLoad_aligned hd hva h).2.2 hpa'.symm hin
  | error e w =>
    rw [bind_of_ok (attempt_of_error hpa)]
    refine ⟨w, va, rfl, trans_of (Ordinary d) hst₁ (hkeeps.of_error hpa), ?_⟩
    rintro rfl rfl -
    obtain ⟨k, hk⟩ := hagain hd rfl
    rw [hpa] at hk
    cases hk

/-- A store of one page: the event that records it is at the head of the history, and if it went to
`d` the value is there. -/
lemma memStore_ordinary (hcross : crossesPage va n = false)
    (h : memStore va n v s = .ok () t) :
    ∃ (u : Hart) (pa : U64), Ordinary d s.sys u.sys ∧
      (∃ mid, t.sys.log = .store s.cpu.hartid pa n :: (mid ++ s.sys.log)) ∧
      (pa = d → n = 8 → InRam s.sys.ram d 8 →
        t.sys.log = .store s.cpu.hartid d 8 :: u.sys.log ∧ t.sys.doubleword d = v) := by
  rw [memStore, if_neg (by simp [hcross])] at h
  obtain ⟨_, _, hget, h⟩ := bind_eq_ok.mp h
  cases hget
  obtain ⟨pa, u, htranslate, h⟩ := bind_eq_ok.mp h
  obtain ⟨w, hw, rfl⟩ := storeAt_eq_ok.mp h
  obtain ⟨hram, -, hlog⟩ := stored_sys u pa n w
  have hsu := ((memKeeps_ordinary hd).translate va .store s.cpu.dataPrivilege).of_ok htranslate
  have hid : u.cpu.hartid = s.cpu.hartid := by rw [(translateFor_ok htranslate).2]
  rw [hid] at hlog
  have hgrows : s.sys.log <:+ w.log := by
    have huw := sysKeeps_history.busStore pa n v u.sys
    rw [final_of_ok hw] at huw
    obtain ⟨es, hes, -⟩ := hsu.log
    exact List.IsSuffix.trans ⟨es, hes.symm⟩ huw
  obtain ⟨mid, hmid⟩ := hgrows
  refine ⟨u, pa, hsu, ⟨mid, by rw [hlog, hmid]⟩, ?_⟩
  rintro rfl rfl hin
  rcases busStore_ok hw with ⟨-, ram, hstored, rfl⟩ | ⟨hout, -, -⟩
  · refine ⟨hlog, ?_⟩
    rw [Sys.doubleword, hram, (Dram.store_eq_some hstored).2.1]
    exact Bytes.load_store_eight
  · exact absurd (inRam_len hsu.len hin) hout

end Accesses

/-! ## The invariant -/

/-- Before a store-conditional ends, its hart has no reservation; one that stays in a page has just
stored. -/
def Paired (old : List Event) : List Event → Prop
  | [] => True
  | .scDone i va pa n _ :: log =>
    held i (log ++ old) = none ∧
      (crossesPage va n = false → ∃ older, log = .store i pa n :: older) ∧
      Paired old log
  | _ :: log => Paired old log

/-- Every load-reserved of the doubleword returned `init` plus the number of increments so far. -/
def Loads (d init : U64) : List Event → Prop
  | [] => True
  | .loadReserved _ _ pa n v :: log =>
    (pa = d → n = 8 → v = init + BitVec.ofNat 64 (successes d log)) ∧ Loads d init log
  | _ :: log => Loads d init log

/-- The doubleword and all loads of it are as the history tells. -/
structure Tally (d : U64) (base s : Sys) (new : List Event) : Prop where
  value : s.doubleword d = base.doubleword d + BitVec.ofNat 64 (successes d new)
  loads : Loads d (base.doubleword d) new

/-- What holds of the shared state at any time after `base`. -/
structure Counted (d : U64) (base s : Sys) : Prop where
  inRam : InRam s.ram d 8
  history : ∃ new, s.log = new ++ base.log ∧ Paired base.log new ∧
    (onlyIncrements d new → Tally d base s new)

section Counted

variable {d init : U64} {old new es : List Event} {base s t : Sys}

lemma paired_append (hes : ∀ e ∈ es, e.ordinary) (h : Paired old new) : Paired old (es ++ new) := by
  induction es with
  | nil => exact h
  | cons e es ih =>
    rw [List.forall_mem_cons] at hes
    have htail := ih hes.2
    cases e <;> first | exact htail | cases hes.1

lemma loads_append (hes : ∀ e ∈ es, e.ordinary) (h : Loads d init new) :
    Loads d init (es ++ new) := by
  induction es with
  | nil => exact h
  | cons e es ih =>
    rw [List.forall_mem_cons] at hes
    have htail := ih hes.2
    cases e <;> first | exact htail | cases hes.1

/-- What happens besides keeps the invariant. -/
lemma Ordinary.counted (h : Ordinary d s t) (hs : Counted d base s) : Counted d base t := by
  obtain ⟨es, hlog, hes, hword⟩ := h.log
  obtain ⟨new, hnew, hpaired, htally⟩ := hs.history
  refine ⟨inRam_len h.len hs.inRam, es ++ new, by rw [hlog, hnew, List.append_assoc],
    paired_append hes hpaired, fun honly => ?_⟩
  obtain ⟨hmiss, honly'⟩ := onlyIncrements_append hes honly
  have hold := htally honly'
  exact ⟨by rw [hword hs.inRam hmiss, successes_append hes,
    hold.value], loads_append hes hold.loads⟩

variable {i n : ℕ} {va pa v : U64}

lemma Counted.loadReserved (h : Counted d base s)
    (hv : pa = d → n = 8 → s.doubleword d = v) :
    Counted d base (s.emit (.loadReserved i va pa n v)) := by
  obtain ⟨new, hnew, hpaired, htally⟩ := h.history
  refine ⟨h.inRam, .loadReserved i va pa n v :: new, congrArg (_ :: ·) hnew, hpaired,
    fun honly => ?_⟩
  have hold := htally honly
  refine ⟨hold.value, fun hpa hn => ?_, hold.loads⟩
  rw [← hv hpa hn, hold.value]

lemma hits_self (hd : d.toNat % 8 = 0) (i : ℕ) : (Event.store i d 8).hits (d >>> 3) := by
  rw [Event.hits, Event.region, decide_eq_true_eq]
  exact ⟨by have := d.isLt; omega, 0, by omega, by rw [BitVec.add_zero]⟩

/-- The granule of a reservation is that of the last load-reserved. -/
lemma granule_of_held {g : U64} (hheld : held i (new ++ old) = some (va, g))
    (hlr : lastLr i new = some (pa, n, v)) : g = pa >>> 3 := by
  induction new with
  | nil => cases hlr
  | cons e new ih =>
    rcases held_cons hheld with ⟨pa', n', v', rfl, rfl⟩ | ⟨hspares, hheld'⟩
    · rw [lastLr, if_pos rfl] at hlr
      cases hlr
      rfl
    · refine ih hheld' ?_
      cases e with
      | loadReserved j va' pa' n' v' =>
        rw [Event.spares, decide_eq_true_eq] at hspares
        rwa [lastLr, if_neg hspares] at hlr
      | _ => exact hlr

/-- As long as a hart has its reservation, what it loaded is what the history tells now: had a
store-conditional succeeded since, it would have cancelled the reservation. -/
lemma value_of_held (hd : d.toNat % 8 = 0)
    (hheld : held i (new ++ old) = some (va, d >>> 3)) (hlr : lastLr i new = some (d, 8, v))
    (hpaired : Paired old new) (hloads : Loads d init new) :
    v = init + BitVec.ofNat 64 (successes d new) := by
  induction new with
  | nil => cases hlr
  | cons e new ih =>
    rcases held_cons hheld with ⟨pa', n', v', rfl, -⟩ | ⟨hspares, hheld'⟩
    · rw [lastLr, if_pos rfl] at hlr
      cases hlr
      rw [successes_cons rfl]
      exact hloads.1 rfl rfl
    · cases e with
      | loadReserved j va' pa' n' v' =>
        rw [Event.spares, decide_eq_true_eq] at hspares
        rw [lastLr, if_neg hspares] at hlr
        rw [successes_cons rfl]
        exact ih hheld' hlr hpaired hloads.2
      | scDone j va' pa' n' v' =>
        obtain ⟨hnone, hstored, hpaired'⟩ := hpaired
        have hfail : (Event.scDone j va' pa' n' v').succeeds d = false := by
          by_contra hsucc
          rw [Bool.not_eq_false, Event.succeeds, decide_eq_true_eq] at hsucc
          obtain ⟨rfl, rfl, hva⟩ := hsucc
          obtain ⟨older, rfl⟩ :=
            hstored (crossesPage_of_aligned (show amoSize 3 = some 8 from rfl) hva)
          rcases held_cons hheld' with ⟨_, _, _, heq, -⟩ | ⟨hstore, -⟩
          · cases heq
          · rw [Event.spares, decide_eq_true_eq, touchesGranule_of_hits (hits_self hd j)] at hstore
            rcases hstore with rfl | htouch
            · exact absurd (hnone.symm.trans hheld') (Option.some_ne_none _).symm
            · cases htouch
        rw [successes_cons hfail]
        exact ih hheld' hlr hpaired' hloads
      | _ =>
        rw [successes_cons rfl]
        exact ih hheld' hlr hpaired hloads

/-- A store-conditional of hart `i` is recorded, which began in `s` and has made its store.  If it
is an increment, what the hart had loaded was still there in `s`, where it had its reservation. -/
lemma Counted.scDone {va' g src : U64} {x u : Sys} (hd : d.toNat % 8 = 0)
    (hs : Counted d base s) (hsu : Ordinary d s u) (hx : Counted d base x)
    (hheld : held i s.log = some (va', g)) (hnone : held i x.log = none)
    (hstored : crossesPage va n = false → (∃ mid, x.log = .store i pa n :: (mid ++ s.log)) ∧
      (pa = d → n = 8 → x.log = .store i d 8 :: u.log ∧ x.doubleword d = src)) :
    Counted d base (x.emit (.scDone i va pa n src)) := by
  obtain ⟨new, hnew, hpaired, htally⟩ := hx.history
  obtain ⟨began, hbegan, hpaired', htally'⟩ := hs.history
  obtain ⟨es, hes, hord, -⟩ := hsu.log
  have hhead (h : crossesPage va n = false) : ∃ older, new = .store i pa n :: older := by
    obtain ⟨mid, hmid⟩ := (hstored h).1
    rw [hnew, hbegan, ← List.append_assoc, ← List.cons_append] at hmid
    exact ⟨_, List.append_cancel_right hmid⟩
  refine ⟨hx.inRam, .scDone i va pa n src :: new, congrArg (_ :: ·) hnew,
    ⟨hnew ▸ hnone, hhead, hpaired⟩, fun honly => ?_⟩
  rcases onlyIncrements_scDone honly with honly' | ⟨older, rfl, hva, rfl, hlr, honly'⟩
  · -- it has not written the doubleword
    have hfail : (Event.scDone i va pa n src).succeeds d = false := by
      by_contra hsucc
      rw [Bool.not_eq_false, Event.succeeds, decide_eq_true_eq] at hsucc
      obtain ⟨rfl, rfl, hva⟩ := hsucc
      obtain ⟨older, rfl⟩ := hhead (crossesPage_of_aligned (show amoSize 3 = some 8 from rfl) hva)
      rw [onlyIncrements_cons rfl, hits_self hd] at honly'
      cases honly'
    have hold := htally honly'
    exact ⟨by rw [successes_cons hfail, ← hold.value]; rfl, hold.loads⟩
  · -- it is an increment
    have hcross := crossesPage_of_aligned (show amoSize 3 = some 8 from rfl) hva
    obtain ⟨_, hpa⟩ := hhead hcross
    obtain ⟨rfl, -⟩ : d = pa ∧ older = _ := by simpa using hpa
    obtain ⟨hlog, hvalue⟩ := (hstored hcross).2 rfl rfl
    obtain rfl : older = es ++ began := by
      rw [hnew, hes, hbegan, ← List.append_assoc, ← List.cons_append] at hlog
      exact (List.cons.inj (List.append_cancel_right hlog)).2
    rw [lastLr_append hord] at hlr
    have hold := htally' (onlyIncrements_append hord honly').2
    rw [hbegan] at hheld
    obtain rfl := granule_of_held hheld hlr
    have hloaded := value_of_held hd hheld hlr hpaired' hold.loads
    have hsucc : (Event.scDone i va d 8 src).succeeds d := by simp [Event.succeeds, hva]
    refine ⟨?_, loads_append hord hold.loads⟩
    rw [successes, List.countP_cons_of_pos hsucc, ← successes, successes_cons rfl,
      successes_append hord, BitVec.ofNat_add, ← BitVec.add_assoc, ← hloaded]
    exact hvalue.trans (BitVec.sub_add_cancel src 1).symm

end Counted

/-! ## What a hart does -/

/-- An operation of a hart that keeps the count, if its reservation is the one the history tells. -/
structure Counts (d : U64) (base : Sys) (s t : Hart) : Prop extends Accounted s t where
  counted : s.Recorded → Counted d base s.sys → Counted d base t.sys

instance {d : U64} {base : Sys} : IsPreorder Hart (Counts d base) where
  refl s := ⟨refl_of Accounted s, fun _ h => h⟩
  trans _ _ _ h g := ⟨trans_of Accounted h.toAccounted g.toAccounted,
    fun hs hc => g.counted (h.recorded hs) (h.counted hs hc)⟩

section Harts

variable {d : U64} {base : Sys} {s t : Hart}

lemma Counts.of_ordinary (hacc : Accounted s t) (h : Ordinary d s.sys t.sys) : Counts d base s t :=
  ⟨hacc, fun _ => h.counted⟩

variable (hd : d.toNat % 8 = 0)

include hd

lemma counts_loadReserved (va : U64) (n : ℕ) : Keeps (Counts d base) (loadReserved va n) := by
  intro s
  refine ⟨accounted_loadReserved va n s, fun _ hs => ?_⟩
  cases h : memLoad va n .load s with
  | error e t =>
    have hst : Ordinary d s.sys t.sys := ((memKeeps_ordinary hd).memLoad va n .load).of_error h
    rw [final, loadReserved, bind_of_error h]
    exact hst.counted hs
  | ok v t =>
    obtain ⟨u, pa, heq, hsu, hv⟩ := loadReserved_ordinary hd h
    have hlr : Counted d base (u.sys.emit (.loadReserved u.cpu.hartid va pa n v)) :=
      (hsu.counted hs).loadReserved fun hpa hn => hv hpa hn hs.inRam
    have hmail (x : Hart) (f : Mailbox → Mailbox) : Ordinary d x.sys (x.mapMail f).sys :=
      .of_ram rfl rfl rfl
    rw [final_of_ok heq]
    exact (hmail _ _).counted hlr

/-- The end of a store-conditional that had its reservation, where its store has succeeded. -/
lemma counted_scDone {va src : U64} {n : ℕ} {s s₁ x : Hart} (hrec : s.Recorded)
    (hs : Counted d base s.sys) (hholds : s.holds va = true) (hid : s₁.cpu.hartid = s.cpu.hartid)
    (hsys : s₁.sys = s.sys.emit (.scStart s.cpu.hartid va)) (h : memStore va n src s₁ = .ok () x) :
    Counted d base (x.sys.emit (.scDone x.cpu.hartid va (lastStore x.sys.log) n src)) := by
  have hss₁ : Ordinary d s.sys s₁.sys := hsys ▸ ordinary_emit s.sys rfl
  have hs₁x : Ordinary d s₁.sys x.sys := ((memKeeps_ordinary hd).memStore va n src).of_ok h
  have hsx := trans_of (Ordinary d) hss₁ hs₁x
  have hunheld : Unheld s₁ x := (memKeeps_unheld.memStore va n src).of_ok h
  have hnone : held s.cpu.hartid x.sys.log = none := by
    rw [← hid]
    refine hunheld.none ?_
    rw [hid, hsys]
    exact if_pos rfl
  rw [hunheld.hartid.trans hid]
  by_cases hcross : crossesPage va n = false
  · obtain ⟨u, pa, hs₁u, ⟨mid, hlog⟩, hd'⟩ := memStore_ordinary hd hcross h
    rw [hid] at hlog hd'
    have hlast : lastStore x.sys.log = pa := by rw [hlog]; rfl
    refine hs.scDone hd (trans_of (Ordinary d) hss₁ hs₁u) (hsx.counted hs) (hrec.held hholds) hnone
      fun _ => ?_
    rw [hlast]
    refine ⟨⟨mid ++ [.scStart s.cpu.hartid va], ?_⟩, fun hpa hn =>
      hd' hpa hn (inRam_len hss₁.len hs.inRam)⟩
    rw [hlog, hsys, List.append_assoc]
    rfl
  · exact hs.scDone hd (refl_of (Ordinary d) s.sys) (hsx.counted hs) (hrec.held hholds) hnone
      fun h' => absurd h' hcross

lemma counts_storeConditional (va : U64) (n rs2 : ℕ) :
    Keeps (Counts d base) (storeConditional va n rs2) := by
  intro s
  refine ⟨accounted_storeConditional va n rs2 s, fun hrec hs => ?_⟩
  have hmail (x : Hart) (f : Mailbox → Mailbox) : Ordinary d x.sys (x.mapMail f).sys :=
    .of_ram rfl rfl rfl
  obtain ⟨src, s₁, hreg, hid, hsys⟩ : ∃ src s₁, readReg rs2 (s.scBegin va) = .ok src s₁ ∧
      s₁.cpu.hartid = s.cpu.hartid ∧ s₁.sys = s.sys.emit (.scStart s.cpu.hartid va) :=
    ⟨_, _, rfl, Cpu.getReg_hartid _ _, rfl⟩
  have hbegin : Ordinary d s.sys s₁.sys := hsys ▸ ordinary_emit s.sys rfl
  rw [final, storeConditional_eq, scRest, bind_of_ok hreg]
  by_cases hholds : s.holds va = true
  · rw [if_pos hholds]
    cases h : memStore va n src s₁ with
    | ok a x =>
      rw [bind_of_ok h]
      exact (hmail _ _).counted (counted_scDone hd hrec hs hholds hid hsys h)
    | error e x =>
      rw [bind_of_error h]
      have hx : Ordinary d s₁.sys x.sys := ((memKeeps_ordinary hd).memStore va n src).of_error h
      exact (trans_of (Ordinary d) hbegin hx).counted hs
  · rw [if_neg hholds]
    exact (trans_of (Ordinary d) hbegin (hmail s₁ _)).counted hs

lemma probeKeeps_counts : ProbeKeeps (Counts d base) where
  readReg i s := ⟨probeKeeps_accounted.readReg i s, fun _ h => h⟩
  alu op a b s := ⟨probeKeeps_accounted.alu op a b s, fun _ h => h⟩
  nextPc s v := ⟨probeKeeps_accounted.nextPc s v, fun _ h => h⟩
  memLoad va n s :=
    .of_ordinary (probeKeeps_accounted.memLoad va n s) ((memKeeps_ordinary hd).memLoad va n .load s)
  memStore va n v s :=
    .of_ordinary (probeKeeps_accounted.memStore va n v s) ((memKeeps_ordinary hd).memStore va n v s)
  loadReserved := counts_loadReserved hd
  storeConditional := counts_storeConditional hd

omit hd in
lemma ordinary_startAt (s : Hart) (addr arg : U64) : Ordinary d s.sys (s.startAt addr arg).sys := by
  have hmail (x : Sys) (mail : ℕ → Mailbox) : Ordinary d x { x with mail := mail } :=
    .of_ram rfl rfl rfl
  exact trans_of (Ordinary d)
    (trans_of (Ordinary d) (trans_of (Ordinary d) (hmail _ _) (ordinary_emit _ rfl))
    (hmail _ _)) (ordinary_emit _ rfl)

lemma hartKeeps_counts : HartKeeps (Counts d base) where
  probe := probeKeeps_counts hd
  nextInst s := .of_ordinary (hartKeeps_accounted.nextInst s) ((plainKeeps_ordinary hd).nextInst s)
  update inst f hf s := by
    refine .of_ordinary (hartKeeps_accounted.update inst f hf s) ?_
    cases hf with
    | fence | fenceI => exact ordinary_emit _ rfl
    | _ => exact .of_ram rfl rfl rfl
  csrWrite addr v s :=
    .of_ordinary (hartKeeps_accounted.csrWrite addr v s)
      ((plainKeeps_ordinary hd).csrWrite addr v s)
  move f hf s := by
    refine .of_ordinary (hartKeeps_accounted.move f hf s) ?_
    cases hf with
    | enterTrap => exact (plainKeeps_ordinary hd).enterTrap s _ _ _ _
    | startAt addr arg => exact ordinary_startAt s addr arg
    | _ => exact .of_ram rfl rfl rfl

end Harts

/-! ## Runs -/

/-- The count holds along every run that begins in a reachable state. -/
theorem counted_run {d : U64} (hd : d.toNat % 8 = 0) {cfg : Config} {m : Machine}
    (hm : Reachable cfg m)
    (hin : InRam m.sys.ram d 8) (ls : List Label) : Counted d m.sys (m.run ls).sys := by
  have hrule : RelyGuarantee.Rule Own OuterStep
      (fun i c s => (c.hartid = i ∧ (i < s.numHarts → Hart.Recorded ⟨c, s⟩)) ∧ Counted d m.sys s)
      (fun j s t => (t.numHarts = s.numHarts ∧ j < s.numHarts ∧ Honours j s t) ∧
        Counted d m.sys t) := by
    have hown : ∀ i c s c' s', Own i (c, s) (c', s') → (i < s.numHarts → Hart.Recorded ⟨c, s⟩) →
        Counted d m.sys s → Counted d m.sys s' := by
      rintro i c s c' s' ⟨hi, f, hf, heq⟩ hrec hs
      have hop : Counts d m.sys ⟨c, s⟩ (f ⟨c, s⟩) := (hartKeeps_counts hd).op hf ⟨c, s⟩
      rw [heq] at hop
      exact hop.counted (hrec hi) hs
    refine ⟨?_, ?_, ?_, ?_⟩
    · rintro i c s c' s' hstep ⟨hP, hs⟩
      exact ⟨recorded_rule.keeps i c s c' s' hstep hP, hown i c s c' s' hstep hP.2 hs⟩
    · rintro i c s c' s' hstep ⟨hP, hs⟩
      exact ⟨recorded_rule.guarantees i c s c' s' hstep hP, hown i c s c' s' hstep hP.2 hs⟩
    · rintro i j c s s' hne ⟨hP, -⟩ ⟨hG, ht⟩
      exact ⟨recorded_rule.stable i j c s s' hne hP hG, ht⟩
    · rintro i c s s' ⟨hP, hs⟩ ho
      exact ⟨recorded_rule.outer i c s s' hP ho, (ho.ordinary hd).counted hs⟩
  have hstart : Counted d m.sys m.sys :=
    ⟨hin, [], rfl, trivial, fun _ => ⟨(BitVec.add_zero _).symm, trivial⟩⟩
  have hinit : ∀ i, ((m.harts i).hartid = i ∧ (i < m.sys.numHarts → Hart.Recorded (m.hart i))) ∧
      Counted d m.sys m.sys :=
    fun i => ⟨⟨hartid_reachable hm i, fun hi => (recorded_reachable hm hi).1⟩, hstart⟩
  exact (hrule.run (w := m.world) hinit (moves_run m ls) 0).2

/-- Since the last load-reserved of hart `i`, which was at `va`, the hart has taken no trap and
tried no store-conditional, and no other hart has stored to the granule. -/
def Undisturbed (i : ℕ) (va : U64) (log : List Event) : Prop :=
  ∃ (mid old : List Event) (pa : U64) (n : ℕ) (v : U64), log =
    mid ++ .loadReserved i va pa n v :: old ∧
    ∀ e ∈ mid, (∀ va' pa' n' v', e ≠ .loadReserved i va' pa' n' v') ∧ e ≠ .trap i ∧
      (∀ va', e ≠ .scStart i va') ∧ (e.storeOfOther i → e.hits (pa >>> 3) = false)

lemma undisturbed_of_held {i : ℕ} {va g : U64} {log : List Event} (h : held i log = some (va, g)) :
    Undisturbed i va log := by
  obtain ⟨mid, old, pa, n, v, hlog, rfl, hmid⟩ := held_eq_some h
  refine ⟨mid, old, pa, n, v, hlog, fun e he => ?_⟩
  have hspares := hmid e he
  refine ⟨?_, ?_, ?_, Event.not_hits_of_spares hspares⟩
  · rintro va' pa' n' v' rfl
    simp [Event.spares] at hspares
  · rintro rfl
    simp [Event.spares] at hspares
  · rintro va' rfl
    simp [Event.spares] at hspares

/-- From every reachable state, for any number of harts and every interleaving: a store-conditional
that succeeds, and so writes 0 to its register, was disturbed neither by its own hart nor by another
one since the load-reserved; and a doubleword that only increments have written since is its value
then plus the number of those that succeeded. -/
theorem lr_sc_excludes_other_harts {cfg : Config} {m : Machine} (hm : Reachable cfg m) :
    (∀ (i : ℕ) (inst : DecodedInst) (va : U64) (n : ℕ) (begun s : Hart), i < m.sys.numHarts →
      ScAt m i inst va n begun s →
      execute inst begun =
        (storeConditional va n inst.rs2 >>= fun ok => writeReg inst.rd (if ok then 0 else 1)) s ∧
      ∀ t, storeConditional va n inst.rs2 s = .ok true t → Undisturbed i va s.sys.log) ∧
    (∀ (d : U64) (ls : List Label), d.toNat % 8 = 0 → InRam m.sys.ram d 8 →
      ∃ new, (m.run ls).sys.log = new ++ m.sys.log ∧
        (onlyIncrements d new →
          (m.run ls).sys.doubleword d =
            m.sys.doubleword d + BitVec.ofNat 64 (successes d new))) := by
  constructor
  · intro i inst va n begun s hi h
    refine ⟨h.execute, fun t hok => ?_⟩
    have hholds : s.holds va = true := by
      by_contra hno
      obtain ⟨t', ht', -⟩ := storeConditional_of_not_holds (by simpa using hno) n inst.rs2
      rw [hok] at ht'
      cases ht'
    exact undisturbed_of_held (h.held hm hi hholds)
  · intro d ls hd hin
    obtain ⟨new, hnew, -, htally⟩ := (counted_run hd hm hin ls).history
    exact ⟨new, hnew, fun honly => (htally honly).value⟩

/-- `auipc x5, 0`; `lr.d x6, (x5)`; `addi x6, x6, 1`; `sc.d x7, x6, (x5)`. -/
def incrementOnce : List U32 := [0x00000297, 0x1002b32f, 0x00130313, 0x1862b3af]

/-- Two harts take turns. -/
def inTurns (n : ℕ) : Machine :=
  (Machine.loaded 2 incrementOnce).run ((List.replicate n [.step 0, .step 1]).flatten)

/-- Of the two store-conditionals one succeeds. -/
theorem lr_sc_excludes_other_harts_two :
    (∃ begun s t : Hart, ScAt (inTurns 3) 0 scInst dramBase 8 begun s ∧
      storeConditional dramBase 8 scInst.rs2 s = .ok true t ∧ Undisturbed 0 dramBase s.sys.log) ∧
    ∃ new, (inTurns 4).sys.log = new ++ (inTurns 0).sys.log ∧ onlyIncrements dramBase new ∧
      successes dramBase new = 1 ∧
      (inTurns 4).sys.doubleword dramBase = (inTurns 0).sys.doubleword dramBase + 1 := by
  have hreach (n : ℕ) : Reachable (.plain 2 4096 page_fits) (inTurns n) :=
    ⟨[.loadImage dramBase (codeBytes incrementOnce)] ++
      (List.replicate n [.step 0, .step 1]).flatten, by
      rw [inTurns, Machine.loaded, Machine.run, Machine.run, Machine.run, List.foldl_append]⟩
  constructor
  · have hat : ScAt (inTurns 3) 0 scInst dramBase 8 _ _ :=
      atomicAt_of_outcome (by decide +kernel) (by decide +kernel) (by decide +kernel)
        (by decide +kernel) (by decide +kernel)
    have hok : storeConditional dramBase 8 scInst.rs2 ((inTurns 3).atomicState 0 scInst) =
      .ok true _ :=
      eq_ok_of_outcome (by decide +kernel)
    have hexcludes :=
      ((lr_sc_excludes_other_harts (hreach 3)).1 0 _ _ _ _ _ (by decide +kernel) hat).2
    exact ⟨_, _, _, hat, hok, hexcludes _ hok⟩
  · obtain ⟨new, hnew, hcount⟩ := (lr_sc_excludes_other_harts (hreach 0)).2 dramBase
      (List.replicate 4 [.step 0, .step 1]).flatten (by decide) (by decide +kernel)
    have hrun : (inTurns 0).run (List.replicate 4 [.step 0, .step 1]).flatten = inTurns 4 := by
      rw [inTurns, inTurns]
      rfl
    rw [hrun] at hnew hcount
    have hlen : (inTurns 4).sys.log.length = 17 + (inTurns 0).sys.log.length := by decide +kernel
    obtain rfl : (inTurns 4).sys.log.take 17 = new := by
      rw [hnew, List.length_append] at hlen
      rw [hnew, List.take_left' (by omega)]
    have honly : onlyIncrements dramBase ((inTurns 4).sys.log.take 17) = true := by decide +kernel
    have hone : successes dramBase ((inTurns 4).sys.log.take 17) = 1 := by decide +kernel
    have hvalue := hcount honly
    rw [hone] at hvalue
    exact ⟨_, hnew, honly, hone, hvalue⟩

end RiscvEmu
