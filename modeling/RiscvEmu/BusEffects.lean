import RiscvEmu.Bus
import RiscvEmu.Virtio.Writes

/-!
# What a bus access does to the shared state

A load changes the device it reaches and nothing else.  A store writes RAM, or it makes a device
move: then RAM changes by recorded writes only, and not at all unless the store was four bytes wide.
-/

namespace RiscvEmu

open Exec Virtio

/-! ## Moves of the devices -/

/-- Only the state of devices changed. -/
structure SysQuiet (s t : Sys) : Prop where
  ram : t.ram = s.ram
  ranges : t.ranges = s.ranges
  numHarts : t.numHarts = s.numHarts
  mail : t.mail = s.mail
  log : t.log = s.log

instance : IsPreorder Sys SysQuiet where
  refl _ := ⟨rfl, rfl, rfl, rfl, rfl⟩
  trans _ _ _ h₁ h₂ := ⟨h₂.ram.trans h₁.ram, h₂.ranges.trans h₁.ranges,
    h₂.numHarts.trans h₁.numHarts, h₂.mail.trans h₁.mail, h₂.log.trans h₁.log⟩

/-- One move of a device. -/
inductive DeviceStep : Sys → Sys → Prop
  | quiet {s t : Sys} (h : SysQuiet s t) : DeviceStep s t
  | dma {s : Sys} {ram : Dram} {addr : U64} {src : List U8}
      (h : s.ram.writeBytes addr src = some ram) :
      DeviceStep s ({ s with ram := ram }.emit (.dma addr src.length))

/-- Any number of moves. -/
abbrev DeviceMoves : Sys → Sys → Prop := Relation.ReflTransGen DeviceStep

variable {s s' : Sys} {size : ℕ} {value addr : U64}

lemma SysQuiet.moves {t : Sys} (h : SysQuiet s t) : DeviceMoves s t := .single (.quiet h)

/-- The writes of a virtio device, in the shared state. -/
lemma moves_of_dma {p q : Dram × List Event} (h : DmaMoves p q) (s : Sys)
    (hp : (s.ram, s.log) = p) :
    DeviceMoves s { s with ram := q.1, log := q.2 } := by
  induction h with
  | refl =>
    subst hp
    exact .refl
  | tail _ hstep ih =>
    refine ih.tail ?_
    cases hstep with
    | write hw => exact .dma hw

/-! ## Accesses to devices -/

/-- Reading a register of a virtio device has no effect. -/
lemma final_slotLoad {D : Type} [VirtioDevice D] (offset size : ℕ) (slot : Slot D) :
    final (Slot.load offset size) slot = slot := by
  unfold final Slot.load
  split_ifs <;> rfl

lemma final_deviceLoad (id : DevId) (offset size : ℕ) (s : Sys) :
    SysQuiet s (final (deviceLoad id offset size) s) := by
  cases id with
  | blk | net | rng =>
    unfold deviceLoad
    rw [final_zoom, final_slotLoad]
    exact ⟨rfl, rfl, rfl, rfl, rfl⟩
  | uart | clint | plic | syscon | rtc =>
    unfold deviceLoad
    rw [final_zoom]
    exact ⟨rfl, rfl, rfl, rfl, rfl⟩

/-- Putting back a slot whose device made moves. -/
lemma moves_putBlk {slot : Slot Blk}
    (h : DmaMoves (s.ram, s.log) slot.env.shared) : DeviceMoves s (putBlk slot s) :=
  (moves_of_dma h s rfl).tail (.quiet ⟨rfl, rfl, rfl, rfl, rfl⟩)

lemma moves_putNet {slot : Slot Net}
    (h : DmaMoves (s.ram, s.log) slot.env.shared) : DeviceMoves s (putNet slot s) :=
  (moves_of_dma h s rfl).tail (.quiet ⟨rfl, rfl, rfl, rfl, rfl⟩)

lemma moves_putRng {slot : Slot Rng}
    (h : DmaMoves (s.ram, s.log) slot.env.shared) : DeviceMoves s (putRng slot s) :=
  (moves_of_dma h s rfl).tail (.quiet ⟨rfl, rfl, rfl, rfl, rfl⟩)

/-- A relation that whatever the devices do to the shared state keeps. -/
structure DeviceKeeps (R : Sys → Sys → Prop) : Prop where
  uart : ∀ s d, R s { s with uart := d }
  clint : ∀ s d, R s { s with clint := d }
  syscon : ∀ s d, R s { s with syscon := d }
  plicLoad : ∀ s offset size, R s { s with plic := final (Plic.load offset size) s.plic }
  plicStore : ∀ s offset size v, R s { s with plic := final (Plic.store offset size v) s.plic }
  signal : ∀ s on, R s { s with plic := s.plic.setPending uart0Irq on }
  rtcLoad : ∀ s offset size, R s { s with rtc := final (Rtc.load offset size) s.rtc }
  rtcStore : ∀ s offset size v, R s { s with
    rtc := (final (Rtc.store offset size v) (s.rtc, s.plic)).1
    plic := (final (Rtc.store offset size v) (s.rtc, s.plic)).2 }
  rtcPoll : ∀ s, R s { s with rtc := (s.rtc.poll s.plic).1, plic := (s.rtc.poll s.plic).2 }
  blk : ∀ s (slot : Slot Blk), SlotMoved (virtioSlot Sys.blk s).env slot.env → R s (putBlk slot s)
  net : ∀ s (slot : Slot Net), SlotMoved (virtioSlot Sys.net s).env slot.env → R s (putNet slot s)
  rng : ∀ s (slot : Slot Rng), SlotMoved (virtioSlot Sys.rng s).env slot.env → R s (putRng slot s)

section DeviceKeeps

variable {R : Sys → Sys → Prop} (h : DeviceKeeps R)

include h

lemma DeviceKeeps.load (id : DevId) (offset size : ℕ) (s : Sys) :
    R s (final (deviceLoad id offset size) s) := by
  cases id <;> unfold deviceLoad <;> rw [final_zoom]
  case uart => exact h.uart s _
  case clint => exact h.clint s _
  case plic => exact h.plicLoad s _ _
  case syscon => exact h.syscon s _
  case rtc => exact h.rtcLoad s _ _
  all_goals
    rw [final_slotLoad]
    exact h.uart s s.uart

lemma DeviceKeeps.store (id : DevId) (offset size : ℕ) (value : U64) (s : Sys) :
    R s (final (deviceStore id offset size value) s) := by
  cases id <;> unfold deviceStore <;> rw [final_zoom]
  case uart => exact h.uart s _
  case clint => exact h.clint s _
  case plic => exact h.plicStore s _ _ _
  case syscon => exact h.syscon s _
  case rtc => exact h.rtcStore s _ _ _
  case blk => exact h.blk s _ fun _ hR => hR.store _ _ _ _
  case net => exact h.net s _ fun _ hR => hR.store _ _ _ _
  case rng => exact h.rng s _ fun _ hR => hR.store _ _ _ _

end DeviceKeeps

lemma deviceKeeps_moves : DeviceKeeps DeviceMoves where
  uart _ _ := SysQuiet.moves ⟨rfl, rfl, rfl, rfl, rfl⟩
  clint _ _ := SysQuiet.moves ⟨rfl, rfl, rfl, rfl, rfl⟩
  syscon _ _ := SysQuiet.moves ⟨rfl, rfl, rfl, rfl, rfl⟩
  plicLoad _ _ _ := SysQuiet.moves ⟨rfl, rfl, rfl, rfl, rfl⟩
  plicStore _ _ _ _ := SysQuiet.moves ⟨rfl, rfl, rfl, rfl, rfl⟩
  signal _ _ := SysQuiet.moves ⟨rfl, rfl, rfl, rfl, rfl⟩
  rtcLoad _ _ _ := SysQuiet.moves ⟨rfl, rfl, rfl, rfl, rfl⟩
  rtcStore _ _ _ _ := SysQuiet.moves ⟨rfl, rfl, rfl, rfl, rfl⟩
  rtcPoll _ := SysQuiet.moves ⟨rfl, rfl, rfl, rfl, rfl⟩
  blk _ _ h := moves_putBlk (h _ slotKeeps_moves)
  net _ _ h := moves_putNet (h _ slotKeeps_moves)
  rng _ _ h := moves_putRng (h _ slotKeeps_moves)

/-- A virtio slot ignores a store of another width than four. -/
lemma final_slotStore {D : Type} [VirtioDevice D] {offset : ℕ} (h : size ≠ 4)
    (slot : Slot D) : final (Slot.store offset size value) slot = slot := by
  unfold final Slot.store
  by_cases h₁ : offset ≥ Slot.config
  · simp only [if_pos h₁]
  · simp only [if_neg h₁, if_pos h]

lemma quiet_deviceStore (id : DevId) (offset : ℕ) (value : U64) (h : size ≠ 4) (s : Sys) :
    SysQuiet s (final (deviceStore id offset size value) s) := by
  cases id with
  | blk | net | rng =>
    unfold deviceStore
    rw [final_zoom, final_slotStore h]
    exact ⟨rfl, rfl, rfl, rfl, rfl⟩
  | uart | clint | plic | syscon | rtc =>
    unfold deviceStore
    rw [final_zoom]
    exact ⟨rfl, rfl, rfl, rfl, rfl⟩

/-- A refused store leaves RAM alone. -/
lemma quiet_deviceStore_error {id : DevId} {offset : ℕ} {t : Trap}
    (h : deviceStore id offset size value s = .error t s') : SysQuiet s s' := by
  by_cases hsize : size = 4
  swap
  · have hq := quiet_deviceStore id offset value hsize s
    rwa [final_of_error h] at hq
  have hslot : ∀ {D : Type} [VirtioDevice D] (slot slot' : Slot D),
      Slot.store offset size value slot ≠ .error t slot' := by
    intro D _ slot slot'
    unfold Slot.store
    split_ifs <;> simp_all
  cases id with
  | blk | net | rng =>
    unfold deviceStore at h
    obtain ⟨slot, hs, -⟩ := zoom_eq_error.mp h
    exact absurd hs (hslot _ _)
  | uart | clint | plic | syscon | rtc =>
    unfold deviceStore at h
    obtain ⟨d, -, rfl⟩ := zoom_eq_error.mp h
    exact ⟨rfl, rfl, rfl, rfl, rfl⟩

/-! ## Accesses over the bus -/

lemma quiet_mmioEpoch (s : Sys) : SysQuiet s { s with mmioEpoch := s.mmioEpoch + 1 } :=
  ⟨rfl, rfl, rfl, rfl, rfl⟩

/-- The bytes `[addr, addr + size)` are in RAM. -/
def InRam (d : Dram) (addr : U64) (size : ℕ) : Prop :=
  dramBase ≤ addr ∧ d.inRange (addr - dramBase).toNat size

instance (d : Dram) (addr : U64) (size : ℕ) : Decidable (InRam d addr size) := by
  unfold InRam
  infer_instance

/-- Whether an access is in RAM depends on the size of RAM only. -/
lemma inRam_congr {d d' : Dram} (h : d'.len = d.len) : InRam d' addr size ↔ InRam d addr size := by
  rw [InRam, InRam, Dram.inRange_iff, Dram.inRange_iff, h]

lemma InRam.start (h : InRam s.ram addr size) :
    dramBase ≤ addr ∧ (addr - dramBase).toNat < s.ram.len :=
  ⟨h.1, (Dram.inRange_iff _ |>.mp h.2).1⟩

lemma busLoad_ram {ty : AccessType} (h : InRam s.ram addr size) :
    Bus.load addr size ty s =
      .ok (Bytes.load s.ram.mem (addr - dramBase).toNat (min size 8)) s := by
  unfold Bus.load Dram.load
  rw [if_pos h.1, if_pos h.2]

/-- A load is answered by RAM, refused, or routed to a device. -/
lemma busLoad_cases (addr : U64) (size : ℕ) (ty : AccessType) (s : Sys) :
    (InRam s.ram addr size ∧
      Bus.load addr size ty s = .ok (Bytes.load s.ram.mem (addr - dramBase).toNat (min size 8)) s) ∨
    (¬ InRam s.ram addr size ∧ (dramBase ≤ addr ∧ (addr - dramBase).toNat < s.ram.len) ∧
      Bus.load addr size ty s = .error ⟨accessFaultFor ty, addr⟩ s) ∨
    (¬ InRam s.ram addr size ∧ ¬ (dramBase ≤ addr ∧ (addr - dramBase).toNat < s.ram.len) ∧
      Bus.load addr size ty s = loadDevice addr size ty s) := by
  by_cases hin : InRam s.ram addr size
  · exact .inl ⟨hin, busLoad_ram hin⟩
  refine .inr ?_
  unfold Bus.load
  by_cases hbase : dramBase ≤ addr
  · rw [if_pos hbase, Dram.load_eq_none.mpr fun h => hin ⟨hbase, h⟩]
    dsimp only
    split_ifs with hlen
    · exact .inl ⟨hin, ⟨hbase, hlen⟩, rfl⟩
    · exact .inr ⟨hin, fun h => hlen h.2, rfl⟩
  · exact .inr ⟨hin, fun h => hbase h.1, if_neg hbase⟩

/-- A store goes to RAM, is refused, or is routed to a device. -/
lemma busStore_cases (addr : U64) (size : ℕ) (value : U64) (s : Sys) :
    (InRam s.ram addr size ∧ ∃ ram, s.ram.store (addr - dramBase).toNat size value = some ram ∧
      Bus.store addr size value s = .ok () { s with ram := ram }) ∨
    (¬ InRam s.ram addr size ∧ (dramBase ≤ addr ∧ (addr - dramBase).toNat < s.ram.len) ∧
      Bus.store addr size value s = .error ⟨.storeAMOAccessFault, addr⟩ s) ∨
    (¬ InRam s.ram addr size ∧ ¬ (dramBase ≤ addr ∧ (addr - dramBase).toNat < s.ram.len) ∧
      Bus.store addr size value s = storeDevice addr size value s) := by
  unfold Bus.store
  by_cases hbase : dramBase ≤ addr
  swap
  · exact .inr (.inr ⟨fun h => hbase h.1, fun h => hbase h.1, if_neg hbase⟩)
  rw [if_pos hbase]
  cases hst : s.ram.store (addr - dramBase).toNat size value with
  | some ram => exact .inl ⟨⟨hbase, (Dram.store_eq_some hst).1⟩, ram, rfl, rfl⟩
  | none =>
    have hin : ¬ InRam s.ram addr size := fun h => Dram.store_eq_none.mp hst h.2
    dsimp only
    split_ifs with hlen
    · exact .inr (.inl ⟨hin, ⟨hbase, hlen⟩, rfl⟩)
    · exact .inr (.inr ⟨hin, fun h => hlen h.2, rfl⟩)

lemma busStore_ram (value : U64) (h : InRam s.ram addr size) :
    ∃ ram, s.ram.store (addr - dramBase).toNat size value = some ram ∧
      Bus.store addr size value s = .ok () { s with ram := ram } := by
  rcases busStore_cases addr size value s with ⟨-, hram⟩ | ⟨hout, -⟩ | ⟨hout, -⟩
  · exact hram
  · exact absurd h hout
  · exact absurd h hout

/-- What a successful store over the bus did: it wrote RAM, or it moved a device. -/
lemma busStore_ok (h : Bus.store addr size value s = .ok () s') :
    (InRam s.ram addr size ∧ ∃ ram, s.ram.store (addr - dramBase).toNat size value = some ram ∧
      s' = { s with ram := ram }) ∨
    (¬ InRam s.ram addr size ∧ DeviceMoves s s' ∧ (size ≠ 4 → SysQuiet s s')) := by
  rcases busStore_cases addr size value s with ⟨hin, ram, hst, hrun⟩ | ⟨-, -, hrun⟩ |
    ⟨hout, -, hrun⟩
  · rw [hrun] at h
    cases h
    exact .inl ⟨hin, ram, hst, rfl⟩
  · rw [hrun] at h
    cases h
  · rw [hrun, storeDevice] at h
    split at h
    · cases h
    · next base id hfind =>
        have hm := deviceKeeps_moves.store id (addr - base).toNat size value
          { s with mmioEpoch := s.mmioEpoch + 1 }
        rw [final_of_ok h] at hm
        refine .inr ⟨hout, hm.head (.quiet (quiet_mmioEpoch s)), fun hsize => ?_⟩
        have hq := quiet_deviceStore id (addr - base).toNat value hsize
          { s with mmioEpoch := s.mmioEpoch + 1 }
        rw [final_of_ok h] at hq
        exact trans_of SysQuiet (quiet_mmioEpoch s) hq

/-- A refused store over the bus changed nothing but the state of a device. -/
lemma busStore_error {t : Trap} (h : Bus.store addr size value s = .error t s') :
    ¬ InRam s.ram addr size ∧ SysQuiet s s' := by
  rcases busStore_cases addr size value s with ⟨-, ram, -, hrun⟩ | ⟨hout, -, hrun⟩ | ⟨hout, -, hrun⟩
  · rw [hrun] at h
    cases h
  · rw [hrun] at h
    cases h
    exact ⟨hout, refl_of SysQuiet s⟩
  · rw [hrun, storeDevice] at h
    refine ⟨hout, ?_⟩
    split at h
    · cases h
      exact refl_of SysQuiet s
    · exact trans_of SysQuiet (quiet_mmioEpoch s) (quiet_deviceStore_error h)

/-! ## Where an access ends -/

/-- The device an access to `addr` goes to: none for what starts in RAM. -/
def Sys.device (s : Sys) (addr : U64) : Option (U64 × DevId) :=
  if dramBase ≤ addr ∧ (addr - dramBase).toNat < s.ram.len then none else s.find addr

lemma Sys.device_of_inRam (h : InRam s.ram addr size) : s.device addr = none := if_pos h.start

lemma Sys.find_of_device {r : U64 × DevId} (h : s.device addr = some r) : s.find addr = some r := by
  unfold Sys.device at h
  split_ifs at h
  exact h

/-- The count of device accesses goes up before the device is asked. -/
def Sys.countAccess (s : Sys) : Sys := { s with mmioEpoch := s.mmioEpoch + 1 }

lemma final_busLoad (addr : U64) (size : ℕ) (ty : AccessType) (s : Sys) :
    final (Bus.load addr size ty) s =
      match s.device addr with
      | none => s
      | some (base, id) => final (deviceLoad id (addr - base).toNat size) s.countAccess := by
  unfold Sys.device
  rcases busLoad_cases addr size ty s with ⟨hin, h⟩ | ⟨-, hstart, h⟩ | ⟨-, hstart, h⟩
  · rw [if_pos hin.start, final_of_ok h]
  · rw [if_pos hstart, final_of_error h]
  · rw [if_neg hstart, final, h]
    unfold loadDevice Sys.countAccess final
    cases s.find addr with
    | none => rfl
    | some r =>
      dsimp only
      cases deviceLoad r.2 (addr - r.1).toNat size { s with mmioEpoch := s.mmioEpoch + 1 } <;> rfl

/-- A load over the bus changes the state of the device it reaches, nothing else. -/
lemma quiet_busLoad (addr : U64) (size : ℕ) (ty : AccessType) :
    Keeps SysQuiet (Bus.load addr size ty) := by
  intro s
  rw [final_busLoad]
  split
  · exact refl_of SysQuiet s
  · exact trans_of SysQuiet (quiet_mmioEpoch s) (final_deviceLoad _ _ _ _)

lemma final_busStore (addr : U64) (size : ℕ) (value : U64) (s : Sys) :
    (∃ ram, InRam s.ram addr size ∧ s.ram.store (addr - dramBase).toNat size value = some ram ∧
      final (Bus.store addr size value) s = { s with ram := ram }) ∨
    final (Bus.store addr size value) s =
      match s.device addr with
      | none => s
      | some (base, id) => final (deviceStore id (addr - base).toNat size value) s.countAccess := by
  unfold Sys.device
  rcases busStore_cases addr size value s with ⟨hin, ram, hst, h⟩ | ⟨-, hstart, h⟩ | ⟨-, hstart, h⟩
  · exact .inl ⟨ram, hin, hst, final_of_ok h⟩
  · rw [if_pos hstart]
    exact .inr (final_of_error h)
  · rw [if_neg hstart, final, h]
    unfold storeDevice Sys.countAccess final
    cases s.find addr <;> exact .inr rfl

end RiscvEmu
