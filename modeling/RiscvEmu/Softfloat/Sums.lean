import RiscvEmu.Softfloat.RoundPack

/-!
# Sums and fused sums are correctly rounded

Two exact values are aligned at the larger one's exponent.  What the smaller one loses to that is
less than a unit, which is all that rounding needs to know, as long as the sum keeps enough leading
places; and it does, since bits are lost only when the exponents are far apart.
-/

namespace RiscvEmu

namespace Softfloat

open Csr Rounding

/-! ## Exact sums -/

/-- A significand at full width, with some places free at its end. -/
structure Wide (n : ℕ) : Prop where
  top : 2 ^ T ≤ n
  lt : n < 2 ^ (T + 1)
  dvd : 2 ^ 15 ∣ n

lemma wide_normalise {sig : ℕ} (hsig : sig ≠ 0) (hlt : sig < 2 ^ 106) (exp : ℤ) :
    Wide (normalise sig exp).1 ∧ ((normalise sig exp).1 : ℚ) * 2 ^ (normalise sig exp).2 =
      sig * 2 ^ exp := by
  have hlog : Nat.log2 sig < 106 := (Nat.log2_lt hsig).mpr hlt
  have hlow := Nat.log2_self_le hsig
  have hhigh := Nat.lt_log2_self (n := sig)
  obtain ⟨j, hj⟩ := Nat.exists_eq_add_of_le (by rw [T]; omega : Nat.log2 sig + 15 ≤ T)
  have hsub : T - Nat.log2 sig = 15 + j := by omega
  have hT : 2 ^ T = 2 ^ Nat.log2 sig * 2 ^ (15 + j) := by rw [← Nat.pow_add]; congr 1; omega
  rw [normalise, if_neg hsig, hsub]
  refine ⟨⟨?_, ?_, ?_⟩, ?_⟩
  · rw [hT]
    exact Nat.mul_le_mul_right _ hlow
  · rw [Nat.pow_succ, hT]
    calc sig * 2 ^ (15 + j) < 2 ^ (Nat.log2 sig + 1) * 2 ^ (15 + j) :=
          Nat.mul_lt_mul_of_pos_right hhigh (Nat.two_pow_pos _)
      _ = 2 ^ Nat.log2 sig * 2 ^ (15 + j) * 2 := by ring
  · exact Dvd.dvd.mul_left (Nat.pow_dvd_pow 2 (Nat.le_add_right 15 j)) sig
  · dsimp only
    rw [zpow_sub₀ (by norm_num), zpow_natCast]
    push_cast
    rw [mul_assoc, mul_div_cancel₀ _ (by positivity)]

/-- The end of `addExact`: two full-width significands, the first at least as large. -/
def addOrdered (bs : Bool) (bn : ℕ) (be : ℤ) (ss : Bool) (sn : ℕ) (d : ℕ) :
    Option (Bool × ℕ × ℤ × Bool) :=
  let aligned := sn / 2 ^ d
  let sticky := sn % 2 ^ d != 0
  if bs = ss then some (bs, bn + aligned, be, sticky)
  else
    let diffSig := if sticky then bn - aligned - 1 else bn - aligned
    if diffSig = 0 ∧ !sticky then none else some (bs, diffSig, be, sticky)

/-- What a sum stands for. -/
def SumDenotes (x : ℚ) : Option (Bool × ℕ × ℤ × Bool) → Prop
  | none => x = 0
  | some (s, sig, e, st) =>
    sig ≠ 0 ∧ (st → 53 ≤ Nat.log2 sig) ∧ ∃ m, 0 < m ∧ x = signed s m ∧ Denotes m sig e st

variable {bn sn d : ℕ} {be : ℤ}

/-- A quotient of natural numbers, and whether something is lost. -/
lemma quotient_bounds (n : ℕ) {d : ℕ} (hd : 0 < d) :
    ((n / d : ℕ) : ℚ) ≤ n / d ∧ (n : ℚ) / d < (n / d : ℕ) + 1 ∧
    ((n % d != 0) = false ↔ (n : ℚ) / d = (n / d : ℕ)) := by
  have hpos : (0 : ℚ) < d := by exact_mod_cast hd
  have hdiv : (d : ℚ) * (n / d : ℕ) + (n % d : ℕ) = n := by exact_mod_cast Nat.div_add_mod n d
  have hmod : ((n % d : ℕ) : ℚ) < d := by exact_mod_cast Nat.mod_lt n hd
  have hr : (0 : ℚ) ≤ (n % d : ℕ) := Nat.cast_nonneg _
  refine ⟨?_, ?_, ?_⟩
  · rw [le_div_iff₀ hpos]
    linarith
  · rw [div_lt_iff₀ hpos]
    linarith
  · rw [bne_eq_false_iff_eq, div_eq_iff hpos.ne', ← Nat.cast_inj (R := ℚ), Nat.cast_zero]
    constructor <;> intro h <;> linarith

/-- What is left of the smaller significand, and whether something is lost. -/
lemma aligned_bounds (sn d : ℕ) :
    ((sn / 2 ^ d : ℕ) : ℚ) ≤ sn / 2 ^ d ∧ (sn : ℚ) / 2 ^ d < (sn / 2 ^ d : ℕ) + 1 ∧
    ((sn % 2 ^ d != 0) = false ↔ (sn : ℚ) / 2 ^ d = (sn / 2 ^ d : ℕ)) := by
  have h := quotient_bounds sn (Nat.two_pow_pos d)
  rwa [Nat.cast_pow, Nat.cast_ofNat] at h

lemma denotes_of_units {m t : ℚ} {sig : ℕ} {st : Bool} (hm : m = t * 2 ^ be) (hlow : sig ≤ t)
    (hhigh : t < sig + 1) (hexact : st = false ↔ t = sig) : Denotes m sig be st := by
  have hu := Cell.pow_pos (K := ℚ) be
  rw [hm]
  refine ⟨mul_le_mul_of_nonneg_right hlow hu.le, mul_lt_mul_of_pos_right hhigh hu, ?_⟩
  rw [hexact, mul_left_inj' hu.ne']

/-- When bits are lost, the exponents are far apart. -/
lemma aligned_small (hs : Wide sn) (hlost : sn % 2 ^ d ≠ 0) : sn / 2 ^ d < 2 ^ 105 := by
  have hd : 15 < d := by
    by_contra hle
    exact hlost (Nat.mod_eq_zero_of_dvd ((Nat.pow_dvd_pow 2 (by omega)).trans hs.dvd))
  rw [Nat.div_lt_iff_lt_mul (Nat.two_pow_pos d), ← Nat.pow_add]
  exact hs.lt.trans_le (Nat.pow_le_pow_right (by norm_num) (by rw [T]; omega))

lemma signed_add_signed (s : Bool) (v w : ℚ) : signed s v + signed s w = signed s (v + w) := by
  cases s <;> simp [signed]; ring

lemma signed_add_signed_of_ne {s s' : Bool} (h : s ≠ s') (v w : ℚ) :
    signed s v + signed s' w = signed s (v - w) := by
  cases s <;> cases s' <;> simp [signed] at * <;> ring

lemma Wide.log2 (hb : Wide bn) {sig : ℕ} (hle : bn ≤ sig) : sig ≠ 0 ∧ 53 ≤ Nat.log2 sig := by
  have hpow : 2 ^ 53 ≤ 2 ^ T := Nat.pow_le_pow_right (by norm_num) (by rw [T]; norm_num)
  have hsig : 2 ^ 53 ≤ sig := hpow.trans (hb.top.trans hle)
  have hne : sig ≠ 0 := by omega
  exact ⟨hne, (Nat.le_log2 hne).mpr hsig⟩

/-- Magnitudes of one sign add. -/
lemma sumDenotes_add (hb : Wide bn) (s : Bool) :
    SumDenotes (signed s (bn * 2 ^ be : ℚ) + signed s (sn / 2 ^ d * 2 ^ be : ℚ))
    (some (s, bn + sn / 2 ^ d, be, sn % 2 ^ d != 0)) := by
  obtain ⟨hlow, hhigh, hexact⟩ := aligned_bounds sn d
  obtain ⟨hne, hlog⟩ := hb.log2 (Nat.le_add_right bn (sn / 2 ^ d))
  have hu := Cell.pow_pos (K := ℚ) be
  have hbn : (0 : ℚ) < bn := by exact_mod_cast (Nat.two_pow_pos T).trans_le hb.top
  have hpos : (0 : ℚ) < bn + sn / 2 ^ d :=
    add_pos_of_pos_of_nonneg hbn (div_nonneg (Nat.cast_nonneg _) (by positivity))
  refine ⟨hne, fun _ => hlog, (bn + sn / 2 ^ d) * 2 ^ be, mul_pos hpos hu, ?_,
    denotes_of_units rfl ?_ ?_ ?_⟩
  · rw [signed_add_signed, add_mul]
  · push_cast
    linarith
  · push_cast
    linarith
  · rw [hexact]
    push_cast
    constructor <;> intro h <;> linarith

/-- Nothing is lost: magnitudes subtract exactly. -/
lemma sumDenotes_sub {bs ss : Bool} (be : ℤ) (hsign : bs ≠ ss) (hle : sn / 2 ^ d ≤ bn)
    (hexact : sn % 2 ^ d = 0) :
    SumDenotes (signed bs (bn * 2 ^ be : ℚ) + signed ss (sn / 2 ^ d * 2 ^ be : ℚ))
      (if bn - sn / 2 ^ d = 0 then none else some (bs, bn - sn / 2 ^ d, be, false)) := by
  have hS : (sn : ℚ) / 2 ^ d = (sn / 2 ^ d : ℕ) := (aligned_bounds sn d).2.2.mp (by simp [hexact])
  have hu := Cell.pow_pos (K := ℚ) be
  rw [signed_add_signed_of_ne hsign, hS, ← sub_mul, ← Nat.cast_sub hle]
  split_ifs with hzero
  · show signed bs _ = 0
    rw [hzero]
    simp [signed]
  · have hpos : (0 : ℚ) < (bn - sn / 2 ^ d : ℕ) := by exact_mod_cast Nat.pos_of_ne_zero hzero
    refine ⟨hzero, by simp, _, mul_pos hpos hu, rfl, denotes_of_units rfl le_rfl ?_ (by simp)⟩
    linarith

/-- Something is lost: one is taken off, and the difference is within the unit above. -/
lemma sumDenotes_sub_lost {bs ss : Bool} (be : ℤ) (hb : Wide bn) (hs : Wide sn) (hsign : bs ≠ ss)
    (hlost : sn % 2 ^ d ≠ 0) :
    SumDenotes (signed bs (bn * 2 ^ be : ℚ) + signed ss (sn / 2 ^ d * 2 ^ be : ℚ))
      (some (bs, bn - sn / 2 ^ d - 1, be, true)) := by
  obtain ⟨hlow, hhigh, hexact⟩ := aligned_bounds sn d
  have hne : (sn : ℚ) / 2 ^ d ≠ (sn / 2 ^ d : ℕ) := mt hexact.mpr (by simp [hlost])
  have hu := Cell.pow_pos (K := ℚ) be
  have hsmall := aligned_small hs hlost
  have htop : 2 ^ 120 ≤ bn := hb.top
  rw [signed_add_signed_of_ne hsign, ← sub_mul]
  generalize sn / 2 ^ d = q at hlow hhigh hne hsmall ⊢
  have hq : q + 1 ≤ bn := by omega
  have hcast : ((bn - q - 1 : ℕ) : ℚ) = bn - q - 1 := by
    rw [Nat.sub_sub, Nat.cast_sub hq]
    push_cast
    ring
  have hlt : (q : ℚ) < sn / 2 ^ d := lt_of_le_of_ne hlow hne.symm
  have hsig : 2 ^ 53 ≤ bn - q - 1 := by omega
  have hsig0 : bn - q - 1 ≠ 0 := by omega
  have hpos : (0 : ℚ) ≤ bn - q - 1 := by
    rw [← hcast]
    exact Nat.cast_nonneg _
  refine ⟨hsig0, fun _ => (Nat.le_log2 hsig0).mpr hsig, _, mul_pos (by linarith) hu, rfl,
    denotes_of_units rfl ?_ ?_ ?_⟩
  · rw [hcast]
    linarith
  · rw [hcast]
    linarith
  · rw [hcast]
    simp only [Bool.true_eq_false, false_iff]
    intro h
    linarith

theorem addOrdered_denotes (hb : Wide bn) (hs : Wide sn) (hle : d = 0 → sn ≤ bn) (bs ss : Bool) :
    SumDenotes (signed bs (bn * 2 ^ be : ℚ) + signed ss (sn / 2 ^ d * 2 ^ be : ℚ))
      (addOrdered bs bn be ss sn d) := by
  rw [addOrdered]
  by_cases hsign : bs = ss
  · subst hsign
    rw [if_pos rfl]
    exact sumDenotes_add hb bs
  · rw [if_neg hsign]
    by_cases hlost : sn % 2 ^ d = 0
    · have hq : sn / 2 ^ d ≤ bn := by
        rcases Nat.eq_zero_or_pos d with rfl | hd
        · simpa using hle rfl
        · refine le_of_lt (lt_of_lt_of_le ?_ hb.top)
          rw [Nat.div_lt_iff_lt_mul (Nat.two_pow_pos d), ← Nat.pow_add]
          exact hs.lt.trans_le (Nat.pow_le_pow_right (by norm_num) (by omega))
      simpa [hlost] using sumDenotes_sub be hsign hq hlost
    · have hst : (sn % 2 ^ d != 0) = true := by simpa using hlost
      simpa [hst] using sumDenotes_sub_lost be hb hs hsign hlost

lemma aligned_far (hs : Wide sn) : (if d ≥ 127 then 0 else sn / 2 ^ d) = sn / 2 ^ d ∧
    (if d ≥ 127 then true else sn % 2 ^ d != 0) = (sn % 2 ^ d != 0) := by
  split_ifs with hfar
  · have hlt : sn < 2 ^ d := hs.lt.trans_le (Nat.pow_le_pow_right (by norm_num) (by rw [T]; omega))
    have hpos : 0 < sn := (Nat.two_pow_pos T).trans_le hs.top
    rw [Nat.div_eq_of_lt hlt, Nat.mod_eq_of_lt hlt]
    exact ⟨rfl, by simpa using hpos.ne'⟩
  · exact ⟨rfl, rfl⟩

/-- `addExact` orders its arguments and aligns the second. -/
lemma addExact_eq {aSig bSig : ℕ} {aExp bExp : ℤ} (aSign bSign : Bool)
    (ha : Wide (normalise aSig aExp).1) (hb : Wide (normalise bSig bExp).1) :
    let a := normalise aSig aExp
    let b := normalise bSig bExp
    addExact aSign aSig aExp bSign bSig bExp =
      if a.2 > b.2 ∨ a.2 = b.2 ∧ a.1 ≥ b.1 then addOrdered aSign a.1 a.2 bSign b.1 (a.2 - b.2).toNat
      else addOrdered bSign b.1 b.2 aSign a.1 (b.2 - a.2).toNat := by
  unfold addExact
  generalize normalise aSig aExp = a at ha ⊢
  generalize normalise bSig bExp = b at hb ⊢
  have ha0 : a.1 ≠ 0 := ((Nat.two_pow_pos T).trans_le ha.top).ne'
  have hb0 : b.1 ≠ 0 := ((Nat.two_pow_pos T).trans_le hb.top).ne'
  by_cases horder : a.2 > b.2 ∨ a.2 = b.2 ∧ a.1 ≥ b.1
  · have hfirst : (decide (a.2 > b.2) || (a.2 == b.2 && decide (a.1 ≥ b.1))) = true := by
      simpa using horder
    obtain ⟨haligned, hsticky⟩ := aligned_far (d := (a.2 - b.2).toNat) hb
    simp only [hfirst, if_true, if_pos horder, if_neg hb0, haligned, hsticky]
    rfl
  · have hfirst : (decide (a.2 > b.2) || (a.2 == b.2 && decide (a.1 ≥ b.1))) = false := by
      simpa using horder
    obtain ⟨haligned, hsticky⟩ := aligned_far (d := (b.2 - a.2).toNat) ha
    simp only [hfirst, Bool.false_eq_true, if_false, if_neg horder, if_neg ha0, haligned, hsticky]
    rfl

theorem addExact_denotes {aSig bSig : ℕ} (ha : aSig ≠ 0) (ha' : aSig < 2 ^ 106) (hb : bSig ≠ 0)
    (hb' : bSig < 2 ^ 106) (aSign bSign : Bool) (aExp bExp : ℤ) :
    SumDenotes (signed aSign (aSig * 2 ^ aExp : ℚ) + signed bSign (bSig * 2 ^ bExp : ℚ))
      (addExact aSign aSig aExp bSign bSig bExp) := by
  obtain ⟨hwa, hva⟩ := wide_normalise ha ha' aExp
  obtain ⟨hwb, hvb⟩ := wide_normalise hb hb' bExp
  have hshift (n : ℕ) {e e' : ℤ} (h : e ≤ e') : (n : ℚ) * 2 ^ e =
    n / 2 ^ (e' - e).toNat * 2 ^ e' := by
    obtain ⟨j, rfl⟩ := Int.le.dest h
    rw [add_sub_cancel_left, Int.toNat_natCast, zpow_add₀ (by norm_num), zpow_natCast]
    have : (2 : ℚ) ^ j ≠ 0 := by positivity
    rw [mul_comm (2 ^ e : ℚ), ← mul_assoc, div_mul_cancel₀ _ this]
  rw [addExact_eq aSign bSign hwa hwb, ← hva, ← hvb]
  generalize normalise aSig aExp = a at hwa ⊢
  generalize normalise bSig bExp = b at hwb ⊢
  split_ifs with horder
  · rw [hshift b.1 (by omega : b.2 ≤ a.2)]
    exact addOrdered_denotes hwa hwb (by omega) aSign bSign
  · rw [add_comm, hshift a.1 (by omega : a.2 ≤ b.2)]
    exact addOrdered_denotes hwb hwa (by omega) bSign aSign

/-! ## Operands -/

section Operands

variable {f : Fmt} (hf : f.Ieee) {bits : U64}

/-- What an operand is: nothing else is used of it. -/
inductive Operand (f : Fmt) (bits : U64) : Class → Prop
  | nan (h : f.IsNan bits) : Operand f bits (.nan (f.IsSignalling bits))
  | inf (hnan : ¬f.IsNan bits) (h : f.IsInf bits) : Operand f bits .inf
  | zero (hnan : ¬f.IsNan bits) (hinf : ¬f.IsInf bits) (h : f.IsZero bits)
    (hm : f.magnitude bits = 0) :
      Operand f bits .zero
  | finite (sig : ℕ) (exp : ℤ) (hnan : ¬f.IsNan bits) (hinf : ¬f.IsInf bits)
    (hzero : ¬f.IsZero bits)
      (hsig : sig ≠ 0) (hlt : sig < 2 ^ f.p) (hexp : f.qmin ≤ exp)
      (hm : f.magnitude bits = sig * 2 ^ exp) :
      Operand f bits (.finite sig exp)

include hf

lemma operand_unpack (bits : U64) : Operand f bits (unpack bits f).cls := by
  have hfrac := f.fracField_lt bits
  have hp : 2 ^ f.p = 2 ^ f.fracBits + 2 ^ f.fracBits := by rw [Fmt.p, Nat.pow_succ]; ring
  rw [unpack_eq hf]
  dsimp only
  split_ifs with hnan hinf hzero
  · exact .nan hnan
  · exact .inf hnan hinf
  · exact .zero hnan hinf hzero
      (by rw [Fmt.magnitude, if_pos hzero.1, hzero.2, Nat.cast_zero, zero_mul])
  · rw [readFinite]
    split_ifs with hsub
    · refine .finite _ _ hnan hinf hzero (fun h => hzero ⟨hsub, h⟩) (by omega) le_rfl ?_
      rw [Fmt.magnitude, if_pos hsub]
    · have hpos := Nat.two_pow_pos f.fracBits
      refine .finite _ _ hnan hinf hzero (by omega) (by omega) (by omega) ?_
      rw [Fmt.magnitude, if_neg hsub]
      push_cast
      rfl

omit hf in
lemma isFinite_of (hnan : ¬f.IsNan bits) (hinf : ¬f.IsInf bits) : f.IsFinite bits := by
  have hlt := f.expField_lt bits
  rw [Fmt.IsFinite]
  by_contra hge
  have hfull : f.expField bits = 2 ^ f.expBits - 1 := by omega
  exact hnan ⟨hfull, fun h => hinf ⟨hfull, h⟩⟩

lemma magnitude_not_overflow (hfin : f.IsFinite bits) :
    ¬(2 : ℚ) ^ (f.emax + 1) ≤ f.magnitude bits := by
  have hfrac := f.fracField_lt bits
  have hmax := toNat_expMax hf
  have hfour := two_pow_expBits hf
  rw [Fmt.IsFinite] at hfin
  rw [Fmt.magnitude]
  split_ifs with hsub
  · exact kept_not_overflow hf hfrac.le
  · have hp : 2 ^ f.p = 2 ^ f.fracBits + 2 ^ f.fracBits := by rw [Fmt.p, Nat.pow_succ]; ring
    have h : (2 : ℚ) ^ (f.emax + 1) ≤
        (2 ^ f.fracBits + f.fracField bits : ℕ) * 2 ^ ((f.expField bits : ℤ) - 1 + f.qmin) ↔ _ :=
      overflow_iff hf (Nat.le_add_right _ _) (by omega)
    push_cast at h
    rw [h]
    omega

variable {sig : ℕ} {c : Class}

omit hf in
lemma signed_mem_floats {p : ℕ} {emin : WithBot ℤ} {exp : ℤ} (hlt : sig < 2 ^ p) (he : emin ≤ exp)
    (sign : Bool) :
    signed sign (sig * 2 ^ exp : ℚ) ∈ floats p emin := by
  have hbase : (sig : ℚ) * 2 ^ exp ∈ floats p emin := by
    refine ⟨sig, exp, ?_, he, by push_cast; rfl⟩
    rw [Nat.abs_cast]
    exact_mod_cast hlt
  cases sign
  · exact hbase
  · exact neg_mem_floats hbase

/-- A number of the format is delivered as it is. -/
lemma delivers_self {exp : ℤ} {sign : Bool} (hsig : sig ≠ 0) (hlt : sig < 2 ^ f.p)
    (hexp : f.qmin ≤ exp) (hreads : f.Reads bits sign (sig * 2 ^ exp)) (rm : Rm) :
    Delivers f rm (signed sign (sig * 2 ^ exp : ℚ)) (bits, 0) := by
  have hu := Cell.pow_pos (K := ℚ) exp
  have hpos : (0 : ℚ) < sig * 2 ^ exp := mul_pos (by exact_mod_cast Nat.pos_of_ne_zero hsig) hu
  have hover := hreads.magnitude ▸ magnitude_not_overflow hf hreads.finite
  refine .of_finite hpos (rounds_self _ (signed_mem_floats hlt (WithBot.coe_le_coe.mpr hexp) sign))
    (rounds_self _ (signed_mem_floats hlt bot_le sign)) hpos.le hpos.le hover hreads ?_
  exact (if_pos rfl).symm

omit hf in
lemma reads_of_operand (hpattern : f.IsPattern bits) (hfin : f.IsFinite bits) :
    f.Reads bits (f.signOf bits) (f.magnitude bits) := ⟨hpattern, hfin, rfl, rfl⟩

omit hf in
lemma xor_two_pow {low k : ℕ} (h : low < 2 ^ k) : low ^^^ 2 ^ k = 2 ^ k + low := by
  have hor := Nat.two_pow_add_eq_or_of_lt h 1
  rw [Nat.mul_one] at hor
  rw [hor]
  refine Nat.eq_of_testBit_eq fun i => ?_
  rw [Nat.testBit_xor, Nat.testBit_or, Nat.testBit_two_pow]
  by_cases hi : k = i
  · subst hi
    simp [Nat.testBit_lt_two_pow h]
  · simp [hi]

omit hf in
lemma toNat_eq_fields (hpattern : f.IsPattern bits) : bits.toNat =
    (f.signOf bits).toNat * 2 ^ (f.expBits + f.fracBits) +
    (f.expField bits * 2 ^ f.fracBits + f.fracField bits) := by
  have hlow : f.expField bits * 2 ^ f.fracBits + f.fracField bits =
    bits.toNat % 2 ^ (f.expBits + f.fracBits) := by
    rw [Nat.add_comm f.expBits, Nat.pow_add, Nat.mod_mul, Fmt.expField, Fmt.fracField]
    ring
  have htop : (f.signOf bits).toNat = bits.toNat / 2 ^ (f.expBits + f.fracBits) := by
    have hlt : bits.toNat / 2 ^ (f.expBits + f.fracBits) < 2 := by
      rw [Nat.div_lt_iff_lt_mul (Nat.two_pow_pos _), ← Nat.pow_succ']
      exact hpattern
    rw [Fmt.signOf]
    generalize bits.toNat / 2 ^ (f.expBits + f.fracBits) = q at hlt ⊢
    rcases (by omega : q = 0 ∨ q = 1) with rfl | rfl <;> rfl
  rw [hlow, htop, Nat.div_add_mod']

lemma reads_neg (hpattern : f.IsPattern bits) (hfin : f.IsFinite bits) :
    f.Reads (bits ^^^ f.signBit) (!f.signOf bits) (f.magnitude bits) := by
  have hk : f.expBits + f.fracBits < 64 := by have := hf.width_le; omega
  have hE := f.expField_lt bits
  have hF := f.fracField_lt bits
  have hbits := toNat_eq_fields hpattern
  have hlow := fields_lt hE hF
  have hxor : (bits ^^^ f.signBit).toNat = (!f.signOf bits).toNat * 2 ^ (f.expBits + f.fracBits) +
      (f.expField bits * 2 ^ f.fracBits + f.fracField bits) := by
    rw [BitVec.toNat_xor, Fmt.signBit, toNat_one_shiftLeft hk, hbits]
    cases f.signOf bits
    · simpa using xor_two_pow hlow
    · rw [Bool.toNat_true, Nat.one_mul, ← xor_two_pow hlow, Nat.xor_assoc, Nat.xor_self]
      simp
  obtain ⟨hpattern', hsign, hexp, hfrac⟩ := fields_of_toNat _ hE hF hxor
  refine ⟨hpattern', ?_, hsign, ?_⟩
  · rwa [Fmt.IsFinite, hexp]
  · rw [Fmt.magnitude, hexp, hfrac, Fmt.magnitude]

/-! ## Sums -/

omit hf in
lemma value_eq_signed (bits : U64) : f.value bits = signed (f.signOf bits) (f.magnitude bits) := rfl

omit hf in
lemma signed_negate (bits : U64) (negate : Bool) :
    (if negate then -f.value bits else f.value bits) =
    signed (f.signOf bits != negate) (f.magnitude bits) := by
  rw [value_eq_signed]
  cases negate <;> cases f.signOf bits <;> simp [signed]

omit hf in
lemma signed_zero (sign : Bool) : signed sign (0 : ℚ) = 0 := by
  cases sign <;> simp [signed]

omit hf in
lemma signed_ne_zero {sign : Bool} {m : ℚ} (hm : 0 < m) : signed sign m ≠ 0 := by
  cases sign
  · exact hm.ne'
  · exact neg_ne_zero.mpr hm.ne'

/-- Rounding an exact sum is correct, and so is the zero of a sum that cancels. -/
lemma packSum_delivers {x : ℚ} {sum : Option (Bool × ℕ × ℤ × Bool)} (h : SumDenotes x sum)
    {s₁ s₂ : Bool}
    (hsign : x = 0 → s₁ ≠ s₂) (rm : Rm) : DeliversSum f rm s₁ s₂ x (packSum sum f rm) := by
  have hp : f.p ≤ 53 := by have := hf.fracBits_le; rw [Fmt.p]; omega
  rcases sum with _ | ⟨s, sig, e, st⟩
  · have hx : x = 0 := h
    rw [DeliversSum, if_pos hx, if_neg (hsign hx)]
    exact ⟨reads_zero hf _, rfl⟩
  · obtain ⟨hsig, hlog, m, hm, rfl, hden⟩ := h
    rw [DeliversSum, if_neg (signed_ne_zero hm)]
    exact roundPack_delivers hf hsig hden (fun hst => hp.trans (hlog hst)) s rm

omit hf in
/-- Terms that cancel have different signs. -/
lemma signs_ne_of_cancel {s₁ s₂ : Bool} {m₁ m₂ : ℚ} (h₁ : 0 < m₁) (h₂ : 0 < m₂)
    (h : signed s₁ m₁ + signed s₂ m₂ = 0) : s₁ ≠ s₂ := by
  rintro rfl
  rw [signed_add_signed] at h
  exact signed_ne_zero (add_pos h₁ h₂) h

omit hf in
lemma mul_two_pow_pos (hsig : sig ≠ 0) (exp : ℤ) : (0 : ℚ) < sig * 2 ^ exp :=
  mul_pos (by exact_mod_cast Nat.pos_of_ne_zero hsig) (Cell.pow_pos exp)

lemma lt_two_pow_106 (h : sig < 2 ^ f.p) : sig < 2 ^ 106 :=
  h.trans_le (Nat.pow_le_pow_right (by norm_num) (by have := hf.fracBits_le; rw [Fmt.p]; omega))

omit hf in
lemma Operand.isNan (h : Operand f bits c) : c.isNan = decide (f.IsNan bits) := by
  cases h <;> simp_all [Class.isNan]

omit hf in
lemma Operand.isSnan (h : Operand f bits c) : c.isSnan = decide (f.IsSignalling bits) := by
  cases h with
  | nan h => by_cases hs : f.IsSignalling bits <;> simp [Class.isSnan, hs]
  | inf hnan => simp [Class.isSnan, Fmt.IsSignalling, hnan]
  | zero hnan => simp [Class.isSnan, Fmt.IsSignalling, hnan]
  | finite _ _ hnan => simp [Class.isSnan, Fmt.IsSignalling, hnan]

omit hf in
lemma Operand.isNan_iff (h : Operand f bits c) : f.IsNan bits ↔ c.isNan := by
  rw [h.isNan, decide_eq_true_iff]

omit hf in
lemma Operand.isSnan_iff (h : Operand f bits c) : f.IsSignalling bits ↔ c.isSnan := by
  rw [h.isSnan, decide_eq_true_iff]

omit hf in
lemma isNan_ne {bits : U64} (h : f.IsNan bits) : ¬f.IsInf bits := fun hinf => h.2 hinf.2

omit hf in
lemma Operand.isInf (h : Operand f bits c) : f.IsInf bits ↔ c = .inf := by
  cases h with
  | nan h => simp [isNan_ne h]
  | inf _ h => simp [h]
  | zero _ h => simp [h]
  | finite _ _ _ h => simp [h]

lemma Operand.isZero (h : Operand f bits c) : f.IsZero bits ↔ c = .zero := by
  have hexp := two_pow_expBits hf
  cases h with
  | nan h => simp [Fmt.IsZero, h.1]; omega
  | inf _ h => simp [Fmt.IsZero, h.1]; omega
  | zero _ _ h => simp [h]
  | finite _ _ _ _ h => simp [h]

lemma reads_operand {exp : ℤ} (hpattern : f.IsPattern bits) (hnan : ¬f.IsNan bits)
    (hinf : ¬f.IsInf bits) (hm : f.magnitude bits = sig * 2 ^ exp) (negate : Bool) :
    f.Reads (if negate then bits ^^^ f.signBit else bits) (f.signOf bits != negate)
      (sig * 2 ^ exp) := by
  have hfin := isFinite_of hnan hinf
  rw [← hm]
  cases negate
  · simpa using reads_of_operand hpattern hfin
  · simpa using reads_neg hf hpattern hfin

theorem addSigned_isSum {a b : U64} (ha : f.IsPattern a) (hb : f.IsPattern b) (negateB : Bool)
    (rm : Rm) :
    IsSum f rm a b negateB (addSigned a b negateB f rm) := by
  have hsa : (unpack a f).sign = f.signOf a := by rw [unpack_eq hf]
  have hsb : (unpack b f).sign = f.signOf b := by rw [unpack_eq hf]
  have hoa := operand_unpack hf a
  have hob := operand_unpack hf b
  unfold IsSum addSigned nanResult
  simp only [signed_negate]
  simp only [value_eq_signed, hsa, hsb, hoa.isNan, hob.isNan, hoa.isSnan, hob.isSnan]
  generalize (unpack a f).cls = ca at hoa ⊢
  generalize (unpack b f).cls = cb at hob ⊢
  by_cases hnan : f.IsNan a ∨ f.IsNan b
  · have hsome : (!decide (f.IsNan a) && !decide (f.IsNan b)) = false := by
      rw [Bool.and_eq_false_iff]
      simpa using hnan
    simp [hsome, hnan]
  rw [not_or] at hnan
  simp only [hnan.1, hnan.2, or_self, if_false, decide_false, Bool.not_false,
    Bool.and_self, if_true]
  cases hoa with
  | nan h => exact absurd h hnan.1
  | inf _ hinf =>
    cases hob with
    | nan h => exact absurd h hnan.2
    | inf _ hinfB =>
      by_cases hsign : f.signOf a = (f.signOf b != negateB)
      · simp only [hinf, hinfB, hsign, ne_eq, not_true_eq_false, and_false, if_false, if_true]
        exact ⟨readsInf_inf hf _, trivial⟩
      · simp [hinf, hinfB, hsign, invalid]
    | zero _ hinfB =>
      simp only [hinf, hinfB, false_and, and_false, if_false, if_true]
      exact ⟨readsInf_inf hf _, trivial⟩
    | finite _ _ _ hinfB =>
      simp only [hinf, hinfB, false_and, and_false, if_false, if_true]
      exact ⟨readsInf_inf hf _, trivial⟩
  | zero _ hinf hzero hm =>
    cases hob with
    | nan h => exact absurd h hnan.2
    | inf _ hinfB =>
      simp only [hinf, hinfB, false_and, if_false, if_true]
      exact ⟨readsInf_inf hf _, trivial⟩
    | zero _ hinfB hzeroB hmB =>
      simp only [hinf, hinfB, false_and, if_false, hm, hmB, signed_zero, add_zero]
      rw [DeliversSum, if_pos rfl]
      exact ⟨by simpa [zeroSumSign, beq_eq_decide] using reads_zero hf _, rfl⟩
    | finite sb eb _ hinfB hzeroB hsigB hltB hexpB hmB =>
      simp only [hinf, hinfB, false_and, if_false, hm, hmB, signed_zero, zero_add]
      rw [DeliversSum, if_neg (signed_ne_zero (mul_two_pow_pos hsigB eb))]
      exact delivers_self hf hsigB hltB hexpB (reads_operand hf hb hnan.2 hinfB hmB negateB) rm
  | finite sa ea _ hinf hzero hsig hlt hexp hm =>
    cases hob with
    | nan h => exact absurd h hnan.2
    | inf _ hinfB =>
      simp only [hinf, hinfB, false_and, if_false, if_true]
      exact ⟨readsInf_inf hf _, trivial⟩
    | zero _ hinfB hzeroB hmB =>
      simp only [hinf, hinfB, false_and, if_false, hm, hmB, signed_zero, add_zero]
      rw [DeliversSum, if_neg (signed_ne_zero (mul_two_pow_pos hsig ea))]
      have hreads := reads_operand hf ha hnan.1 hinf hm false
      rw [Bool.bne_false] at hreads
      exact delivers_self hf hsig hlt hexp hreads rm
    | finite sb eb _ hinfB hzeroB hsigB hltB hexpB hmB =>
      simp only [hinf, hinfB, false_and, if_false, hm, hmB]
      refine packSum_delivers hf (addExact_denotes hsig (lt_two_pow_106 hf hlt) hsigB
        (lt_two_pow_106 hf hltB) _ _ ea eb) (fun hx => ?_) rm
      exact signs_ne_of_cancel (mul_two_pow_pos hsig ea) (mul_two_pow_pos hsigB eb) hx

/-! ## Fused multiply-add -/

/-- The end of `fma`, where no operand is a NaN or an infinity. -/
def fmaFinite (psign csign : Bool) (cBits : U64) (f : Fmt) (rm : Rm) :
    Class → Class → Class → U64 × U64
  | .finite sa ea, .finite sb eb, .zero => roundPack psign (ea + eb) (sa * sb) false f rm
  | .finite sa ea, .finite sb eb, .finite sc ec =>
    packSum (addExact psign (sa * sb) (ea + eb) csign sc ec) f rm
  | _, _, .zero => (f.zero (zeroSumSign psign csign rm), 0)
  | _, _, _ => (cBits, 0)

omit hf in
lemma signed_mul (s₁ s₂ : Bool) (m₁ m₂ : ℚ) :
    signed s₁ m₁ * signed s₂ m₂ = signed (s₁ != s₂) (m₁ * m₂) := by
  cases s₁ <;> cases s₂ <;> simp [signed]

omit hf in
lemma mul_finite (sa sb : ℕ) (ea eb : ℤ) :
    (sa * 2 ^ ea * (sb * 2 ^ eb) : ℚ) = (sa * sb : ℕ) * 2 ^ (ea + eb) := by
  rw [zpow_add₀ two_ne_zero]
  push_cast
  ring

omit hf in
lemma denotes_exact (sig : ℕ) (exp : ℤ) : Denotes (sig * 2 ^ exp : ℚ) sig exp false := by
  refine ⟨le_rfl, ?_, by simp⟩
  have := Cell.pow_pos (K := ℚ) exp
  linarith

lemma mul_lt_two_pow_106 {sa sb : ℕ} (ha : sa < 2 ^ f.p) (hb : sb < 2 ^ f.p) :
    sa * sb < 2 ^ 106 := by
  have hp : f.p + f.p ≤ 106 := by have := hf.fracBits_le; rw [Fmt.p]; omega
  calc sa * sb < 2 ^ f.p * 2 ^ f.p := Nat.mul_lt_mul'' ha hb
    _ = 2 ^ (f.p + f.p) := (Nat.pow_add ..).symm
    _ ≤ 2 ^ 106 := Nat.pow_le_pow_right (by norm_num) hp

lemma addend_delivers {c : U64} {cc : Class} (hc : f.IsPattern c) (hoc : Operand f c cc)
    (hnan : ¬f.IsNan c) (hinf : ¬f.IsInf c) (sp : Bool) (rm : Rm) :
    DeliversSum f rm sp (f.signOf c) (f.value c)
      (fmaFinite sp (f.signOf c) c f rm .zero .zero cc) := by
  rw [value_eq_signed]
  cases hoc with
  | nan h => exact absurd h hnan
  | inf _ h => exact absurd h hinf
  | zero _ _ _ hm =>
    rw [hm, signed_zero, DeliversSum, if_pos rfl]
    exact ⟨by simpa [fmaFinite, zeroSumSign, beq_eq_decide] using reads_zero hf _, rfl⟩
  | finite sc ec _ _ _ hsig hlt hexp hm =>
    have hreads := reads_operand hf hc hnan hinf hm false
    rw [Bool.bne_false] at hreads
    rw [hm, DeliversSum, if_neg (signed_ne_zero (mul_two_pow_pos hsig ec))]
    exact delivers_self hf hsig hlt hexp hreads rm

lemma fmaFinite_delivers {a b c : U64} {ca cb cc : Class} (hc : f.IsPattern c)
    (hoa : Operand f a ca)
    (hob : Operand f b cb) (hoc : Operand f c cc) (hnan : ¬(f.IsNan a ∨ f.IsNan b ∨ f.IsNan c))
    (hinf : ¬(f.IsInf a ∨ f.IsInf b)) (hinfC : ¬f.IsInf c) (rm : Rm) :
    DeliversSum f rm (f.signOf a != f.signOf b) (f.signOf c) (f.value a * f.value b + f.value c)
      (fmaFinite (f.signOf a != f.signOf b) (f.signOf c) c f rm ca cb cc) := by
  rw [not_or, not_or] at hnan
  rw [not_or] at hinf
  have haddend := addend_delivers hf hc hoc hnan.2.2 hinfC (f.signOf a != f.signOf b) rm
  -- A factor that is zero: only the addend is left.
  have hzero (hx : f.value a * f.value b = 0)
      (hres : fmaFinite (f.signOf a != f.signOf b) (f.signOf c) c f rm ca cb cc =
        fmaFinite (f.signOf a != f.signOf b) (f.signOf c) c f rm .zero .zero cc) :
      DeliversSum f rm (f.signOf a != f.signOf b) (f.signOf c) (f.value a * f.value b + f.value c)
        (fmaFinite (f.signOf a != f.signOf b) (f.signOf c) c f rm ca cb cc) := by
    rw [hx, zero_add, hres]
    exact haddend
  cases hoa with
  | nan h => exact absurd h hnan.1
  | inf _ h => exact absurd h hinf.1
  | zero _ _ _ hm =>
    refine hzero (by rw [value_eq_signed a, hm, signed_zero, zero_mul]) ?_
    cases hob <;> cases hoc <;> simp [fmaFinite]
  | finite sa ea _ _ _ hsa hlta _ hma =>
    cases hob with
    | nan h => exact absurd h hnan.2.1
    | inf _ h => exact absurd h hinf.2
    | zero _ _ _ hm =>
      refine hzero (by rw [value_eq_signed b, hm, signed_zero, mul_zero]) ?_
      cases hoc <;> simp [fmaFinite]
    | finite sb eb _ _ _ hsb hltb _ hmb =>
      have hsab : sa * sb ≠ 0 := Nat.mul_ne_zero hsa hsb
      have hpos := mul_two_pow_pos hsab (ea + eb)
      have hprod : f.value a * f.value b =
          signed (f.signOf a != f.signOf b) ((sa * sb : ℕ) * 2 ^ (ea + eb) : ℚ) := by
        rw [value_eq_signed, value_eq_signed, signed_mul, hma, hmb, mul_finite]
      rw [hprod, value_eq_signed c]
      cases hoc with
      | nan h => exact absurd h hnan.2.2
      | inf _ h => exact absurd h hinfC
      | zero _ _ _ hmc =>
        rw [hmc, signed_zero, add_zero, DeliversSum, if_neg (signed_ne_zero hpos)]
        exact roundPack_delivers hf hsab (denotes_exact _ _) nofun _ rm
      | finite sc ec _ _ _ hsc hltc _ hmc =>
        rw [hmc]
        refine packSum_delivers hf (addExact_denotes hsab (mul_lt_two_pow_106 hf hlta hltb) hsc
          (lt_two_pow_106 hf hltc) _ _ (ea + eb) ec) (fun hx => ?_) rm
        exact signs_ne_of_cancel hpos (mul_two_pow_pos hsc ec) hx

/-- `fma` reads off the kind of each operand before it computes. -/
lemma fma_eq (a b c : U64) (rm : Rm) : fma a b c f rm =
    if f.IsInf a ∧ f.IsZero b ∨ f.IsZero a ∧ f.IsInf b then invalid f
    else if f.IsNan a ∨ f.IsNan b ∨ f.IsNan c then
      (f.canonicalNan, if f.IsSignalling a ∨ f.IsSignalling b ∨
        f.IsSignalling c then fflagNv else 0)
    else if f.IsInf a ∨ f.IsInf b then
      if f.IsInf c ∧ f.signOf c ≠ (f.signOf a != f.signOf b) then invalid f
      else (f.inf (f.signOf a != f.signOf b), 0)
    else if f.IsInf c then (f.inf (f.signOf c), 0)
    else fmaFinite (f.signOf a != f.signOf b) (f.signOf c) c f rm (unpack a f).cls (unpack b f).cls
      (unpack c f).cls := by
  have hsa : (unpack a f).sign = f.signOf a := by rw [unpack_eq hf]
  have hsb : (unpack b f).sign = f.signOf b := by rw [unpack_eq hf]
  have hsc : (unpack c f).sign = f.signOf c := by rw [unpack_eq hf]
  have hoa := operand_unpack hf a
  have hob := operand_unpack hf b
  have hoc := operand_unpack hf c
  have hia := hoa.isInf
  have hib := hob.isInf
  have hic := hoc.isInf
  have hza := hoa.isZero hf
  have hzb := hob.isZero hf
  unfold fma
  simp only [hsa, hsb, hsc, hoa.isNan_iff, hob.isNan_iff, hoc.isNan_iff, hoa.isSnan_iff,
    hob.isSnan_iff, hoc.isSnan_iff]
  generalize (unpack a f).cls = ca at hia hza ⊢
  generalize (unpack b f).cls = cb at hib hzb ⊢
  generalize (unpack c f).cls = cc at hic ⊢
  cases ca <;> cases cb <;> cases cc <;>
    simp [hia, hib, hic, hza, hzb, fmaFinite, Class.isNan, or_assoc]

theorem fma_isFusedSum {a b c : U64} (hc : f.IsPattern c) (rm : Rm) :
    IsFusedSum f rm a b c (fma a b c f rm) := by
  rw [fma_eq hf]
  unfold IsFusedSum
  dsimp only
  split_ifs with hbad hnan hsnan hinf hinfC hinfC
  · rfl
  · rfl
  · rfl
  · rfl
  · exact ⟨readsInf_inf hf _, rfl⟩
  · exact ⟨readsInf_inf hf _, rfl⟩
  · exact fmaFinite_delivers hf hc (operand_unpack hf a) (operand_unpack hf b) (operand_unpack hf c)
      hnan hinf hinfC rm

end Operands

/-- Addition, subtraction and fused multiply-add return the correctly rounded result and its flags,
in both formats and every mode. -/
theorem sums_correctly_rounded {f : Fmt} (hf : f = F32 ∨ f = F64) (rm : Rm) {a b c : U64}
    (ha : f.IsPattern a) (hb : f.IsPattern b) (hc : f.IsPattern c) :
    IsSum f rm a b false (add a b f rm) ∧ IsSum f rm a b true (sub a b f rm) ∧
      IsFusedSum f rm a b c (fma a b c f rm) := by
  have hieee : f.Ieee := by
    rcases hf with rfl | rfl
    · exact ieee_F32
    · exact ieee_F64
  exact ⟨addSigned_isSum hieee ha hb false rm, addSigned_isSum hieee ha hb true rm,
    fma_isFusedSum hieee hc rm⟩

/-- The largest binary32 number, the smallest subnormal one, and a signalling NaN. -/
theorem sums_correctly_rounded_sample :
    F32.IsPattern 0x7f7fffff ∧ F32.IsPattern 0x00000001 ∧ F32.IsPattern 0x7f800001 ∧
    IsSum F32 .rup 0x7f7fffff 0x00000001 false (add 0x7f7fffff 0x00000001 F32 .rup) ∧
    IsSum F32 .rup 0x7f7fffff 0x00000001 true (sub 0x7f7fffff 0x00000001 F32 .rup) ∧
    IsFusedSum F32 .rup 0x7f7fffff 0x00000001 0x7f800001
      (fma 0x7f7fffff 0x00000001 0x7f800001 F32 .rup) := by
  have ha : F32.IsPattern 0x7f7fffff := by rw [Fmt.IsPattern]; decide
  have hb : F32.IsPattern 0x00000001 := by rw [Fmt.IsPattern]; decide
  have hc : F32.IsPattern 0x7f800001 := by rw [Fmt.IsPattern]; decide
  exact ⟨ha, hb, hc, sums_correctly_rounded (.inl rfl) .rup ha hb hc⟩

end Softfloat

end RiscvEmu
