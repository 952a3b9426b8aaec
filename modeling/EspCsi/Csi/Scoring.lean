import EspCsi.Csi.Policy
import EspCsi.Lib.Checked
import EspCsi.Lib.Profile
import EspCsi.Lib.Transition
import Mathlib.Data.List.GetD

/-!
# Scores

What `ThresholdState::score` computes, over every history of calls: the scaled distance of the
channel's profile from a running average, in arithmetic that never leaves its width.
-/

namespace EspCsi.Csi

open Transition Profile Finset

namespace ThresholdState

/-! ## The profile of a buffer -/

def pairs (buf : List Int8) : ℕ := buf.length / 2

def sampled (buf : List Int8) : ℕ := min (pairs buf) SAMPLED

def stride (buf : List Int8) : ℕ := pairs buf / sampled buf

/-- The amplitudes of the sampled subcarriers, in fixed point. -/
def profile (buf : List Int8) (k : ℕ) : ℕ :=
  ((buf.getD (2 * (k * stride buf)) 0).toInt.natAbs +
    (buf.getD (2 * (k * stride buf) + 1) 0).toInt.natAbs) * 16

def average (t : ThresholdState) (k : ℕ) : ℕ := (t.base.getD k 0).toNat

/-- The average 1/16 of the way towards an amplitude. -/
def moved (b a : ℕ) : ℕ := if b ≤ a then b + (a - b) / 16 else b - (b - a) / 16

def FULL_AMPLITUDE : ℕ := 4096

def Bounded (t : ThresholdState) : Prop := ∀ k, t.average k ≤ FULL_AMPLITUDE

theorem natAbs_toInt_le (x : Int8) : x.toInt.natAbs ≤ 128 := by
  have hlo := x.le_toInt
  have hhi := x.toInt_lt
  omega

theorem profile_le (buf : List Int8) (k : ℕ) : profile buf k ≤ FULL_AMPLITUDE := by
  have hre := natAbs_toInt_le (buf.getD (2 * (k * stride buf)) 0)
  have him := natAbs_toInt_le (buf.getD (2 * (k * stride buf) + 1) 0)
  unfold profile FULL_AMPLITUDE
  omega

theorem moved_self (b : ℕ) : moved b b = b := by
  simp [moved]

theorem moved_le {b a m : ℕ} (hb : b ≤ m) (ha : a ≤ m) : moved b a ≤ m := by
  unfold moved
  split_ifs <;> omega

theorem sampled_le (buf : List Int8) : sampled buf ≤ 32 := min_le_right _ _

theorem index_lt {buf : List Int8} {k : ℕ} (hk : k < sampled buf) :
    2 * (k * stride buf) + 1 < buf.length := by
  have hpairs : sampled buf * stride buf ≤ pairs buf := Nat.mul_div_le _ _
  have hpos : 0 < stride buf := by
    have hle : sampled buf ≤ pairs buf := min_le_left _ _
    exact Nat.div_pos hle (by omega)
  have hlt : k * stride buf < sampled buf * stride buf := Nat.mul_lt_mul_of_pos_right hk hpos
  have hhalf : pairs buf * 2 ≤ buf.length := Nat.div_mul_le_self _ _
  omega

theorem total_le {f : ℕ → ℕ} (hf : ∀ k, f k ≤ FULL_AMPLITUDE) {n : ℕ} (hn : n ≤ 32) :
    total (range n) f ≤ 131072 := by
  have hsum : total (range n) f ≤ ∑ _k ∈ range n, 4096 := sum_le_sum fun k _ => hf k
  rw [sum_const, card_range, Nat.nsmul_eq_mul] at hsum
  omega

/-! ## Machine words -/

theorem amplitude_toNat (buf : List Int8) (k : ℕ) :
    (amplitude buf (2 * (k * stride buf))).toNat = profile buf k := by
  have hre := natAbs_toInt_le (buf.getD (2 * (k * stride buf)) 0)
  have him := natAbs_toInt_le (buf.getD (2 * (k * stride buf) + 1) 0)
  have hshift : (FRAC.toNat % 32) = 4 := by decide
  rw [amplitude, UInt32.toNat_shiftLeft, hshift, UInt32.toNat_add, UInt32.toNat_ofNat',
    UInt32.toNat_ofNat', Nat.shiftLeft_eq, profile]
  omega

theorem ewma_toNat (b a : UInt32) : (ewma b a).toNat = moved b.toNat a.toNat := by
  have hshift : (EWMA_SHIFT.toNat % 32) = 4 := by decide
  unfold ewma moved
  by_cases h : a ≥ b
  · have hle : b.toNat ≤ a.toNat := UInt32.le_iff_toNat_le.mp h
    have ha := a.toNat_lt
    rw [if_pos h, if_pos hle, UInt32.toNat_add, UInt32.toNat_shiftRight, hshift,
      UInt32.toNat_sub_of_le _ _ h, Nat.shiftRight_eq_div_pow]
    omega
  · have hlt : a.toNat < b.toNat := UInt32.lt_iff_toNat_lt.mp (UInt32.not_le.mp h)
    have hle : a ≤ b := UInt32.le_iff_toNat_le.mpr hlt.le
    have hstep : ((b - a) >>> EWMA_SHIFT).toNat = (b.toNat - a.toNat) / 16 := by
      rw [UInt32.toNat_shiftRight, hshift, UInt32.toNat_sub_of_le _ _ hle,
        Nat.shiftRight_eq_div_pow]
    have hsub : (b - a) >>> EWMA_SHIFT ≤ b := by
      rw [UInt32.le_iff_toNat_le, hstep]
      omega
    rw [if_neg h, if_neg (by omega), UInt32.toNat_sub_of_le _ _ hsub, hstep]

theorem absDiff_toNat (x y : UInt64) :
    (ThresholdState.absDiff x y).toNat = Profile.absDiff x.toNat y.toNat := by
  unfold ThresholdState.absDiff Profile.absDiff
  by_cases h : x < y
  · have hlt := UInt64.lt_iff_toNat_lt.mp h
    rw [if_pos h, if_pos hlt, UInt64.toNat_sub_of_le _ _ (UInt64.le_of_lt h)]
  · have hle : y.toNat ≤ x.toNat := Nat.not_lt.mp fun hlt => h (UInt64.lt_iff_toNat_lt.mpr hlt)
    rw [if_neg h, if_neg (by omega), UInt64.toNat_sub_of_le _ _ (UInt64.not_lt.mp h)]

theorem sum_toNat {f : ℕ → UInt64} {g : ℕ → ℕ} {n m : ℕ} (hf : ∀ k < n, (f k).toNat = g k)
    (hg : ∀ k < n, g k ≤ m) (hm : n * m < 2 ^ 64) :
    ((List.range n).map f).sum.toNat = ∑ k ∈ range n, g k := by
  induction n with
  | zero => rfl
  | succ n ih =>
    have hbound : ∑ k ∈ range n, g k ≤ n * m := by
      have hsum := sum_le_sum fun k (hk : k ∈ range n) =>
        hg k (Nat.lt_succ_of_lt (mem_range.mp hk))
      rwa [sum_const, card_range, Nat.nsmul_eq_mul] at hsum
    have hlast := hg n (Nat.lt_succ_self n)
    rw [Nat.succ_mul] at hm
    have hfirst := ih (fun k hk => hf k (Nat.lt_succ_of_lt hk))
      (fun k hk => hg k (Nat.lt_succ_of_lt hk)) (by omega)
    rw [List.range_succ, List.map_append, List.sum_append, List.map_singleton, List.sum_singleton,
      UInt64.toNat_add, hfirst, hf n (Nat.lt_succ_self n), sum_range_succ]
    omega

/-! ## One call -/

variable {t : ThresholdState} {buf : List Int8}

theorem score_of_empty (h : pairs buf = 0) : t.score buf = (0, t) := by
  have hpairs : buf.length / 2 = 0 := h
  simp only [score, if_pos hpairs]

theorem total_of_empty (h : pairs buf = 0) (f : ℕ → ℕ) : total (range (sampled buf)) f = 0 := by
  have hnone : sampled buf = 0 := by rw [sampled, h, Nat.zero_min]
  rw [hnone]
  rfl

theorem score_snd (h : pairs buf ≠ 0) :
    (t.score buf).2 = { t with
      base := Vector.ofFn fun k : Fin SAMPLED =>
        if k.val < sampled buf then
          if buf.length ≠ t.bufLen then amplitude buf (2 * (k * stride buf))
          else ewma (t.base.getD k 0) (amplitude buf (2 * (k * stride buf)))
        else t.base.getD k 0
      bufLen := buf.length } := by
  have hpairs : ¬ buf.length / 2 = 0 := h
  simp only [score, if_neg hpairs]
  split_ifs <;> rfl

theorem average_of_ge {k : ℕ} (hk : ¬ k < SAMPLED) : t.average k = 0 := by
  simp [average, Vector.getD, hk]

theorem getD_ofFn (base : Fin SAMPLED → UInt32) {k : ℕ} (hk : k < SAMPLED) :
    (Vector.ofFn base).getD k 0 = base ⟨k, hk⟩ := by
  simp [Vector.getD, hk]

theorem score_average (h : pairs buf ≠ 0) (k : ℕ) :
    (t.score buf).2.average k =
      if k < sampled buf then
        if buf.length ≠ t.bufLen then profile buf k else moved (t.average k) (profile buf k)
      else t.average k := by
  by_cases hk : k < SAMPLED
  · have hbase : (t.score buf).2.base.getD k 0 =
        if k < sampled buf then
          if buf.length ≠ t.bufLen then amplitude buf (2 * (k * stride buf))
          else ewma (t.base.getD k 0) (amplitude buf (2 * (k * stride buf)))
        else t.base.getD k 0 := by
      rw [score_snd h]
      exact getD_ofFn _ hk
    rw [average, hbase, apply_ite UInt32.toNat, apply_ite UInt32.toNat, amplitude_toNat,
      ewma_toNat, amplitude_toNat]
    rfl
  · have hn : ¬ k < sampled buf := fun hlt => hk (lt_of_lt_of_le hlt (min_le_right _ _))
    rw [if_neg hn, average_of_ge hk, average_of_ge hk]

theorem Bounded.score (h : t.Bounded) (buf : List Int8) : (t.score buf).2.Bounded := by
  by_cases hp : pairs buf = 0
  · rw [score_of_empty hp]
    exact h
  · intro k
    rw [score_average hp]
    split_ifs
    · exact profile_le buf k
    · exact moved_le (h k) (profile_le buf k)
    · exact h k

/-! ## The quotient -/

def aTot (buf : List Int8) : UInt64 :=
  ((List.range (sampled buf)).map fun k => (amplitude buf (2 * (k * stride buf))).toUInt64).sum

def bTot (t : ThresholdState) (buf : List Int8) : UInt64 :=
  ((List.range (sampled buf)).map fun k => (t.base.getD k 0).toUInt64).sum

def dist (t : ThresholdState) (buf : List Int8) : UInt64 :=
  ((List.range (sampled buf)).map fun k =>
    absDiff ((amplitude buf (2 * (k * stride buf))).toUInt64 * t.bTot buf)
      ((t.base.getD k 0).toUInt64 * aTot buf)).sum

theorem score_fst_eq (h : pairs buf ≠ 0) :
    (t.score buf).1 =
      if buf.length ≠ t.bufLen ∨ aTot buf = 0 ∨ t.bTot buf = 0 then 0
      else (min (saturatingMul (t.dist buf) (65535 / 2) / (aTot buf * t.bTot buf)) 65535).toUInt16 := by
  have hpairs : ¬ buf.length / 2 = 0 := h
  simp only [score, if_neg hpairs, apply_ite Prod.fst]
  rfl

theorem aTot_toNat (buf : List Int8) : (aTot buf).toNat = total (range (sampled buf)) (profile buf) := by
  have hn := sampled_le buf
  apply sum_toNat (m := 4096) (fun k _ => ?_) (fun k _ => profile_le buf k) (by omega)
  rw [UInt32.toNat_toUInt64, amplitude_toNat]

theorem average_lt (t : ThresholdState) (k : ℕ) : t.average k < 2 ^ 32 := UInt32.toNat_lt _

theorem bTot_toNat (t : ThresholdState) (buf : List Int8) :
    (t.bTot buf).toNat = total (range (sampled buf)) t.average := by
  have hn := sampled_le buf
  apply sum_toNat (m := 2 ^ 32) (fun k _ => ?_) (fun k _ => (t.average_lt k).le) (by omega)
  rw [UInt32.toNat_toUInt64]
  rfl

theorem total_average_le (t : ThresholdState) (buf : List Int8) :
    total (range (sampled buf)) t.average ≤ 2 ^ 37 := by
  have hn := sampled_le buf
  have hsum := sum_le_sum fun k (_ : k ∈ range (sampled buf)) => (t.average_lt k).le
  rw [sum_const, card_range, Nat.nsmul_eq_mul] at hsum
  exact hsum.trans (by omega)

theorem profile_weighed_le (t : ThresholdState) (buf : List Int8) (k : ℕ) :
    profile buf k * total (range (sampled buf)) t.average ≤ 2 ^ 49 := by
  have hmul := Nat.mul_le_mul (profile_le buf k) (t.total_average_le buf)
  unfold FULL_AMPLITUDE at hmul
  omega

theorem average_weighed_le (t : ThresholdState) (buf : List Int8) (k : ℕ) :
    t.average k * total (range (sampled buf)) (profile buf) ≤ 2 ^ 49 := by
  have hmul := Nat.mul_le_mul (t.average_lt k).le (total_le (profile_le buf) (sampled_le buf))
  omega

theorem dist_toNat (t : ThresholdState) (buf : List Int8) :
    (t.dist buf).toNat = cross (range (sampled buf)) (profile buf) t.average := by
  have hn := sampled_le buf
  apply sum_toNat (m := 2 ^ 49) (fun k _ => ?_) (fun k _ => ?_) (by omega)
  · have ha := t.profile_weighed_le buf k
    have hb := t.average_weighed_le buf k
    have hold : (t.base.getD k 0).toNat = t.average k := rfl
    rw [absDiff_toNat, UInt64.toNat_mul, UInt64.toNat_mul, UInt32.toNat_toUInt64,
      UInt32.toNat_toUInt64, amplitude_toNat, hold, aTot_toNat, bTot_toNat,
      Nat.mod_eq_of_lt (by omega), Nat.mod_eq_of_lt (by omega)]
  · exact (absDiff_le _ _).trans (max_le (t.profile_weighed_le buf k) (t.average_weighed_le buf k))

theorem denom_toNat (t : ThresholdState) (buf : List Int8) :
    (aTot buf * t.bTot buf).toNat =
      total (range (sampled buf)) (profile buf) * total (range (sampled buf)) t.average := by
  have hle := Nat.mul_le_mul (total_le (profile_le buf) (sampled_le buf)) (t.total_average_le buf)
  rw [UInt64.toNat_mul, aTot_toNat, bTot_toNat, Nat.mod_eq_of_lt (by omega)]

theorem saturatingMul_toNat_le (x y : UInt64) : (saturatingMul x y).toNat ≤ x.toNat * y.toNat := by
  unfold saturatingMul
  split_ifs with h
  · rw [UInt64.toNat_mul]
    exact Nat.mod_le _ _
  · have hmax : (0xffffffffffffffff : UInt64).toNat = 2 ^ 64 - 1 := by decide
    omega

theorem weighed_le {f g : ℕ → ℕ} (hf : ∀ k, f k ≤ FULL_AMPLITUDE) (hg : ∀ k, g k ≤ FULL_AMPLITUDE)
    (buf : List Int8) (k : ℕ) : f k * total (range (sampled buf)) g ≤ 536870912 := by
  have hmul := Nat.mul_le_mul (hf k) (total_le hg (sampled_le buf))
  unfold FULL_AMPLITUDE at hmul
  omega

theorem quotient_le (s : Finset ℕ) (a b : ℕ → ℕ) :
    cross s a b * 32767 / (total s a * total s b) ≤ 65534 := by
  apply Nat.div_le_of_le_mul
  have hcross := cross_le s a b
  omega

theorem half_toNat : (65535 / 2 : UInt64).toNat = 32767 := by decide

/-- The final `min` never bites. -/
theorem score_toNat (h : pairs buf ≠ 0) :
    (t.score buf).1.toNat =
      if buf.length ≠ t.bufLen ∨ total (range (sampled buf)) (profile buf) = 0 ∨
          total (range (sampled buf)) t.average = 0 then 0
      else (saturatingMul (t.dist buf) (65535 / 2)).toNat /
        (total (range (sampled buf)) (profile buf) * total (range (sampled buf)) t.average) := by
  have hquot : (saturatingMul (t.dist buf) (65535 / 2) / (aTot buf * t.bTot buf)).toNat =
      (saturatingMul (t.dist buf) (65535 / 2)).toNat /
        (total (range (sampled buf)) (profile buf) * total (range (sampled buf)) t.average) := by
    rw [UInt64.toNat_div, denom_toNat]
  have hle : (saturatingMul (t.dist buf) (65535 / 2)).toNat /
      (total (range (sampled buf)) (profile buf) * total (range (sampled buf)) t.average) ≤
        65534 := by
    have hsat := saturatingMul_toNat_le (t.dist buf) (65535 / 2)
    rw [dist_toNat, half_toNat] at hsat
    exact (Nat.div_le_div_right hsat).trans (quotient_le _ _ _)
  have hmin : min (saturatingMul (t.dist buf) (65535 / 2) / (aTot buf * t.bTot buf)) 65535 =
      saturatingMul (t.dist buf) (65535 / 2) / (aTot buf * t.bTot buf) := by
    apply if_pos
    rw [UInt64.le_iff_toNat_le, hquot]
    exact hle.trans (by decide)
  have haZero : aTot buf = 0 ↔ total (range (sampled buf)) (profile buf) = 0 := by
    rw [← aTot_toNat, ← UInt64.toNat_inj]
    rfl
  have hbZero : t.bTot buf = 0 ↔ total (range (sampled buf)) t.average = 0 := by
    rw [← bTot_toNat, ← UInt64.toNat_inj]
    rfl
  rw [score_fst_eq h, hmin, apply_ite UInt16.toNat, UInt64.toNat_toUInt16, hquot]
  simp only [haZero, hbZero]
  rw [Nat.mod_eq_of_lt (by omega)]
  rfl

/-- The score, as one division of natural numbers: the saturating product never bites either. -/
theorem score_fst (h : t.Bounded) (buf : List Int8) :
    (t.score buf).1.toNat =
      if buf.length ≠ t.bufLen ∨ total (range (sampled buf)) (profile buf) = 0 ∨
          total (range (sampled buf)) t.average = 0 then 0
      else cross (range (sampled buf)) (profile buf) t.average * 32767 /
        (total (range (sampled buf)) (profile buf) * total (range (sampled buf)) t.average) := by
  by_cases hp : pairs buf = 0
  · rw [score_of_empty hp, if_pos (Or.inr (Or.inl (total_of_empty hp _)))]
    rfl
  have hcross := cross_le (range (sampled buf)) (profile buf) t.average
  have htotals := Nat.mul_le_mul (total_le (profile_le buf) (sampled_le buf))
    (total_le h (sampled_le buf))
  have hprod : (t.dist buf).toNat * (65535 / 2 : UInt64).toNat < 2 ^ 64 := by
    rw [dist_toNat, half_toNat]
    omega
  have hsat : (saturatingMul (t.dist buf) (65535 / 2)).toNat =
      cross (range (sampled buf)) (profile buf) t.average * 32767 := by
    rw [saturatingMul, if_pos hprod, UInt64.toNat_mul, Nat.mod_eq_of_lt hprod, dist_toNat,
      half_toNat]
  rw [score_toNat hp, hsat]

/-- The score is the scaled distance of the two profiles, rounded down; on a layout change, and where
either side is silent, it is 0. -/
theorem score_eq_floor (h : t.Bounded) (buf : List Int8) :
    (t.score buf).1.toNat =
      if buf.length ≠ t.bufLen ∨ total (range (sampled buf)) (profile buf) = 0 ∨
          total (range (sampled buf)) t.average = 0 then 0
      else ⌊(32767 : ℚ) * distance (range (sampled buf)) (profile buf) t.average⌋₊ := by
  rw [score_fst h]
  split_ifs with hzero
  · rfl
  · rw [not_or, not_or] at hzero
    exact (floor_mul_distance (Nat.pos_of_ne_zero hzero.2.1) (Nat.pos_of_ne_zero hzero.2.2)
      32767).symm

/-! ## The loops, in checked arithmetic -/

/-- The first loop: the amplitudes, their total, and the total of the average. -/
def measureLoop (buf : List Int8) (base : List ℕ) (n step : ℕ) : Option (List ℕ × ℕ × ℕ) :=
  (List.range n).foldlM (fun (amp, aTot, bTot) k => do
    let i ← Checked.index buf.length (2 * (k * step))
    let j ← Checked.index buf.length (i + 1)
    let re ← buf[i]?
    let im ← buf[j]?
    let sum ← Checked.add 32 re.toInt.natAbs im.toInt.natAbs
    let slot ← Checked.shl 32 sum 4
    let aTot ← Checked.add 64 aTot slot
    let b ← base[k]?
    let bTot ← Checked.add 64 bTot b
    return (amp ++ [slot], aTot, bTot)) ([], 0, 0)

/-- The second loop: the distance, and the average brought up to date. -/
def compareLoop (amp base : List ℕ) (n aTot bTot : ℕ) (restart : Bool) : Option (ℕ × List ℕ) :=
  (List.range n).foldlM (fun (dist, base) k => do
    let a ← amp[k]?
    let b ← base[k]?
    if restart then return (dist, base.set k a)
    else
      let x ← Checked.mul 64 a bTot
      let y ← Checked.mul 64 b aTot
      let dist ← Checked.add 64 dist (Profile.absDiff x y)
      if b ≤ a then
        let d ← Checked.sub a b
        let b ← Checked.add 32 b (d / 16)
        return (dist, base.set k b)
      else
        let d ← Checked.sub b a
        let b ← Checked.sub b (d / 16)
        return (dist, base.set k b)) (0, base)

/-- `score` with every index, sum, difference, product and shift checked, and with the saturating
product and the final `min` replaced by checks that they change nothing. The new average comes with
the score. -/
def scoreChecked (t : ThresholdState) (buf : List Int8) : Option (ℕ × List ℕ) := do
  let base := t.base.toList.map UInt32.toNat
  if pairs buf = 0 then return (0, base)
  else
    let restart := buf.length ≠ t.bufLen
    let (amp, aTot, bTot) ← measureLoop buf base (sampled buf) (stride buf)
    let (dist, base) ← compareLoop amp base (sampled buf) aTot bTot restart
    if restart ∨ aTot = 0 ∨ bTot = 0 then return (0, base)
    else
      let denom ← Checked.mul 64 aTot bTot
      let num ← Checked.mul 64 dist 32767
      let score ← Checked.fits 16 (num / denom)
      return (score, base)

theorem set_map_range {f g : ℕ → ℕ} {m j : ℕ} (hother : ∀ k, k ≠ j → f k = g k) :
    ((List.range m).map f).set j (g j) = (List.range m).map g := by
  apply List.ext_getElem
  · simp
  · intro k hk hk'
    rw [List.getElem_set]
    split_ifs with hjk
    · simp [hjk]
    · simp [hother k (Ne.symm hjk)]

def updated (t : ThresholdState) (buf : List Int8) (k : ℕ) : ℕ :=
  if buf.length ≠ t.bufLen then profile buf k else moved (t.average k) (profile buf k)

theorem measureLoop_eq (h : t.Bounded) (buf : List Int8) :
    measureLoop buf ((List.range SAMPLED).map t.average) (sampled buf) (stride buf) =
      some ((List.range (sampled buf)).map (profile buf), total (range (sampled buf)) (profile buf),
        total (range (sampled buf)) t.average) := by
  have hn := sampled_le buf
  apply Checked.foldlM_range (g := fun j => ((List.range j).map (profile buf),
    total (range j) (profile buf), total (range j) t.average))
  intro k hk
  have hj := index_lt hk
  have hk' : k < SAMPLED := lt_of_lt_of_le hk hn
  have hre := natAbs_toInt_le buf[2 * (k * stride buf)]
  have him := natAbs_toInt_le buf[2 * (k * stride buf) + 1]
  have hslot : (buf[2 * (k * stride buf)].toInt.natAbs +
      buf[2 * (k * stride buf) + 1].toInt.natAbs) * 2 ^ 4 = profile buf k := by
    simp [profile, List.getD_eq_getElem?_getD, hj, (by omega : 2 * (k * stride buf) < buf.length)]
  have hA := total_le (profile_le buf) (n := k) (by omega)
  have hB := total_le h (n := k) (by omega)
  have hak := profile_le buf k
  have hbk := h k
  unfold FULL_AMPLITUDE at hak hbk
  have hbase : ((List.range SAMPLED).map t.average)[k]? = some (t.average k) := by
    simp [hk']
  simp only [Checked.index_eq (by omega : 2 * (k * stride buf) < buf.length), Checked.index_eq hj,
    Option.bind_eq_bind, Option.bind_some, List.getElem?_eq_getElem hj,
    List.getElem?_eq_getElem (by omega : 2 * (k * stride buf) < buf.length)]
  rw [Checked.add_eq (by omega), Option.bind_some, Checked.shl_eq (by omega), Option.bind_some,
    hslot, Checked.add_eq (by omega), Option.bind_some, hbase, Option.bind_some,
    Checked.add_eq (by omega), Option.bind_some]
  simp [List.range_succ, total, sum_range_succ]

def updatedTo (t : ThresholdState) (buf : List Int8) (j k : ℕ) : ℕ :=
  if k < j then t.updated buf k else t.average k

theorem set_updatedTo (t : ThresholdState) (buf : List Int8) (j : ℕ) :
    ((List.range SAMPLED).map (t.updatedTo buf j)).set j (t.updated buf j) =
      (List.range SAMPLED).map (t.updatedTo buf (j + 1)) := by
  have hj : t.updated buf j = t.updatedTo buf (j + 1) j := (if_pos (Nat.lt_succ_self j)).symm
  rw [hj]
  apply set_map_range (g := t.updatedTo buf (j + 1))
  intro k hk
  have hiff : k < j ↔ k < j + 1 := by omega
  simp only [updatedTo, hiff]

def distTo (t : ThresholdState) (buf : List Int8) (j : ℕ) : ℕ :=
  if buf.length ≠ t.bufLen then 0
  else ∑ k ∈ range j,
    Profile.absDiff (profile buf k * total (range (sampled buf)) t.average)
      (t.average k * total (range (sampled buf)) (profile buf))

theorem distTo_lt (h : t.Bounded) (buf : List Int8) (j : ℕ) : t.distTo buf j ≤ j * 536870912 := by
  unfold distTo
  split_ifs
  · exact Nat.zero_le _
  · have hsum := sum_le_sum fun k (_ : k ∈ range j) => (absDiff_le _ _).trans
      (max_le (weighed_le (profile_le buf) h buf k) (weighed_le h (profile_le buf) buf k))
    rwa [sum_const, card_range, Nat.nsmul_eq_mul] at hsum

theorem compareLoop_eq (h : t.Bounded) (buf : List Int8) :
    compareLoop ((List.range (sampled buf)).map (profile buf))
        ((List.range SAMPLED).map t.average) (sampled buf)
        (total (range (sampled buf)) (profile buf)) (total (range (sampled buf)) t.average)
        (buf.length ≠ t.bufLen) =
      some (t.distTo buf (sampled buf), (List.range SAMPLED).map (t.updatedTo buf (sampled buf))) := by
  have hn := sampled_le buf
  have hstart : ((0, (List.range SAMPLED).map t.average) : ℕ × List ℕ) =
      (t.distTo buf 0, (List.range SAMPLED).map (t.updatedTo buf 0)) := by
    simp [distTo, updatedTo]
  rw [compareLoop, hstart]
  apply Checked.foldlM_range (g := fun j =>
    (t.distTo buf j, (List.range SAMPLED).map (t.updatedTo buf j)))
  intro k hk
  have hk' : k < SAMPLED := lt_of_lt_of_le hk hn
  have hamp : ((List.range (sampled buf)).map (profile buf))[k]? = some (profile buf k) := by
    simp [hk]
  have hbase : ((List.range SAMPLED).map (t.updatedTo buf k))[k]? = some (t.average k) := by
    simp [hk', updatedTo]
  have hnext := set_updatedTo t buf k
  simp only [hamp, hbase, Option.bind_eq_bind, Option.bind_some]
  -- a new layout takes over the profile and compares nothing
  by_cases hrestart : buf.length ≠ t.bufLen
  · have hdist (j : ℕ) : t.distTo buf j = 0 := if_pos hrestart
    have hnew : t.updated buf k = profile buf k := if_pos hrestart
    rw [hnew] at hnext
    simp [hrestart, hdist, hnext]
  · have hx := weighed_le (profile_le buf) h buf k
    have hy := weighed_le h (profile_le buf) buf k
    have hdiff := absDiff_le (profile buf k * total (range (sampled buf)) t.average)
      (t.average k * total (range (sampled buf)) (profile buf))
    have hsofar := distTo_lt h buf k
    have hdist : t.distTo buf k +
        Profile.absDiff (profile buf k * total (range (sampled buf)) t.average)
          (t.average k * total (range (sampled buf)) (profile buf)) = t.distTo buf (k + 1) := by
      simp only [distTo, if_neg hrestart, sum_range_succ]
    have hak := profile_le buf k
    have hbk := h k
    unfold FULL_AMPLITUDE at hak hbk
    have hnew : t.updated buf k = moved (t.average k) (profile buf k) := if_neg hrestart
    rw [hnew] at hnext
    simp only [hrestart, decide_false, Bool.false_eq_true, if_false]
    -- an entry of at most 2^12 times a total of at most 2^17, on either side
    rw [Checked.mul_eq (by omega), Option.bind_some, Checked.mul_eq (by omega), Option.bind_some,
      Checked.add_eq (by omega), Option.bind_some, hdist]
    -- either way the difference is taken from the larger one, and its sixteenth stays in range
    by_cases hle : t.average k ≤ profile buf k
    · rw [moved, if_pos hle] at hnext
      rw [if_pos hle, Checked.sub_eq hle, Option.bind_some, Checked.add_eq (by omega),
        Option.bind_some, hnext]
      rfl
    · rw [moved, if_neg hle] at hnext
      rw [if_neg hle, Checked.sub_eq (by omega), Option.bind_some, Checked.sub_eq (by omega),
        Option.bind_some, hnext]
      rfl

theorem map_base (t : ThresholdState) :
    t.base.toList.map UInt32.toNat = (List.range SAMPLED).map t.average := by
  apply List.ext_getElem
  · simp
  · intro k hk hk'
    have hlt : k < SAMPLED := by simpa using hk
    simp [average, Vector.getD, hlt]

/-- No index is out of bounds, no operation leaves its width, and neither the saturating product nor
the final `min` changes anything. -/
theorem scoreChecked_eq (h : t.Bounded) (buf : List Int8) :
    t.scoreChecked buf =
      some ((t.score buf).1.toNat, (t.score buf).2.base.toList.map UInt32.toNat) := by
  by_cases hp : pairs buf = 0
  · simp [scoreChecked, hp, score_of_empty hp]
  have hbase : (t.score buf).2.base.toList.map UInt32.toNat =
      (List.range SAMPLED).map (t.updatedTo buf (sampled buf)) := by
    rw [map_base]
    apply List.map_congr_left
    intro k _
    rw [score_average hp]
    rfl
  have hdist : ¬ buf.length ≠ t.bufLen →
      t.distTo buf (sampled buf) = cross (range (sampled buf)) (profile buf) t.average :=
    fun hsame => if_neg hsame
  rw [hbase, score_fst h, scoreChecked]
  simp only [if_neg hp, map_base, measureLoop_eq h, compareLoop_eq h, Option.bind_eq_bind,
    Option.bind_some]
  by_cases hzero : buf.length ≠ t.bufLen ∨ total (range (sampled buf)) (profile buf) = 0 ∨
      total (range (sampled buf)) t.average = 0
  · simp only [if_pos hzero]
    rfl
  · have hcross := cross_le (range (sampled buf)) (profile buf) t.average
    have hquot := quotient_le (range (sampled buf)) (profile buf) t.average
    have htotals := Nat.mul_le_mul (total_le (profile_le buf) (sampled_le buf))
      (total_le h (sampled_le buf))
    have hsame : ¬ buf.length ≠ t.bufLen := fun hne => hzero (Or.inl hne)
    simp only [if_neg hzero]
    rw [Checked.mul_eq (by omega), Option.bind_some, hdist hsame, Checked.mul_eq (by omega),
      Option.bind_some, Checked.fits_eq (by omega)]
    rfl

/-! ## Histories -/

inductive Op where
  | score (buf : List Int8)
  | decide (score level holdMs : UInt16) (nowUs : UInt64)
  | reset

def step (t : ThresholdState) : Op → ThresholdState
  | .score buf => (t.score buf).2
  | .decide score level holdMs nowUs => (t.decide score level holdMs nowUs).2
  | .reset => new

theorem bounded_new : new.Bounded := by
  intro k
  have hzero : new.average k = 0 := by
    by_cases hk : k < SAMPLED
    · simp [average, new, Vector.getD, hk]
    · exact average_of_ge hk
  rw [hzero]
  exact Nat.zero_le _

theorem Bounded.step (h : t.Bounded) (op : Op) : (t.step op).Bounded := by
  cases op with
  | score buf => exact h.score buf
  | decide score level holdMs nowUs =>
    simp only [ThresholdState.step, ThresholdState.decide]
    split_ifs <;> exact h
  | reset => exact bounded_new

theorem bounded_run (ops : List Op) : (run step new ops).Bounded :=
  (always_of_step (Q := Bounded) bounded_new fun _ op h => h.step op).last

/-! ## The average of a history -/

def Op.buffer? : Op → Option (List Int8)
  | .score buf => if pairs buf = 0 then none else some buf
  | _ => none

def Op.isReset : Op → Bool
  | .reset => true
  | _ => false

/-- The buffers scored since the last reset, the latest first. -/
def latest (ops : List Op) : List (List Int8) :=
  (ops.reverse.takeWhile fun op => !op.isReset).filterMap Op.buffer?

/-- Of these, the ones since the layout last changed. -/
def sameLayout (bufs : List (List Int8)) : List (List Int8) :=
  bufs.takeWhile fun buf => buf.length = (bufs.headD []).length

/-- The profile of the earliest buffer, moved towards that of each later one in turn. -/
def mean : List (List Int8) → ℕ → ℕ
  | [], _ => 0
  | [buf], k => profile buf k
  | buf :: older, k => moved (mean older k) (profile buf k)

/-- What the state keeps of the buffers scored. -/
structure Averages (t : ThresholdState) (bufs : List (List Int8)) : Prop where
  bufLen : t.bufLen = (bufs.headD []).length
  average : ∀ k < sampled (bufs.headD []), t.average k = mean (sameLayout bufs) k

theorem sampled_congr {x y : List Int8} (h : x.length = y.length) : sampled x = sampled y := by
  rw [sampled, sampled, pairs, pairs, h]

theorem sameLayout_of_eq {bufs : List (List Int8)} (h : buf.length = (bufs.headD []).length) :
    sameLayout (buf :: bufs) = buf :: sameLayout bufs := by
  rw [sameLayout, List.headD_cons, List.takeWhile_cons_of_pos (by simp), h, sameLayout]

theorem sameLayout_of_ne {bufs : List (List Int8)} (h : buf.length ≠ (bufs.headD []).length) :
    sameLayout (buf :: bufs) = [buf] := by
  rw [sameLayout, List.headD_cons, List.takeWhile_cons_of_pos (by simp)]
  cases bufs with
  | nil => rfl
  | cons b bufs => rw [List.takeWhile_cons_of_neg (by simpa using Ne.symm h)]

theorem mean_cons {bufs : List (List Int8)} (hne : bufs ≠ []) (k : ℕ) :
    mean (buf :: bufs) k = moved (mean bufs k) (profile buf k) := by
  cases bufs with
  | nil => exact absurd rfl hne
  | cons b bufs => rfl

theorem sameLayout_ne_nil {bufs : List (List Int8)} (hne : bufs ≠ []) : sameLayout bufs ≠ [] := by
  cases bufs with
  | nil => exact absurd rfl hne
  | cons b bufs =>
    rw [sameLayout, List.headD_cons, List.takeWhile_cons_of_pos (by simp)]
    exact List.cons_ne_nil _ _

theorem averages_new : Averages new [] where
  bufLen := rfl
  average := by
    intro k hk
    exact absurd hk (Nat.not_lt_zero k)

theorem Averages.score {bufs : List (List Int8)} (h : Averages t bufs) (hp : pairs buf ≠ 0) :
    Averages (t.score buf).2 (buf :: bufs) where
  bufLen := by rw [score_snd hp, List.headD_cons]
  average := by
    intro k hk
    rw [List.headD_cons] at hk
    rw [score_average hp, if_pos hk]
    by_cases hlen : buf.length = (bufs.headD []).length
    · have hne : bufs ≠ [] := by
        rintro rfl
        rw [List.headD_nil, List.length_nil] at hlen
        exact hp (by rw [pairs, hlen])
      rw [if_neg (by rw [h.bufLen]; exact not_not.mpr hlen), sameLayout_of_eq hlen,
        mean_cons (sameLayout_ne_nil hne), h.average k (by rwa [← sampled_congr hlen])]
    · rw [if_pos (by rwa [h.bufLen]), sameLayout_of_ne hlen]
      rfl

theorem latest_score (ops : List Op) (buf : List Int8) :
    latest (ops ++ [.score buf]) = if pairs buf = 0 then latest ops else buf :: latest ops := by
  rw [latest, List.reverse_concat, List.takeWhile_cons_of_pos rfl, List.filterMap_cons]
  by_cases hp : pairs buf = 0
  · rw [if_pos hp, Op.buffer?, if_pos hp]
    rfl
  · rw [if_neg hp, Op.buffer?, if_neg hp]
    rfl

theorem latest_decide (ops : List Op) (score level holdMs : UInt16) (nowUs : UInt64) :
    latest (ops ++ [.decide score level holdMs nowUs]) = latest ops := by
  rw [latest, List.reverse_concat]
  rfl

theorem latest_reset (ops : List Op) : latest (ops ++ [.reset]) = [] := by
  rw [latest, List.reverse_concat]
  rfl

theorem Averages.decide {bufs : List (List Int8)} (h : Averages t bufs)
    (score level holdMs : UInt16) (nowUs : UInt64) :
    Averages (t.decide score level holdMs nowUs).2 bufs := by
  simp only [ThresholdState.decide]
  split_ifs
  · exact ⟨h.bufLen, h.average⟩
  · exact h

/-- The state is the average of the buffers scored, whatever else was called in between. -/
theorem averages_run (ops : List Op) : Averages (run step new ops) (latest ops) := by
  induction ops using List.reverseRecOn with
  | nil => exact averages_new
  | append_singleton ops op ih =>
    rw [run_concat]
    cases op with
    | score buf =>
      rw [latest_score, ThresholdState.step]
      by_cases hp : pairs buf = 0
      · rw [if_pos hp, score_of_empty hp]
        exact ih
      · rw [if_neg hp]
        exact ih.score hp
    | decide score level holdMs nowUs =>
      rw [latest_decide]
      exact ih.decide score level holdMs nowUs
    | reset =>
      rw [latest_reset]
      exact averages_new

/-- After any calls, a call to `score` stays within its widths and its buffer, leaves every entry of
the average at 4096 or below, and returns the scaled distance, rounded down, of the buffer's profile
from the mean of the buffers scored since the layout last changed. -/
theorem score_exact (ops : List Op) (buf : List Int8) :
    let t := run step new ops
    let b := mean (sameLayout (latest ops))
    t.scoreChecked buf =
        some ((t.score buf).1.toNat, (t.score buf).2.base.toList.map UInt32.toNat) ∧
      (∀ b ∈ t.base.toList ++ (t.score buf).2.base.toList, b.toNat ≤ 4096) ∧
      (t.score buf).1.toNat =
        if buf.length ≠ ((latest ops).headD []).length ∨
            total (range (sampled buf)) (profile buf) = 0 ∨ total (range (sampled buf)) b = 0 then 0
        else ⌊(32767 : ℚ) * ∑ k ∈ range (sampled buf),
          |(profile buf k : ℚ) / total (range (sampled buf)) (profile buf) -
            b k / total (range (sampled buf)) b|⌋₊ := by
  intro t b
  have hbounded : t.Bounded := bounded_run ops
  have haverages : Averages t (latest ops) := averages_run ops
  have hentries {t : ThresholdState} (ht : t.Bounded) : ∀ b ∈ t.base.toList, b.toNat ≤ 4096 := by
    intro b hb
    have hmem : b.toNat ∈ t.base.toList.map UInt32.toNat := List.mem_map_of_mem hb
    rw [map_base] at hmem
    obtain ⟨k, -, hk⟩ := List.mem_map.mp hmem
    rw [← hk]
    exact ht k
  refine ⟨scoreChecked_eq hbounded buf, ?_, ?_⟩
  · intro b hb
    rcases List.mem_append.mp hb with hb | hb
    · exact hentries hbounded b hb
    · exact hentries (hbounded.score buf) b hb
  · rw [score_eq_floor hbounded buf, haverages.bufLen]
    by_cases hlen : buf.length = ((latest ops).headD []).length
    · -- the average is compared where the buffer is sampled alone
      have hsame : ∀ k ∈ range (sampled buf), t.average k = b k := fun k hk =>
        haverages.average k (by rw [← sampled_congr hlen]; exact mem_range.mp hk)
      have htotal : total (range (sampled buf)) t.average = total (range (sampled buf)) b :=
        sum_congr rfl hsame
      rw [htotal]
      split_ifs
      · rfl
      · rw [distance, htotal]
        congr 2
        exact sum_congr rfl fun k hk => by rw [hsame k hk]
    · rw [if_pos (Or.inl hlen), if_pos (Or.inl hlen)]

/-- A buffer before a reset, and one of another layout, leave no trace; the two since have an average
that the last buffer is half the scale from. -/
def turned : List Op :=
  [.score [7, 7, 7, 7], .reset, .score [3, 4, 0, 5], .score [9, 9], .score [3, 4, 0, 5],
    .decide 3 9 100 0, .score [0, 1, 0, 1]]

theorem score_exact_turned :
    ((run step new turned).score [0, 3, 0, 6]).1.toNat = 16323 ∧
      ⌊(32767 : ℚ) * ∑ k ∈ range 2,
        |(profile [0, 3, 0, 6] k : ℚ) / total (range 2) (profile [0, 3, 0, 6]) -
          mean [[0, 1, 0, 1], [3, 4, 0, 5]] k /
            total (range 2) (mean [[0, 1, 0, 1], [3, 4, 0, 5]])|⌋₊ = 16323 := by
  have hscore := (score_exact turned [0, 3, 0, 6]).2.2
  rw [if_neg (by decide +kernel)] at hscore
  have hvalue : ((run step new turned).score [0, 3, 0, 6]).1.toNat = 16323 := by decide +kernel
  exact ⟨hvalue, hscore.symm.trans hvalue⟩

/-! ## Gain -/

/-- `y` is `x` received with `c` times the gain. -/
def Amplifies (c : ℕ) (x y : List Int8) : Prop :=
  List.Forall₂ (fun u v : Int8 => v.toInt = (c : ℤ) * u.toInt) x y

theorem Amplifies.profile {c : ℕ} {x y : List Int8} (h : Amplifies c x y) (k : ℕ) :
    ThresholdState.profile y k = c * ThresholdState.profile x k := by
  have hlen : x.length = y.length := h.length_eq
  have hat (i : ℕ) : (y.getD i 0).toInt.natAbs = c * (x.getD i 0).toInt.natAbs := by
    by_cases hi : i < x.length
    · have hpair := List.Forall₂.get h hi (hlen ▸ hi)
      simp only [List.get_eq_getElem] at hpair
      rw [List.getD_eq_getElem _ _ (hlen ▸ hi), List.getD_eq_getElem _ _ hi, hpair, Int.natAbs_mul,
        Int.natAbs_natCast]
    · rw [List.getD_eq_default _ _ (hlen ▸ not_lt.mp hi), List.getD_eq_default _ _ (not_lt.mp hi)]
      simp
  have hstride : stride y = stride x := by simp only [stride, sampled, pairs, hlen]
  simp only [ThresholdState.profile, hstride, hat]
  ring

def Steady (t : ThresholdState) (x : List Int8) : Prop := (t.score x).1 = 0 ∧ (t.score x).2 = t

theorem steady_of_profile (h : t.Bounded) {x : List Int8} (hlen : x.length = t.bufLen)
    (hsame : ∀ k < sampled x, t.average k = profile x k) : t.Steady x := by
  by_cases hp : pairs x = 0
  · exact ⟨by rw [score_of_empty hp], by rw [score_of_empty hp]⟩
  have htotal : total (range (sampled x)) t.average = total (range (sampled x)) (profile x) :=
    sum_congr rfl fun k hk => hsame k (mem_range.mp hk)
  have hcross : cross (range (sampled x)) (profile x) t.average = 0 := by
    apply sum_eq_zero
    intro k hk
    rw [htotal, hsame k (mem_range.mp hk), absDiff_self]
  constructor
  · apply UInt16.toNat_inj.mp
    rw [score_fst h, hcross, Nat.zero_mul, Nat.zero_div, ite_self]
    rfl
  · have hbase : (t.score x).2.base = t.base := by
      apply Vector.toList_inj.mp
      apply List.map_injective_iff.mpr (fun a b => UInt32.toNat_inj.mp)
      rw [map_base, map_base]
      apply List.map_congr_left
      intro k _
      rw [score_average hp, if_neg (not_not.mpr hlen)]
      split_ifs with hk
      · rw [hsame k hk, moved_self]
      · rfl
    have hsnd := score_snd (t := t) hp
    rw [hsnd] at hbase ⊢
    have hnew : Vector.ofFn _ = t.base := hbase
    rw [hnew, hlen]

theorem steady_primed (h : t.Bounded) {x : List Int8} (hlen : x.length ≠ t.bufLen) :
    (t.score x).2.Steady x := by
  by_cases hp : pairs x = 0
  · rw [score_of_empty hp]
    exact ⟨by rw [score_of_empty hp], by rw [score_of_empty hp]⟩
  · apply steady_of_profile (h.score x)
    · rw [score_snd hp]
    · intro k hk
      rw [score_average hp, if_pos hk, if_pos hlen]

theorem Steady.run {x : List Int8} (h : t.Steady x) (n : ℕ) :
    run step t (List.replicate n (.score x)) = t := by
  induction n with
  | zero => rfl
  | succ n ih =>
    have hstep : t.step (.score x) = t := h.2
    rw [List.replicate_succ, run_cons, hstep, ih]

/-- A buffer scores the same at any gain; and a buffer that starts the average anew scores 0 from
then on, and leaves the average as it is. -/
theorem score_gain (ops : List Op) (x : List Int8) :
    let t := run step new ops
    (∀ c y, 0 < c → Amplifies c x y → (t.score x).1 = (t.score y).1) ∧
      (x.length ≠ t.bufLen → ∀ n,
        let primed := run step (t.score x).2 (List.replicate n (.score x))
        (primed.score x).1 = 0 ∧ (primed.score x).2 = (t.score x).2) := by
  intro t
  have hbounded : t.Bounded := bounded_run ops
  constructor
  · intro c y hc hxy
    have hlen : x.length = y.length := hxy.length_eq
    have hsampled : sampled y = sampled x := by simp only [sampled, pairs, hlen]
    have hprofile : profile y = fun k => c * profile x k := funext hxy.profile
    have hzero : total (range (sampled x)) (profile y) = 0 ↔
        total (range (sampled x)) (profile x) = 0 := by
      rw [hprofile, total_mul]
      simp [hc.ne']
    apply UInt16.toNat_inj.mp
    rw [score_eq_floor hbounded, score_eq_floor hbounded, hsampled, ← hlen]
    simp only [hzero]
    rw [hprofile, distance_mul hc]
  · intro hlen n primed
    have hsteady := steady_primed hbounded hlen
    have hprimed : primed = (t.score x).2 := hsteady.run n
    rw [hprimed]
    exact hsteady

/-- A buffer of three carriers at double the gain, and the same buffer again once it has started the
average anew. -/
theorem score_gain_doubled :
    let t := run step new [.score [3, 4, 0, 5, 1, 0]]
    (t.score [1, 2, 0, 3, 4, 0]).1 = (t.score [2, 4, 0, 6, 8, 0]).1 ∧
      (((run step (t.score [1, 2]).2 [.score [1, 2], .score [1, 2]]).score [1, 2]).1 = 0 ∧
        ((run step (t.score [1, 2]).2 [.score [1, 2], .score [1, 2]]).score [1, 2]).2 =
          (t.score [1, 2]).2) :=
  ⟨(score_gain [.score [3, 4, 0, 5, 1, 0]] [1, 2, 0, 3, 4, 0]).1 2 [2, 4, 0, 6, 8, 0] (by decide)
      (by unfold Amplifies; decide),
    (score_gain [.score [3, 4, 0, 5, 1, 0]] [1, 2]).2 (by decide +kernel) 2⟩

/-! ## The top of the scale -/

theorem score_le (t : ThresholdState) (buf : List Int8) : (t.score buf).1.toNat ≤ 65534 := by
  by_cases hp : pairs buf = 0
  · rw [score_of_empty hp]
    exact Nat.zero_le _
  · rw [score_toNat hp]
    split_ifs
    · exact Nat.zero_le _
    · have hsat := saturatingMul_toNat_le (t.dist buf) (65535 / 2)
      rw [dist_toNat, half_toNat] at hsat
      exact (Nat.div_le_div_right hsat).trans (quotient_le _ _ _)

theorem score_ne_full (t : ThresholdState) (buf : List Int8) : (t.score buf).1 ≠ 65535 := by
  intro hfull
  have hle := score_le t buf
  rw [hfull] at hle
  exact absurd hle (by decide)

/-- A buffer that does not overlap the average scores 65534, and no other does. -/
theorem score_eq_top_iff (h : t.Bounded) (hlen : buf.length = t.bufLen)
    (hA : 0 < total (range (sampled buf)) (profile buf))
    (hB : 0 < total (range (sampled buf)) t.average) :
    (t.score buf).1 = 65534 ↔ Apart (range (sampled buf)) (profile buf) t.average := by
  have hzero : ¬ (buf.length ≠ t.bufLen ∨ total (range (sampled buf)) (profile buf) = 0 ∨
      total (range (sampled buf)) t.average = 0) := by
    rintro (hne | hnone | hnone)
    · exact hne hlen
    · omega
    · omega
  have htop : (65534 : UInt16).toNat = 65534 := by decide
  have hle := distance_le_two hA hB
  rw [← UInt16.toNat_inj, htop, score_eq_floor h, if_neg hzero, ← distance_eq_two_iff hA hB]
  constructor
  · intro hfloor
    have hpos := distance_nonneg (range (sampled buf)) (profile buf) t.average
    have hreach := Nat.floor_le (mul_nonneg (by norm_num : (0 : ℚ) ≤ 32767) hpos)
    rw [hfloor] at hreach
    push_cast at hreach
    linarith
  · intro hdist
    rw [hdist]
    norm_num

/-- Full scale is what a buffer of the same length scores exactly when its profile does not overlap
the average. -/
def MarksApart (t : ThresholdState) (buf : List Int8) : Prop :=
  (t.score buf).1 = 65535 ↔ Apart (range (sampled buf)) (profile buf) t.average

/-- A level of full scale is reached by no buffer in any state, so that the buffers that do overlap
the average are those that are told apart by it. The others score one less in every state that has
kept an average of amplitudes. -/
theorem marksApart_iff_overlaps (t : ThresholdState) (buf : List Int8) :
    ¬ (t.score buf).1 ≥ 65535 ∧
      (buf.length = t.bufLen → 0 < total (range (sampled buf)) (profile buf) →
        0 < total (range (sampled buf)) t.average →
        (t.MarksApart buf ↔ ¬ Apart (range (sampled buf)) (profile buf) t.average) ∧
        (t.Bounded →
          ((t.score buf).1 = 65534 ↔ Apart (range (sampled buf)) (profile buf) t.average))) := by
  have hne := score_ne_full t buf
  constructor
  · intro hge
    have hle := score_le t buf
    have htop := UInt16.le_iff_toNat_le.mp hge
    have hfull : (65535 : UInt16).toNat = 65535 := by decide
    omega
  · intro hlen hA hB
    refine ⟨?_, fun h => score_eq_top_iff h hlen hA hB⟩
    simp only [MarksApart, hne, false_iff]

def oneSided : ThresholdState := (new.score [0, 1, 0, 0]).2

/-- A buffer with weight on the first carrier too. -/
theorem marksApart_iff_overlaps_both :
    oneSided.MarksApart [0, 1, 0, 1] ∧
      ¬ Apart (range (sampled [0, 1, 0, 1])) (profile [0, 1, 0, 1]) oneSided.average := by
  have hoverlap : ¬ Apart (range (sampled [0, 1, 0, 1])) (profile [0, 1, 0, 1])
      oneSided.average := by
    intro h
    exact absurd (h 0 (by decide)) (by decide +kernel)
  exact ⟨((marksApart_iff_overlaps oneSided [0, 1, 0, 1]).2 rfl (by decide +kernel)
    (by decide +kernel)).1.mpr hoverlap, hoverlap⟩

/-- A buffer with weight on the second carrier alone scores 65534. -/
theorem apart_below_full : ¬ ∀ (t : ThresholdState) (buf : List Int8), buf.length = t.bufLen →
    0 < total (range (sampled buf)) (profile buf) → 0 < total (range (sampled buf)) t.average →
      t.MarksApart buf := by
  intro h
  have hfull := (h oneSided [0, 0, 0, 1] rfl (by decide +kernel) (by decide +kernel)).mpr
    (by unfold Apart; decide +kernel)
  exact score_ne_full _ _ hfull

end ThresholdState

end EspCsi.Csi
