import EspCsi.Csi.Timestamps

/-!
# Widening over unordered frames

The receive clock widened over frames that arrive late as well as early. The state after a frame is
that of the latest frame heard, as long as no frame precedes the epoch that the run began in: there
is no wrap to place such a frame before.
-/

namespace EspCsi.Csi

open Transition

namespace Session

/-- A frame received at true time `t` is widened. The radio's clock shows its time modulo 2^32. -/
def heardAt (s : Session) (t : ℕ) : Session := (s.widenTimestamp (UInt32.ofNat t)).2

def stampAt (s : Session) (t : ℕ) : UInt64 := (s.widenTimestamp (UInt32.ofNat t)).1

/-- Each time differs from the largest earlier one by less than half the clock's range. -/
def Nearby (ts : List ℕ) : Prop :=
  ∀ pre t post, ts = pre ++ t :: post → ∀ m ∈ pre, (∀ x ∈ pre, x ≤ m) →
    t < m + 2 ^ 31 ∧ m < t + 2 ^ 31

/-- Every time from `t₀` on is stamped as the time since the epoch of `t₀`. -/
def Exact (t₀ : ℕ) : Session → List ℕ → Prop :=
  Along heardAt fun s t => t₀ ≤ t → (s.stampAt t).toNat = t - 2 ^ 32 * (t₀ / 2 ^ 32)

/-- The time lies in the epoch of `t₀` or after it, and within 64 bits of its start. -/
def FromEpoch (t₀ t : ℕ) : Prop := t₀ / 2 ^ 32 ≤ t / 2 ^ 32 ∧ t / 2 ^ 32 < t₀ / 2 ^ 32 + 2 ^ 32

theorem Nearby.initial {ts us : List ℕ} (h : Nearby us) (hle : ts <+: us) : Nearby ts := by
  obtain ⟨rest, rfl⟩ := hle
  intro pre t post hsplit
  exact h pre t (post ++ rest) (by simp [hsplit])

theorem Nearby.last {ts : List ℕ} {t m : ℕ} (h : Nearby (ts ++ [t])) (hm : m ∈ ts)
    (hmax : ∀ x ∈ ts, x ≤ m) : t < m + 2 ^ 31 ∧ m < t + 2 ^ 31 :=
  h ts t [] rfl m hm hmax

theorem nearby_concat {ts : List ℕ} {t : ℕ} : Nearby (ts ++ [t]) ↔
    Nearby ts ∧ ∀ m ∈ ts, (∀ x ∈ ts, x ≤ m) → t < m + 2 ^ 31 ∧ m < t + 2 ^ 31 := by
  constructor
  · intro h
    exact ⟨h.initial (List.prefix_append ts [t]), fun m hm hmax => h.last hm hmax⟩
  · rintro ⟨h, hlast⟩ pre x post hsplit
    rcases concat_eq_split hsplit with ⟨rfl, rfl, -⟩ | ⟨post', -, hold⟩
    · exact hlast
    · exact h pre x post' hold

theorem nearby_singleton (t : ℕ) : Nearby [t] := by
  intro pre x post hsplit m hm
  have hconcat : [] ++ [t] = pre ++ x :: post := hsplit
  rcases concat_eq_split hconcat with ⟨rfl, -, -⟩ | ⟨post', -, hnil⟩
  · simp at hm
  · simp at hnil

/-- `m` is the latest of the times heard, and the state is that after it. -/
structure Latest (s : Session) (base : ℕ) (heard : List ℕ) (m : ℕ) : Prop where
  mem : m ∈ heard
  le : ∀ x ∈ heard, x ≤ m
  tracks : s.Tracks base m

variable {s : Session} {base t₀ m t : ℕ} {heard : List ℕ}

theorem ofNat_toNat (t : ℕ) : (UInt32.ofNat t).toNat = t % 2 ^ 32 := UInt32.toNat_ofNat'

theorem Tracks.late (h : s.Tracks base m) (hlt : t < m) (hnear : m < t + 2 ^ 31)
    (hbase : base ≤ t / 2 ^ 32) :
    (s.stampAt t).toNat = t - 2 ^ 32 * base ∧ s.heardAt t = s := by
  obtain ⟨hlast, hwraps⟩ := h
  have hraw := ofNat_toNat t
  unfold stampAt heardAt
  by_cases hepoch : t / 2 ^ 32 = m / 2 ^ 32
  · rw [widenTimestamp_late (by omega) (by omega), stamp_toNat]
    exact ⟨by omega, rfl⟩
  · -- the clock wrapped between the two, which the state has counted
    have hcounted : 0 < s.tsWraps.toNat := by omega
    have hsub : (s.tsWraps - 1).toNat = s.tsWraps.toNat - 1 :=
      UInt32.toNat_sub_of_le _ _ (UInt32.le_iff_toNat_le.mpr hcounted)
    rw [widenTimestamp_straggler (by omega) hcounted, stamp_toNat, hsub]
    exact ⟨by omega, rfl⟩

theorem Tracks.next (h : s.Tracks base m) (hle : m ≤ t) (hnear : t < m + 2 ^ 31)
    (hend : t / 2 ^ 32 < base + 2 ^ 32) :
    (s.stampAt t).toNat = t - 2 ^ 32 * base ∧ (s.heardAt t).Tracks base t := by
  obtain ⟨hlast, hwraps⟩ := h
  have hraw := ofNat_toNat t
  unfold stampAt heardAt
  by_cases hepoch : t / 2 ^ 32 = m / 2 ^ 32
  · rw [widenTimestamp_next (by omega) (by omega), stamp_toNat]
    refine ⟨by omega, hraw, ?_⟩
    change s.tsWraps.toNat + base = t / 2 ^ 32
    omega
  · have hadd : (s.tsWraps + 1).toNat = s.tsWraps.toNat + 1 := by
      rw [UInt32.toNat_add]
      simp only [UInt32.reduceToNat]
      omega
    rw [widenTimestamp_wrap (by omega), stamp_toNat, hadd]
    refine ⟨by omega, hraw, ?_⟩
    change (s.tsWraps + 1).toNat + base = t / 2 ^ 32
    rw [hadd]
    omega

theorem Latest.hear (h : s.Latest (t₀ / 2 ^ 32) heard m) (hnear : Nearby (heard ++ [t]))
    (hepoch : FromEpoch t₀ t) :
    (s.stampAt t).toNat = t - 2 ^ 32 * (t₀ / 2 ^ 32) ∧
      ∃ m', (s.heardAt t).Latest (t₀ / 2 ^ 32) (heard ++ [t]) m' := by
  obtain ⟨habove, hbelow⟩ := hnear.last h.mem h.le
  have hmem : ∀ x ∈ heard ++ [t], x ∈ heard ∨ x = t := by simp
  by_cases hlate : t < m
  · obtain ⟨hstamp, hkept⟩ := h.tracks.late hlate hbelow hepoch.1
    rw [hkept]
    refine ⟨hstamp, m, by simp [h.mem], fun x hx => ?_, h.tracks⟩
    rcases hmem x hx with hold | rfl
    · exact h.le x hold
    · omega
  · obtain ⟨hstamp, htracks⟩ := h.tracks.next (by omega) habove hepoch.2
    refine ⟨hstamp, t, by simp, fun x hx => ?_, htracks⟩
    rcases hmem x hx with hold | rfl
    · exact (h.le x hold).trans (by omega)
    · exact le_rfl

/-! ## A run -/

theorem latest_first (hlast : s.tsLastRaw = 0) (hwraps : s.tsWraps = 0) (t₀ : ℕ) :
    (s.stampAt t₀).toNat = t₀ - 2 ^ 32 * (t₀ / 2 ^ 32) ∧
      (s.heardAt t₀).Latest (t₀ / 2 ^ 32) [t₀] t₀ := by
  have hlast' : s.tsLastRaw.toNat = 0 := by rw [hlast]; rfl
  have hwraps' : s.tsWraps.toNat = 0 := by rw [hwraps]; rfl
  obtain ⟨hstamp, htracks⟩ := widenTimestamp_first hlast' hwraps' (ofNat_toNat t₀)
  refine ⟨?_, by simp, by simp, htracks⟩
  unfold stampAt
  omega

theorem latest_run (hlast : s.tsLastRaw = 0) (hwraps : s.tsWraps = 0) {ts : List ℕ}
    (hnear : Nearby (t₀ :: ts)) (hepoch : ∀ t ∈ ts, FromEpoch t₀ t) :
    Exact t₀ s (t₀ :: ts) ∧
      ∃ m, (run heardAt s (t₀ :: ts)).Latest (t₀ / 2 ^ 32) (t₀ :: ts) m := by
  obtain ⟨hfirst, hlatest⟩ := latest_first hlast hwraps t₀
  induction ts using List.reverseRecOn with
  | nil => exact ⟨along_cons.mpr ⟨fun _ => hfirst, along_nil⟩, t₀, hlatest⟩
  | append_singleton ts t ih =>
    rw [← List.cons_append] at hnear ⊢
    obtain ⟨hexact, m, hm⟩ := ih (hnear.initial (List.prefix_append _ _))
      fun x hx => hepoch x (List.mem_append_left _ hx)
    obtain ⟨hstamp, hnext⟩ := hm.hear hnear (hepoch t (by simp))
    rw [run_concat]
    exact ⟨along_concat.mpr ⟨hexact, fun _ => hstamp⟩, hnext⟩

/-! ## A frame from before the run's epoch -/

/-- A frame from before the epoch is taken for the latest one: `t₀`, heard again, then counts as a
wrap. -/
theorem Latest.early (h : s.Latest (t₀ / 2 ^ 32) heard m) (hmem : t₀ ∈ heard)
    (hnear : Nearby (heard ++ [t])) (hearly : t / 2 ^ 32 < t₀ / 2 ^ 32) :
    ((s.heardAt t).stampAt t₀).toNat = t₀ - 2 ^ 32 * (t₀ / 2 ^ 32) + 2 ^ 32 := by
  obtain ⟨-, hbelow⟩ := hnear.last h.mem h.le
  have hle := h.le t₀ hmem
  obtain ⟨hlast, hwraps⟩ := h.tracks
  have hraw := ofNat_toNat t
  have hraw₀ := ofNat_toNat t₀
  have hnone : s.tsWraps.toNat = 0 := by omega
  have hheard : s.heardAt t = { s with tsLastRaw := UInt32.ofNat t } := by
    unfold heardAt
    rw [widenTimestamp_next (by omega) (.inr hnone)]
  have hadd : (s.tsWraps + 1).toNat = 1 := by
    rw [UInt32.toNat_add, hnone]
    rfl
  unfold stampAt
  rw [hheard, widenTimestamp_wrap, stamp_toNat]
  · change (s.tsWraps + 1).toNat * 2 ^ 32 + _ = _
    omega
  · change (UInt32.ofNat t₀).toNat + 2 ^ 31 ≤ (UInt32.ofNat t).toNat
    omega

theorem Latest.nearby_again (h : s.Latest (t₀ / 2 ^ 32) heard m) (hmem : t₀ ∈ heard)
    (hnear : Nearby (heard ++ [t])) (hearly : t / 2 ^ 32 < t₀ / 2 ^ 32) :
    Nearby (heard ++ [t] ++ [t₀]) := by
  refine nearby_concat.mpr ⟨hnear, fun m' hm' hmax' => ?_⟩
  obtain ⟨-, hbelow⟩ := hnear.last h.mem h.le
  have hle := hmax' t₀ (by simp [hmem])
  rcases List.mem_append.mp hm' with hold | hnew
  · have hm := h.le m' hold
    omega
  · obtain rfl := List.mem_singleton.mp hnew
    omega

/-- Every frame from the first on is stamped exactly in each run whose frames all come from its first
frame's epoch on. The first frame to come from before it makes the run go wrong as soon as a frame
of time `t₀` comes again. -/
theorem widening_exact (s : Session) (controlled headerDigest : Bool) (random : UInt32) (t₀ : ℕ)
    (ts : List ℕ) (hnear : Nearby (t₀ :: ts)) :
    let s := s.beginRun controlled headerDigest random
    ((∀ t ∈ ts, FromEpoch t₀ t) → Exact t₀ s (t₀ :: ts)) ∧
      ∀ pre t, pre ++ [t] <+: ts → (∀ x ∈ pre, FromEpoch t₀ x) → t / 2 ^ 32 < t₀ / 2 ^ 32 →
        Nearby (t₀ :: pre ++ [t, t₀]) ∧ ¬ Exact t₀ s (t₀ :: pre ++ [t, t₀]) := by
  intro s
  constructor
  · intro hepoch
    exact (latest_run rfl rfl hnear hepoch).1
  · intro pre t hpre hepoch hearly
    have hinit : Nearby (t₀ :: pre ++ [t]) :=
      hnear.initial (List.cons_prefix_cons.mpr ⟨rfl, hpre⟩)
    obtain ⟨-, m, hm⟩ := latest_run (s := s) rfl rfl
      (hinit.initial (List.prefix_append _ _)) hepoch
    have happend : t₀ :: pre ++ [t, t₀] = t₀ :: pre ++ [t] ++ [t₀] := by simp
    rw [happend]
    refine ⟨hm.nearby_again (by simp) hinit hearly, fun hexact => ?_⟩
    have hlast := (along_concat.mp hexact).2 le_rfl
    rw [run_concat, hm.early (by simp) hinit hearly] at hlast
    omega

theorem widening_exact_straggler :
    Exact (2 ^ 32 - 5) (boot.beginRun true true 0)
      [2 ^ 32 - 5, 2 ^ 32 + 7, 2 ^ 32 - 1, 2 ^ 32 + 8] := by
  have hnear : Nearby ([2 ^ 32 - 5] ++ [2 ^ 32 + 7] ++ [2 ^ 32 - 1] ++ [2 ^ 32 + 8]) := by
    refine nearby_concat.mpr ⟨nearby_concat.mpr ⟨nearby_concat.mpr ⟨nearby_singleton _, ?_⟩, ?_⟩, ?_⟩
    all_goals simp
  exact (widening_exact boot true true 0 (2 ^ 32 - 5) [2 ^ 32 + 7, 2 ^ 32 - 1, 2 ^ 32 + 8]
    hnear).1 (by simp [FromEpoch])

/-- A frame from before the epoch comes late, and the next is placed an epoch too late. -/
theorem widening_inexact :
    Nearby [2 ^ 32 + 5, 2 ^ 32 - 3, 2 ^ 32 + 6] ∧
      ¬ Exact (2 ^ 32 + 5) (boot.beginRun true true 0) [2 ^ 32 + 5, 2 ^ 32 - 3, 2 ^ 32 + 6] := by
  have hnear : Nearby ([2 ^ 32 + 5] ++ [2 ^ 32 - 3] ++ [2 ^ 32 + 6]) := by
    refine nearby_concat.mpr ⟨nearby_concat.mpr ⟨nearby_singleton _, ?_⟩, ?_⟩
    all_goals simp
  refine ⟨hnear, ?_⟩
  unfold Exact
  decide +kernel

end Session

end EspCsi.Csi
