import Mathlib.Algebra.BigOperators.Field
import Mathlib.Algebra.Order.BigOperators.Ring.Finset
import Mathlib.Algebra.Order.Floor.Semifield
import Mathlib.Data.Rat.Floor
import Mathlib.Tactic.FieldSimp

/-!
# Profiles

Finite families of natural weights, compared by the L1 distance of what each makes of its own total.
The distance is between 0 and 2, and it is a quotient of natural numbers by cross multiplication.
-/

namespace Profile

open Finset

variable {ι : Type*} {s : Finset ι} {a b : ι → ℕ}

def total (s : Finset ι) (a : ι → ℕ) : ℕ := ∑ k ∈ s, a k

/-- The L1 distance of two profiles, each normalised by its own total. -/
def distance (s : Finset ι) (a b : ι → ℕ) : ℚ := ∑ k ∈ s, |(a k : ℚ) / total s a - b k / total s b|

def absDiff (x y : ℕ) : ℕ := if x < y then y - x else x - y

/-- The distance, over the product of the totals. -/
def cross (s : Finset ι) (a b : ι → ℕ) : ℕ :=
  ∑ k ∈ s, absDiff (a k * total s b) (b k * total s a)

/-- Nowhere do both have weight. -/
def Apart (s : Finset ι) (a b : ι → ℕ) : Prop := ∀ k ∈ s, a k = 0 ∨ b k = 0

theorem absDiff_le (x y : ℕ) : absDiff x y ≤ max x y := by
  unfold absDiff
  split_ifs <;> omega

theorem absDiff_self (x : ℕ) : absDiff x x = 0 := by
  unfold absDiff
  split_ifs <;> omega

theorem cast_absDiff (x y : ℕ) : (absDiff x y : ℚ) = |(x : ℚ) - y| := by
  unfold absDiff
  split_ifs with h
  · rw [Nat.cast_sub h.le, abs_sub_comm, abs_of_nonneg]
    exact sub_nonneg.mpr (Nat.cast_le.mpr h.le)
  · rw [Nat.cast_sub (not_lt.mp h), abs_of_nonneg]
    exact sub_nonneg.mpr (Nat.cast_le.mpr (not_lt.mp h))

theorem cast_total (s : Finset ι) (a : ι → ℕ) : (total s a : ℚ) = ∑ k ∈ s, (a k : ℚ) := by
  rw [total, Nat.cast_sum]

/-! ## The range of the distance -/

theorem sum_div_total (ha : 0 < total s a) : ∑ k ∈ s, (a k : ℚ) / total s a = 1 := by
  have hne : (total s a : ℚ) ≠ 0 := by positivity
  rw [← sum_div, ← cast_total, div_self hne]

theorem distance_nonneg (s : Finset ι) (a b : ι → ℕ) : 0 ≤ distance s a b :=
  sum_nonneg fun _ _ => abs_nonneg _

theorem distance_le_two (ha : 0 < total s a) (hb : 0 < total s b) : distance s a b ≤ 2 := by
  calc distance s a b
      ≤ ∑ k ∈ s, ((a k : ℚ) / total s a + b k / total s b) := by
        apply sum_le_sum
        intro k hk
        have hak : (0 : ℚ) ≤ a k / total s a := by positivity
        have hbk : (0 : ℚ) ≤ b k / total s b := by positivity
        exact abs_le.mpr ⟨by linarith, by linarith⟩
    _ = 2 := by
        rw [sum_add_distrib, sum_div_total ha, sum_div_total hb]
        norm_num

/-- Two profiles are as far from each other as can be exactly when they do not overlap. -/
theorem distance_eq_two_iff (ha : 0 < total s a) (hb : 0 < total s b) :
    distance s a b = 2 ↔ Apart s a b := by
  have htwo : ∑ k ∈ s, ((a k : ℚ) / total s a + b k / total s b) = 2 := by
    rw [sum_add_distrib, sum_div_total ha, sum_div_total hb]
    norm_num
  have hle : ∀ k ∈ s, |(a k : ℚ) / total s a - b k / total s b| ≤
      (a k : ℚ) / total s a + b k / total s b := by
    intro k hk
    have hak : (0 : ℚ) ≤ a k / total s a := by positivity
    have hbk : (0 : ℚ) ≤ b k / total s b := by positivity
    exact abs_le.mpr ⟨by linarith, by linarith⟩
  rw [← htwo, distance, sum_eq_sum_iff_of_le hle]
  refine forall₂_congr fun k hk => ?_
  have hak : (0 : ℚ) ≤ a k / total s a := by positivity
  have hbk : (0 : ℚ) ≤ b k / total s b := by positivity
  have hA : (total s a : ℚ) ≠ 0 := by positivity
  have hB : (total s b : ℚ) ≠ 0 := by positivity
  -- |x - y| = x + y for x, y ≥ 0 leaves one of them zero
  have hzero : |(a k : ℚ) / total s a - b k / total s b| = a k / total s a + b k / total s b ↔
      (a k : ℚ) / total s a = 0 ∨ (b k : ℚ) / total s b = 0 := by
    constructor
    · intro h
      rcases abs_cases ((a k : ℚ) / total s a - b k / total s b) with ⟨habs, -⟩ | ⟨habs, -⟩
      · exact Or.inr (by linarith)
      · exact Or.inl (by linarith)
    · rintro (h | h)
      · rw [h, zero_sub, abs_neg, abs_of_nonneg hbk, zero_add]
      · rw [h, sub_zero, abs_of_nonneg hak, add_zero]
  rw [hzero, div_eq_zero_iff, div_eq_zero_iff, or_iff_left hA, or_iff_left hB, Nat.cast_eq_zero,
    Nat.cast_eq_zero]

/-! ## Levels -/

theorem total_mul (c : ℕ) : total s (fun k => c * a k) = c * total s a := by
  simp only [total, mul_sum]

/-- A profile's level does not count. -/
theorem distance_mul {c : ℕ} (hc : 0 < c) : distance s (fun k => c * a k) b = distance s a b := by
  have hne : (c : ℚ) ≠ 0 := by positivity
  simp only [distance, total_mul, Nat.cast_mul, mul_div_mul_left _ _ hne]

/-! ## Cross multiplication -/

theorem cast_cross (ha : 0 < total s a) (hb : 0 < total s b) :
    (cross s a b : ℚ) = total s a * total s b * distance s a b := by
  rw [cross, Nat.cast_sum, distance, mul_sum]
  apply sum_congr rfl
  intro k hk
  have hA : (0 : ℚ) < total s a := by positivity
  have hB : (0 : ℚ) < total s b := by positivity
  have hdiff : (a k : ℚ) * total s b - b k * total s a =
      total s a * total s b * (a k / total s a - b k / total s b) := by
    field_simp
  rw [cast_absDiff, Nat.cast_mul, Nat.cast_mul, hdiff, abs_mul, abs_of_pos (mul_pos hA hB)]

theorem cross_le (s : Finset ι) (a b : ι → ℕ) : cross s a b ≤ 2 * (total s a * total s b) := by
  calc cross s a b
      ≤ ∑ k ∈ s, (a k * total s b + b k * total s a) := by
        apply sum_le_sum
        intro k hk
        have hmax := absDiff_le (a k * total s b) (b k * total s a)
        omega
    _ = 2 * (total s a * total s b) := by
        rw [sum_add_distrib, ← sum_mul, ← sum_mul, ← total, ← total]
        ring

/-- The distance scaled by `m` and rounded down is one division of natural numbers. -/
theorem floor_mul_distance (ha : 0 < total s a) (hb : 0 < total s b) (m : ℕ) :
    ⌊(m : ℚ) * distance s a b⌋₊ = cross s a b * m / (total s a * total s b) := by
  have hA : (total s a : ℚ) ≠ 0 := by positivity
  have hB : (total s b : ℚ) ≠ 0 := by positivity
  have hquot : (m : ℚ) * distance s a b =
      ((cross s a b * m : ℕ) : ℚ) / ((total s a * total s b : ℕ) : ℚ) := by
    push_cast
    rw [cast_cross ha hb]
    field_simp
  rw [hquot, Nat.floor_div_eq_div]

end Profile
