import Mathlib.Algebra.Group.Nat.Defs
import Mathlib.Data.Int.Notation
import Mathlib.Data.List.Range
import Mathlib.Data.Nat.Notation
import Mathlib.Logic.Function.Basic

/-!
# Checked arithmetic

Arithmetic on a width of bits as a build with overflow checks does it: no result where such a build
stops. A loop over a range has a result when every one of its turns has.
-/

namespace Checked

def fits (bits x : ℕ) : Option ℕ := if x < 2 ^ bits then some x else none

def add (bits x y : ℕ) : Option ℕ := fits bits (x + y)

def sub (x y : ℕ) : Option ℕ := if y ≤ x then some (x - y) else none

def mul (bits x y : ℕ) : Option ℕ := fits bits (x * y)

/-- A shift that loses no bit. -/
def shl (bits x n : ℕ) : Option ℕ := fits bits (x * 2 ^ n)

/-- A signed result. In two's complement `n` and `-1 - n` fit alike. -/
def int (bits : ℕ) : ℤ → Option ℤ
  | .ofNat n => if n < 2 ^ (bits - 1) then some (.ofNat n) else none
  | .negSucc n => if n < 2 ^ (bits - 1) then some (.negSucc n) else none

/-- An index into a slice of `length` elements. -/
def index (length i : ℕ) : Option ℕ := if i < length then some i else none

/-- One more for `k` in a map of counters. -/
def tally {κ : Type*} [DecidableEq κ] (bits : ℕ) (counts : κ → ℕ) (k : κ) : Option (κ → ℕ) :=
  (add bits (counts k) 1).map (Function.update counts k)

variable {bits x y n i length : ℕ}

theorem fits_eq (h : x < 2 ^ bits) : fits bits x = some x := if_pos h

theorem fits_eq_some {z : ℕ} : fits bits x = some z ↔ x = z ∧ x < 2 ^ bits := by
  unfold fits
  split_ifs with h <;> simp [h]

theorem add_eq (h : x + y < 2 ^ bits) : add bits x y = some (x + y) := fits_eq h

theorem sub_eq (h : y ≤ x) : sub x y = some (x - y) := if_pos h

theorem sub_eq_some {z : ℕ} : sub x y = some z ↔ y ≤ x ∧ x - y = z := by
  unfold sub
  split_ifs with h <;> simp [h]

theorem add_eq_some {z : ℕ} (h : add bits x y = some z) : z = x + y := (fits_eq_some.mp h).1.symm

theorem mul_eq (h : x * y < 2 ^ bits) : mul bits x y = some (x * y) := fits_eq h

theorem shl_eq (h : x * 2 ^ n < 2 ^ bits) : shl bits x n = some (x * 2 ^ n) := fits_eq h

theorem int_eq {x : ℤ} (hlow : -((2 ^ (bits - 1) : ℕ) : ℤ) ≤ x)
    (hhigh : x < ((2 ^ (bits - 1) : ℕ) : ℤ)) : int bits x = some x := by
  cases x with
  | ofNat n => exact if_pos (Int.ofNat_lt.mp hhigh)
  | negSucc n => exact if_pos (by omega)

theorem int32_eq {x : ℤ} (hlow : -2147483648 ≤ x) (hhigh : x < 2147483648) : int 32 x = some x :=
  int_eq hlow hhigh

theorem index_eq (h : i < length) : index length i = some i := if_pos h

theorem exists_add_one (h : x ≤ n) (hn : n + 1 < 2 ^ bits) :
    ∃ y, add bits x 1 = some y ∧ y ≤ n + 1 :=
  ⟨x + 1, add_eq (by omega), by omega⟩

theorem exists_tally {κ : Type*} [DecidableEq κ] {counts : κ → ℕ} (h : ∀ k, counts k ≤ n)
    (hn : n + 1 < 2 ^ bits) (k : κ) :
    ∃ counts', tally bits counts k = some counts' ∧ ∀ k', counts' k' ≤ n + 1 := by
  obtain ⟨y, hy, hle⟩ := exists_add_one (h k) hn
  refine ⟨Function.update counts k y, by rw [tally, hy, Option.map_some], fun k' => ?_⟩
  rw [Function.update_apply]
  split_ifs
  · exact hle
  · exact (h k').trans (Nat.le_succ n)

theorem tally_eq_some {κ : Type*} [DecidableEq κ] {counts counts' : κ → ℕ} {k : κ}
    (h : tally bits counts k = some counts') (k' : κ) : counts' k' = counts k' + [k].count k' := by
  obtain ⟨y, hy, rfl⟩ := Option.map_eq_some_iff.mp h
  rw [Function.update_apply, add_eq_some hy, List.count_singleton]
  by_cases hk : k' = k
  · rw [if_pos hk, if_pos (beq_iff_eq.mpr hk.symm), hk]
  · rw [if_neg hk, if_neg (mt beq_iff_eq.mp (Ne.symm hk)), Nat.add_zero]

theorem bind_eq {α β : Type*} {x : Option α} {f : α → Option β} {a : α} {b : β} (hx : x = some a)
    (hf : f a = some b) : x.bind f = some b := by
  rw [hx]
  exact hf

theorem foldlM_range {σ : Type*} {f : σ → ℕ → Option σ} {g : ℕ → σ} {n : ℕ}
    (h : ∀ k < n, f (g k) k = some (g (k + 1))) :
    (List.range n).foldlM f (g 0) = some (g n) := by
  induction n with
  | zero => rfl
  | succ n ih =>
    have hfirst := ih fun k hk => h k (Nat.lt_succ_of_lt hk)
    rw [List.range_succ, List.foldlM_append, hfirst]
    simp [h n (Nat.lt_succ_self n)]

end Checked
