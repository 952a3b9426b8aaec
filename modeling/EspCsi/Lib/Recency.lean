import Mathlib.Data.List.Nodup
import Mathlib.Logic.Function.Basic

/-!
# Order of last use

The elements touched so far, in the order in which each was last touched, and the few most recent of
them: what a cache with least-recently-used replacement is to hold.
-/

namespace Recency

variable {α : Type*} {x y : α} {xs older newer : List α} {n : ℕ}

/-- The `n` most recently touched, or all if there are not as many. -/
def recent (n : ℕ) (xs : List α) : List α := xs.drop (xs.length - n)

theorem length_recent (n : ℕ) (xs : List α) : (recent n xs).length = min n xs.length := by
  rw [recent, List.length_drop]
  omega

theorem recent_of_length_le (h : xs.length ≤ n) : recent n xs = xs := by
  rw [recent, Nat.sub_eq_zero_of_le h, List.drop_zero]

theorem recent_append (h : newer.length = n) : recent n (older ++ newer) = newer := by
  have hdrop : (older ++ newer).length - n = older.length := by
    rw [List.length_append]
    omega
  rw [recent, hdrop, List.drop_left]

theorem exists_append_recent (n : ℕ) (xs : List α) : ∃ older, xs = older ++ recent n xs :=
  ⟨xs.take (xs.length - n), (List.take_append_drop _ xs).symm⟩

/-- `stamp` says when each element was last touched. -/
def Stamped (stamp : α → ℕ) (xs : List α) : Prop := xs.Pairwise fun x y => stamp x < stamp y

theorem Stamped.head_lt {stamp : α → ℕ} (h : Stamped stamp xs) {rest : List α}
    (hrecent : recent n xs = x :: rest) (hy : y ∈ rest) : stamp x < stamp y := by
  have hsorted : (recent n xs).Pairwise fun x y => stamp x < stamp y :=
    h.sublist (List.drop_sublist _ _)
  rw [hrecent, List.pairwise_cons] at hsorted
  exact hsorted.1 y hy

/-- Two orders of the same elements differ in their first only if in the rest. -/
theorem tail_perm_iff {a b : α} {xs ys : List α} (h : (a :: xs).Perm (b :: ys))
    (hnodup : (a :: xs).Nodup) : xs.Perm ys ↔ a = b := by
  constructor
  · intro htail
    have hmem : a ∈ b :: ys := h.subset (by simp)
    rcases List.mem_cons.mp hmem with rfl | hin
    · rfl
    · exact absurd (htail.mem_iff.mpr hin) (List.nodup_cons.mp hnodup).1
  · rintro rfl
    exact (List.perm_cons a).mp h

/-! ## Touching -/

variable [DecidableEq α]

def touch (x : α) (xs : List α) : List α := xs.erase x ++ [x]

theorem mem_touch : y ∈ touch x xs ↔ y ∈ xs ∨ y = x := by
  by_cases h : y = x
  · simp [touch, h]
  · simp [touch, h, List.mem_erase_of_ne h]

theorem nodup_touch (h : xs.Nodup) : (touch x xs).Nodup := by
  unfold touch
  rw [List.nodup_append]
  refine ⟨h.erase x, List.nodup_singleton x, ?_⟩
  intro y hy z hz
  rw [List.mem_singleton.mp hz]
  exact (h.mem_erase_iff.mp hy).1

theorem getLast?_touch : (touch x xs).getLast? = some x := by
  simp [touch]

theorem touch_perm_of_mem (h : x ∈ xs) : (touch x xs).Perm xs := by
  have hfront : (touch x xs).Perm (x :: xs.erase x) := List.perm_append_comm
  exact hfront.trans (List.perm_cons_erase h).symm

/-- Touching a recent element moves it to the end. -/
theorem recent_touch_of_mem (hnodup : xs.Nodup) (hmem : x ∈ recent n xs) :
    recent n (touch x xs) = touch x (recent n xs) := by
  by_cases hfull : n ≤ xs.length
  · obtain ⟨older, hsplit⟩ := exists_append_recent n xs
    have hlength := length_recent n xs
    generalize recent n xs = newer at hsplit hmem hlength ⊢
    subst hsplit
    have hold : x ∉ older := fun hx => (List.nodup_append.mp hnodup).2.2 x hx x hmem rfl
    have htouch : touch x (older ++ newer) = older ++ touch x newer := by
      rw [touch, List.erase_append_right _ hold, List.append_assoc]
      rfl
    rw [htouch]
    apply recent_append
    rw [(touch_perm_of_mem hmem).length_eq]
    omega
  · have hshort : xs.length ≤ n := by omega
    rw [recent_of_length_le hshort] at hmem ⊢
    apply recent_of_length_le
    rwa [(touch_perm_of_mem hmem).length_eq]

/-- While there is room, a new element joins the others. -/
theorem recent_touch_of_room (hroom : xs.length < n) (hnew : x ∉ recent n xs) :
    recent n (touch x xs) = recent n xs ++ [x] := by
  rw [recent_of_length_le (Nat.le_of_lt hroom)] at hnew ⊢
  rw [touch, List.erase_of_not_mem hnew]
  apply recent_of_length_le
  rw [List.length_append]
  exact hroom

/-- Otherwise it takes the place of the least recent one. -/
theorem recent_touch_of_full (hpos : 0 < n) (hfull : n ≤ xs.length) (hnew : x ∉ recent n xs) :
    recent n (touch x xs) = (recent n xs).tail ++ [x] := by
  obtain ⟨older, hsplit⟩ := exists_append_recent n xs
  have hlength := length_recent n xs
  generalize recent n xs = newer at hsplit hnew hlength ⊢
  subst hsplit
  cases newer with
  | nil =>
    rw [List.length_nil] at hlength
    omega
  | cons least rest =>
    rw [List.length_cons] at hlength
    have htouch : touch x (older ++ least :: rest) = older.erase x ++ [least] ++ (rest ++ [x]) := by
      rw [touch, List.erase_append]
      by_cases hx : x ∈ older
      · simp [hx]
      · simp [List.erase_of_not_mem hx, List.erase_of_not_mem hnew]
    rw [htouch]
    apply recent_append
    simp
    omega

theorem Stamped.touch {stamp : α → ℕ} (h : Stamped stamp xs) {now : ℕ}
    (hpast : ∀ y ∈ xs, stamp y < now) (hnodup : xs.Nodup) :
    Stamped (Function.update stamp x now) (touch x xs) := by
  have hother {y : α} (hy : y ∈ xs.erase x) : Function.update stamp x now y = stamp y :=
    Function.update_of_ne (hnodup.mem_erase_iff.mp hy).1 _ _
  unfold Recency.touch Stamped
  rw [List.pairwise_append]
  refine ⟨?_, List.pairwise_singleton _ _, fun y hy z hz => ?_⟩
  · refine (h.sublist List.erase_sublist).imp_of_mem fun {y z} hy hz hlt => ?_
    rwa [hother hy, hother hz]
  · rw [List.mem_singleton.mp hz, hother hy, Function.update_self]
    exact hpast y (List.mem_of_mem_erase hy)

end Recency
