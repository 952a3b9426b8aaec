import Mathlib.Data.List.Basic
import Mathlib.Data.List.Count
import Mathlib.Data.List.Induction
import Mathlib.Tactic.Ring

/-!
# Round robin

Turns given to the places below `n`: given in their order, over and over, or merely evenly, so that no
place has had two turns more than another.
-/

namespace RoundRobin

variable {n : ℕ} {xs : List ℕ}

/-- Turn `k` goes to place `k mod n`. -/
def InTurn (n : ℕ) (xs : List ℕ) : Prop := ∀ k (h : k < xs.length), xs[k] = k % n

/-- The turns of no two places differ by more than one. -/
def Even (n : ℕ) (xs : List ℕ) : Prop := ∀ i < n, ∀ j < n, xs.count i ≤ xs.count j + 1

/-- Every place has had `c` turns, and each of the first `a` one more. -/
def Ahead (n c a : ℕ) (xs : List ℕ) : Prop := ∀ i < n, xs.count i = c + if i < a then 1 else 0

instance (n : ℕ) (xs : List ℕ) : Decidable (InTurn n xs) :=
  inferInstanceAs (Decidable (∀ k (h : k < xs.length), xs[k] = k % n))

instance (n : ℕ) (xs : List ℕ) : Decidable (Even n xs) :=
  inferInstanceAs (Decidable (∀ i < n, ∀ j < n, xs.count i ≤ xs.count j + 1))

theorem div_mod_succ (hpos : 0 < n) (k : ℕ) :
    (k + 1) / n = (if k % n + 1 = n then k / n + 1 else k / n) ∧
      (k + 1) % n = if k % n + 1 = n then 0 else k % n + 1 := by
  have hsplit := Nat.div_add_mod k n
  have hlt := Nat.mod_lt k hpos
  rw [Nat.div_mod_unique hpos]
  split_ifs with hlast
  · rw [Nat.mul_succ]
    omega
  · omega

theorem inTurn_nil (n : ℕ) : InTurn n [] := fun k h => absurd h (Nat.not_lt_zero k)

theorem ahead_nil (n : ℕ) : Ahead n 0 0 [] := fun i _ => by simp

theorem Ahead.even {c a : ℕ} (h : Ahead n c a xs) : Even n xs := by
  intro i hi j hj
  rw [h i hi, h j hj]
  split_ifs <;> omega

theorem inTurn_concat {x : ℕ} :
    InTurn n (xs ++ [x]) ↔ InTurn n xs ∧ x = xs.length % n := by
  constructor
  · intro h
    constructor
    · intro k hk
      have hturn := h k (by simp; omega)
      rwa [List.getElem_append_left hk] at hturn
    · have hturn := h xs.length (by simp)
      simpa using hturn
  · rintro ⟨h, rfl⟩ k hk
    rw [List.length_append, List.length_singleton] at hk
    rcases Nat.lt_succ_iff_lt_or_eq.mp hk with hlt | rfl
    · rw [List.getElem_append_left hlt]
      exact h k hlt
    · simp

theorem InTurn.ahead (hpos : 0 < n) (h : InTurn n xs) :
    Ahead n (xs.length / n) (xs.length % n) xs := by
  induction xs using List.reverseRecOn with
  | nil => simpa using ahead_nil n
  | append_singleton xs x ih =>
    obtain ⟨hinit, rfl⟩ := inTurn_concat.mp h
    intro i hi
    have hcount := ih hinit i hi
    have hlt := Nat.mod_lt xs.length hpos
    obtain ⟨hdiv, hmod⟩ := div_mod_succ hpos xs.length
    rw [List.count_append, List.count_singleton, hcount, List.length_append, List.length_singleton,
      hdiv, hmod]
    simp only [beq_iff_eq]
    split_ifs <;> omega

theorem InTurn.even (hpos : 0 < n) (h : InTurn n xs) : Even n xs := (h.ahead hpos).even

/-- `m` turns in a row for one place are in turn when they are none, or one that is due, or there is
one place only. -/
theorem inTurn_append_replicate (hpos : 0 < n) (h : InTurn n xs) {d m : ℕ} (hd : d < n) :
    InTurn n (xs ++ List.replicate m d) ↔ (m ≠ 0 → d = xs.length % n ∧ (m ≤ 1 ∨ n = 1)) := by
  induction m with
  | zero => simpa using h
  | succ m ih =>
    rw [List.replicate_succ', ← List.append_assoc, inTurn_concat, ih, List.length_append,
      List.length_replicate]
    have hlt := Nat.mod_lt xs.length hpos
    cases m with
    | zero => simp
    | succ m =>
      constructor
      · rintro ⟨hfirst, hlast⟩ -
        obtain ⟨hdue, honce⟩ := hfirst (Nat.succ_ne_zero m)
        refine ⟨hdue, .inr ?_⟩
        rcases honce with honce | hone
        · -- the second turn in a row would have to be due as well
          obtain rfl : m = 0 := by omega
          rw [hdue, (div_mod_succ hpos xs.length).2] at hlast
          split_ifs at hlast <;> omega
        · exact hone
      · intro h
        obtain ⟨hdue, honce⟩ := h (Nat.succ_ne_zero _)
        obtain rfl : n = 1 := by omega
        refine ⟨fun _ => ⟨hdue, .inr rfl⟩, ?_⟩
        rw [Nat.mod_one]
        omega

/-! ## Turns by rounds that may be cut short -/

def stretch (n a m : ℕ) : List ℕ := (List.range m).map fun i => (a + i) % n

theorem count_stretch {a m i : ℕ} (ha : a < n) (hm : m ≤ n) (hi : i < n) :
    (stretch n a m).count i = if a ≤ i ∧ i < a + m ∨ i + n < a + m then 1 else 0 := by
  induction m with
  | zero =>
    rw [if_neg (by omega)]
    rfl
  | succ m ih =>
    have hplace : (a + m) % n = if a + m < n then a + m else a + m - n := by
      split_ifs with hlt
      · exact Nat.mod_eq_of_lt hlt
      · rw [Nat.mod_eq_sub_mod (Nat.le_of_not_lt hlt), Nat.mod_eq_of_lt (by omega)]
    have hsplit : stretch n a (m + 1) = stretch n a m ++ [(a + m) % n] := by
      simp [stretch, List.range_succ]
    rw [hsplit, List.count_append, List.count_singleton, ih (by omega), hplace]
    simp only [beq_iff_eq]
    split_ifs <;> omega

theorem Ahead.append_stretch {c a m : ℕ} (h : Ahead n c a xs) (ha : a < n) (hm : m < n) :
    ∃ c', Ahead n c' ((a + m) % n) (xs ++ stretch n a m) := by
  by_cases hwrap : a + m < n
  · refine ⟨c, fun i hi => ?_⟩
    rw [List.count_append, h i hi, count_stretch ha hm.le hi, Nat.mod_eq_of_lt hwrap]
    split_ifs <;> omega
  · refine ⟨c + 1, fun i hi => ?_⟩
    have hmod : (a + m) % n = a + m - n := by
      rw [Nat.mod_eq_sub_mod (Nat.le_of_not_lt hwrap), Nat.mod_eq_of_lt (by omega)]
    rw [List.count_append, h i hi, count_stretch ha hm.le hi, hmod]
    split_ifs <;> omega

theorem Ahead.append_round {c a b : ℕ} (h : Ahead n c a xs) (hb : b < n) :
    Ahead n (c + 1) a (xs ++ stretch n b n) := by
  intro i hi
  rw [List.count_append, h i hi, count_stretch hb le_rfl hi]
  split_ifs <;> omega

/-- A round cut short that begins at the first place, while some places are ahead, leaves the first
place two turns ahead of the last. -/
theorem Ahead.not_even {c a m : ℕ} (h : Ahead n c a xs) (ha : 0 < a) (han : a < n) (hm : 0 < m)
    (hmn : m < n) : ¬ Even n (xs ++ stretch n 0 m) := by
  have hpos : 0 < n := by omega
  intro heven
  have hends := heven 0 hpos (n - 1) (by omega)
  rw [List.count_append, List.count_append, h 0 hpos, h (n - 1) (by omega),
    count_stretch hpos hmn.le hpos, count_stretch hpos hmn.le (by omega)] at hends
  split_ifs at hends <;> omega

end RoundRobin
