import Mathlib.Data.List.Infix

/-!
# Streaks

How many elements at the end of a list satisfy a predicate in a row, and whether so many in a row
occur in it anywhere.
-/

namespace Streak

variable {α : Type*} {p q : α → Prop}

/-- `n` elements in a row satisfy `p`. -/
def HasStreak (p : α → Prop) (n : ℕ) (l : List α) : Prop :=
  ∃ xs, xs.length = n ∧ xs <:+: l ∧ ∀ x ∈ xs, p x

/-- The last `n` elements satisfy `p`. -/
def EndsIn (p : α → Prop) (n : ℕ) (l : List α) : Prop :=
  ∃ xs, xs.length = n ∧ xs <:+ l ∧ ∀ x ∈ xs, p x

/-- The number of elements in a row that satisfy `p`, up to the last one. -/
def streak (p : α → Prop) [DecidablePred p] (l : List α) : ℕ :=
  l.foldl (fun n x => if p x then n + 1 else 0) 0

@[simp] theorem endsIn_zero (l : List α) : EndsIn p 0 l :=
  ⟨[], rfl, List.nil_suffix, by simp⟩

theorem not_hasStreak_nil (n : ℕ) : ¬ HasStreak p (n + 1) ([] : List α) := by
  rintro ⟨xs, hlen, hxs, -⟩
  rw [List.eq_nil_of_infix_nil hxs] at hlen
  simp at hlen

theorem endsIn_concat {n : ℕ} {l : List α} {x : α} :
    EndsIn p (n + 1) (l ++ [x]) ↔ p x ∧ EndsIn p n l := by
  constructor
  · rintro ⟨xs, hlen, hsuf, hall⟩
    rcases List.eq_nil_or_concat xs with rfl | ⟨ys, y, rfl⟩
    · simp at hlen
    · obtain ⟨front, hfront⟩ := hsuf
      have hsplit : (front ++ ys) ++ [y] = l ++ [x] := by simpa using hfront
      obtain ⟨hl, hy⟩ := List.append_inj' hsplit rfl
      obtain rfl : y = x := by simpa using hy
      refine ⟨hall y (by simp), ys, by simpa using hlen, ⟨front, hl⟩, ?_⟩
      intro z hz
      exact hall z (by simp [hz])
  · rintro ⟨hx, xs, hlen, ⟨front, rfl⟩, hall⟩
    refine ⟨xs ++ [x], by simp [hlen], ⟨front, by simp⟩, ?_⟩
    intro z hz
    rcases List.mem_append.mp hz with hz | hz
    · exact hall z hz
    · obtain rfl := List.mem_singleton.mp hz
      exact hx

theorem hasStreak_concat {n : ℕ} {l : List α} {x : α} :
    HasStreak p (n + 1) (l ++ [x]) ↔ HasStreak p (n + 1) l ∨ p x ∧ EndsIn p n l := by
  rw [← endsIn_concat]
  constructor
  · rintro ⟨xs, hlen, hrun, hall⟩
    rcases List.infix_concat_iff.mp hrun with hsuf | hold
    · exact .inr ⟨xs, hlen, hsuf, hall⟩
    · exact .inl ⟨xs, hlen, hold, hall⟩
  · rintro (⟨xs, hlen, hold, hall⟩ | ⟨xs, hlen, hsuf, hall⟩)
    · exact ⟨xs, hlen, List.infix_concat_iff.mpr (.inr hold), hall⟩
    · exact ⟨xs, hlen, hsuf.isInfix, hall⟩

theorem HasStreak.mono {n : ℕ} {l : List α} (h : HasStreak p n l) (hpq : ∀ x ∈ l, p x → q x) :
    HasStreak q n l := by
  obtain ⟨xs, hlen, hrun, hall⟩ := h
  exact ⟨xs, hlen, hrun, fun x hx => hpq x (hrun.subset hx) (hall x hx)⟩

theorem HasStreak.map {β : Type*} {f : β → α} {n : ℕ} {l : List β}
    (h : HasStreak (fun x => p (f x)) n l) : HasStreak p n (l.map f) := by
  obtain ⟨xs, hlen, hrun, hall⟩ := h
  exact ⟨xs.map f, by rw [List.length_map, hlen], hrun.map f, List.forall_mem_map.mpr hall⟩

section Decidable

variable [DecidablePred p]

@[simp] theorem streak_nil : streak p [] = 0 := rfl

theorem streak_concat (l : List α) (x : α) :
    streak p (l ++ [x]) = if p x then streak p l + 1 else 0 := by
  simp [streak]

/-- The streak is the longest end of the list that satisfies `p`. -/
theorem endsIn_iff {n : ℕ} {l : List α} : EndsIn p n l ↔ n ≤ streak p l := by
  induction l using List.reverseRecOn generalizing n with
  | nil =>
    cases n with
    | zero => simp
    | succ n =>
      refine iff_of_false ?_ (by simp)
      rintro ⟨xs, hlen, hsuf, -⟩
      rw [List.eq_nil_of_suffix_nil hsuf] at hlen
      simp at hlen
  | append_singleton l x ih =>
    cases n with
    | zero => simp
    | succ n =>
      rw [endsIn_concat, ih, streak_concat]
      by_cases hx : p x <;> simp [hx]

/-- A list without `n + 1` in a row gets them by its `n + 1`st element in a row. -/
theorem hasStreak_concat_iff_streak {n : ℕ} {l : List α} {x : α} (h : ¬ HasStreak p (n + 1) l) :
    HasStreak p (n + 1) (l ++ [x]) ↔ p x ∧ streak p l = n := by
  have hle : streak p l ≤ n := by
    by_contra hlt
    obtain ⟨xs, hlen, hsuf, hall⟩ := endsIn_iff.mpr (Nat.not_le.mp hlt)
    exact h ⟨xs, hlen, hsuf.isInfix, hall⟩
  rw [hasStreak_concat, endsIn_iff]
  constructor
  · rintro (hold | ⟨hx, hge⟩)
    · exact absurd hold h
    · exact ⟨hx, le_antisymm hle hge⟩
  · rintro ⟨hx, heq⟩
    exact .inr ⟨hx, heq.ge⟩

end Decidable

end Streak
