import Mathlib.Data.List.Basic
import Mathlib.Tactic.Ring

/-!
# Paced actions

Actions that a loop takes at deadlines of its own making, each no earlier than its deadline, the
deadlines at least an interval apart. How many of them fall into a window depends on how late they
are taken.
-/

namespace Pacing

/-- An action: the deadline it was due at, and the time at which it was taken. -/
structure Slot where
  due : ℕ
  at_ : ℕ
deriving DecidableEq, Repr

def within (s e : ℕ) (xs : List Slot) : List Slot :=
  xs.filter fun x => decide (s ≤ x.at_) && decide (x.at_ ≤ e)

/-- In every window, at most one action an interval and a constant number besides. -/
def RateBounded (interval c : ℕ) (xs : List Slot) : Prop :=
  ∀ s e, (within s e xs).length ≤ (e - s) / interval + c

/-- The actions taken so far, and the deadline of the next. -/
structure Paced (interval next : ℕ) (xs : List Slot) : Prop where
  spaced : xs.Pairwise fun x y => x.due + interval ≤ y.due
  due : ∀ x ∈ xs, x.due ≤ x.at_
  next : ∀ x ∈ xs, x.due + interval ≤ next

theorem paced_nil (interval next : ℕ) : Paced interval next [] := by
  refine ⟨.nil, ?_, ?_⟩
  all_goals simp

theorem Paced.take {interval next step t : ℕ} {xs : List Slot} (h : Paced interval next xs)
    (hdue : next ≤ t) (hstep : interval ≤ step) :
    Paced interval (next + step) (xs ++ [⟨next, t⟩]) := by
  refine ⟨?_, ?_, ?_⟩
  · apply List.pairwise_append.mpr
    refine ⟨h.spaced, List.pairwise_singleton _ _, fun x hx y hy => ?_⟩
    rw [List.mem_singleton.mp hy]
    exact h.next x hx
  · intro x hx
    rcases List.mem_append.mp hx with hold | hnew
    · exact h.due x hold
    · rw [List.mem_singleton.mp hnew]
      exact hdue
  · intro x hx
    rcases List.mem_append.mp hx with hold | hnew
    · have hnext := h.next x hold
      omega
    · rw [List.mem_singleton.mp hnew]
      show next + interval ≤ next + step
      omega

theorem spread {interval lo hi : ℕ} {xs : List Slot} (hne : xs ≠ [])
    (h : xs.Pairwise fun x y => x.due + interval ≤ y.due) (hlo : ∀ x ∈ xs, lo ≤ x.due)
    (hhi : ∀ x ∈ xs, x.due ≤ hi) : lo + (xs.length - 1) * interval ≤ hi := by
  induction xs generalizing lo with
  | nil => exact absurd rfl hne
  | cons x xs ih =>
    have hx := hlo x List.mem_cons_self
    have hhead := hhi x List.mem_cons_self
    cases xs with
    | nil =>
      simp only [List.length_cons, List.length_nil]
      omega
    | cons y ys =>
      have htail := ih (List.cons_ne_nil y ys) h.tail
        (fun z hz => List.rel_of_pairwise_cons h hz) (fun z hz => hhi z (List.mem_cons_of_mem x hz))
      simp only [List.length_cons, Nat.add_sub_cancel] at htail ⊢
      have hsplit : (ys.length + 1) * interval = ys.length * interval + interval := by ring
      omega

/-- Actions that are never later than `late` respect the rate, with a constant that depends on
`late` alone. -/
theorem rateBounded_of_late {interval next late : ℕ} {xs : List Slot} (hpos : 0 < interval)
    (h : Paced interval next xs) (hlate : ∀ x ∈ xs, x.at_ ≤ x.due + late) :
    RateBounded interval (late / interval + 2) xs := by
  intro s e
  have hmem (x : Slot) (hx : x ∈ within s e xs) : x ∈ xs ∧ s ≤ x.at_ ∧ x.at_ ≤ e := by
    simpa [within] using hx
  by_cases hne : within s e xs = []
  · rw [hne]
    exact Nat.zero_le _
  -- the actions of the window have their deadlines between `s - late` and `e`
  have hspread : s - late + ((within s e xs).length - 1) * interval ≤ e := by
    apply spread hne
    · exact h.spaced.sublist List.filter_sublist
    · intro x hx
      obtain ⟨hin, hs, -⟩ := hmem x hx
      have := hlate x hin
      omega
    · intro x hx
      obtain ⟨hin, -, he⟩ := hmem x hx
      have := h.due x hin
      omega
  have hcount : (within s e xs).length - 1 ≤ (e - s + late) / interval := by
    apply (Nat.le_div_iff_mul_le hpos).mpr
    omega
  have hsplit : (e - s + late) / interval ≤ (e - s) / interval + late / interval + 1 := by
    rw [Nat.add_div hpos]
    split_ifs <;> omega
  omega

/-! ## Bursts -/

/-- The actions that a loop takes in one pass, and when the pass began. -/
structure Burst where
  began : ℕ
  slots : List Slot
deriving DecidableEq, Repr

/-- Passes that each pay back a debt of `size` intervals at most, in the order of time. -/
structure Clamped (interval size : ℕ) (bs : List Burst) : Prop where
  spaced : (bs.flatMap Burst.slots).Pairwise fun x y => x.due + interval ≤ y.due
  due : ∀ x ∈ bs.flatMap Burst.slots, x.due ≤ x.at_
  size_le : ∀ b ∈ bs, b.slots.length ≤ size
  debt : ∀ b ∈ bs, ∀ x ∈ b.slots, b.began ≤ x.due + size * interval
  order : bs.Pairwise fun b b' => b.began ≤ b'.began ∧ ∀ x ∈ b.slots, x.at_ ≤ b'.began

theorem exists_split_at {bs : List Burst} (s : ℕ) (h : bs.Pairwise fun b b' => b.began ≤ b'.began) :
    ∃ old new, bs = old ++ new ∧ (∀ b ∈ old, b.began < s) ∧ ∀ b ∈ new, s ≤ b.began := by
  induction bs with
  | nil => exact ⟨[], [], rfl, by simp, by simp⟩
  | cons b bs ih =>
    by_cases hb : b.began < s
    · obtain ⟨old, new, rfl, hold, hnew⟩ := ih h.of_cons
      exact ⟨b :: old, new, rfl, List.forall_mem_cons.mpr ⟨hb, hold⟩, hnew⟩
    · refine ⟨[], b :: bs, rfl, by simp, List.forall_mem_cons.mpr ⟨Nat.le_of_not_lt hb, ?_⟩⟩
      intro b' hb'
      exact (Nat.le_of_not_lt hb).trans (List.rel_of_pairwise_cons h hb')

theorem within_old_le {size s : ℕ} {old : List Burst} (hsize : ∀ b ∈ old, b.slots.length ≤ size)
    (horder : old.Pairwise fun b b' => ∀ x ∈ b.slots, x.at_ ≤ b'.began)
    (hold : ∀ b ∈ old, b.began < s) (e : ℕ) :
    (within s e (old.flatMap Burst.slots)).length ≤ size := by
  rcases List.eq_nil_or_concat' old with rfl | ⟨init, last, rfl⟩
  · exact Nat.zero_le size
  obtain ⟨-, -, hlast⟩ := List.pairwise_append.mp horder
  have hmem : last ∈ init ++ [last] := List.mem_append_right init (List.mem_singleton_self last)
  have hinit : within s e (init.flatMap Burst.slots) = [] := by
    apply List.filter_eq_nil_iff.mpr
    intro x hx
    obtain ⟨b, hb, hxb⟩ := List.mem_flatMap.mp hx
    have hat := hlast b hb last (List.mem_singleton_self last) x hxb
    have hbegan := hold last hmem
    have hbefore : ¬ s ≤ x.at_ := by omega
    simp [hbefore]
  rw [within] at hinit
  rw [within, List.flatMap_append, List.filter_append, hinit, List.nil_append, List.flatMap_singleton]
  exact (List.length_filter_le _ _).trans (hsize last hmem)

theorem within_new_le {interval size s : ℕ} {new : List Burst} (hpos : 0 < interval)
    (hspaced : (new.flatMap Burst.slots).Pairwise fun x y => x.due + interval ≤ y.due)
    (hdue : ∀ x ∈ new.flatMap Burst.slots, x.due ≤ x.at_)
    (hdebt : ∀ b ∈ new, ∀ x ∈ b.slots, b.began ≤ x.due + size * interval)
    (hnew : ∀ b ∈ new, s ≤ b.began) (e : ℕ) :
    (within s e (new.flatMap Burst.slots)).length ≤ (e - s) / interval + size + 1 := by
  by_cases hne : within s e (new.flatMap Burst.slots) = []
  · rw [hne]
    exact Nat.zero_le _
  have hmem (x : Slot) (hx : x ∈ within s e (new.flatMap Burst.slots)) :
      x ∈ new.flatMap Burst.slots ∧ x.at_ ≤ e := by
    rw [within, List.mem_filter, Bool.and_eq_true, decide_eq_true_eq, decide_eq_true_eq] at hx
    exact ⟨hx.1, hx.2.2⟩
  have hspread : s - size * interval +
      ((within s e (new.flatMap Burst.slots)).length - 1) * interval ≤ e := by
    apply spread hne
    · exact hspaced.sublist List.filter_sublist
    · intro x hx
      obtain ⟨b, hb, hxb⟩ := List.mem_flatMap.mp (hmem x hx).1
      have hbegan := hdebt b hb x hxb
      have hs := hnew b hb
      omega
    · intro x hx
      obtain ⟨hin, he⟩ := hmem x hx
      exact (hdue x hin).trans he
  have hcount : (within s e (new.flatMap Burst.slots)).length - 1 ≤
      (e - s + size * interval) / interval := by
    apply (Nat.le_div_iff_mul_le hpos).mpr
    omega
  rw [Nat.add_mul_div_right _ _ hpos] at hcount
  omega

/-- A pass in progress at the window's start, one debt and one action besides, whatever stalls the
loop. -/
theorem Clamped.rateBounded {interval size : ℕ} {bs : List Burst} (hpos : 0 < interval)
    (h : Clamped interval size bs) :
    RateBounded interval (2 * size + 1) (bs.flatMap Burst.slots) := by
  intro s e
  obtain ⟨old, new, rfl, hold, hnew⟩ := exists_split_at s (h.order.imp fun hb => hb.1)
  obtain ⟨horder, -, -⟩ := List.pairwise_append.mp h.order
  have hspaced := h.spaced
  have hdue := h.due
  rw [List.flatMap_append] at hspaced hdue
  have hbefore := within_old_le (fun b hb => h.size_le b (List.mem_append_left new hb))
    (horder.imp fun hb => hb.2) hold e
  have hafter := within_new_le hpos (List.pairwise_append.mp hspaced).2.1
    (fun x hx => hdue x (List.mem_append_right _ hx))
    (fun b hb => h.debt b (List.mem_append_right old hb)) hnew e
  rw [List.flatMap_append, within, List.filter_append, List.length_append]
  rw [within] at hbefore hafter
  omega

/-! ## Catching up -/

/-- A round of a loop that is an interval behind its deadlines or more: it takes one action, in
little time, and moves the next deadline by an interval. -/
structure CatchesUp {σ : Type*} (round : σ → σ) (next clock : σ → ℕ) (actions : σ → List Slot)
    (ready : σ → Prop) (interval cost : ℕ) : Prop where
  stays : ∀ s, ready s → next s + interval ≤ clock s → ready (round s)
  advances : ∀ s, ready s → next s + interval ≤ clock s → next (round s) = next s + interval
  ticks : ∀ s, ready s → next s + interval ≤ clock s →
    clock s ≤ clock (round s) ∧ clock (round s) ≤ clock s + cost
  takes : ∀ s, ready s → next s + interval ≤ clock s →
    ∃ x, actions (round s) = actions s ++ [x] ∧ clock s ≤ x.at_ ∧ x.at_ ≤ clock s + cost

/-- A loop that is `k` intervals behind takes `k` actions as fast as it can. -/
theorem CatchesUp.burst {σ : Type*} {round : σ → σ} {next clock : σ → ℕ} {actions : σ → List Slot}
    {ready : σ → Prop} {interval cost : ℕ}
    (h : CatchesUp round next clock actions ready interval cost) {s : σ} {k : ℕ} (hs : ready s)
    (hbehind : next s + k * interval ≤ clock s) :
    ∃ xs, actions (round^[k] s) = actions s ++ xs ∧ xs.length = k ∧
      ∀ x ∈ xs, clock s ≤ x.at_ ∧ x.at_ ≤ clock s + k * cost := by
  induction k generalizing s with
  | zero => exact ⟨[], by simp⟩
  | succ k ih =>
    have hsplit : (k + 1) * interval = k * interval + interval := by ring
    have hcost : (k + 1) * cost = k * cost + cost := by ring
    have hnow : next s + interval ≤ clock s := by omega
    obtain ⟨hlo, hhi⟩ := h.ticks s hs hnow
    obtain ⟨x, hx, hxlo, hxhi⟩ := h.takes s hs hnow
    -- one round later it is `k` intervals behind, however little of the time was its own
    obtain ⟨xs, hxs, hlen, hin⟩ := ih (s := round s) (h.stays s hs hnow) (by
      rw [h.advances s hs hnow]
      omega)
    refine ⟨x :: xs, ?_, by rw [List.length_cons, hlen], ?_⟩
    · rw [Function.iterate_succ_apply, hxs, hx, List.append_assoc, List.singleton_append]
    · intro y hy
      rcases List.mem_cons.mp hy with rfl | hy
      · omega
      · have := hin y hy
        omega

/-- Such a loop exceeds every constant, where its rounds take less than half an interval. -/
theorem CatchesUp.exceeds {σ : Type*} {round : σ → σ} {next clock : σ → ℕ}
    {actions : σ → List Slot} {ready : σ → Prop} {interval cost : ℕ}
    (h : CatchesUp round next clock actions ready interval cost) (hcost : 2 * cost ≤ interval)
    {s : σ} (hs : ready s) (c : ℕ)
    (hbehind : next s + (2 * c + 2) * interval ≤ clock s) :
    ¬ RateBounded interval c (actions (round^[2 * c + 2] s)) := by
  obtain ⟨xs, hxs, hlen, hin⟩ := h.burst hs hbehind
  intro hbounded
  have hall : within (clock s) (clock s + (2 * c + 2) * cost) xs = xs := by
    apply List.filter_eq_self.mpr
    intro x hx
    simpa using hin x hx
  have hcount := hbounded (clock s) (clock s + (2 * c + 2) * cost)
  rw [hxs, within, List.filter_append, List.length_append] at hcount
  rw [within] at hall
  rw [hall, hlen, Nat.add_sub_cancel_left] at hcount
  -- two rounds to an interval at least, so the window is worth half as many actions as it holds
  have hwindow : (2 * c + 2) * cost / interval ≤ c + 1 := by
    apply Nat.div_le_of_le_mul
    calc (2 * c + 2) * cost = (c + 1) * (2 * cost) := by ring
      _ ≤ (c + 1) * interval := Nat.mul_le_mul_left _ hcost
      _ = interval * (c + 1) := Nat.mul_comm _ _
  omega

end Pacing
