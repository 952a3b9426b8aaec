import Mathlib.Data.List.Perm.Lattice

/-!
# Books of a lossy queue

A queue whose producers may give up their item, or take the oldest queued one out to make room. Each
loss is to be charged before it happens. The books say what was submitted and what became of it.
-/

namespace LossyQueue

variable {α : Type*}

/-- What was submitted, what was stored and taken out of the queue again, and what was lost. `held`
are the items whose submission has not ended, and `credit` the losses charged that have not
happened. -/
structure Books (α : Type*) where
  queue : List α
  held : List α
  submitted : List α
  enqueued : List α
  received : List α
  lost : List α
  charged : ℕ
  credit : ℕ

/-- What one operation can do. A loss that no credit is left for is not `fair`. -/
inductive Moves (b : Books α) : Bool → Books α → Prop
  | idle {fair : Bool} : Moves b fair b
  | submit {fair : Bool} (x : α) {held : List α} (h : held.Perm (x :: b.held)) :
      Moves b fair { b with held, submitted := b.submitted ++ [x] }
  | enqueue {fair : Bool} (x : α) {held : List α} {credit : ℕ} (h : b.held.Perm (x :: held))
      (hcredit : credit ≤ b.credit) :
      Moves b fair { b with held, credit, queue := b.queue ++ [x], enqueued := b.enqueued ++ [x] }
  | charge {fair : Bool} : Moves b fair { b with charged := b.charged + 1, credit := b.credit + 1 }
  | drop {fair : Bool} (x : α) {held : List α} {credit : ℕ} (h : b.held.Perm (x :: held))
      (hcredit : credit + 1 = b.credit) :
      Moves b fair { b with held, credit, lost := b.lost ++ [x] }
  | evict {fair : Bool} (x : α) (rest : List α) {credit : ℕ} (h : b.queue = x :: rest)
      (hcredit : credit + 1 = b.credit) :
      Moves b fair { b with queue := rest, credit, lost := b.lost ++ [x] }
  | receive {fair : Bool} (x : α) (rest : List α) (h : b.queue = x :: rest) :
      Moves b fair { b with queue := rest, received := b.received ++ [x] }
  | overdraw (x : α) {held : List α} (h : b.held.Perm (x :: held)) :
      Moves b false { b with held, lost := b.lost ++ [x] }

namespace Books

/-- What left the queue was stored before what is still in it, and what was received is part of
that. -/
def Ordered (b : Books α) : Prop :=
  ∃ gone, b.enqueued = gone ++ b.queue ∧ b.received.Sublist gone

/-- Every submitted item is at exactly one place. -/
def Conserved (b : Books α) : Prop :=
  (b.received ++ b.queue ++ b.lost ++ b.held).Perm b.submitted

/-- Every loss was charged, and so were the losses that credit is left for. -/
def Charged (b : Books α) : Prop := b.lost.length + b.credit ≤ b.charged

end Books

variable {fair : Bool} {b b' : Books α}

theorem Moves.ordered (h : Moves b fair b') (hb : b.Ordered) : b'.Ordered := by
  obtain ⟨gone, henqueued, hreceived⟩ := hb
  cases h with
  | idle | submit | charge | drop | overdraw => exact ⟨gone, henqueued, hreceived⟩
  | enqueue x => exact ⟨gone, by simp [henqueued], hreceived⟩
  | evict x rest hq =>
    refine ⟨gone ++ [x], ?_, hreceived.trans (List.sublist_append_left gone [x])⟩
    simp [henqueued, hq]
  | receive x rest hq =>
    refine ⟨gone ++ [x], ?_, List.Sublist.append_right hreceived [x]⟩
    simp [henqueued, hq]

theorem Moves.conserved (h : Moves b fair b') (hb : b.Conserved) : b'.Conserved := by
  classical
  unfold Books.Conserved at hb ⊢
  rw [List.perm_iff_count] at hb ⊢
  intro y
  have hy := hb y
  simp only [List.count_append] at hy ⊢
  cases h with
  | idle | charge => exact hy
  | submit x hheld =>
    have hcount := hheld.count_eq y
    simp only [List.count_append, List.count_cons, List.count_nil] at hcount ⊢
    omega
  | enqueue x hheld | drop x hheld | overdraw x hheld =>
    have hcount := hheld.count_eq y
    simp only [List.count_append, List.count_cons, List.count_nil] at hcount ⊢
    omega
  | evict x rest hq | receive x rest hq =>
    rw [hq] at hy
    simp only [List.count_append, List.count_cons, List.count_nil] at hy ⊢
    omega

theorem Moves.charged (h : Moves b true b') (hb : b.Charged) : b'.Charged := by
  unfold Books.Charged at hb ⊢
  cases h with
  | idle | submit | receive => exact hb
  | enqueue x hheld hcredit =>
    dsimp only
    omega
  | charge =>
    dsimp only
    omega
  | drop x hheld hcredit | evict x rest hq hcredit =>
    simp only [List.length_append, List.length_singleton]
    omega

end LossyQueue
