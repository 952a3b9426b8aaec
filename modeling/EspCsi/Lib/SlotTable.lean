import Mathlib.Data.Nat.Notation

/-!
# Tables of slots

A table of a fixed number of slots that is filled from the front and never emptied.
-/

namespace SlotTable

variable {α : Type*}

/-- Put `a` into the first free slot, if there is one. -/
def insertFirst (a : α) : List (Option α) → Option (List (Option α))
  | [] => none
  | none :: slots => some (some a :: slots)
  | some b :: slots => (insertFirst a slots).map (some b :: ·)

/-- The table that holds `as`, in the order they were put in, with `free` slots left. -/
def filled (as : List α) (free : ℕ) : List (Option α) := as.map some ++ List.replicate free none

theorem insertFirst_filled (a : α) (as : List α) (free : ℕ) :
    insertFirst a (filled as (free + 1)) = some (filled (as ++ [a]) free) := by
  induction as with
  | nil => simp [filled, insertFirst, List.replicate_succ]
  | cons b as ih =>
    have hcons : filled (b :: as) (free + 1) = some b :: filled as (free + 1) := rfl
    rw [hcons, insertFirst, ih]
    rfl

theorem findSome?_filled {β : Type*} {f : Option α → Option β} (hfree : f none = none)
    (as : List α) (free : ℕ) :
    (filled as free).findSome? f = as.findSome? fun a => f (some a) := by
  rw [filled, List.findSome?_append, List.findSome?_map]
  have hnone : (List.replicate free none).findSome? f = none := by
    rw [List.findSome?_eq_none_iff]
    intro slot hslot
    rw [List.eq_of_mem_replicate hslot, hfree]
  rw [hnone, Option.or_none]
  rfl

theorem any_filled {f : Option α → Bool} (hfree : f none = false) (as : List α) (free : ℕ) :
    (filled as free).any f = as.any fun a => f (some a) := by
  rw [filled, List.any_append, List.any_map]
  have hnone : (List.replicate free none).any f = false := by
    rw [List.any_eq_false]
    intro slot hslot
    rw [List.eq_of_mem_replicate hslot, hfree]
    exact Bool.false_ne_true
  rw [hnone, Bool.or_false]
  rfl

end SlotTable
