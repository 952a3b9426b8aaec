import Mathlib.Data.List.Chain
import Mathlib.Data.Nat.Notation

/-!
# Neighbours

Sums over the neighbours in a list.
-/

namespace Neighbours

variable {α β : Type*} {f : α → α → ℕ}

/-- What `f` makes of each element and the next one, in all. -/
def total (f : α → α → ℕ) : List α → ℕ
  | a :: b :: as => f a b + total f (b :: as)
  | _ => 0

@[simp] theorem total_nil : total f [] = 0 := rfl

@[simp] theorem total_singleton (a : α) : total f [a] = 0 := rfl

@[simp] theorem total_cons_cons (a b : α) (as : List α) :
    total f (a :: b :: as) = f a b + total f (b :: as) := rfl

theorem total_map (g : β → α) (bs : List β) :
    total f (bs.map g) = total (fun b b' => f (g b) (g b')) bs := by
  induction bs with
  | nil => rfl
  | cons b bs ih =>
    cases bs with
    | nil => rfl
    | cons b' bs =>
      rw [List.map_cons, List.map_cons, total_cons_cons, ← List.map_cons, ih, total_cons_cons]

theorem total_congr {g : α → α → ℕ} {as : List α} (h : as.IsChain fun a b => f a b = g a b) :
    total f as = total g as := by
  induction as with
  | nil => rfl
  | cons a as ih =>
    cases as with
    | nil => rfl
    | cons b as =>
      obtain ⟨hab, has⟩ := List.isChain_cons_cons.mp h
      rw [total_cons_cons, total_cons_cons, hab, ih has]

theorem total_zero (as : List α) : total (fun _ _ => 0) as = 0 := by
  induction as with
  | nil => rfl
  | cons a as ih =>
    cases as with
    | nil => rfl
    | cons b as => rw [total_cons_cons, ih]

theorem total_le {bound : ℕ} (h : ∀ a b, f a b ≤ bound) (as : List α) :
    total f as ≤ as.length * bound := by
  induction as with
  | nil => exact Nat.zero_le _
  | cons a as ih =>
    cases as with
    | nil => exact Nat.zero_le _
    | cons b as =>
      have hab := h a b
      rw [total_cons_cons, List.length_cons, Nat.succ_mul]
      omega

/-! ## From the last element on -/

theorem getLast?_append (as bs : List α) :
    (as.getLast?.toList ++ bs).getLast? = (as ++ bs).getLast? := by
  have hlast : ∀ a : Option α, a.toList.getLast? = a := by
    intro a
    cases a <;> rfl
  rw [List.getLast?_append, List.getLast?_append, hlast]

theorem total_append (as bs : List α) :
    total f (as ++ bs) = total f as + total f (as.getLast?.toList ++ bs) := by
  induction as with
  | nil => exact (Nat.zero_add _).symm
  | cons a as ih =>
    cases as with
    | nil => exact (Nat.zero_add _).symm
    | cons b as =>
      have hlast : (a :: b :: as).getLast? = (b :: as).getLast? := List.getLast?_cons_cons
      rw [List.cons_append, List.cons_append, total_cons_cons, total_cons_cons, ← List.cons_append,
        ih, hlast, Nat.add_assoc]

theorem isChain_append_iff {R : α → α → Prop} (as bs : List α) :
    (as ++ bs).IsChain R ↔ as.IsChain R ∧ (as.getLast?.toList ++ bs).IsChain R := by
  induction as with
  | nil => simp
  | cons a as ih =>
    cases as with
    | nil => simp
    | cons b as =>
      have hlast : (a :: b :: as).getLast? = (b :: as).getLast? := List.getLast?_cons_cons
      rw [List.cons_append, List.cons_append, List.isChain_cons_cons, List.isChain_cons_cons,
        ← List.cons_append, ih, hlast, and_assoc]

end Neighbours
