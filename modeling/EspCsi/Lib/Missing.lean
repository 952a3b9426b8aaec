import EspCsi.Lib.Neighbours
import Mathlib.Data.Finset.Lattice.Fold
import Mathlib.Order.Interval.Finset.Nat
import Mathlib.Order.Lattice.Nat

/-!
# Missing numbers

How many numbers are missing from a finite set between its least and its greatest, and what one more
number makes of that.
-/

namespace Missing

open Neighbours

variable {ns : Finset ℕ} {first last n : ℕ}

/-- How many numbers between the least and the greatest of `ns` are not among them. -/
def missing (ns : Finset ℕ) : ℕ :=
  ((Finset.range (ns.sup id)).filter fun n => n ∉ ns ∧ ∃ a ∈ ns, a < n).card

/-- `first` and `last` are the least and the greatest of `ns`. -/
structure Spans (ns : Finset ℕ) (first last : ℕ) : Prop where
  first_mem : first ∈ ns
  last_mem : last ∈ ns
  le : ∀ n ∈ ns, first ≤ n ∧ n ≤ last

theorem spans_singleton (n : ℕ) : Spans {n} n n where
  first_mem := Finset.mem_singleton_self n
  last_mem := Finset.mem_singleton_self n
  le := by simp

theorem Spans.insert (h : Spans ns first last) (n : ℕ) :
    Spans (insert n ns) (min first n) (max last n) where
  first_mem := by
    rcases Nat.le_total first n with hle | hle
    · rw [Nat.min_eq_left hle]
      exact Finset.mem_insert_of_mem h.first_mem
    · rw [Nat.min_eq_right hle]
      exact Finset.mem_insert_self n ns
  last_mem := by
    rcases Nat.le_total last n with hle | hle
    · rw [Nat.max_eq_right hle]
      exact Finset.mem_insert_self n ns
    · rw [Nat.max_eq_left hle]
      exact Finset.mem_insert_of_mem h.last_mem
  le := by
    intro k hk
    rcases Finset.mem_insert.mp hk with rfl | hold
    · omega
    · have hbounds := h.le k hold
      omega

theorem Spans.missing_add_card (h : Spans ns first last) :
    missing ns + ns.card + first = last + 1 := by
  have hsup : ns.sup id = last :=
    le_antisymm (Finset.sup_le fun n hn => (h.le n hn).2) (Finset.le_sup (f := id) h.last_mem)
  have hrest : (Finset.range (ns.sup id)).filter (fun n => n ∉ ns ∧ ∃ a ∈ ns, a < n) =
      Finset.Icc first last \ ns := by
    ext n
    simp only [Finset.mem_filter, Finset.mem_range, Finset.mem_sdiff, Finset.mem_Icc, hsup]
    constructor
    · rintro ⟨hlt, hnot, a, ha, hlow⟩
      have hfirst := (h.le a ha).1
      exact ⟨by omega, hnot⟩
    · rintro ⟨⟨hlow, hhigh⟩, hnot⟩
      have hne : n ≠ last := fun heq => hnot (heq ▸ h.last_mem)
      have hne' : first ≠ n := fun heq => hnot (heq ▸ h.first_mem)
      exact ⟨by omega, hnot, first, h.first_mem, by omega⟩
  have hsub : ns ⊆ Finset.Icc first last := fun n hn => Finset.mem_Icc.mpr (h.le n hn)
  have hcard := Finset.card_sdiff_add_card_eq_card hsub
  have hle := (h.le first h.first_mem).2
  rw [Nat.card_Icc] at hcard
  rw [missing, hrest]
  omega

theorem missing_singleton (n : ℕ) : missing {n} = 0 := by
  have hspan := (spans_singleton n).missing_add_card
  rw [Finset.card_singleton] at hspan
  omega

/-- A number present already changes nothing; one beyond an end adds those passed over; one missing
so far is missing no more. -/
theorem Spans.missing_insert (h : Spans ns first last) (n : ℕ) :
    missing (Insert.insert n ns) + (if n ∈ ns then 0 else if first < n ∧ n < last then 1 else 0) =
      missing ns + ((n - last - 1) + (first - n - 1)) := by
  have hspan := h.missing_add_card
  have hspan' := (h.insert n).missing_add_card
  have hle := (h.le first h.first_mem).2
  by_cases hmem : n ∈ ns
  · have hbounds := h.le n hmem
    rw [Finset.insert_eq_of_mem hmem, if_pos hmem]
    omega
  · have hne : n ≠ last := fun heq => hmem (heq ▸ h.last_mem)
    have hne' : n ≠ first := fun heq => hmem (heq ▸ h.first_mem)
    rw [Finset.card_insert_of_notMem hmem] at hspan'
    rw [if_neg hmem]
    split_ifs with hinside <;> omega

/-- Below any bound of the numbers, those missing lie behind one of them and in front of another. -/
theorem missing_eq_card {bound : ℕ} (h : ∀ n ∈ ns, n < bound) :
    missing ns = ((Finset.range bound).filter fun n =>
      n ∉ ns ∧ (∃ a ∈ ns, a < n) ∧ ∃ b ∈ ns, n < b).card := by
  unfold missing
  congr 1
  ext n
  have hsup : n < ns.sup id ↔ ∃ b ∈ ns, n < b := Finset.lt_sup_iff
  simp only [Finset.mem_filter, Finset.mem_range, hsup]
  constructor
  · rintro ⟨⟨b, hb, hlt⟩, hnot, hlow⟩
    exact ⟨hlt.trans (h b hb), hnot, hlow, b, hb, hlt⟩
  · rintro ⟨-, hnot, hlow, hhigh⟩
    exact ⟨hhigh, hnot, hlow⟩

/-! ## Along a list -/

theorem spans_toFinset {l : List ℕ} (h : l ≠ []) (hl : l.Pairwise (· ≤ ·)) :
    Spans l.toFinset (l.head h) (l.getLast h) where
  first_mem := List.mem_toFinset.mpr (List.head_mem h)
  last_mem := List.mem_toFinset.mpr (List.getLast_mem h)
  le := by
    intro n hn
    have hmem := List.mem_toFinset.mp hn
    exact ⟨hl.rel_head hmem, hl.rel_getLast hmem⟩

/-- An increasing list passes over the numbers missing from it. -/
theorem total_passed {l : List ℕ} (hl : l.Pairwise (· < ·)) :
    total (fun a b => b - a - 1) l = missing l.toFinset := by
  induction l with
  | nil => simp [missing]
  | cons a l ih =>
    obtain ⟨hfirst, hrest⟩ := List.pairwise_cons.mp hl
    cases l with
    | nil => exact (missing_singleton a).symm
    | cons b l =>
      have hspans := spans_toFinset (List.cons_ne_nil b l) (hrest.imp Nat.le_of_lt)
      have hab := hfirst b List.mem_cons_self
      have hlast := hfirst _ (List.getLast_mem (List.cons_ne_nil b l))
      have hnew : a ∉ (b :: l).toFinset := fun hmem =>
        Nat.lt_irrefl a (hfirst a (List.mem_toFinset.mp hmem))
      have hinsert := hspans.missing_insert a
      have hcons : (a :: b :: l).toFinset = insert a (b :: l).toFinset := List.toFinset_cons
      rw [List.head_cons, if_neg hnew] at hinsert
      rw [total_cons_cons, ih hrest, hcons]
      split_ifs at hinsert <;> omega

section

variable {α : Type*} [DecidableEq α] {number : α → ℕ} {all kept : List α}

/-- How many of `all` were deleted behind an element that was kept and in front of another. -/
def deletedBetween (number : α → ℕ) (all kept : List α) : ℕ :=
  all.countP fun a =>
    a ∉ kept ∧ (∃ k ∈ kept, number k < number a) ∧ ∃ k ∈ kept, number a < number k

/-- Where the elements are numbered from 0 on, those deleted between others leave numbers missing. -/
theorem deletedBetween_eq_missing (hall : all.map number = List.range all.length)
    (hkept : kept.Sublist all) :
    deletedBetween number all kept = missing (kept.map number).toFinset := by
  have hinj : ∀ a ∈ all, ∀ b ∈ all, number a = number b → a = b := by
    have hnodup : (all.map number).Nodup := hall ▸ List.nodup_range
    exact fun a ha b hb heq => List.inj_on_of_nodup_map hnodup ha hb heq
  have hbound : ∀ n ∈ (kept.map number).toFinset, n < all.length := by
    intro n hn
    have hmem : n ∈ all.map number := (hkept.map number).subset (List.mem_toFinset.mp hn)
    exact List.mem_range.mp (hall ▸ hmem)
  have hnumber : ∀ a ∈ all, a ∈ kept ↔ number a ∈ (kept.map number).toFinset := by
    intro a ha
    rw [List.mem_toFinset, List.mem_map]
    constructor
    · exact fun hmem => ⟨a, hmem, rfl⟩
    · rintro ⟨b, hb, heq⟩
      exact hinj b (hkept.subset hb) a ha heq ▸ hb
  have hexists (p : ℕ → Prop) :
      (∃ n ∈ (kept.map number).toFinset, p n) ↔ ∃ k ∈ kept, p (number k) := by
    simp
  have hcount : deletedBetween number all kept = (all.map number).countP fun n =>
      n ∉ (kept.map number).toFinset ∧ (∃ k ∈ (kept.map number).toFinset, k < n) ∧
        ∃ k ∈ (kept.map number).toFinset, n < k := by
    rw [List.countP_map]
    apply List.countP_congr
    intro a ha
    simp only [Function.comp_apply, decide_eq_true_eq, hnumber a ha, hexists]
  rw [missing_eq_card hbound, hcount, hall, List.countP_eq_length_filter]
  rfl

end

end Missing
