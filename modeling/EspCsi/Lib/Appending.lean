import Mathlib.Data.List.Forall2
import Mathlib.Data.Nat.Notation

/-!
# Appending by index

Writers that set the cells behind what a buffer already holds, one after another and with no check
of their own: a write past the end of the buffer fails. A writer *puts* a text when it appends just
that text wherever there is room for it, and a sequence of writers puts the texts of its members.
-/

namespace Appending

variable {α β : Type*}

/-- Appends to a buffer of the given capacity. `none` is an index past its end. -/
abbrev Writer (α : Type*) := ℕ → List α → Option (List α)

/-- `buf[pos] = a; pos += 1`. -/
def put (a : α) : Writer α := fun capacity buf =>
  if buf.length < capacity then some (buf ++ [a]) else none

/-- `buf[pos..pos + s.len()].copy_from_slice(s); pos += s.len()`. -/
def copy (s : List α) : Writer α := fun capacity buf =>
  if buf.length + s.length ≤ capacity then some (buf ++ s) else none

def seq (ws : List (Writer α)) : Writer α := fun capacity buf =>
  ws.foldlM (fun buf w => w capacity buf) buf

/-- The writer appends the text wherever there is room for it. -/
def Puts (w : Writer α) (text : List α) : Prop :=
  ∀ ⦃capacity buf⦄, buf.length + text.length ≤ capacity → w capacity buf = some (buf ++ text)

theorem Puts.put (a : α) : Puts (put a) [a] := by
  intro capacity buf h
  have hroom : buf.length < capacity := h
  rw [Appending.put, if_pos hroom]

theorem Puts.copy (s : List α) : Puts (copy s) s := by
  intro capacity buf h
  rw [Appending.copy, if_pos h]

theorem Puts.nil : Puts (seq ([] : List (Writer α))) [] := by
  intro capacity buf _
  rw [List.append_nil]
  rfl

theorem Puts.cons {w : Writer α} {ws : List (Writer α)} {text texts : List α} (hw : Puts w text)
    (hws : Puts (seq ws) texts) : Puts (seq (w :: ws)) (text ++ texts) := by
  intro capacity buf h
  rw [List.length_append] at h
  show (w capacity buf).bind (seq ws capacity) = some (buf ++ (text ++ texts))
  rw [hw (by omega), Option.bind_some, hws (by rw [List.length_append]; omega), List.append_assoc]

theorem Puts.append {ws ws' : List (Writer α)} {text text' : List α} (h : Puts (seq ws) text)
    (h' : Puts (seq ws') text') : Puts (seq (ws ++ ws')) (text ++ text') := by
  intro capacity buf hroom
  rw [List.length_append] at hroom
  have hfront : ws.foldlM (fun buf w => w capacity buf) buf = some (buf ++ text) :=
    h (by omega)
  rw [Appending.seq, List.foldlM_append, hfront, Option.bind_eq_bind, Option.bind_some,
    ← List.append_assoc]
  apply h'
  rw [List.length_append]
  omega

theorem Puts.seq {ws : List (Writer α)} {texts : List (List α)} (h : List.Forall₂ Puts ws texts) :
    Puts (seq ws) texts.flatten := by
  induction h with
  | nil => exact Puts.nil
  | cons hw _ ih => exact hw.cons ih

theorem Puts.seq_put (s : List α) : Puts (Appending.seq (s.map Appending.put)) s := by
  induction s with
  | nil => exact Puts.nil
  | cons a s ih => exact (Puts.put a).cons ih

/-- A fold whose every step appends the text of its item appends them all, as long as each step is
left the room of the longest. -/
theorem foldlM_eq {step : List α → β → Option (List α)} {text : β → List α} {capacity : ℕ}
    (b : ℕ) {xs : List β} (hlen : ∀ x ∈ xs, (text x).length ≤ b)
    (hstep : ∀ x ∈ xs, ∀ buf, buf.length + b ≤ capacity →
      step buf x = some (buf ++ text x)) {buf : List α}
    (h : buf.length + xs.length * b ≤ capacity) :
    xs.foldlM step buf = some (buf ++ xs.flatMap text) := by
  induction xs generalizing buf with
  | nil => simp
  | cons x xs ih =>
    obtain ⟨hx, hxs⟩ := List.forall_mem_cons.mp hlen
    obtain ⟨hwrite, hwrites⟩ := List.forall_mem_cons.mp hstep
    rw [List.length_cons, Nat.succ_mul] at h
    have hroom : (buf ++ text x).length + xs.length * b ≤ capacity := by
      rw [List.length_append]
      omega
    rw [List.foldlM_cons, hwrite buf (by omega), Option.bind_eq_bind, Option.bind_some,
      ih hxs hwrites hroom, List.flatMap_cons, List.append_assoc]

end Appending
