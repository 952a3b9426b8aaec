import Mathlib.Algebra.Group.Nat.Defs
import Mathlib.Data.Int.Notation
import Mathlib.Data.List.Basic
import Mathlib.Data.List.Induction

/-!
# Rendering text

Numerals and how they are read back, items with a separator between them, a write into a buffer of
bounded capacity, and a buffer that is handed on whenever the next piece does not fit.
-/

namespace Rendering

variable {α β : Type*}

/-! ## Numerals -/

def decimal : ℤ → List Char
  | .ofNat n => Nat.toDigits 10 n
  | .negSucc n => '-' :: Nat.toDigits 10 (n + 1)

def upperHex (n : ℕ) : List Char := (Nat.toDigits 16 n).map Char.toUpper

/-- A numeral of at least `width` characters. -/
def zeroPadded (width : ℕ) (numeral : List Char) : List Char := numeral.leftpad width '0'

theorem length_decimal_le {n : ℤ} {k : ℕ} (h : n.natAbs < 10 ^ k) (hk : 0 < k) :
    (decimal n).length ≤ k + 1 := by
  cases n with
  | ofNat n =>
    have hdigits := (Nat.length_toDigits_le_iff (by decide) hk).mpr h
    exact Nat.le_succ_of_le hdigits
  | negSucc n =>
    have hdigits := (Nat.length_toDigits_le_iff (by decide) hk).mpr h
    exact Nat.succ_le_succ hdigits

theorem length_decimal_natCast_le {n k : ℕ} (h : n < 10 ^ k) (hk : 0 < k) :
    (decimal n).length ≤ k :=
  (Nat.length_toDigits_le_iff (by decide) hk).mpr h

theorem length_upperHex_le {n k : ℕ} (h : n < 16 ^ k) (hk : 0 < k) : (upperHex n).length ≤ k := by
  rw [upperHex, List.length_map]
  exact (Nat.length_toDigits_le_iff (by decide) hk).mpr h

theorem decimal_eq_cons (n : ℤ) :
    ∃ c cs, decimal n = c :: cs ∧ (c = '-' ∨ c.isDigit = true) := by
  cases n with
  | ofNat n =>
    obtain ⟨c, cs, hcs⟩ := List.exists_cons_of_ne_nil (Nat.toDigits_ne_nil (n := n) (b := 10))
    refine ⟨c, cs, hcs, .inr ?_⟩
    apply Nat.isDigit_of_mem_toDigits (b := 10) (n := n) (by decide) (by decide)
    rw [hcs]
    exact List.mem_cons_self
  | negSucc n => exact ⟨'-', _, rfl, .inl rfl⟩

theorem decimal_natCast (n : ℕ) : decimal n = Nat.toDigits 10 n := rfl

theorem notMem_decimal {c : Char} (hsign : c ≠ '-') (hdigit : c.isDigit = false) (n : ℤ) :
    c ∉ decimal n := by
  have hdigits : ∀ k, c ∉ Nat.toDigits 10 k := by
    intro k hc
    rw [Nat.isDigit_of_mem_toDigits (by decide) (by decide) hc] at hdigit
    cases hdigit
  cases n with
  | ofNat n => exact hdigits n
  | negSucc n => exact List.not_mem_cons_of_ne_of_not_mem hsign (hdigits (n + 1))

theorem notMem_zeroPadded {c : Char} (hzero : c ≠ '0') {width : ℕ} {numeral : List Char}
    (h : c ∉ numeral) : c ∉ zeroPadded width numeral := by
  simp [zeroPadded, List.leftpad, hzero, h]

/-! ## Reading numerals -/

/-- The number that a string of decimal digits stands for. -/
def ofDigits (cs : List Char) : Option ℕ :=
  if cs ≠ [] ∧ cs.all Char.isDigit then some (Nat.ofDigitChars 10 cs 0) else none

/-- The number that a decimal numeral stands for. -/
def ofDecimal : List Char → Option ℤ
  | '-' :: cs => (ofDigits cs).map fun n : ℕ => -(n : ℤ)
  | cs => (ofDigits cs).map fun n : ℕ => (n : ℤ)

theorem all_isDigit_toDigits (n : ℕ) : (Nat.toDigits 10 n).all Char.isDigit := by
  rw [List.all_eq_true]
  intro c hc
  exact Nat.isDigit_of_mem_toDigits (by decide) (by decide) hc

theorem ofDigits_zeroPadded (width n : ℕ) :
    ofDigits (zeroPadded width (Nat.toDigits 10 n)) = some n := by
  rw [ofDigits, zeroPadded, List.leftpad, if_pos, Nat.ofDigitChars_append,
    Nat.ofDigitChars_replicate_zero, Nat.mul_zero, Nat.ofDigitChars_ten_toDigits]
  constructor
  · simp
  · rw [List.all_append, all_isDigit_toDigits, Bool.and_true, List.all_replicate]
    simp

@[simp] theorem ofDigits_toDigits (n : ℕ) : ofDigits (Nat.toDigits 10 n) = some n := by
  have h := ofDigits_zeroPadded 0 n
  rwa [zeroPadded, List.leftpad, Nat.zero_sub, List.replicate_zero, List.nil_append] at h

@[simp] theorem ofDecimal_decimal (n : ℤ) : ofDecimal (decimal n) = some n := by
  cases n with
  | ofNat n =>
    obtain ⟨c, cs, hcs, hdigit⟩ : ∃ c cs, Nat.toDigits 10 n = c :: cs ∧ c.isDigit = true := by
      obtain ⟨c, cs, hcs⟩ := List.exists_cons_of_ne_nil (Nat.toDigits_ne_nil (n := n) (b := 10))
      refine ⟨c, cs, hcs, Nat.isDigit_of_mem_toDigits (b := 10) (n := n) (by decide) (by decide) ?_⟩
      rw [hcs]
      exact List.mem_cons_self
    have hsign : c ≠ '-' := by
      intro h
      rw [h] at hdigit
      cases hdigit
    have hread : ofDecimal (Nat.toDigits 10 n) =
        (ofDigits (Nat.toDigits 10 n)).map fun k : ℕ => (k : ℤ) := by
      rw [hcs]
      unfold ofDecimal
      split
      · rename_i h
        exact absurd (List.cons.inj h).1 hsign
      · rfl
    show ofDecimal (Nat.toDigits 10 n) = some (n : ℤ)
    rw [hread, ofDigits_toDigits, Option.map_some]
  | negSucc n =>
    show (ofDigits (Nat.toDigits 10 (n + 1))).map (fun k : ℕ => -(k : ℤ)) = some (Int.negSucc n)
    rw [ofDigits_toDigits, Option.map_some]
    rfl

def ofHexDigit (c : Char) : Option ℕ :=
  if c.isDigit then some (c.toNat - '0'.toNat)
  else if 'a' ≤ c ∧ c ≤ 'f' then some (c.toNat - 'a'.toNat + 10)
  else none

/-- The number that a string of lower-case hexadecimal digits stands for. -/
def ofLowerHex (cs : List Char) : Option ℕ :=
  cs.foldlM (fun n c => (ofHexDigit c).map (16 * n + ·)) 0

theorem ofLowerHex_byte {n : ℕ} (h : n < 256) :
    ofLowerHex (zeroPadded 2 (Nat.toDigits 16 n)) = some n := by
  have hall : ∀ n : Fin 256, ofLowerHex (zeroPadded 2 (Nat.toDigits 16 n)) = some n.val := by
    decide +kernel
  exact hall ⟨n, h⟩

theorem isSome_ofHexDigit_byte {n : ℕ} (h : n < 256) :
    ∀ c ∈ zeroPadded 2 (Nat.toDigits 16 n), (ofHexDigit c).isSome := by
  have hall : ∀ n : Fin 256,
      (zeroPadded 2 (Nat.toDigits 16 n)).all (fun c => (ofHexDigit c).isSome) = true := by
    decide +kernel
  exact List.all_eq_true.mp (hall ⟨n, h⟩)

/-! ## Items with a separator between them -/

theorem flatten_separated {total : ℕ} (sep : List β) (render : α → List β) {k : ℕ} {xs : List α}
    (h : k + xs.length = total) :
    ((xs.zipIdx k).map fun x =>
        if x.2 + 1 = total then render x.1 else render x.1 ++ sep).flatten =
      sep.intercalate (xs.map render) := by
  induction xs generalizing k with
  | nil => rfl
  | cons x xs ih =>
    have hrest : k + 1 + xs.length = total := by
      rw [List.length_cons] at h
      omega
    rw [List.zipIdx_cons, List.map_cons, List.flatten_cons, ih hrest, List.map_cons]
    by_cases hxs : xs = []
    · have hlast : k + 1 = total := by
        rw [hxs] at hrest
        exact hrest
      rw [hxs, if_pos hlast]
      simp
    · have hlast : k + 1 ≠ total := by
        have := List.length_pos_iff.mpr hxs
        omega
      rw [if_neg hlast, List.intercalate_cons_of_ne_nil (mt List.map_eq_nil_iff.mp hxs)]

theorem flatMap_append_eq_intercalate (sep : List β) (render : α → List β) (xs : List α)
    (last : List β) :
    xs.flatMap (fun x => render x ++ sep) ++ last = sep.intercalate (xs.map render ++ [last]) := by
  induction xs with
  | nil => exact List.intercalate_singleton.symm
  | cons x xs ih =>
    have hne : xs.map render ++ [last] ≠ [] := by simp
    rw [List.flatMap_cons, List.append_assoc, ih, List.map_cons, List.cons_append,
      List.intercalate_cons_of_ne_nil hne]

theorem notMem_intercalate {c : β} {sep : List β} {parts : List (List β)} (hsep : c ∉ sep)
    (hparts : ∀ part ∈ parts, c ∉ part) : c ∉ sep.intercalate parts := by
  induction parts with
  | nil => exact List.not_mem_nil
  | cons part parts ih =>
    obtain ⟨hpart, hrest⟩ := List.forall_mem_cons.mp hparts
    by_cases hnil : parts = []
    · rw [hnil, List.intercalate_singleton]
      exact hpart
    · rw [List.intercalate_cons_of_ne_nil hnil]
      simp [hpart, hsep, ih hrest]

theorem mapM_render {read : List β → Option α} {render : α → List β} {xs : List α}
    (h : ∀ x ∈ xs, read (render x) = some x) : (xs.map render).mapM read = some xs := by
  induction xs with
  | nil => rfl
  | cons x xs ih =>
    obtain ⟨hx, hxs⟩ := List.forall_mem_cons.mp h
    rw [List.map_cons, List.mapM_cons, hx, ih hxs]
    rfl

/-- Reads items with the separator behind each. -/
def readEach [DecidableEq β] (sep : β) (read : List β → Option α) (text : List β) :
    Option (List α) :=
  let cells := text.splitOn sep
  if cells.getLast? = some [] then cells.dropLast.mapM read else none

theorem readEach_flatMap [DecidableEq β] {sep : β} {read : List β → Option α} {render : α → List β}
    {xs : List α} (hsep : ∀ x ∈ xs, sep ∉ render x) (hread : ∀ x ∈ xs, read (render x) = some x) :
    readEach sep read (xs.flatMap fun x => render x ++ [sep]) = some xs := by
  have hsplit : (xs.flatMap fun x => render x ++ [sep]).splitOn sep = xs.map render ++ [[]] := by
    have hcells := flatMap_append_eq_intercalate [sep] render xs []
    rw [List.append_nil] at hcells
    rw [hcells, List.splitOn_intercalate]
    · intro part hpart
      rcases List.mem_append.mp hpart with hitem | hlast
      · obtain ⟨x, hx, rfl⟩ := List.mem_map.mp hitem
        exact hsep x hx
      · rw [List.mem_singleton.mp hlast]
        exact List.not_mem_nil
    · simp
  rw [readEach, hsplit, List.getLast?_concat, if_pos rfl, List.dropLast_concat]
  exact mapM_render hread

/-! ## Writing into a bounded buffer -/

/-- Write the pieces one after another; the first that does not fit ends the write. -/
def write (capacity : ℕ) (buf : List α) : List (List α) → List α
  | [] => buf
  | piece :: pieces =>
    if capacity < buf.length + piece.length then buf
    else write capacity (buf ++ piece) pieces

theorem write_eq {capacity : ℕ} {buf : List α} {pieces : List (List α)}
    (h : buf.length + pieces.flatten.length ≤ capacity) :
    write capacity buf pieces = buf ++ pieces.flatten := by
  induction pieces generalizing buf with
  | nil => simp [write]
  | cons piece pieces ih =>
    rw [List.flatten_cons, List.length_append] at h
    rw [write, if_neg (by omega), ih (by rw [List.length_append]; omega), List.flatten_cons,
      List.append_assoc]

theorem length_le_write (capacity : ℕ) (buf : List α) (pieces : List (List α)) :
    buf.length ≤ (write capacity buf pieces).length := by
  induction pieces generalizing buf with
  | nil => exact Nat.le_refl _
  | cons piece pieces ih =>
    rw [write]
    by_cases hfull : capacity < buf.length + piece.length
    · exact Nat.le_of_eq (congrArg List.length (if_pos hfull)).symm
    · have hrest := ih (buf ++ piece)
      rw [List.length_append] at hrest
      rw [if_neg hfull]
      omega

/-- A write of short pieces puts them all in, or leaves less room than one of them may need. -/
theorem write_eq_or_full (capacity : ℕ) (buf : List α) {pieces : List (List α)} {b : ℕ}
    (h : ∀ piece ∈ pieces, piece.length ≤ b) :
    write capacity buf pieces = buf ++ pieces.flatten ∨
      capacity < (write capacity buf pieces).length + b := by
  induction pieces generalizing buf with
  | nil => exact .inl (List.append_nil buf).symm
  | cons piece pieces ih =>
    obtain ⟨hpiece, hpieces⟩ := List.forall_mem_cons.mp h
    rw [write]
    by_cases hfull : capacity < buf.length + piece.length
    · rw [if_pos hfull]
      exact .inr (by omega)
    · rw [if_neg hfull, List.flatten_cons, ← List.append_assoc]
      exact ih (buf ++ piece) hpieces

theorem foldl_write_eq_or_full (capacity : ℕ) (buf : List α) {writes : List (List (List α))}
    {b : ℕ} (h : ∀ pieces ∈ writes, ∀ piece ∈ pieces, piece.length ≤ b) :
    writes.foldl (write capacity) buf = buf ++ writes.flatten.flatten ∨
      capacity < (writes.foldl (write capacity) buf).length + b := by
  induction writes using List.reverseRecOn with
  | nil => exact .inl (List.append_nil buf).symm
  | append_singleton writes pieces ih =>
    have hwrites : ∀ pieces ∈ writes, ∀ piece ∈ pieces, piece.length ≤ b := fun pieces hmem =>
      h pieces (List.mem_append_left _ hmem)
    have hpieces := h pieces (List.mem_append_right _ List.mem_cons_self)
    rw [List.foldl_append, List.foldl_cons, List.foldl_nil]
    rcases ih hwrites with hwhole | hfull
    · rw [hwhole]
      rcases write_eq_or_full capacity (buf ++ writes.flatten.flatten) hpieces with hlast | hlast
      · refine .inl (hlast.trans ?_)
        rw [List.flatten_append, List.flatten_append, List.flatten_singleton, List.append_assoc]
      · exact .inr hlast
    · have hle := length_le_write capacity (writes.foldl (write capacity) buf) pieces
      exact .inr (by omega)

theorem foldl_write_eq {capacity : ℕ} {buf : List α} {writes : List (List (List α))}
    (h : buf.length + writes.flatten.flatten.length ≤ capacity) :
    writes.foldl (write capacity) buf = buf ++ writes.flatten.flatten := by
  induction writes generalizing buf with
  | nil => simp
  | cons pieces writes ih =>
    rw [List.flatten_cons, List.flatten_append, List.length_append] at h
    rw [List.foldl_cons, write_eq (by omega), ih (by rw [List.length_append]; omega),
      List.flatten_cons, List.flatten_append, List.append_assoc]

theorem length_flatten_le {b : ℕ} {pieces : List (List α)}
    (h : ∀ piece ∈ pieces, piece.length ≤ b) : pieces.flatten.length ≤ pieces.length * b := by
  induction pieces with
  | nil => exact Nat.zero_le _
  | cons piece pieces ih =>
    obtain ⟨hpiece, hpieces⟩ := List.forall_mem_cons.mp h
    have hrest := ih hpieces
    rw [List.flatten_cons, List.length_append, List.length_cons, Nat.succ_mul]
    omega

theorem length_flatMap_le {render : β → List α} {b : ℕ} {xs : List β}
    (h : ∀ x ∈ xs, (render x).length ≤ b) : (xs.flatMap render).length ≤ xs.length * b := by
  have hmap : ∀ piece ∈ xs.map render, piece.length ≤ b := List.forall_mem_map.mpr h
  have hle := length_flatten_le hmap
  rwa [← List.flatMap_def, List.length_map] at hle

theorem length_flatten_flatten_le {b : ℕ} {writes : List (List (List α))}
    (h : ∀ pieces ∈ writes, pieces.flatten.length ≤ b) :
    writes.flatten.flatten.length ≤ writes.length * b := by
  have hmap : ∀ piece ∈ writes.map List.flatten, piece.length ≤ b := by
    simpa using h
  have hle := length_flatten_le hmap
  rwa [← List.flatten_flatten, List.length_map] at hle

/-! ## Fill and flush -/

/-- What was handed on, slice by slice, and what waits in the buffer. -/
structure Flushed (α : Type*) where
  written : List (List α)
  pending : List α

namespace Flushed

def all (s : Flushed α) : List α := s.written.flatten ++ s.pending

/-- Put one more piece into the buffer, handing on its contents first when the piece does not fit
behind them. -/
def push (capacity : ℕ) (s : Flushed α) (piece : List α) : Flushed α :=
  if capacity < s.pending.length + piece.length then ⟨s.written ++ [s.pending], piece⟩
  else ⟨s.written, s.pending ++ piece⟩

/-- Hand on what is left in the buffer. -/
def finish (s : Flushed α) : List (List α) :=
  if 0 < s.pending.length then s.written ++ [s.pending] else s.written

theorem all_push (capacity : ℕ) (s : Flushed α) (piece : List α) :
    (s.push capacity piece).all = s.all ++ piece := by
  unfold push
  by_cases hfull : capacity < s.pending.length + piece.length
  · simp [hfull, all]
  · simp [hfull, all]

/-- No slice exceeds the buffer, and neither does what waits in it. -/
structure Fits (capacity : ℕ) (s : Flushed α) : Prop where
  written : ∀ slice ∈ s.written, slice.length ≤ capacity
  pending : s.pending.length ≤ capacity

theorem Fits.push {capacity : ℕ} {s : Flushed α} (hs : s.Fits capacity) {piece : List α}
    (h : piece.length ≤ capacity) : (s.push capacity piece).Fits capacity := by
  unfold Flushed.push
  by_cases hfull : capacity < s.pending.length + piece.length
  · rw [if_pos hfull]
    refine ⟨?_, h⟩
    intro slice hslice
    rcases List.mem_append.mp hslice with hold | hnew
    · exact hs.written slice hold
    · rw [List.mem_singleton.mp hnew]
      exact hs.pending
  · rw [if_neg hfull]
    refine ⟨hs.written, ?_⟩
    rw [List.length_append]
    omega

theorem Fits.foldl_push {capacity : ℕ} {s : Flushed α} (hs : s.Fits capacity)
    {pieces : List (List α)} (h : ∀ piece ∈ pieces, piece.length ≤ capacity) :
    (pieces.foldl (Flushed.push capacity) s).Fits capacity := by
  induction pieces generalizing s with
  | nil => exact hs
  | cons piece pieces ih =>
    obtain ⟨hpiece, hpieces⟩ := List.forall_mem_cons.mp h
    exact ih (hs.push hpiece) hpieces

theorem Fits.finish {capacity : ℕ} {s : Flushed α} (hs : s.Fits capacity) :
    ∀ slice ∈ s.finish, slice.length ≤ capacity := by
  unfold Flushed.finish
  by_cases hleft : 0 < s.pending.length
  · rw [if_pos hleft]
    intro slice hslice
    rcases List.mem_append.mp hslice with hold | hnew
    · exact hs.written slice hold
    · rw [List.mem_singleton.mp hnew]
      exact hs.pending
  · rw [if_neg hleft]
    exact hs.written

theorem all_foldl_push (capacity : ℕ) (s : Flushed α) (pieces : List (List α)) :
    (pieces.foldl (push capacity) s).all = s.all ++ pieces.flatten := by
  induction pieces generalizing s with
  | nil => simp
  | cons piece pieces ih => rw [List.foldl_cons, ih, all_push, List.flatten_cons, List.append_assoc]

theorem flatten_finish (s : Flushed α) : s.finish.flatten = s.all := by
  unfold finish
  cases hp : s.pending with
  | nil => simp [all, hp]
  | cons a as => simp [all, hp]

end Flushed

end Rendering
