import Mathlib.Algebra.GroupWithZero.Nat
import Mathlib.Data.List.Basic
import Mathlib.Data.Nat.Notation

/-!
# The Gregorian calendar

Days are counted by the closed forms of the leap-year rule, from the first of January of a year 0 that
the rule is carried back to. A date is valid by construction, and dates come in the order of their day
numbers.
-/

namespace Calendar

/-- A year that 4 divides, unless 100 divides it and 400 does not. -/
def Leap (year : ℕ) : Prop := 4 ∣ year ∧ (¬ 100 ∣ year ∨ 400 ∣ year)

instance (year : ℕ) : Decidable (Leap year) := inferInstanceAs (Decidable (_ ∧ _))

def yearLength (year : ℕ) : ℕ := if Leap year then 366 else 365

def monthLengths (year : ℕ) : List ℕ :=
  [31, if Leap year then 29 else 28, 31, 30, 31, 30, 31, 31, 30, 31, 30, 31]

def monthLength (year month : ℕ) : ℕ :=
  if month = 0 then 0 else ((monthLengths year)[month - 1]?).getD 0

def daysBeforeYear (year : ℕ) : ℕ :=
  365 * year + (year + 3) / 4 - (year + 99) / 100 + (year + 399) / 400

def daysBeforeMonth (year month : ℕ) : ℕ := ((monthLengths year).take (month - 1)).sum

/-- The number of a day, from 0 on. -/
def dayNumber (year month day : ℕ) : ℕ :=
  daysBeforeYear year + daysBeforeMonth year month + (day - 1)

theorem multiples_succ {d : ℕ} (hpos : 0 < d) (year : ℕ) :
    (year + 1 + (d - 1)) / d = (year + (d - 1)) / d + if d ∣ year then 1 else 0 := by
  have hnext : year + (d - 1) + 1 = year + d := by omega
  have hdvd : d ∣ year + d ↔ d ∣ year := (Nat.dvd_add_iff_left (Nat.dvd_refl d)).symm
  rw [Nat.add_right_comm, Nat.succ_div, hnext, if_congr hdvd rfl rfl]

theorem daysBeforeYear_succ (year : ℕ) :
    daysBeforeYear (year + 1) = daysBeforeYear year + yearLength year := by
  have h4 : (year + 1 + 3) / 4 = (year + 3) / 4 + if 4 ∣ year then 1 else 0 :=
    multiples_succ (d := 4) (by decide) year
  have h100 : (year + 1 + 99) / 100 = (year + 99) / 100 + if 100 ∣ year then 1 else 0 :=
    multiples_succ (d := 100) (by decide) year
  have h400 : (year + 1 + 399) / 400 = (year + 399) / 400 + if 400 ∣ year then 1 else 0 :=
    multiples_succ (d := 400) (by decide) year
  have hcentury : (year + 99) / 100 ≤ 365 * year + (year + 3) / 4 := by omega
  have hof100 : 100 ∣ year → 4 ∣ year := Nat.dvd_trans (by decide)
  have hof400 : 400 ∣ year → 100 ∣ year := Nat.dvd_trans (by decide)
  rw [daysBeforeYear, daysBeforeYear, yearLength, h4, h100, h400]
  generalize (year + 3) / 4 = fourths at *
  generalize (year + 99) / 100 = centuries at *
  generalize (year + 399) / 400 = cycles at *
  by_cases hcycle : 400 ∣ year
  · have hleap : Leap year := ⟨hof100 (hof400 hcycle), .inr hcycle⟩
    rw [if_pos hleap, if_pos hleap.1, if_pos (hof400 hcycle), if_pos hcycle]
    omega
  · by_cases hhundred : 100 ∣ year
    · have hplain : ¬ Leap year := fun h => h.2.elim (· hhundred) hcycle
      rw [if_neg hplain, if_pos (hof100 hhundred), if_pos hhundred, if_neg hcycle]
      omega
    · by_cases hfour : 4 ∣ year
      · have hleap : Leap year := ⟨hfour, .inl hhundred⟩
        rw [if_pos hleap, if_pos hfour, if_neg hhundred, if_neg hcycle]
        omega
      · have hplain : ¬ Leap year := fun h => hfour h.1
        rw [if_neg hplain, if_neg hfour, if_neg hhundred, if_neg hcycle]
        omega

theorem le_of_steps {before : ℕ → ℕ} {first last : ℕ} (hle : first ≤ last)
    (hstep : ∀ i, first ≤ i → i < last → before i ≤ before (i + 1)) :
    before first ≤ before last := by
  induction hle with
  | refl => exact Nat.le_refl _
  | @step last hprev ih =>
    have hrest : before first ≤ before last :=
      ih fun i hi hlt => hstep i hi (Nat.lt_succ_of_lt hlt)
    exact Nat.le_trans hrest (hstep last hprev (Nat.lt_succ_self last))

theorem daysBeforeYear_mono {year year' : ℕ} (h : year ≤ year') :
    daysBeforeYear year ≤ daysBeforeYear year' := by
  apply le_of_steps h
  intro i _ _
  rw [daysBeforeYear_succ]
  exact Nat.le_add_right _ _

theorem daysBeforeMonth_one (year : ℕ) : daysBeforeMonth year 1 = 0 := rfl

theorem daysBeforeMonth_thirteen (year : ℕ) : daysBeforeMonth year 13 = yearLength year := by
  unfold daysBeforeMonth monthLengths yearLength
  split_ifs <;> rfl

theorem daysBeforeMonth_succ (year : ℕ) {month : ℕ} (hpos : 1 ≤ month) (hle : month ≤ 12) :
    daysBeforeMonth year (month + 1) = daysBeforeMonth year month + monthLength year month := by
  have hlen : (monthLengths year).length = 12 := rfl
  have hlt : month - 1 < (monthLengths year).length := by omega
  have hget : monthLength year month = (monthLengths year)[month - 1] := by
    rw [monthLength, if_neg (by omega), List.getElem?_eq_getElem hlt, Option.getD_some]
  have hsucc : month + 1 - 1 = month - 1 + 1 := by omega
  rw [daysBeforeMonth, daysBeforeMonth, hget, hsucc, List.take_succ_eq_append_getElem hlt,
    List.sum_append, List.sum_singleton]

theorem daysBeforeMonth_mono (year : ℕ) {month month' : ℕ} (hpos : 1 ≤ month) (h : month ≤ month')
    (hle : month' ≤ 13) : daysBeforeMonth year month ≤ daysBeforeMonth year month' := by
  apply le_of_steps h
  intro i hi hlt
  rw [daysBeforeMonth_succ year (Nat.le_trans hpos hi) (by omega)]
  exact Nat.le_add_right _ _

theorem exists_between (before : ℕ → ℕ) {first bound x : ℕ} (hfirst : before first ≤ x)
    (hle : first ≤ bound) (hbound : x < before bound) :
    ∃ i, first ≤ i ∧ i < bound ∧ before i ≤ x ∧ x < before (i + 1) := by
  induction hle with
  | refl => omega
  | @step bound hprev ih =>
    by_cases hx : x < before bound
    · obtain ⟨i, hlow, hhigh, hi⟩ := ih hx
      exact ⟨i, hlow, by omega, hi⟩
    · exact ⟨bound, hprev, Nat.lt_succ_self bound, Nat.le_of_not_lt hx, hbound⟩

/-! ## Dates -/

structure Date where
  year : ℕ
  month : ℕ
  day : ℕ
  month_pos : 1 ≤ month
  month_le : month ≤ 12
  day_pos : 1 ≤ day
  day_le : day ≤ monthLength year month

namespace Date

def number (d : Date) : ℕ := dayNumber d.year d.month d.day

/-- Years first, then months, then days. -/
def Before (d d' : Date) : Prop :=
  d.year < d'.year ∨ d.year = d'.year ∧ (d.month < d'.month ∨ d.month = d'.month ∧ d.day < d'.day)

theorem day_lt_month_end (d : Date) :
    daysBeforeMonth d.year d.month + (d.day - 1) < daysBeforeMonth d.year (d.month + 1) := by
  have hnext := daysBeforeMonth_succ d.year d.month_pos d.month_le
  have hpos := d.day_pos
  have hle := d.day_le
  omega

theorem number_lt_year_end (d : Date) : d.number < daysBeforeYear (d.year + 1) := by
  have hday := d.day_lt_month_end
  have hmonth : daysBeforeMonth d.year (d.month + 1) ≤ daysBeforeMonth d.year 13 :=
    daysBeforeMonth_mono d.year (Nat.le_add_left 1 d.month) (Nat.succ_le_succ d.month_le) (Nat.le_refl 13)
  rw [daysBeforeMonth_thirteen] at hmonth
  rw [number, dayNumber, daysBeforeYear_succ]
  omega

theorem number_lt_of_before {d d' : Date} (h : d.Before d') : d.number < d'.number := by
  rcases h with hyear | ⟨hyear, hmonth | ⟨hmonth, hday⟩⟩
  · have hend := d.number_lt_year_end
    have hmono : daysBeforeYear (d.year + 1) ≤ daysBeforeYear d'.year :=
      daysBeforeYear_mono (Nat.succ_le_of_lt hyear)
    have hrest : daysBeforeYear d'.year ≤ d'.number := by
      unfold number dayNumber
      omega
    omega
  · have hend := d.day_lt_month_end
    have hmono : daysBeforeMonth d.year (d.month + 1) ≤ daysBeforeMonth d.year d'.month :=
      daysBeforeMonth_mono d.year (Nat.le_add_left 1 d.month) (Nat.succ_le_of_lt hmonth)
        (Nat.le_succ_of_le d'.month_le)
    unfold number dayNumber
    rw [← hyear]
    omega
  · have hpos := d.day_pos
    unfold number dayNumber
    rw [← hyear, ← hmonth]
    omega

end Date

end Calendar
