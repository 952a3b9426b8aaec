import EspCsi.Lib.Calendar
import EspCsi.Lib.Checked
import Mathlib.Data.List.Lex
import Mathlib.Tactic.Choose

/-!
# Calendar time

`time.rs`: a UNIX timestamp taken apart into calendar components by subtracting whole years and then
whole months. Both loops run on fuel, and their arithmetic is that of 64 bits that may not overflow.
-/

namespace EspCsi.Time

open Calendar

structure DateTime where
  year : ℕ
  month : ℕ
  day : ℕ
  hour : ℕ
  minute : ℕ
  second : ℕ
  millisecond : ℕ
deriving DecidableEq, Repr

def SECONDS_PER_MINUTE : ℕ := 60

def SECONDS_PER_HOUR : ℕ := 3600

def SECONDS_PER_DAY : ℕ := 86400

def isLeapYear (year : ℕ) : Bool :=
  (year % 4 == 0 && !(year % 100 == 0)) || year % 400 == 0

def daysInYear (year : ℕ) : ℕ := if isLeapYear year then 366 else 365

def daysInMonth (year : ℕ) : ℕ → ℕ
  | 1 => 31
  | 2 => if isLeapYear year then 29 else 28
  | 3 => 31
  | 4 => 30
  | 5 => 31
  | 6 => 30
  | 7 => 31
  | 8 => 31
  | 9 => 30
  | 10 => 31
  | 11 => 30
  | 12 => 31
  | _ => 0

/-- `while days >= length(i) { days -= length(i); i += 1 }`: the days left over, and where the loop
stops. -/
def countUp (length : ℕ → ℕ) : ℕ → ℕ → ℕ → Option (ℕ × ℕ)
  | 0, _, _ => none
  | fuel + 1, days, i =>
    if length i ≤ days then do
      let days ← Checked.sub days (length i)
      let i ← Checked.add 64 i 1
      countUp length fuel days i
    else some (days, i)

def unixToDateTime (fuel : ℕ) (unixSeconds unixMillis : UInt64) : Option DateTime := do
  let daysSinceEpoch := unixSeconds.toNat / SECONDS_PER_DAY
  let secondsInDay := unixSeconds.toNat % SECONDS_PER_DAY
  let hour := secondsInDay / SECONDS_PER_HOUR
  let minute := secondsInDay % SECONDS_PER_HOUR / SECONDS_PER_MINUTE
  let second := secondsInDay % SECONDS_PER_MINUTE
  let (daysSinceEpoch, year) ← countUp daysInYear fuel daysSinceEpoch 1970
  let (daysSinceEpoch, month) ← countUp (daysInMonth year) fuel daysSinceEpoch 1
  let day ← Checked.add 64 daysSinceEpoch 1
  some ⟨year, month, day, hour, minute, second, unixMillis.toNat⟩

/-! ## The tables are the calendar's -/

theorem isLeapYear_iff (year : ℕ) : isLeapYear year = true ↔ Leap year := by
  unfold isLeapYear Leap
  simp only [Bool.or_eq_true, Bool.and_eq_true, Bool.not_eq_true', beq_iff_eq, beq_eq_false_iff_ne]
  omega

theorem daysInYear_eq (year : ℕ) : daysInYear year = yearLength year := by
  simp only [daysInYear, yearLength, isLeapYear_iff]

theorem daysInMonth_eq (year month : ℕ) : daysInMonth year month = monthLength year month := by
  match month with
  | 2 => simp [daysInMonth, monthLength, monthLengths, isLeapYear_iff]
  | 0 | 1 | 3 | 4 | 5 | 6 | 7 | 8 | 9 | 10 | 11 | 12 => rfl
  | month + 13 => simp [daysInMonth, monthLength, monthLengths]

/-! ## The loops -/

/-- The loop stops at the one place where what is left is less than a whole length. -/
theorem countUp_eq (before : ℕ → ℕ) {length : ℕ → ℕ} {first last days left : ℕ} (hle : first ≤ last)
    (hstep : ∀ i, first ≤ i → i < last → before (i + 1) = before i + length i)
    (hdays : before first + days = before last + left) (hleft : left < length last)
    (hlast : last < 2 ^ 64) {fuel : ℕ} (hfuel : last - first < fuel) :
    countUp length fuel days first = some (left, last) := by
  -- on the fuel: a turn of the loop leaves `before first + days` as it is
  induction fuel generalizing first days with
  | zero => omega
  | succ fuel ih =>
    rcases Nat.eq_or_lt_of_le hle with rfl | hlt
    · have hless : days < length first := by omega
      rw [countUp, if_neg (Nat.not_le_of_lt hless)]
      congr 2
      omega
    · have hnext := hstep first (Nat.le_refl first) hlt
      have hahead : before (first + 1) ≤ before last := by
        apply le_of_steps hlt
        intro i hi hil
        rw [hstep i (Nat.le_of_succ_le hi) hil]
        exact Nat.le_add_right _ _
      have hwhole : length first ≤ days := by omega
      rw [countUp, if_pos hwhole, Checked.sub_eq hwhole, Checked.add_eq (by omega)]
      exact ih hlt (fun i hi hil => hstep i (Nat.le_of_succ_le hi) hil) (by omega) (by omega)

theorem countUp_years {year days left fuel : ℕ} (hyear : 1970 ≤ year)
    (hdays : daysBeforeYear 1970 + days = daysBeforeYear year + left) (hleft : left < yearLength year)
    (hlast : year < 2 ^ 64) (hfuel : year - 1970 < fuel) :
    countUp daysInYear fuel days 1970 = some (left, year) := by
  have hless : left < daysInYear year := by
    rw [daysInYear_eq]
    exact hleft
  refine countUp_eq daysBeforeYear hyear ?_ hdays hless hlast hfuel
  intro i _ _
  rw [daysBeforeYear_succ, daysInYear_eq]

theorem countUp_months {year month left day fuel : ℕ} (hpos : 1 ≤ month) (hle : month ≤ 12)
    (hdays : left = daysBeforeMonth year month + day) (hday : day < monthLength year month)
    (hfuel : month - 1 < fuel) :
    countUp (daysInMonth year) fuel left 1 = some (day, month) := by
  have hless : day < daysInMonth year month := by rwa [daysInMonth_eq]
  refine countUp_eq (daysBeforeMonth year) hpos ?_ ?_ hless (by omega) hfuel
  · intro i hi hlt
    rw [daysBeforeMonth_succ year hi (by omega), daysInMonth_eq]
  · rw [daysBeforeMonth_one, Nat.zero_add]
    exact hdays

/-- A day number from the epoch on is that of one valid date, and the loops find it. -/
theorem countUp_date {days : ℕ} (hdays : days < 2 ^ 63) :
    ∃ date : Date, 1970 ≤ date.year ∧ date.number = dayNumber 1970 1 1 + days ∧
      ∀ fuel, days + 14 ≤ fuel → ∃ left,
        countUp daysInYear fuel days 1970 = some (left, date.year) ∧
        countUp (daysInMonth date.year) fuel left 1 = some (date.day - 1, date.month) := by
  have hepoch : dayNumber 1970 1 1 = daysBeforeYear 1970 := rfl
  -- no year is shorter than a day, which bounds the search and the fuel
  have hbound : daysBeforeYear 1970 + days < daysBeforeYear (1970 + days + 1) := by
    unfold daysBeforeYear
    omega
  obtain ⟨year, hyear, hlast, hlow, hhigh⟩ :=
    exists_between daysBeforeYear (Nat.le_add_right _ _) (by omega) hbound
  rw [daysBeforeYear_succ year] at hhigh
  obtain ⟨left, hleft⟩ := Nat.exists_eq_add_of_le hlow
  have hmonths : left < daysBeforeMonth year 13 := by
    rw [daysBeforeMonth_thirteen]
    omega
  obtain ⟨month, hpos, hmonth, hbegin, hend⟩ :=
    exists_between (daysBeforeMonth year) (Nat.zero_le left) (by decide : 1 ≤ 13) hmonths
  rw [daysBeforeMonth_succ year hpos (Nat.le_of_lt_succ hmonth)] at hend
  obtain ⟨day, hday⟩ := Nat.exists_eq_add_of_le hbegin
  refine ⟨⟨year, month, day + 1, hpos, Nat.le_of_lt_succ hmonth, Nat.le_add_left 1 _, by omega⟩,
    hyear, ?_, ?_⟩
  · show daysBeforeYear year + daysBeforeMonth year month + day = dayNumber 1970 1 1 + days
    rw [hepoch, hleft, hday, Nat.add_assoc]
  · intro fuel hfuel
    have hyears : countUp daysInYear fuel days 1970 = some (left, year) :=
      countUp_years hyear hleft (by omega) (by omega) (by omega)
    have hmonths' : countUp (daysInMonth year) fuel left 1 = some (day, month) :=
      countUp_months hpos (Nat.le_of_lt_succ hmonth) hday (by omega) (by omega)
    exact ⟨left, hyears, hmonths'⟩

/-! ## The conversion -/

/-- Days from the first of January 1970 to a date, by the Gregorian rule. -/
def daysFromEpoch (year month day : ℕ) : ℕ := dayNumber year month day - dayNumber 1970 1 1

/-- The components are in their ranges, and say the second they were made from. -/
structure Exact (unixSeconds unixMillis : UInt64) (c : DateTime) : Prop where
  month : 1 ≤ c.month ∧ c.month ≤ 12
  day : 1 ≤ c.day ∧ c.day ≤ daysInMonth c.year c.month
  hour : c.hour < 24
  minute : c.minute < 60
  second : c.second < 60
  millisecond : c.millisecond = unixMillis.toNat
  year : 1970 ≤ c.year
  seconds : daysFromEpoch c.year c.month c.day * 86400 +
    (c.hour * 3600 + c.minute * 60 + c.second) = unixSeconds.toNat

def DateTime.Before (c c' : DateTime) : Prop :=
  [c.year, c.month, c.day, c.hour, c.minute, c.second] <
    [c'.year, c'.month, c'.day, c'.hour, c'.minute, c'.second]

theorem exists_unixToDateTime (unixSeconds unixMillis : UInt64) :
    ∃ c, Exact unixSeconds unixMillis c ∧
      ∃ enough, ∀ fuel, enough ≤ fuel → unixToDateTime fuel unixSeconds unixMillis = some c := by
  have hs := unixSeconds.toNat_lt
  obtain ⟨date, hyear, hnumber, hloops⟩ :=
    countUp_date (show unixSeconds.toNat / 86400 < 2 ^ 63 by omega)
  have hpos := date.day_pos
  have hfrom : daysFromEpoch date.year date.month date.day = unixSeconds.toNat / 86400 := by
    show date.number - dayNumber 1970 1 1 = _
    rw [hnumber, Nat.add_sub_cancel_left]
  have hle : date.day ≤ daysInMonth date.year date.month := by
    rw [daysInMonth_eq]
    exact date.day_le
  -- the day of the month is counted from zero in the loops
  have hsmall : date.day - 1 + 1 < 2 ^ 64 := by
    have hepoch : dayNumber 1970 1 1 = 719528 := by decide
    have hday : date.day - 1 ≤ date.number := Nat.le_add_left _ _
    omega
  refine ⟨⟨date.year, date.month, date.day, unixSeconds.toNat % 86400 / 3600,
    unixSeconds.toNat % 86400 % 3600 / 60, unixSeconds.toNat % 86400 % 60, unixMillis.toNat⟩,
    ⟨⟨date.month_pos, date.month_le⟩, ⟨hpos, hle⟩, ?_, ?_, ?_, rfl, hyear, ?_⟩,
    unixSeconds.toNat / 86400 + 14, ?_⟩
  · show unixSeconds.toNat % 86400 / 3600 < 24
    omega
  · show unixSeconds.toNat % 86400 % 3600 / 60 < 60
    omega
  · show unixSeconds.toNat % 86400 % 60 < 60
    omega
  · dsimp only
    rw [hfrom]
    omega
  · intro fuel hfuel
    obtain ⟨left, hyears, hmonths⟩ := hloops fuel hfuel
    have hday : Checked.add 64 (date.day - 1) 1 = some date.day := by
      rw [Checked.add_eq hsmall, Nat.sub_add_cancel hpos]
    simp only [unixToDateTime, SECONDS_PER_DAY, SECONDS_PER_HOUR, SECONDS_PER_MINUTE, hyears, hmonths,
      hday, Option.bind_eq_bind, Option.bind_some]

def Exact.date {s ms : UInt64} {c : DateTime} (h : Exact s ms c) : Date where
  year := c.year
  month := c.month
  day := c.day
  month_pos := h.month.1
  month_le := h.month.2
  day_pos := h.day.1
  day_le := daysInMonth_eq c.year c.month ▸ h.day.2

/-- The day numbers and the time of day count the seconds, from some second on. -/
theorem exists_epoch : ∃ epoch, ∀ {s ms : UInt64} {c : DateTime} (h : Exact s ms c),
    h.date.number * 86400 + (c.hour * 3600 + c.minute * 60 + c.second) = s.toNat + epoch := by
  refine ⟨dayNumber 1970 1 1 * 86400, ?_⟩
  intro s ms c h
  have hepoch : dayNumber 1970 1 1 = daysBeforeYear 1970 := rfl
  have hmono := daysBeforeYear_mono h.year
  have hfrom : h.date.number = daysFromEpoch c.year c.month c.day + dayNumber 1970 1 1 := by
    show dayNumber c.year c.month c.day = dayNumber c.year c.month c.day - dayNumber 1970 1 1 + _
    rw [Nat.sub_add_cancel]
    rw [hepoch]
    unfold dayNumber
    omega
  rw [hfrom, Nat.add_mul, Nat.add_right_comm, h.seconds]

theorem Exact.lt_of_before {s s' ms ms' : UInt64} {c c' : DateTime} (h : Exact s ms c)
    (h' : Exact s' ms' c') (hbefore : c.Before c') : s.toNat < s'.toNat := by
  obtain ⟨epoch, hepoch⟩ := exists_epoch
  have hnumber := hepoch h
  have hnumber' := hepoch h'
  have hminute := h.minute
  have hsecond := h.second
  have hhour := h.hour
  have hday (hdate : h.date.Before h'.date) : s.toNat < s'.toNat := by
    have hlt := Date.number_lt_of_before hdate
    omega
  simp only [DateTime.Before, List.cons_lt_cons_iff, List.lt_irrefl, and_false, or_false] at hbefore
  rcases hbefore with hyear | ⟨hyear, hmonth | ⟨hmonth, hlater | ⟨hsame, htime⟩⟩⟩
  · exact hday (.inl hyear)
  · exact hday (.inr ⟨hyear, .inl hmonth⟩)
  · exact hday (.inr ⟨hyear, .inr ⟨hmonth, hlater⟩⟩)
  · have hdate : h.date.number = h'.date.number := by
      show dayNumber c.year c.month c.day = dayNumber c'.year c'.month c'.day
      rw [hyear, hmonth, hsame]
    have hminute' := h'.minute
    have hsecond' := h'.second
    omega

/-- Components come in the order of the seconds they were made from. -/
theorem Exact.before_iff {s s' ms ms' : UInt64} {c c' : DateTime} (h : Exact s ms c)
    (h' : Exact s' ms' c') : c.Before c' ↔ s < s' := by
  rw [UInt64.lt_iff_toNat_lt]
  refine ⟨h.lt_of_before h', fun hlt => ?_⟩
  rcases lt_trichotomy [c.year, c.month, c.day, c.hour, c.minute, c.second]
      [c'.year, c'.month, c'.day, c'.hour, c'.minute, c'.second] with hbefore | hsame | hafter
  · exact hbefore
  -- the same components, so the same second
  · obtain ⟨epoch, hepoch⟩ := exists_epoch
    have hnumber := hepoch h
    have hnumber' := hepoch h'
    simp only [List.cons.injEq, and_true] at hsame
    obtain ⟨hyear, hmonth, hday, hhour, hminute, hsecond⟩ := hsame
    have hdate : h.date.number = h'.date.number := by
      show dayNumber c.year c.month c.day = dayNumber c'.year c'.month c'.day
      rw [hyear, hmonth, hday]
    omega
  · have hback := h'.lt_of_before h hafter
    omega

/-- The conversion ends for every timestamp, with components in their ranges that say the timestamp,
and keeps the order of timestamps. -/
theorem unixToDateTime_exact :
    ∃ dateTime : UInt64 → UInt64 → DateTime,
      (∀ s ms, ∃ enough, ∀ fuel, enough ≤ fuel →
        unixToDateTime fuel s ms = some (dateTime s ms)) ∧
      (∀ s ms, Exact s ms (dateTime s ms)) ∧
      (∀ s s' ms ms', (dateTime s ms).Before (dateTime s' ms') ↔ s < s') ∧
      ∀ s s' ms ms', dateTime s ms = dateTime s' ms' → s = s' := by
  choose dateTime hexact henough using exists_unixToDateTime
  refine ⟨dateTime, henough, hexact, ?_, ?_⟩
  · intro s s' ms ms'
    exact (hexact s ms).before_iff (hexact s' ms')
  · intro s s' ms ms' heq
    have hseconds := (hexact s ms).seconds
    rw [heq, (hexact s' ms').seconds] at hseconds
    exact UInt64.toNat_inj.mp hseconds.symm

end EspCsi.Time
