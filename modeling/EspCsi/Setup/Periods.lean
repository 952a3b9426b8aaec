import Mathlib.Algebra.Order.Field.Rat
import Mathlib.Data.Nat.Cast.Order.Field
import Mathlib.Tactic.Linarith
import EspCsi.Setup.Formats

/-!
# Sounding periods

What becomes of the period a setup asks for. Every period passes through a rate in whole hertz that
fits 16 bits, an emitter's on the way back to a period as well.
-/

namespace EspCsi.Setup

open Wire Csi

/-! ## Rates -/

/-- Microseconds in a second, and so the hertz of a period of one microsecond. -/
def SECOND_US : ℕ := 1000000

/-- Rounding a period to the rate it implies, and that back to a period, gives the period again
exactly when some rate has it. -/
theorem period_of_rate_iff {N M us : ℕ} (hus : 0 < us) (hM : 0 < M) (hN : us ≤ N) :
    N / min M (N / us) = us ↔ ∃ hz, 0 < hz ∧ hz ≤ M ∧ us = N / hz := by
  have hrate : 0 < N / us := Nat.div_pos hN hus
  have hpos : 0 < min M (N / us) := lt_min hM hrate
  constructor
  · intro h
    exact ⟨min M (N / us), hpos, min_le_left M (N / us), h.symm⟩
  · rintro ⟨hz, hzpos, hzle, heq⟩
    have hfloor : hz ≤ N / us := by
      rw [Nat.le_div_iff_mul_le hus, heq, Nat.mul_comm]
      exact Nat.div_mul_le_self N hz
    apply le_antisymm
    · calc N / min M (N / us) ≤ N / hz := Nat.div_le_div_left (le_min hzle hfloor) hzpos
        _ = us := heq.symm
    · rw [Nat.le_div_iff_mul_le hpos]
      calc us * min M (N / us) ≤ us * (N / us) := Nat.mul_le_mul_left us (min_le_right M (N / us))
        _ ≤ N := Nat.mul_div_le N us

/-- The rate of a period is its reciprocal rounded down, moved into the range 1 to 65535. -/
theorem rateHz_toNat (st : StimulusParams) : st.rateHz.toNat =
    if st.periodicityUs.toNat = 0 then 65535
    else min 65535 (max 1 (SECOND_US / st.periodicityUs.toNat)) := by
  unfold StimulusParams.rateHz
  by_cases hzero : st.periodicityUs = 0
  · simp [hzero]
  · have hne : st.periodicityUs.toNat ≠ 0 := fun h => hzero (UInt32.toNat_inj.mp h)
    have hhz : (1000000 / st.periodicityUs).toNat = SECOND_US / st.periodicityUs.toNat := by
      rw [UInt32.toNat_div]
      rfl
    rw [if_neg hzero, if_neg hne, ← hhz]
    generalize 1000000 / st.periodicityUs = hz
    dsimp only
    split_ifs with hbig hnone
    · have hlt : 65535 < hz.toNat := UInt32.lt_iff_toNat_lt.mp hbig
      have hmax : (0xffff : UInt16).toNat = 65535 := rfl
      omega
    · have hone : (1 : UInt16).toNat = 1 := rfl
      rw [hnone, hone]
      rfl
    · have hle : ¬ 65535 < hz.toNat := fun h => hbig (UInt32.lt_iff_toNat_lt.mpr h)
      have hpos : hz.toNat ≠ 0 := fun h => hnone (UInt32.toNat_inj.mp h)
      rw [UInt32.toNat_toUInt16]
      omega

/-! ## What a mode can represent -/

/-- An emitter keeps a period in microseconds. The other modes keep a rate in hertz: the period is
at most a second, and long enough for a rate of 16 bits. -/
def Mode.Represents (m : Mode) (us : UInt32) : Prop :=
  m.isEmitter = true ∨ us.toNat ≠ 0 ∧ us.toNat ≤ SECOND_US ∧ SECOND_US ≤ 65535 * us.toNat

/-- The node sounds at the period: to the microsecond where it keeps one, and within one hertz
where it keeps a rate. -/
def CsiNode.SoundsEvery {chip : Chip} (n : CsiNode chip) (us : UInt32) : Prop :=
  match n.mode with
  | .emitter c => c.periodUs.toNat = us.toNat
  | _ => ∃ hz, n.setup.periodicityHz = some hz ∧ |(hz.toNat : ℚ) - SECOND_US / us.toNat| ≤ 1

theorem CsiNode.soundsEvery_iff {chip : Chip} {n : CsiNode chip} (h : n.mode.isEmitter = false)
    (us : UInt32) : n.SoundsEvery us ↔
      ∃ hz, n.setup.periodicityHz = some hz ∧ |(hz.toNat : ℚ) - SECOND_US / us.toNat| ≤ 1 := by
  unfold SoundsEvery
  cases hmode : n.mode with
  | emitter c => simp [Mode.isEmitter, hmode] at h
  | _ => rfl

/-- A period that the mode can represent is sounded at when the setup is taken on, and one that it
cannot is refused with nothing changed. -/
def State.HonoursPeriod {chip : Chip} (w : State chip) (s : Wire.MeasurementSetup) : Prop :=
  ∀ st, s.stimulus = some st → w.node.mode.sounds = true →
    (w.node.mode.Represents st.periodicityUs →
      w.Accepts s → (w.applyMeasurementSetup s).1.node.SoundsEvery st.periodicityUs) ∧
    (¬ w.node.mode.Represents st.periodicityUs →
      ¬ w.Accepts s ∧ (w.applyMeasurementSetup s).1 = w)

/-- The period is among the periods of a 16-bit rate, or within the range of one. -/
def Mode.Fits (m : Mode) (us : UInt32) : Prop :=
  if m.isEmitter then ∃ hz : UInt16, hz ≠ 0 ∧ us.toNat = SECOND_US / hz.toNat
  else 16 ≤ us.toNat ∧ us.toNat ≤ SECOND_US

theorem Mode.fits_iff_represents {m : Mode} (hm : m.isEmitter = false) (us : UInt32) :
    m.Fits us ↔ m.Represents us := by
  simp only [Fits, Represents, hm, SECOND_US]
  simp
  omega

/-! ## What is taken on -/

section

variable {chip : Chip}

theorem checkStimulus_rate {mode : Mode} {filter : Option Mac} {st : StimulusParams}
    {r : Option Mac × Option UInt16} (h : checkStimulus mode filter st = .ok r) :
    r.2 = some st.rateHz := by
  unfold checkStimulus at h
  split_ifs at h
  cases hresponders : st.responders.val with
  | nil =>
    rw [hresponders] at h
    cases h
    rfl
  | cons one rest =>
    cases rest with
    | cons => simp [hresponders] at h
    | nil =>
      rw [hresponders] at h
      cases filter with
      | none =>
        cases h
        rfl
      | some t =>
        dsimp only at h
        split_ifs at h
        cases h
        rfl

theorem check_rate {n : CsiNode chip} {s : Wire.MeasurementSetup} {st : StimulusParams}
    (hst : s.stimulus = some st) {r : Option Mac × Option UInt16} (h : check n s = .ok r) :
    r.2 = some st.rateHz := by
  unfold check at h
  cases hacq : checkAcquisition chip n.mode.configuredBandwidth s.acquisition with
  | error e =>
    rw [hacq] at h
    cases h
  | ok _ =>
    rw [hacq, hst] at h
    exact checkStimulus_rate h

/-! ## What is sounded -/

theorem State.Accepts.node_rate {w : State chip} {s : Wire.MeasurementSetup} {st : StimulusParams}
    (h : w.Accepts s) (hst : s.stimulus = some st) :
    (∃ c, (w.applyMeasurementSetup s).1.node.mode = .emitter c ∧
        c.periodUs = 1000000 / (max st.rateHz 1).toUInt64 ∧ w.node.mode.isEmitter = true) ∨
      (w.applyMeasurementSetup s).1.node.setup.periodicityHz = some st.rateHz ∧
        (w.applyMeasurementSetup s).1.node.mode.isEmitter = false ∧
        w.node.mode.isEmitter = false := by
  obtain ⟨rate, hcheck, heq⟩ := h.enact
  have hrate : rate = some st.rateHz := check_rate hst hcheck
  rw [heq, hrate]
  have hemitter : ((s.acquisition.channel.map w.node.mode.setChannel).getD w.node.mode).isEmitter =
      w.node.mode.isEmitter := by
    cases s.acquisition.channel <;> simp
  let node : CsiNode chip := { w.node with
    mode := (s.acquisition.channel.map w.node.mode.setChannel).getD w.node.mode
    setup := { w.node.setup with
      acquisition := CsiConfig.select s.acquisition.ppduFormats w.node.setup.acquisition } }
  have hnode : (w.enact s (named s) (some st.rateHz)).node =
      { node.setRate st.rateHz with
        setup := { (node.setRate st.rateHz).setup with id := s.id } } := rfl
  rw [hnode]
  rcases node.setRate_eq st.rateHz with ⟨c, hc, hset⟩ | ⟨hother, hset⟩
  · have hmode : w.node.mode.isEmitter = true := by
      rw [← hemitter]
      exact congrArg Mode.isEmitter hc
    rw [hset]
    exact .inl ⟨_, rfl, rfl, hmode⟩
  · rw [hset]
    exact .inr ⟨rfl, hother, hemitter ▸ hother⟩

theorem periodUs_toNat (st : StimulusParams) :
    (1000000 / (max st.rateHz 1).toUInt64).toNat = SECOND_US / st.rateHz.toNat := by
  have hpos : (1 : UInt16) ≤ st.rateHz := by
    rw [UInt16.le_iff_toNat_le, rateHz_toNat]
    split_ifs
    · decide
    · exact le_min (by decide) (le_max_left 1 _)
  have hmax : max st.rateHz 1 = st.rateHz := by
    change (if st.rateHz ≤ 1 then 1 else st.rateHz) = st.rateHz
    split_ifs with hle
    · exact UInt16.le_antisymm hpos hle
    · rfl
  rw [hmax, UInt64.toNat_div, UInt16.toNat_toUInt64]
  rfl

theorem emitter_period_iff (st : StimulusParams) :
    SECOND_US / st.rateHz.toNat = st.periodicityUs.toNat ↔
      ∃ hz : UInt16, hz ≠ 0 ∧ st.periodicityUs.toNat = SECOND_US / hz.toNat := by
  have hrates : (∃ hz : UInt16, hz ≠ 0 ∧ st.periodicityUs.toNat = SECOND_US / hz.toNat) ↔
      ∃ hz, 0 < hz ∧ hz ≤ 65535 ∧ st.periodicityUs.toNat = SECOND_US / hz := by
    constructor
    · rintro ⟨hz, hne, heq⟩
      have hpos : hz.toNat ≠ 0 := fun h => hne (UInt16.toNat_inj.mp h)
      have hlt := hz.toNat_lt
      exact ⟨hz.toNat, by omega, by omega, heq⟩
    · rintro ⟨hz, hpos, hle, heq⟩
      have hnat : (UInt16.ofNat hz).toNat = hz := UInt16.toNat_ofNat_of_lt' (Nat.lt_succ_of_le hle)
      refine ⟨UInt16.ofNat hz, fun h => ?_, by rw [hnat]; exact heq⟩
      rw [h] at hnat
      exact absurd hnat (by change ¬ 0 = hz; omega)
  rw [hrates, rateHz_toNat]
  generalize st.periodicityUs.toNat = us
  rcases Nat.eq_zero_or_pos us with rfl | hus
  · -- no 16-bit rate is high enough to have the period 0
    constructor
    · intro h
      exact absurd h (by decide)
    · rintro ⟨hz, hpos, hle, heq⟩
      have : 0 < SECOND_US / hz := Nat.div_pos (hle.trans (by decide)) hpos
      omega
  -- beyond a second the rate is moved up to 1, whose period is a second
  · by_cases hN : us ≤ SECOND_US
    · have hrate : 1 ≤ SECOND_US / us := Nat.div_pos hN hus
      rw [if_neg hus.ne', max_eq_right hrate]
      exact period_of_rate_iff hus (by decide) hN
    · have hzero : SECOND_US / us = 0 := Nat.div_eq_of_lt (not_le.mp hN)
      rw [if_neg hus.ne', hzero]
      constructor
      · intro h
        have hone : min 65535 (max 1 0) = 1 := rfl
        rw [hone, Nat.div_one] at h
        exact absurd h.ge hN
      · rintro ⟨hz, -, -, heq⟩
        exact absurd (heq ▸ Nat.div_le_self SECOND_US hz) hN

/-- Rounding down costs less than one hertz, where there is a 16-bit rate to round to. -/
theorem rate_within {st : StimulusParams} (hlow : 16 ≤ st.periodicityUs.toNat)
    (hhigh : st.periodicityUs.toNat ≤ SECOND_US) :
    |(st.rateHz.toNat : ℚ) - SECOND_US / st.periodicityUs.toNat| ≤ 1 := by
  have hrate : st.rateHz.toNat = SECOND_US / st.periodicityUs.toNat := by
    rw [rateHz_toNat, if_neg (by omega)]
    have hpos : 1 ≤ SECOND_US / st.periodicityUs.toNat := Nat.div_pos hhigh (by omega)
    have hfits : SECOND_US / st.periodicityUs.toNat ≤ SECOND_US / 16 :=
      Nat.div_le_div_left hlow (by decide)
    have hsmall : SECOND_US / 16 ≤ 65535 := by decide
    omega
  rw [hrate]
  generalize st.periodicityUs.toNat = us at hlow ⊢
  have hus : (0 : ℚ) < us := by
    have : 0 < us := by omega
    exact_mod_cast this
  have hfloor : ((SECOND_US / us : ℕ) : ℚ) ≤ SECOND_US / us := Nat.cast_div_le
  have hceil : (SECOND_US : ℚ) / us ≤ (SECOND_US / us : ℕ) + 1 := by
    rw [div_le_iff₀ hus]
    have hnat : SECOND_US < us * (SECOND_US / us + 1) := Nat.lt_mul_div_succ SECOND_US (by omega)
    rw [Nat.mul_comm] at hnat
    exact_mod_cast hnat.le
  rw [abs_le]
  constructor <;> linarith

/-- Of the periods a setup can ask for, those are honoured that fit: whatever else the node checks,
it does not refuse a setup for its period. -/
theorem State.honoursPeriod_iff_fits (w : State chip) (s : Wire.MeasurementSetup) :
    w.HonoursPeriod s ↔ ∀ st, s.stimulus = some st → Supported w.node s →
      w.node.mode.Fits st.periodicityUs := by
  constructor
  · intro h st hst hsupported
    have haccepts : w.Accepts s := accepts_iff.mpr hsupported
    obtain ⟨hsounded, hrefused⟩ := h st hst (hsupported.stimulus st hst).sounds
    have hrep : w.node.mode.Represents st.periodicityUs := by
      by_contra hnot
      exact (hrefused hnot).1 haccepts
    -- an emitter keeps a period, the other modes a rate
    rcases haccepts.node_rate hst with ⟨c, hmode, hperiod, hemitter⟩ | ⟨-, -, hother⟩
    · have hsounds := hsounded hrep haccepts
      rw [CsiNode.SoundsEvery, hmode] at hsounds
      have hus : c.periodUs.toNat = st.periodicityUs.toNat := hsounds
      rw [hperiod, periodUs_toNat] at hus
      rw [Mode.Fits, if_pos hemitter]
      exact (emitter_period_iff st).mp hus
    · exact (Mode.fits_iff_represents hother _).mpr hrep
  · intro h st hst hsounds
    constructor
    · intro hrep haccepts
      have hfits := h st hst (accepts_iff.mp haccepts)
      rcases haccepts.node_rate hst with ⟨c, hmode, hperiod, hemitter⟩ | ⟨hhz, hmode, hother⟩
      · rw [Mode.Fits, if_pos hemitter] at hfits
        rw [CsiNode.SoundsEvery, hmode]
        change c.periodUs.toNat = st.periodicityUs.toNat
        rw [hperiod, periodUs_toNat]
        exact (emitter_period_iff st).mpr hfits
      · rw [Mode.Fits, hother] at hfits
        obtain ⟨hlow, hhigh⟩ : 16 ≤ st.periodicityUs.toNat ∧ st.periodicityUs.toNat ≤ SECOND_US := by
          simpa using hfits
        rw [CsiNode.soundsEvery_iff hmode]
        exact ⟨st.rateHz, hhz, rate_within hlow hhigh⟩
    · intro hnot
      have hrefused : ¬ w.Accepts s := by
        intro haccepts
        have hfits := h st hst (accepts_iff.mp haccepts)
        cases hemitter : w.node.mode.isEmitter with
        | true => exact hnot (.inl hemitter)
        | false => exact hnot ((Mode.fits_iff_represents hemitter _).mp hfits)
      exact ⟨hrefused, unchanged_of_not_accepts hrefused⟩

end

def State.fresh (chip : Chip) (mode : Mode) : State chip where
  node := ⟨mode, .new chip, true⟩
  gates := .boot

def everyUs (periodicityUs : UInt32) : Wire.MeasurementSetup :=
  { Wire.MeasurementSetup.new 0 with stimulus := some (.new periodicityUs .mhz20) }

/-- Asked for 300 ms, an emitter sounds every 333 333 µs; asked for two seconds, an access point
sounds every second. -/
theorem periods_not_honoured :
    ¬ (State.fresh .esp32 (.emitter ⟨1, .ht20, 5000⟩)).HonoursPeriod (everyUs 300000) ∧
    ¬ (State.fresh .esp32 (.accessPoint ⟨1, 1, none⟩)).HonoursPeriod (everyUs 2000000) := by
  constructor
  · intro h
    have hsounds := (h (.new 300000 .mhz20) rfl rfl).1 (.inl rfl) rfl
    have hperiod : (333333 : UInt64).toNat = (300000 : UInt32).toNat := hsounds
    exact absurd hperiod (by decide)
  · intro h
    have hrefused := (h (.new 2000000 .mhz20) rfl rfl).2 (by
      rintro (hemitter | ⟨-, hsecond, -⟩)
      · cases hemitter
      · exact absurd hsecond (by decide))
    exact hrefused.1 rfl

end EspCsi.Setup
