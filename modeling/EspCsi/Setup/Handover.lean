import Mathlib.Logic.Relation
import EspCsi.Setup.Periods
import EspCsi.Wire.Accepted

/-!
# Handing a setup over

A node's own setup in its serialized form, sent over a link and taken on by another node. The
acquisition stays behind, and the rate passes through a period in whole microseconds.
-/

namespace EspCsi.Setup

open Wire Csi

/-! ## The serialized form -/

/-- The serialized form of a node's setup. A periodicity becomes a stimulus at the bandwidth of the
setup, 20 MHz if there is none. -/
def MeasurementSetup.toWire {chip : Chip} (setup : MeasurementSetup chip) : Wire.MeasurementSetup :=
  let acquisition := { AcquisitionFilter.default with bandwidth := setup.bandwidth }
  let wire := (Wire.MeasurementSetup.new setup.id).withAcquisition acquisition
  match setup.periodicityHz with
  | some hz =>
    wire.withStimulus (.new (1000000 / (max hz 1).toUInt32) (setup.bandwidth.getD .mhz20))
  | none => wire

section

open Postcard Codec

theorem local_stimulusParamsCodec : stimulusParamsCodec.Local :=
  (local_u32.pair <| local_enumeration.pair <| local_enumeration.pair <| local_u8.pair <|
    local_u8.pair <| local_bool.pair local_macCodec.vec).imap fun _ => rfl

theorem local_measurementSetupCodec : measurementSetupCodec.Local := by
  have hformats : ppduSetCodec.Local := local_u16.imap fun _ => rfl
  have hfilter : acquisitionFilterCodec.Local :=
    (local_u8.option.pair <| local_enumeration.option.pair <| hformats.pair
      local_macCodec.option).imap fun _ => rfl
  exact (local_u8.pair <| hfilter.pair local_stimulusParamsCodec.option).imap fun _ => rfl

end

/-! ## The rate -/

/-- The rate that a rate has become once it was sent as a period. -/
def handedRate (hz : UInt16) : UInt16 :=
  (StimulusParams.new (1000000 / (max hz 1).toUInt32) .mhz20).rateHz

theorem max_one_toNat (hz : UInt16) : (max hz 1).toNat = max hz.toNat 1 := by
  change (if hz ≤ 1 then 1 else hz).toNat = max hz.toNat 1
  split_ifs with h
  · have hle : hz.toNat ≤ 1 := UInt16.le_iff_toNat_le.mp h
    rw [max_eq_right hle]
    rfl
  · have hgt : ¬ hz.toNat ≤ 1 := fun hle => h (UInt16.le_iff_toNat_le.mpr hle)
    rw [max_eq_left (by omega)]

theorem handedRate_toNat (hz : UInt16) :
    (handedRate hz).toNat = min 65535 (SECOND_US / (SECOND_US / max hz.toNat 1)) := by
  have hperiod : (1000000 / (max hz 1).toUInt32).toNat = SECOND_US / max hz.toNat 1 := by
    rw [UInt32.toNat_div, UInt16.toNat_toUInt32, max_one_toNat]
    rfl
  have hlt := hz.toNat_lt
  have hpos : 0 < SECOND_US / max hz.toNat 1 :=
    Nat.div_pos (by simp only [SECOND_US]; omega) (by omega)
  have hrate : 0 < SECOND_US / (SECOND_US / max hz.toNat 1) :=
    Nat.div_pos (Nat.div_le_self _ _) hpos
  rw [handedRate, rateHz_toNat]
  change (if (1000000 / (max hz 1).toUInt32).toNat = 0 then 65535
    else min 65535 (max 1 (SECOND_US / (1000000 / (max hz 1).toUInt32).toNat))) = _
  rw [hperiod, if_neg hpos.ne', max_eq_right hrate]

theorem le_handedRate (hz : UInt16) : hz ≤ handedRate hz := by
  have hlt := hz.toNat_lt
  have hpos : 0 < SECOND_US / max hz.toNat 1 :=
    Nat.div_pos (by simp only [SECOND_US]; omega) (by omega)
  rw [UInt16.le_iff_toNat_le, handedRate_toNat]
  refine le_min (by omega) ((le_max_left _ 1).trans ?_)
  rw [Nat.le_div_iff_mul_le hpos]
  exact Nat.mul_div_le SECOND_US _

theorem handedRate_eq_iff (hz : UInt16) : handedRate hz = hz ↔
    hz ≠ 0 ∧ (hz.toNat = 65535 ∨ ∃ us, 0 < us ∧ us ≤ SECOND_US ∧ hz.toNat = SECOND_US / us) := by
  have hlt := hz.toNat_lt
  rw [← UInt16.toNat_inj, handedRate_toNat]
  by_cases hzero : hz = 0
  · subst hzero
    simp [SECOND_US]
  · have hpos : 0 < hz.toNat := Nat.pos_of_ne_zero fun h => hzero (UInt16.toNat_inj.mp h)
    have hle : hz.toNat ≤ SECOND_US := by simp only [SECOND_US]; omega
    have hround := period_of_rate_iff hpos (M := SECOND_US) (by decide) hle
    rw [min_eq_right (Nat.div_le_self _ _)] at hround
    have hup : hz.toNat ≤ SECOND_US / (SECOND_US / hz.toNat) := by
      rw [Nat.le_div_iff_mul_le (Nat.div_pos hle hpos)]
      exact Nat.mul_div_le SECOND_US _
    rw [max_eq_left hpos, ← hround]
    constructor
    · intro h
      refine ⟨hzero, ?_⟩
      omega
    · rintro ⟨-, htop | hexact⟩ <;> omega

theorem handedRate_of_le {hz : UInt16} (hpos : hz ≠ 0) (hle : hz.toNat ≤ 1000) :
    handedRate hz = hz := by
  have hnat : 0 < hz.toNat := Nat.pos_of_ne_zero fun h => hpos (UInt16.toNat_inj.mp h)
  refine (handedRate_eq_iff hz).mpr ⟨hpos, .inr ⟨SECOND_US / hz.toNat, ?_, ?_, ?_⟩⟩
  · exact Nat.div_pos (hle.trans (by decide)) hnat
  · exact Nat.div_le_self _ _
  · -- the remainder is less than the rate, and the rate is no more than the period
    have hsquare : hz.toNat * hz.toNat ≤ SECOND_US := Nat.mul_le_mul hle hle
    have hperiod : hz.toNat ≤ SECOND_US / hz.toNat := (Nat.le_div_iff_mul_le hnat).mpr hsquare
    have hsplit := Nat.div_add_mod SECOND_US hz.toNat
    have hrem := Nat.mod_lt SECOND_US hnat
    rw [Nat.mul_comm] at hsplit
    symm
    rw [Nat.div_eq_iff (hnat.trans_le hperiod), Nat.mul_comm hz.toNat]
    omega

theorem handedRate_handedRate (hz : UInt16) : handedRate (handedRate hz) = handedRate hz := by
  have hlt := hz.toNat_lt
  have hpos : 0 < SECOND_US / max hz.toNat 1 :=
    Nat.div_pos (by simp only [SECOND_US]; omega) (by omega)
  have hrate : 0 < SECOND_US / (SECOND_US / max hz.toNat 1) :=
    Nat.div_pos (Nat.div_le_self _ _) hpos
  rw [handedRate_eq_iff]
  constructor
  · intro h
    have hnat := congrArg UInt16.toNat h
    rw [handedRate_toNat] at hnat
    change min 65535 _ = 0 at hnat
    omega
  · rw [handedRate_toNat]
    rcases le_total 65535 (SECOND_US / (SECOND_US / max hz.toNat 1)) with hle | hle
    · exact .inl (min_eq_left hle)
    · exact .inr ⟨_, hpos, Nat.div_le_self _ _, min_eq_right hle⟩

/-! ## The receiving node -/

variable {sender receiver : Chip}

/-- The receiving node can sound at the rate, if there is one, and its width, if it fixes one, is
the width that is asked for. -/
structure Takes (n : CsiNode receiver) (m : MeasurementSetup sender) : Prop where
  bandwidth : ∀ want width, m.bandwidth = some want → n.mode.configuredBandwidth = some width →
    want = width
  sounds : m.periodicityHz ≠ none → n.mode.sounds = true
  width : m.periodicityHz ≠ none → ∀ width, n.mode.configuredBandwidth = some width →
    width = m.bandwidth.getD .mhz20

def CsiNode.handed (n : CsiNode receiver) (m : MeasurementSetup sender) : CsiNode receiver :=
  let n := (m.periodicityHz.map fun hz => n.setRate (handedRate hz)).getD n
  { n with setup := { n.setup with id := m.id } }

@[simp]
theorem MeasurementSetup.toWire_id (m : MeasurementSetup sender) : m.toWire.id = m.id := by
  unfold toWire
  cases m.periodicityHz <;> rfl

@[simp]
theorem MeasurementSetup.toWire_acquisition (m : MeasurementSetup sender) :
    m.toWire.acquisition = { AcquisitionFilter.default with bandwidth := m.bandwidth } := by
  unfold toWire
  cases m.periodicityHz <;> rfl

theorem MeasurementSetup.toWire_stimulus (m : MeasurementSetup sender) : m.toWire.stimulus =
    m.periodicityHz.map fun hz =>
      .new (1000000 / (max hz 1).toUInt32) (m.bandwidth.getD .mhz20) := by
  unfold toWire
  cases m.periodicityHz <;> rfl

/-- Of the checks on a setup, those on its widths and on its being sounded are left for a serialized
one. -/
theorem accepts_toWire_iff (m : MeasurementSetup sender) (w : State receiver) :
    w.Accepts m.toWire ↔ Takes w.node m := by
  rw [accepts_iff]
  constructor
  · intro h
    have hstimulus : m.periodicityHz ≠ none → ∃ us, SupportedStimulus w.node.mode none
        (.new us (m.bandwidth.getD .mhz20)) := by
      intro hne
      obtain ⟨hz, hhz⟩ := Option.ne_none_iff_exists'.mp hne
      have hsome := h.stimulus _ (by rw [m.toWire_stimulus, hhz]; rfl)
      rw [m.toWire_acquisition] at hsome
      exact ⟨_, hsome⟩
    refine ⟨fun want width hwant => h.bandwidth want width (by simpa using hwant), ?_, ?_⟩
    · intro hne
      obtain ⟨us, hus⟩ := hstimulus hne
      exact hus.sounds
    · intro hne
      obtain ⟨us, hus⟩ := hstimulus hne
      exact hus.bandwidth
  · intro h
    refine ⟨fun want width hwant => h.bandwidth want width (by simpa using hwant), ?_, ?_, ?_⟩
    · intro hhe
      rw [m.toWire_acquisition] at hhe
      cases hhe
    · left
      rw [m.toWire_acquisition]
      rfl
    · intro st hst
      rw [m.toWire_stimulus] at hst
      obtain ⟨hz, hhz, rfl⟩ := Option.map_eq_some_iff.mp hst
      have hne : m.periodicityHz ≠ none := by simp [hhz]
      exact ⟨h.sounds hne, rfl, rfl, rfl, rfl, h.width hne, .inl rfl⟩

/-- Of a serialized setup, a node takes the id and the rate: its channel, its filters and its
acquisition are kept. -/
theorem apply_toWire {m : MeasurementSetup sender} {w : State receiver} (h : w.Accepts m.toWire) :
    (w.applyMeasurementSetup m.toWire).1 = { w with node := w.node.handed m } := by
  obtain ⟨rate, hcheck, heq⟩ := h.enact
  have hnamed : named m.toWire = none := by
    unfold named
    rw [m.toWire_stimulus, m.toWire_acquisition]
    cases m.periodicityHz <;> rfl
  have hrate : rate = m.periodicityHz.map handedRate := by
    cases hhz : m.periodicityHz with
    | some hz =>
      have hst : m.toWire.stimulus =
          some (.new (1000000 / (max hz 1).toUInt32) (m.bandwidth.getD .mhz20)) := by
        rw [m.toWire_stimulus, hhz]
        rfl
      exact check_rate hst hcheck
    | none =>
      have hst : m.toWire.stimulus = none := by
        rw [m.toWire_stimulus, hhz]
        rfl
      unfold check at hcheck
      cases hacq : checkAcquisition receiver w.node.mode.configuredBandwidth m.toWire.acquisition with
      | error e =>
        rw [hacq] at hcheck
        cases hcheck
      | ok _ =>
        rw [hacq, hst] at hcheck
        exact (congrArg Prod.snd (Except.ok.inj hcheck)).symm
  -- a serialized setup names no formats, so nothing is narrowed
  have hselect : CsiConfig.select PpduSet.ANY w.node.setup.acquisition =
      w.node.setup.acquisition := by
    simp [CsiConfig.select, PpduSet.onlyHe, PpduSet.excludesLegacy, PpduSet.ANY]
  have hlegacy : PpduSet.ANY.excludesLegacy = false := rfl
  simp only [heq, hnamed, hrate, State.enact, m.toWire_acquisition, m.toWire_id,
    AcquisitionFilter.default, hselect, hlegacy, CsiNode.handed]
  cases hhz : m.periodicityHz with
  | none => rfl
  | some hz => rfl

/-! ## From node to node -/

/-- One node's setup is sent to a node that keeps a rate, which takes it on. -/
inductive Handed : (Σ chip, MeasurementSetup chip) → (Σ chip, MeasurementSetup chip) → Prop
  | hop {sender receiver : Chip} (m : MeasurementSetup sender) (w : State receiver)
      (s : Wire.MeasurementSetup) (rest : List UInt8)
      (read : measurementSetupCodec.read (measurementSetupCodec.write m.toWire) = .ok (s, rest))
      (accepts : w.Accepts s) (rated : w.node.mode.isEmitter = false) :
      Handed ⟨sender, m⟩ ⟨receiver, (w.applyMeasurementSetup s).1.node.setup⟩

/-- One handover passes the id on, and the rate rounded. -/
theorem Handed.rate {m m' : Σ chip, MeasurementSetup chip} (h : Handed m m') :
    m'.2.id = m.2.id ∧
      ∀ hz, m.2.periodicityHz = some hz → m'.2.periodicityHz = some (handedRate hz) := by
  obtain ⟨m, w, s, rest, hread, haccepts, hrated⟩ := h
  have hback := measurementSetupCodec.read_write m.toWire []
  rw [List.append_nil, hread] at hback
  obtain rfl : s = m.toWire := congrArg Prod.fst (Except.ok.inj hback)
  simp only [apply_toWire haccepts]
  refine ⟨rfl, fun hz hhz => ?_⟩
  simp only [CsiNode.handed, hhz, Option.map_some, Option.getD_some]
  rcases w.node.setRate_eq (handedRate hz) with ⟨c, hc, -⟩ | ⟨-, hset⟩
  · rw [hc] at hrated
    cases hrated
  · rw [hset]

/-- From node to node a rate changes once at most. -/
theorem Handed.relayed {m m' : Σ chip, MeasurementSetup chip} (h : Relation.TransGen Handed m m') :
    m'.2.id = m.2.id ∧
      ∀ hz, m.2.periodicityHz = some hz → m'.2.periodicityHz = some (handedRate hz) := by
  induction h with
  | single h => exact h.rate
  | tail _ h ih =>
    obtain ⟨hid, hrate⟩ := ih
    refine ⟨h.rate.1.trans hid, fun hz hhz => ?_⟩
    rw [h.rate.2 _ (hrate hz hhz), handedRate_handedRate]

/-- A serialized setup is read back as it was sent, and not at all where it was cut short. It is
taken on wherever its widths and its rate can be, changes nothing but the id and the rate, and from
node to node its rate is rounded up once. -/
theorem handover (m : MeasurementSetup sender) :
    (∀ rest, measurementSetupCodec.read (measurementSetupCodec.write m.toWire ++ rest) =
      .ok (m.toWire, rest)) ∧
    (∀ k, k < (measurementSetupCodec.write m.toWire).length →
      (measurementSetupCodec.read ((measurementSetupCodec.write m.toWire).take k)).toOption =
        none) ∧
    (∀ {receiver : Chip} (w : State receiver), (w.Accepts m.toWire ↔ Takes w.node m) ∧
      (w.Accepts m.toWire →
        (w.applyMeasurementSetup m.toWire).1 = { w with node := w.node.handed m })) ∧
    ∀ m', Relation.TransGen Handed ⟨sender, m⟩ m' → m'.2.id = m.id ∧
      ∀ hz, m.periodicityHz = some hz → ∃ hz', m'.2.periodicityHz = some hz' ∧ hz ≤ hz' ∧
        hz'.toNat = min 65535 (SECOND_US / (SECOND_US / max hz.toNat 1)) ∧
        (hz ≠ 0 → hz.toNat ≤ 1000 → hz' = hz) := by
  refine ⟨measurementSetupCodec.read_write m.toWire, fun k hk => ?_, fun w => ?_, fun m' h => ?_⟩
  · exact local_measurementSetupCodec.extends.read_take m.toWire hk
  · exact ⟨accepts_toWire_iff m w, apply_toWire⟩
  · obtain ⟨hid, hrate⟩ := Handed.relayed h
    refine ⟨hid, fun hz hhz => ⟨handedRate hz, hrate hz hhz, le_handedRate hz, ?_, ?_⟩⟩
    · exact handedRate_toNat hz
    · exact handedRate_of_le

end EspCsi.Setup
