import EspCsi.Setup.Node

/-!
# One setup after another

What is left of a measurement setup when the next one is taken on. The filters and the acquisition
are only ever narrowed, so a setup that asks for less than the one before keeps what it set.
-/

namespace EspCsi.Setup

open Wire Csi

variable {chip : Chip}

/-- The filters and the acquisition select what the setup alone asks for: any transmitter when it
names none, every PPDU format when its set is empty, and otherwise what it sets on its own. -/
structure SelectsAsAsked (s : Wire.MeasurementSetup) (alone w : State chip) : Prop where
  anyTransmitter : named s = none → w.gates.csiPeerFilter = 0
  transmitter : named s ≠ none → w.gates.csiPeerFilter = alone.gates.csiPeerFilter
  -- the sig-mode half of the filter exists on the classic MACs only
  anyFormat : s.acquisition.ppduFormats.isAny = true →
    (isHe chip = true ∨ w.gates.csiMinSigMode = 0) ∧ w.node.csiConfig.everyFormat = true
  formats : s.acquisition.ppduFormats.isAny = false →
    w.gates.csiMinSigMode = alone.gates.csiMinSigMode ∧
      w.node.setup.acquisition = alone.node.setup.acquisition

/-- Nothing of the first setup, nor of the state before it, is in the way of the second. -/
structure Clear (w : State chip) (s₁ s₂ : Wire.MeasurementSetup) : Prop where
  transmitter : named s₂ = none →
    ((named s₁).map Gates.packMac).getD w.gates.csiPeerFilter = 0
  anyFormat : s₂.acquisition.ppduFormats.isAny = true →
    s₁.acquisition.ppduFormats.isAny = true ∧
      (isHe chip = true ∨ w.gates.csiMinSigMode = 0) ∧ w.node.csiConfig.everyFormat = true
  heOnly : s₂.acquisition.ppduFormats.isAny = false → s₂.acquisition.ppduFormats.onlyHe = false →
    s₁.acquisition.ppduFormats.onlyHe = true → w.node.csiConfig.withoutLegacy = .he20 chip

namespace CsiConfig

theorem select_any {f : PpduSet} (h : f.isAny = true) (c : Option (CsiConfig chip)) :
    select f c = c := by
  have hbits : f.bits = 0 := by simpa [PpduSet.isAny] using h
  have hhe : f.onlyHe = false := by simp [PpduSet.onlyHe, hbits]
  have hlegacy : f.excludesLegacy = false := by simp [PpduSet.excludesLegacy, hbits]
  simp [select, hhe, hlegacy]

theorem on_legacy_select {f : PpduSet} (hchip : isHe chip = true)
    (h : f.onlyHe = true ∨ f.excludesLegacy = true) (c : Option (CsiConfig chip)) :
    ((select f c).getD (.default chip)).on .legacy = false := by
  rw [select, hchip]
  cases hhe : f.onlyHe with
  | true => simp [hchip]
  | false =>
    have hlegacy : f.excludesLegacy = true := by simpa [hhe] using h
    simp [hlegacy, hchip]

theorem select_select {f g : PpduSet} (hchip : isHe chip = true)
    (hg : g.onlyHe = true ∨ g.excludesLegacy = true) (c : Option (CsiConfig chip)) :
    select g (select f c) = select g c ↔
      (g.onlyHe = false → f.onlyHe = true → (c.getD (.default chip)).withoutLegacy = he20 chip) := by
  cases hghe : g.onlyHe with
  | true => simp [select, hchip, hghe]
  | false =>
    have hglegacy : g.excludesLegacy = true := by simpa [hghe] using hg
    cases hfhe : f.onlyHe with
    | true => simp [select, hchip, hghe, hglegacy, hfhe, eq_comm]
    | false => cases hflegacy : f.excludesLegacy <;> simp [select, hchip, hghe, hglegacy, hfhe, hflegacy]

end CsiConfig

/-! ## Two setups -/

namespace Clear

variable {w : State chip} {s₁ s₂ : Wire.MeasurementSetup}

theorem anyFormat_iff (h₁ : w.Accepts s₁) (h₂ : (w.applyMeasurementSetup s₁).1.Accepts s₂)
    (hany : s₂.acquisition.ppduFormats.isAny = true) :
    let w₂ := ((w.applyMeasurementSetup s₁).1.applyMeasurementSetup s₂).1
    (isHe chip = true ∨ w₂.gates.csiMinSigMode = 0) ∧ w₂.node.csiConfig.everyFormat = true ↔
      s₁.acquisition.ppduFormats.isAny = true ∧
        (isHe chip = true ∨ w.gates.csiMinSigMode = 0) ∧ w.node.csiConfig.everyFormat = true := by
  intro w₂
  have hnarrow : s₂.acquisition.ppduFormats.excludesLegacy = false := by
    have hbits : s₂.acquisition.ppduFormats.bits = 0 := by simpa [PpduSet.isAny] using hany
    simp [PpduSet.excludesLegacy, hbits]
  have hconfig : w₂.node.csiConfig =
      (CsiConfig.select s₁.acquisition.ppduFormats w.node.setup.acquisition).getD
        (.default chip) := by
    rw [CsiNode.csiConfig, h₂.acquisition, CsiConfig.select_any hany, h₁.acquisition]
  have hmin : w₂.gates.csiMinSigMode =
      if s₁.acquisition.ppduFormats.excludesLegacy && !s₁.acquisition.ppduFormats.onlyHe &&
        !isHe chip then 1 else w.gates.csiMinSigMode := by
    rw [h₂.csiMinSigMode, hnarrow, h₁.csiMinSigMode]
    rfl
  rw [hconfig, hmin]
  -- what the first setup asked for decides what is left to the second
  cases hfirst : s₁.acquisition.ppduFormats.isAny with
  | true =>
    have hlegacy : s₁.acquisition.ppduFormats.excludesLegacy = false := by
      have hbits : s₁.acquisition.ppduFormats.bits = 0 := by simpa [PpduSet.isAny] using hfirst
      simp [PpduSet.excludesLegacy, hbits]
    rw [CsiConfig.select_any hfirst, hlegacy]
    simp [CsiNode.csiConfig]
  | false =>
    have hnarrows : s₁.acquisition.ppduFormats.onlyHe = true ∨
        s₁.acquisition.ppduFormats.excludesLegacy = true := by simpa [hfirst] using h₁.formats.2
    refine iff_of_false ?_ (by simp)
    -- it narrowed the acquisition on the newer chips, and the filter on the others
    rintro ⟨hpass, hevery⟩
    cases hchip : isHe chip with
    | true =>
      have hon := CsiConfig.on_legacy_of_everyFormat hchip hevery
      rw [CsiConfig.on_legacy_select hchip hnarrows] at hon
      cases hon
    | false =>
      have hhe : s₁.acquisition.ppduFormats.onlyHe = false := by
        simpa [hchip] using h₁.formats.1
      have hlegacy : s₁.acquisition.ppduFormats.excludesLegacy = true := by
        simpa [hhe] using hnarrows
      simp [hchip, hhe, hlegacy] at hpass

/-- A set that asks for something selects what it does alone, unless the first asked for HE only and
it does not. -/
theorem formats_iff (h₁ : w.Accepts s₁) (h₂ : (w.applyMeasurementSetup s₁).1.Accepts s₂)
    (hsome : s₂.acquisition.ppduFormats.isAny = false) :
    let w₂ := ((w.applyMeasurementSetup s₁).1.applyMeasurementSetup s₂).1
    let alone := (w.applyMeasurementSetup s₂).1
    w₂.gates.csiMinSigMode = alone.gates.csiMinSigMode ∧
        w₂.node.setup.acquisition = alone.node.setup.acquisition ↔
      (s₂.acquisition.ppduFormats.onlyHe = false → s₁.acquisition.ppduFormats.onlyHe = true →
        w.node.csiConfig.withoutLegacy = .he20 chip) := by
  intro w₂ alone
  have halone : w.Accepts s₂ := (h₁.accepts_iff s₂).mp h₂
  have hnarrows : s₂.acquisition.ppduFormats.onlyHe = true ∨
      s₂.acquisition.ppduFormats.excludesLegacy = true := by simpa [hsome] using h₂.formats.2
  rw [h₂.csiMinSigMode, halone.csiMinSigMode, h₂.acquisition, halone.acquisition,
    h₁.csiMinSigMode, h₁.acquisition]
  cases hchip : isHe chip with
  | true =>
    have hselect := CsiConfig.select_select (f := s₁.acquisition.ppduFormats) hchip hnarrows
      w.node.setup.acquisition
    simpa [CsiNode.csiConfig] using hselect
  | false =>
    have hhe : s₁.acquisition.ppduFormats.onlyHe = false := by simpa [hchip] using h₁.formats.1
    have hhe₂ : s₂.acquisition.ppduFormats.onlyHe = false := by simpa [hchip] using h₂.formats.1
    have hlegacy : s₂.acquisition.ppduFormats.excludesLegacy = true := by
      simpa [hhe₂] using hnarrows
    simp [CsiConfig.select, hchip, hhe, hhe₂, hlegacy]

end Clear

/-- The node selects what the second setup alone asks for, exactly when nothing of the first and of
the state before it is in the way. -/
theorem selectsAsAsked_iff {w : State chip} {s₁ s₂ : Wire.MeasurementSetup} (h₁ : w.Accepts s₁)
    (h₂ : (w.applyMeasurementSetup s₁).1.Accepts s₂) :
    SelectsAsAsked s₂ (w.applyMeasurementSetup s₂).1
        ((w.applyMeasurementSetup s₁).1.applyMeasurementSetup s₂).1 ↔
      Clear w s₁ s₂ := by
  have halone : w.Accepts s₂ := (h₁.accepts_iff s₂).mp h₂
  have hpeer := h₂.csiPeerFilter
  rw [h₁.csiPeerFilter] at hpeer
  constructor
  · intro h
    refine ⟨fun hnone => ?_, fun hany => ?_, fun hsome => ?_⟩
    · have hopen := h.anyTransmitter hnone
      rw [hpeer, hnone] at hopen
      exact hopen
    · exact (Clear.anyFormat_iff h₁ h₂ hany).mp (h.anyFormat hany)
    · exact (Clear.formats_iff h₁ h₂ hsome).mp (h.formats hsome)
  · intro h
    refine ⟨fun hnone => ?_, fun hnamed => ?_, fun hany => ?_, fun hsome => ?_⟩
    · rw [hpeer, hnone]
      exact h.transmitter hnone
    · obtain ⟨mac, hmac⟩ := Option.ne_none_iff_exists'.mp hnamed
      rw [hpeer, halone.csiPeerFilter, hmac]
      rfl
    · exact (Clear.anyFormat_iff h₁ h₂ hany).mpr (h.anyFormat hany)
    · exact (Clear.formats_iff h₁ h₂ hsome).mpr (h.heOnly hsome)

def towards (mac : Mac) : Wire.MeasurementSetup :=
  (Wire.MeasurementSetup.new 1).withAcquisition
    { AcquisitionFilter.default with transmitter := some mac }

theorem selectsAsAsked_iff_towards :
    SelectsAsAsked (towards ⟨2, 0, 0, 0, 0, 2⟩)
        ((State.sniffer .esp32C5).applyMeasurementSetup (towards ⟨2, 0, 0, 0, 0, 2⟩)).1
        (((State.sniffer .esp32C5).applyMeasurementSetup
          (towards ⟨2, 0, 0, 0, 0, 1⟩)).1.applyMeasurementSetup (towards ⟨2, 0, 0, 0, 0, 2⟩)).1 ↔
      Clear (State.sniffer .esp32C5) (towards ⟨2, 0, 0, 0, 0, 1⟩) (towards ⟨2, 0, 0, 0, 0, 2⟩) :=
  selectsAsAsked_iff rfl rfl

/-- A setup that names no transmitter still selects the one that the last setup named. -/
theorem not_selectsAsAsked :
    let w := State.sniffer .esp32C5
    let s₁ := towards ⟨2, 0, 0, 0, 0, 1⟩
    let s₂ := Wire.MeasurementSetup.new 2
    w.Accepts s₁ ∧ (w.applyMeasurementSetup s₁).1.Accepts s₂ ∧
      ¬ SelectsAsAsked s₂ (w.applyMeasurementSetup s₂).1
        ((w.applyMeasurementSetup s₁).1.applyMeasurementSetup s₂).1 := by
  refine ⟨rfl, rfl, fun h => ?_⟩
  have hopen := h.anyTransmitter rfl
  revert hopen
  decide

end EspCsi.Setup
