import EspCsi.Csi.Events
import EspCsi.EspNow.Initiator
import EspCsi.Setup.Acquisition

/-!
# Taking on a measurement setup

`CsiNode::apply_measurement_setup` of `node.rs`, over the node's mode, its own setup and the
process-wide filters.
-/

namespace EspCsi.Setup

open Wire Csi

/-! ## Modes -/

inductive SessionRole where
  | initiator
  | responder
deriving DecidableEq, Repr

structure EspNowConfig extends EspNow.EspNowConfig where
  channel : UInt8
  session : SessionRole
  he20 : Bool
deriving DecidableEq, Repr

inductive SimplexEnd where
  | source
  | peer
deriving DecidableEq, Repr

structure SimplexConfig where
  end_ : SimplexEnd
  inner : EspNowConfig
deriving DecidableEq, Repr

def SimplexConfig.isSource (c : SimplexConfig) : Bool := c.end_ == .source

structure WifiSnifferConfig where
  channel : UInt8
deriving DecidableEq, Repr

structure WifiStationConfig where
  channelHint : Option UInt8
  session : Option SessionRole
deriving DecidableEq, Repr

/-- An access point's own channel mirrors the one of its driver configuration. -/
structure WifiApConfig where
  apConfigChannel : UInt8
  channel : UInt8
  secondaryChannel : Option Secondary
deriving DecidableEq, Repr

inductive EmitterPhy where
  | ht20
  | ht40Above
  | ht40Below
  | he20
deriving DecidableEq, Repr

def EmitterPhy.isForty : EmitterPhy → Bool
  | .ht40Above | .ht40Below => true
  | .ht20 | .he20 => false

structure EmitterConfig where
  channel : UInt8
  phy : EmitterPhy
  periodUs : UInt64
deriving DecidableEq, Repr

inductive Mode where
  | espNow (c : EspNowConfig)
  | espNowSimplex (c : SimplexConfig)
  | sniffer (c : WifiSnifferConfig)
  | station (c : WifiStationConfig)
  | accessPoint (c : WifiApConfig)
  | emitter (c : EmitterConfig)
deriving DecidableEq, Repr

namespace Mode

def sounds : Mode → Bool
  | .espNow c => c.session == .initiator
  | .espNowSimplex c => c.isSource
  | .station c => c.session == some .initiator
  | .accessPoint _ | .emitter _ => true
  | .sniffer _ => false

def configuredBandwidth : Mode → Option Bandwidth
  | .espNow c => some (if c.secondaryChannel.isSome then .mhz40 else .mhz20)
  | .espNowSimplex c => some (if c.inner.secondaryChannel.isSome then .mhz40 else .mhz20)
  | .accessPoint c => some (if c.secondaryChannel.isSome then .mhz40 else .mhz20)
  | .emitter c => some (if c.phy.isForty then .mhz40 else .mhz20)
  | .station _ | .sniffer _ => none

def setChannel (ch : UInt8) : Mode → Mode
  | .espNow c => .espNow { c with channel := ch }
  | .espNowSimplex c => .espNowSimplex { c with inner := { c.inner with channel := ch } }
  | .sniffer _ => .sniffer ⟨ch⟩
  | .station c => .station { c with channelHint := some ch }
  | .accessPoint c => .accessPoint { c with channel := ch, apConfigChannel := ch }
  | .emitter c => .emitter { c with channel := ch }

def isEmitter : Mode → Bool
  | .emitter _ => true
  | _ => false

end Mode

/-! ## Nodes -/

structure MeasurementSetup (chip : Chip) where
  id : UInt8
  periodicityHz : Option UInt16
  bandwidth : Option Bandwidth
  acquisition : Option (CsiConfig chip)

def MeasurementSetup.new (chip : Chip) : MeasurementSetup chip := ⟨0, none, none, none⟩

structure CsiNode (chip : Chip) where
  mode : Mode
  setup : MeasurementSetup chip
  rxEnabled : Bool

namespace CsiNode

variable {chip : Chip}

def csiConfig (n : CsiNode chip) : CsiConfig chip := n.setup.acquisition.getD (.default chip)

def armsCsi (n : CsiNode chip) : Bool := n.rxEnabled && !n.mode.isEmitter

def setRate (hz : UInt16) (n : CsiNode chip) : CsiNode chip :=
  match n.mode with
  | .emitter c => { n with mode := .emitter { c with periodUs := 1000000 / (max hz 1).toUInt64 } }
  | _ => { n with setup := { n.setup with periodicityHz := some hz } }

end CsiNode

/-- A node and the process-wide gates it shares. -/
structure State (chip : Chip) where
  node : CsiNode chip
  gates : Gates

/-! ## Validation -/

def widthClash : Option Bandwidth → Option Bandwidth → Bool
  | some want, some width => want != width
  | _, _ => false

def checkAcquisition (chip : Chip) (width : Option Bandwidth) (acq : AcquisitionFilter) :
    Except SetupError Unit :=
  if widthClash acq.bandwidth width then .error (.unsupportedAcquisition "bandwidth")
  else if acq.ppduFormats.onlyHe && !isHe chip then .error (.unsupportedAcquisition "ppdu_formats")
  else if !acq.ppduFormats.isAny && !acq.ppduFormats.onlyHe && !acq.ppduFormats.excludesLegacy then
    .error (.unsupportedAcquisition "ppdu_formats")
  else .ok ()

/-- The stimulus half: the peer to filter for, and the rate to sound at. -/
def checkStimulus (mode : Mode) (filter : Option Mac) (st : StimulusParams) :
    Except SetupError (Option Mac × Option UInt16) :=
  if !mode.sounds then .error .noStimulus
  else if st.report ≠ .raw then .error (.unsupportedStimulus "report")
  else if st.ng ≠ 1 ∨ st.nb ≠ 8 then .error (.unsupportedStimulus "ng/nb")
  else if st.triggerBased then .error (.unsupportedStimulus "trigger_based")
  else if mode.configuredBandwidth.any (· != st.bandwidth) then
    .error (.unsupportedStimulus "bandwidth")
  else
    match st.responders.val with
    | [] => .ok (filter, some st.rateHz)
    -- a sole responder is the peer to filter for
    | [one] =>
      match filter with
      | some t =>
        if t ≠ one then .error (.unsupportedStimulus "responders")
        else .ok (some one, some st.rateHz)
      | none => .ok (some one, some st.rateHz)
    | _ => .error (.unsupportedStimulus "responders")

def check {chip : Chip} (n : CsiNode chip) (s : Wire.MeasurementSetup) :
    Except SetupError (Option Mac × Option UInt16) := do
  checkAcquisition chip n.mode.configuredBandwidth s.acquisition
  match s.stimulus with
  | some st => checkStimulus n.mode s.acquisition.transmitter st
  | none => return (s.acquisition.transmitter, none)

/-! ## Application -/

namespace State

variable {chip : Chip}

def enact (w : State chip) (s : Wire.MeasurementSetup) (filter : Option Mac)
    (rate : Option UInt16) : State chip :=
  let formats := s.acquisition.ppduFormats
  -- a classic chip drops legacy frames once they are received
  let gates := (filter.map w.gates.setCsiPeerFilter).getD w.gates
  let mode := (s.acquisition.channel.map w.node.mode.setChannel).getD w.node.mode
  let acquisition := CsiConfig.select formats w.node.setup.acquisition
  let node : CsiNode chip := { w.node with mode, setup := { w.node.setup with acquisition } }
  let node := (rate.map node.setRate).getD node
  { node := { node with setup := { node.setup with id := s.id } }
    gates :=
      if formats.excludesLegacy && !formats.onlyHe && !isHe chip then gates.setCsiMinSigMode 1
      else gates }

def applyMeasurementSetup (w : State chip) (s : Wire.MeasurementSetup) :
    State chip × Except SetupError Unit :=
  match check w.node s with
  | .error e => (w, .error e)
  | .ok (filter, rate) => (w.enact s filter rate, .ok ())

def sniffer (chip : Chip) : State chip where
  node := ⟨.sniffer ⟨1⟩, .new chip, true⟩
  gates := .boot

def Accepts (w : State chip) (s : Wire.MeasurementSetup) : Prop :=
  (w.applyMeasurementSetup s).2 = .ok ()

end State

/-! ## What is checked -/

/-- The transmitter a setup names: in its filter, or as its only responder. -/
def named (s : Wire.MeasurementSetup) : Option Mac :=
  match s.stimulus with
  | some st => st.responders.val.head?.or s.acquisition.transmitter
  | none => s.acquisition.transmitter

theorem checkStimulus_filter {mode : Mode} {filter peer : Option Mac} {st : StimulusParams}
    {rate : Option UInt16} (h : checkStimulus mode filter st = .ok (peer, rate)) :
    peer = st.responders.val.head?.or filter := by
  unfold checkStimulus at h
  split_ifs at h
  cases hresponders : st.responders.val with
  | nil =>
    rw [hresponders] at h
    cases h
    rfl
  | cons one rest =>
    cases rest with
    | nil =>
      rw [hresponders] at h
      cases filter with
      | none =>
        cases h
        rfl
      | some t =>
        dsimp only at h
        split_ifs at h
        cases h
        rfl
    | cons => simp [hresponders] at h

variable {chip : Chip}

theorem check_filter {n : CsiNode chip} {s : Wire.MeasurementSetup} {filter : Option Mac}
    {rate : Option UInt16} (h : check n s = .ok (filter, rate)) : filter = named s := by
  unfold check at h
  cases hacq : checkAcquisition chip n.mode.configuredBandwidth s.acquisition with
  | error e =>
    rw [hacq] at h
    cases h
  | ok _ =>
    rw [hacq] at h
    cases hstimulus : s.stimulus with
    | none =>
      rw [hstimulus] at h
      cases h
      simp [named, hstimulus]
    | some st =>
      rw [hstimulus] at h
      simp only [named, hstimulus]
      exact checkStimulus_filter h

theorem check_congr {m n : CsiNode chip} (hsounds : m.mode.sounds = n.mode.sounds)
    (hwidth : m.mode.configuredBandwidth = n.mode.configuredBandwidth)
    (s : Wire.MeasurementSetup) : check m s = check n s := by
  simp only [check, checkStimulus, hsounds, hwidth]

theorem check_formats {n : CsiNode chip} {s : Wire.MeasurementSetup} {r : Option Mac × Option UInt16}
    (h : check n s = .ok r) :
    (s.acquisition.ppduFormats.onlyHe = true → isHe chip = true) ∧
      (s.acquisition.ppduFormats.isAny = true ∨ s.acquisition.ppduFormats.onlyHe = true ∨
        s.acquisition.ppduFormats.excludesLegacy = true) := by
  unfold check at h
  cases hacq : checkAcquisition chip n.mode.configuredBandwidth s.acquisition with
  | error e =>
    rw [hacq] at h
    cases h
  | ok _ =>
    unfold checkAcquisition at hacq
    split_ifs at hacq with _ hhe hsome
    cases hany : s.acquisition.ppduFormats.isAny <;>
      cases honly : s.acquisition.ppduFormats.onlyHe <;> simp_all

/-! ## What is changed -/

@[simp]
theorem Mode.sounds_setChannel (m : Mode) (ch : UInt8) : (m.setChannel ch).sounds = m.sounds := by
  cases m <;> rfl

@[simp]
theorem Mode.configuredBandwidth_setChannel (m : Mode) (ch : UInt8) :
    (m.setChannel ch).configuredBandwidth = m.configuredBandwidth := by
  cases m <;> rfl

@[simp]
theorem Mode.isEmitter_setChannel (m : Mode) (ch : UInt8) :
    (m.setChannel ch).isEmitter = m.isEmitter := by
  cases m <;> rfl

theorem CsiNode.setRate_eq (n : CsiNode chip) (hz : UInt16) :
    (∃ c, n.mode = .emitter c ∧ n.setRate hz =
        { n with mode := .emitter { c with periodUs := 1000000 / (max hz 1).toUInt64 } }) ∨
      n.mode.isEmitter = false ∧
        n.setRate hz = { n with setup := { n.setup with periodicityHz := some hz } } := by
  cases hmode : n.mode with
  | emitter c => exact .inl ⟨c, rfl, by simp [CsiNode.setRate, hmode]⟩
  | _ => exact .inr ⟨rfl, by simp [CsiNode.setRate, hmode]⟩

namespace State

variable (w : State chip) (s : Wire.MeasurementSetup) (filter : Option Mac) (rate : Option UInt16)

theorem enact_node : ∃ mode periodicityHz,
    (w.enact s filter rate).node = { w.node with
      mode
      setup := { w.node.setup with
        id := s.id
        periodicityHz
        acquisition := CsiConfig.select s.acquisition.ppduFormats w.node.setup.acquisition } } ∧
      mode.sounds = w.node.mode.sounds ∧
      mode.configuredBandwidth = w.node.mode.configuredBandwidth ∧
      mode.isEmitter = w.node.mode.isEmitter := by
  have hchannel : ∃ mode, (s.acquisition.channel.map w.node.mode.setChannel).getD w.node.mode = mode ∧
      mode.sounds = w.node.mode.sounds ∧
      mode.configuredBandwidth = w.node.mode.configuredBandwidth ∧
      mode.isEmitter = w.node.mode.isEmitter := by
    cases s.acquisition.channel <;> exact ⟨_, rfl, by simp⟩
  obtain ⟨mode, hmode, hsounds, hwidth, hemitter⟩ := hchannel
  simp only [enact, hmode]
  cases rate with
  | none => exact ⟨mode, _, rfl, hsounds, hwidth, hemitter⟩
  | some hz =>
    simp only [Option.map_some, Option.getD_some]
    let n : CsiNode chip := { w.node with
      mode
      setup := { w.node.setup with
        acquisition := CsiConfig.select s.acquisition.ppduFormats w.node.setup.acquisition } }
    rcases n.setRate_eq hz with ⟨c, hc, heq⟩ | ⟨_, heq⟩
    · have hc' : mode = .emitter c := hc
      subst hc'
      refine ⟨.emitter { c with periodUs := 1000000 / (max hz 1).toUInt64 },
        w.node.setup.periodicityHz, ?_, hsounds, hwidth, hemitter⟩
      rw [heq]
    · refine ⟨mode, some hz, ?_, hsounds, hwidth, hemitter⟩
      rw [heq]

theorem enact_acquisition : (w.enact s filter rate).node.setup.acquisition =
    CsiConfig.select s.acquisition.ppduFormats w.node.setup.acquisition := by
  obtain ⟨mode, periodicityHz, heq, -⟩ := w.enact_node s filter rate
  rw [heq]

theorem enact_armsCsi : (w.enact s filter rate).node.armsCsi = w.node.armsCsi := by
  obtain ⟨mode, periodicityHz, heq, -, -, hemitter⟩ := w.enact_node s filter rate
  rw [heq, CsiNode.armsCsi, CsiNode.armsCsi, hemitter]

theorem check_enact (s' : Wire.MeasurementSetup) :
    check (w.enact s filter rate).node s' = check w.node s' := by
  obtain ⟨mode, periodicityHz, heq, hsounds, hwidth, -⟩ := w.enact_node s filter rate
  rw [heq]
  exact check_congr hsounds hwidth s'

theorem enact_csiPeerFilter : (w.enact s filter rate).gates.csiPeerFilter =
    (filter.map Gates.packMac).getD w.gates.csiPeerFilter := by
  cases filter <;> simp only [enact] <;> split_ifs <;> rfl

theorem enact_csiMinSigMode : (w.enact s filter rate).gates.csiMinSigMode =
    if s.acquisition.ppduFormats.excludesLegacy && !s.acquisition.ppduFormats.onlyHe &&
      !isHe chip then 1 else w.gates.csiMinSigMode := by
  cases filter <;> simp only [enact] <;> split_ifs <;> rfl

variable {w s}

theorem Accepts.enact (h : w.Accepts s) : ∃ rate,
    check w.node s = .ok (named s, rate) ∧
      w.applyMeasurementSetup s = (w.enact s (named s) rate, .ok ()) := by
  unfold Accepts at h
  cases hcheck : check w.node s with
  | error e => simp [applyMeasurementSetup, hcheck] at h
  | ok r =>
    obtain ⟨filter, rate⟩ := r
    obtain rfl := check_filter hcheck
    exact ⟨rate, rfl, by simp [applyMeasurementSetup, hcheck]⟩

theorem Accepts.csiPeerFilter (h : w.Accepts s) :
    (w.applyMeasurementSetup s).1.gates.csiPeerFilter =
      ((named s).map Gates.packMac).getD w.gates.csiPeerFilter := by
  obtain ⟨rate, -, heq⟩ := h.enact
  rw [heq, w.enact_csiPeerFilter]

theorem Accepts.csiMinSigMode (h : w.Accepts s) :
    (w.applyMeasurementSetup s).1.gates.csiMinSigMode =
      if s.acquisition.ppduFormats.excludesLegacy && !s.acquisition.ppduFormats.onlyHe &&
        !isHe chip then 1 else w.gates.csiMinSigMode := by
  obtain ⟨rate, -, heq⟩ := h.enact
  rw [heq, w.enact_csiMinSigMode]

theorem Accepts.acquisition (h : w.Accepts s) :
    (w.applyMeasurementSetup s).1.node.setup.acquisition =
      CsiConfig.select s.acquisition.ppduFormats w.node.setup.acquisition := by
  obtain ⟨rate, -, heq⟩ := h.enact
  rw [heq, w.enact_acquisition]

theorem Accepts.gates (h : w.Accepts s) : ∃ es,
    (w.applyMeasurementSetup s).1.gates = Transition.run Gates.step w.gates es := by
  obtain ⟨rate, -, heq⟩ := h.enact
  rw [heq]
  refine ⟨(named s).toList.map .setCsiPeerFilter ++
    if s.acquisition.ppduFormats.excludesLegacy && !s.acquisition.ppduFormats.onlyHe &&
      !isHe chip then [.setCsiMinSigMode 1] else [], ?_⟩
  simp only [State.enact]
  cases named s <;> split_ifs <;> rfl

theorem Accepts.armsCsi (h : w.Accepts s) :
    (w.applyMeasurementSetup s).1.node.armsCsi = w.node.armsCsi := by
  obtain ⟨rate, -, heq⟩ := h.enact
  rw [heq, w.enact_armsCsi]

theorem Accepts.formats (h : w.Accepts s) :
    (s.acquisition.ppduFormats.onlyHe = true → isHe chip = true) ∧
      (s.acquisition.ppduFormats.isAny = true ∨ s.acquisition.ppduFormats.onlyHe = true ∨
        s.acquisition.ppduFormats.excludesLegacy = true) := by
  obtain ⟨rate, hcheck, -⟩ := h.enact
  exact check_formats hcheck

/-- A setup that is refused changes nothing. -/
theorem unchanged_of_not_accepts (h : ¬ w.Accepts s) : (w.applyMeasurementSetup s).1 = w := by
  unfold Accepts at h
  cases hcheck : check w.node s with
  | error e => simp [applyMeasurementSetup, hcheck]
  | ok r => simp [applyMeasurementSetup, hcheck] at h

/-- Taking on one setup does not change which others can be taken on. -/
theorem Accepts.accepts_iff (h : w.Accepts s) (s' : Wire.MeasurementSetup) :
    (w.applyMeasurementSetup s).1.Accepts s' ↔ w.Accepts s' := by
  obtain ⟨rate, -, heq⟩ := h.enact
  have hcheck := w.check_enact s (named s) rate s'
  rw [heq]
  unfold Accepts applyMeasurementSetup
  rw [hcheck]
  cases check w.node s' <;> rfl

end State

end EspCsi.Setup
