import EspCsi.Setup.Node

/-!
# PPDU formats

Which frames a node captures under the format set of a setup it took on.
-/

namespace EspCsi.Setup

open Wire Csi Transition

variable {chip : Chip}

/-! ## What a node takes on -/

/-- The stimulus is one the mode can provide. -/
structure SupportedStimulus (mode : Mode) (filter : Option Mac) (st : StimulusParams) : Prop where
  sounds : mode.sounds = true
  report : st.report = .raw
  ng : st.ng = 1
  nb : st.nb = 8
  triggerBased : st.triggerBased = false
  bandwidth : ∀ width, mode.configuredBandwidth = some width → width = st.bandwidth
  responders : st.responders.val = [] ∨
    ∃ one, st.responders.val = [one] ∧ ∀ t, filter = some t → t = one

/-- Every parameter of the setup can be honoured by the mode, as far as the checks go. -/
structure Supported (n : CsiNode chip) (s : Wire.MeasurementSetup) : Prop where
  bandwidth : ∀ want width, s.acquisition.bandwidth = some want →
    n.mode.configuredBandwidth = some width → want = width
  he : s.acquisition.ppduFormats.onlyHe = true → isHe chip = true
  formats : s.acquisition.ppduFormats.isAny = true ∨ s.acquisition.ppduFormats.onlyHe = true ∨
    s.acquisition.ppduFormats.excludesLegacy = true
  stimulus : ∀ st, s.stimulus = some st → SupportedStimulus n.mode s.acquisition.transmitter st

theorem checkStimulus_iff {mode : Mode} {filter : Option Mac} {st : StimulusParams} :
    (∃ r, checkStimulus mode filter st = .ok r) ↔ SupportedStimulus mode filter st := by
  constructor
  · rintro ⟨r, h⟩
    unfold checkStimulus at h
    split_ifs at h with hsounds hreport hn htb hwidth
    obtain ⟨hng, hnb⟩ := not_or.mp hn
    refine ⟨by simpa using hsounds, by simpa using hreport, by simpa using hng, by simpa using hnb,
      by simpa using htb, ?_, ?_⟩
    · intro width hsome
      simpa [hsome] using hwidth
    · cases hresponders : st.responders.val with
      | nil => exact .inl rfl
      | cons one rest =>
        cases rest with
        | cons => simp [hresponders] at h
        | nil =>
          refine .inr ⟨one, rfl, fun t ht => ?_⟩
          rw [hresponders, ht] at h
          dsimp only at h
          split_ifs at h with hne
          exact not_not.mp hne
  · intro h
    have hwidth : mode.configuredBandwidth.any (· != st.bandwidth) = false := by
      cases hsome : mode.configuredBandwidth with
      | none => rfl
      | some width => simp [h.bandwidth width hsome]
    simp only [checkStimulus, h.sounds, h.report, h.ng, h.nb, h.triggerBased, hwidth]
    rcases h.responders with hnone | ⟨one, hone, hfilter⟩
    · simp [hnone]
    · cases filter with
      | none => simp [hone]
      | some t => simp [hone, hfilter t rfl]

theorem widthClash_eq_false {want width : Option Bandwidth} :
    widthClash want width = false ↔ ∀ v w, want = some v → width = some w → v = w := by
  cases want <;> cases width <;> simp [widthClash]

theorem checkAcquisition_iff {width : Option Bandwidth} {acq : AcquisitionFilter} :
    checkAcquisition chip width acq = .ok () ↔
      widthClash acq.bandwidth width = false ∧
        (acq.ppduFormats.onlyHe = true → isHe chip = true) ∧
        (acq.ppduFormats.isAny = true ∨ acq.ppduFormats.onlyHe = true ∨
          acq.ppduFormats.excludesLegacy = true) := by
  unfold checkAcquisition
  cases widthClash acq.bandwidth width <;> cases acq.ppduFormats.onlyHe <;> cases isHe chip <;>
    cases acq.ppduFormats.isAny <;> cases acq.ppduFormats.excludesLegacy <;> simp

theorem accepts_iff {w : State chip} {s : Wire.MeasurementSetup} :
    w.Accepts s ↔ Supported w.node s := by
  have hok : w.Accepts s ↔ ∃ r, check w.node s = .ok r := by
    unfold State.Accepts State.applyMeasurementSetup
    cases check w.node s <;> simp
  rw [hok]
  constructor
  · rintro ⟨r, hr⟩
    unfold check at hr
    cases hacq : checkAcquisition chip w.node.mode.configuredBandwidth s.acquisition with
    | error e =>
      rw [hacq] at hr
      cases hr
    | ok _ =>
      obtain ⟨hwidth, hhe, hformats⟩ := checkAcquisition_iff.mp hacq
      refine ⟨widthClash_eq_false.mp hwidth, hhe, hformats, fun st hst => ?_⟩
      rw [hacq, hst] at hr
      exact checkStimulus_iff.mp ⟨r, hr⟩
  · intro h
    have hacq := checkAcquisition_iff.mpr
      ⟨widthClash_eq_false.mpr h.bandwidth, h.he, h.formats⟩
    unfold check
    rw [hacq]
    cases hst : s.stimulus with
    | none => exact ⟨_, rfl⟩
    | some st => exact checkStimulus_iff.mpr (h.stimulus st hst)

/-! ## What a node captures -/

def ppdu (chip : Chip) (info : WifiCsiInfo) : PpduFormat := (rxMeta chip info 0).1.ppdu

def Event.keepsFilters : Csi.Event → Bool
  | .setCsiPeerFilter _ | .setCsiMinSigMode _ => false
  | _ => true

theorem csiPassesFilter_step {e : Csi.Event} (h : Event.keepsFilters e = true) (g : Gates)
    (info : WifiCsiInfo) : (g.step e).csiPassesFilter chip info = g.csiPassesFilter chip info := by
  cases e with
  | setCsiPeerFilter | setCsiMinSigMode => cases h
  | nextCsiPacket t | printCsi t =>
    simp only [Gates.step, Gates.enterAsync]
    split_ifs <;> rfl
  | _ => rfl

theorem csiPassesFilter_run {es : List Csi.Event} (h : ∀ e ∈ es, Event.keepsFilters e = true)
    (g : Gates) (info : WifiCsiInfo) :
    (run Gates.step g es).csiPassesFilter chip info = g.csiPassesFilter chip info := by
  induction es generalizing g with
  | nil => rfl
  | cons e es ih =>
    rw [run_cons, ih fun x hx => h x (List.mem_cons_of_mem e hx),
      csiPassesFilter_step (h e List.mem_cons_self)]

/-- The node captures the frame, after the calls `es`: it is armed for capture, its radio acquires
the format, and the frame passes the filters. -/
structure Captures (radio : Radio) (w : State chip) (es : List Csi.Event) (info : WifiCsiInfo) :
    Prop where
  arms : w.node.armsCsi = true
  acquires : w.node.csiConfig.Acquires radio (ppdu chip info)
  passes : (run Gates.step w.gates es).csiPassesFilter chip info = true

/-- A format set is honoured by every frame captured under it, or refused with nothing changed. -/
structure Honoured (radio : Radio) (w : State chip) (s : Wire.MeasurementSetup) : Prop where
  taken : w.Accepts s → ∀ es : List Csi.Event, (∀ e ∈ es, Event.keepsFilters e = true) →
    ∀ info, Captures radio (w.applyMeasurementSetup s).1 es info →
      s.acquisition.ppduFormats.contains (ppdu chip info) = true
  refused : ¬ w.Accepts s → (w.applyMeasurementSetup s).1 = w

/-- The formats that the radio goes on acquiring: HE ones for an HE-only set; otherwise whatever it
acquired before, but for the legacy switches, or for the frames that a classic MAC filters out. -/
def StaysOn (radio : Radio) (n : CsiNode chip) (formats : PpduSet) (f : PpduFormat) : Prop :=
  if isHe chip then
    if formats.onlyHe then ∃ sw ∈ [.su, .mu, .dcm, .beamformed], radio.acquires sw f = true
    else ∃ sw, sw ≠ .legacy ∧ sw ≠ .forceLltf ∧ n.csiConfig.on sw = true ∧
      radio.acquires sw f = true
  else (f = .ht ∨ f = .vht) ∧ n.csiConfig.Acquires radio f

namespace CsiConfig

theorem on_he20 (h : isHe chip = true) (sw : Switch) :
    (he20 chip).on sw = true ↔ sw ∈ [.su, .mu, .dcm, .beamformed] := by
  cases chip with
  | esp32C5 | esp32C6 => cases sw <;> decide
  | _ => cases h

theorem on_withoutLegacy (h : isHe chip = true) (c : CsiConfig chip) (sw : Switch) :
    c.withoutLegacy.on sw = true ↔ sw ≠ .legacy ∧ sw ≠ .forceLltf ∧ c.on sw = true := by
  cases chip with
  | esp32C5 =>
    cases sw <;> simp [on, withoutLegacy, C5CsiConfig.on, C6CsiConfig.on, C5CsiConfig.withoutLegacy]
  | esp32C6 =>
    cases sw <;> simp [on, withoutLegacy, C6CsiConfig.on, C6CsiConfig.withoutLegacy]
  | _ => cases h

theorem Acquires.classic {radio : Radio} {c : CsiConfig chip} {f : PpduFormat}
    (hchip : isHe chip = false) (h : c.Acquires radio f) :
    f = .dsss ∨ f = .nonHt ∨ f = .ht ∨ f = .vht := by
  obtain ⟨sw, hon, hacquires⟩ := h
  have hcovers := radio.covers sw f hacquires
  cases chip with
  | esp32C5 | esp32C6 => cases hchip
  | _ => cases sw <;> cases f <;> simp [on, ClassicCsiConfig.on, Switch.covers] at hon hcovers ⊢

end CsiConfig

/-! ## Under a setup that was taken on -/

def sigMode : PpduFormat → UInt8
  | .ht => 1
  | .vht => 3
  | _ => 0

def bbFormat : PpduFormat → UInt8
  | .dsss => 0
  | .nonHt => 1
  | .ht => 2
  | .vht => 3
  | .heSu => 4
  | .heMu => 5
  | .heErSu => 6
  | .heTb => 7
  | .vhtMu => 11
  | .unknown | .eht => 12

def frameIn (f : PpduFormat) (mac : Mac) : WifiCsiInfo :=
  { WifiCsiInfo.quiet mac 0 0 with packetMode := sigMode f, curBbFormat := bbFormat f }

theorem ppdu_classic {info : WifiCsiInfo} (hchip : isHe chip = false) (h : info.packetMode.toNat ≠ 0) :
    ppdu chip info = .ht ∨ ppdu chip info = .vht ∨ ppdu chip info = .unknown := by
  simp only [ppdu, rxMeta, hchip, Bool.false_eq_true, if_false, rxMetaClassic]
  split
  · contradiction
  · exact .inl rfl
  · exact .inr (.inl rfl)
  · exact .inr (.inr rfl)

theorem ppdu_frameIn (sw : Switch) {f : PpduFormat} (hchip : isHe chip = true)
    (h : sw.covers f = true) (mac : Mac) : ppdu chip (frameIn f mac) = f := by
  have hf : f ≠ .unknown ∧ f ≠ .eht := by
    constructor
    · rintro rfl
      cases sw <;> cases h
    · rintro rfl
      cases sw <;> cases h
  simp only [ppdu, rxMeta, hchip, if_true, rxMetaHe, frameIn]
  cases f with
  | unknown => exact absurd rfl hf.1
  | eht => exact absurd rfl hf.2
  | _ => rfl

theorem ppdu_frameIn_classic {f : PpduFormat} (hchip : isHe chip = false) (h : f = .ht ∨ f = .vht)
    (mac : Mac) : ppdu chip (frameIn f mac) = f := by
  simp only [ppdu, rxMeta, hchip]
  rcases h with rfl | rfl <;> rfl

theorem csiPeerFilter_run (es : List Csi.Event) :
    ∃ mac, Gates.packMac mac = (run Gates.step .boot es).csiPeerFilter := by
  refine (always_of_step (Q := fun g : Gates => ∃ mac, Gates.packMac mac = g.csiPeerFilter)
    ⟨.zero, rfl⟩ fun g e h => ?_).last
  cases e with
  | setCsiPeerFilter mac => exact ⟨mac, rfl⟩
  | nextCsiPacket t | printCsi t =>
    simp only [Gates.step, Gates.enterAsync]
    split_ifs <;> exact h
  | _ => exact h

namespace State

variable {w : State chip} {s : Wire.MeasurementSetup}

theorem Accepts.csiConfig (h : w.Accepts s) : (w.applyMeasurementSetup s).1.node.csiConfig =
    (CsiConfig.select s.acquisition.ppduFormats w.node.setup.acquisition).getD (.default chip) := by
  rw [CsiNode.csiConfig, h.acquisition]

/-- What the radio acquires under a set on the 802.11ax generation. -/
theorem Accepts.acquires_iff (radio : Radio) (h : w.Accepts s)
    (hsome : s.acquisition.ppduFormats.isAny = false) (hchip : isHe chip = true) (f : PpduFormat) :
    (w.applyMeasurementSetup s).1.node.csiConfig.Acquires radio f ↔
      StaysOn radio w.node s.acquisition.ppduFormats f := by
  rw [h.csiConfig, StaysOn, if_pos hchip, CsiConfig.select, hchip]
  cases hhe : s.acquisition.ppduFormats.onlyHe with
  | true => simp [CsiConfig.Acquires, CsiConfig.on_he20 hchip]
  | false =>
    have hlegacy : s.acquisition.ppduFormats.excludesLegacy = true := by
      simpa [hsome, hhe] using h.formats.2
    simp [hlegacy, CsiConfig.Acquires, CsiConfig.on_withoutLegacy hchip, CsiNode.csiConfig,
      and_assoc]

/-- A classic MAC acquires what it did, and keeps what is HT or better. -/
theorem Accepts.classic (h : w.Accepts s) (hsome : s.acquisition.ppduFormats.isAny = false)
    (hchip : isHe chip = false) :
    (w.applyMeasurementSetup s).1.node.csiConfig = w.node.csiConfig ∧
      (w.applyMeasurementSetup s).1.gates.csiMinSigMode = 1 := by
  have hhe : s.acquisition.ppduFormats.onlyHe = false := by simpa [hchip] using h.formats.1
  have hlegacy : s.acquisition.ppduFormats.excludesLegacy = true := by
    simpa [hsome, hhe] using h.formats.2
  refine ⟨?_, ?_⟩
  · rw [h.csiConfig, CsiConfig.select, hchip]
    rfl
  · rw [h.csiMinSigMode, hlegacy, hhe, hchip]
    rfl

end State

theorem Captures.staysOn {radio : Radio} {w : State chip} {s : Wire.MeasurementSetup}
    {es : List Csi.Event} {info : WifiCsiInfo} (h : w.Accepts s)
    (hsome : s.acquisition.ppduFormats.isAny = false)
    (hcached : (w.applyMeasurementSetup s).1.gates.Cached)
    (hkeeps : ∀ e ∈ es, Event.keepsFilters e = true)
    (hcaptures : Captures radio (w.applyMeasurementSetup s).1 es info) :
    StaysOn radio w.node s.acquisition.ppduFormats (ppdu chip info) := by
  cases hchip : isHe chip with
  | true => exact (h.acquires_iff radio hsome hchip _).mp hcaptures.acquires
  | false =>
    obtain ⟨hconfig, hmin⟩ := h.classic hsome hchip
    have hacquires := hcaptures.acquires
    rw [hconfig] at hacquires
    have hpasses := hcaptures.passes
    rw [csiPassesFilter_run hkeeps, hcached.csiPassesFilter_iff, hmin, hchip] at hpasses
    have hmode : 1 ≤ info.packetMode := by simpa using hpasses.2
    rw [StaysOn, hchip]
    refine ⟨?_, hacquires⟩
    have hzero : info.packetMode.toNat ≠ 0 := by
      intro hzero
      rw [UInt8.le_iff_toNat_le, hzero] at hmode
      exact absurd hmode (by decide)
    rcases ppdu_classic hchip hzero with hht | hvht | hunknown
    · exact .inl hht
    · exact .inr hvht
    · have hkind := hacquires.classic hchip
      rw [hunknown] at hkind
      simp at hkind

theorem exists_captures {radio : Radio} {w : State chip} {s : Wire.MeasurementSetup} {f : PpduFormat}
    (h : w.Accepts s) (hsome : s.acquisition.ppduFormats.isAny = false)
    (hcached : (w.applyMeasurementSetup s).1.gates.Cached)
    (hpeer : ∃ mac, Gates.packMac mac = (w.applyMeasurementSetup s).1.gates.csiPeerFilter)
    (harms : w.node.armsCsi = true) (hstays : StaysOn radio w.node s.acquisition.ppduFormats f) :
    ∃ info, ppdu chip info = f ∧ Captures radio (w.applyMeasurementSetup s).1 [] info := by
  obtain ⟨mac, hmac⟩ := hpeer
  cases hchip : isHe chip with
  | true =>
    have hacquires := (h.acquires_iff radio hsome hchip f).mpr hstays
    obtain ⟨sw, -, hsw⟩ := id hacquires
    have hformat := ppdu_frameIn sw hchip (radio.covers sw f hsw) mac
    refine ⟨frameIn f mac, hformat, ?_, ?_, ?_⟩
    · rwa [h.armsCsi]
    · rwa [hformat]
    · rw [run_nil, hcached.csiPassesFilter_iff]
      exact ⟨.inr hmac, .inl hchip⟩
  | false =>
    obtain ⟨hconfig, hmin⟩ := h.classic hsome hchip
    rw [StaysOn, hchip] at hstays
    have hformat := ppdu_frameIn_classic hchip hstays.1 mac
    refine ⟨frameIn f mac, hformat, ?_, ?_, ?_⟩
    · rwa [h.armsCsi]
    · rw [hformat, hconfig]
      exact hstays.2
    · rw [run_nil, hcached.csiPassesFilter_iff, hmin]
      refine ⟨.inr hmac, .inr (.inr ?_)⟩
      rcases hstays.1 with rfl | rfl
      · exact (by decide : (1 : UInt8) ≤ sigMode .ht)
      · exact (by decide : (1 : UInt8) ≤ sigMode .vht)

/-- A format set is honoured or refused exactly when, for a setup that the mode supports, it has
every format that stays on. -/
theorem honoured_iff (radio : Radio) (n : CsiNode chip) (es : List Csi.Event)
    {s : Wire.MeasurementSetup} (hsome : s.acquisition.ppduFormats.isAny = false) :
    Honoured radio ⟨n, run Gates.step .boot es⟩ s ↔
      (Supported n s → n.armsCsi = true →
        ∀ f, StaysOn radio n s.acquisition.ppduFormats f →
          s.acquisition.ppduFormats.contains f = true) := by
  set w : State chip := ⟨n, run Gates.step .boot es⟩ with hw
  have hreached (h : w.Accepts s) :
      ∃ es', (w.applyMeasurementSetup s).1.gates = run Gates.step .boot es' := by
    obtain ⟨es', heq⟩ := h.gates
    exact ⟨es ++ es', by rw [heq, run_append]⟩
  constructor
  · intro h hsupported harms f hstays
    have haccepts : w.Accepts s := accepts_iff.mpr hsupported
    obtain ⟨es', hgates⟩ := hreached haccepts
    have hcached := Gates.cached_run es'
    have hpeer := csiPeerFilter_run es'
    rw [← hgates] at hcached hpeer
    obtain ⟨info, hformat, hcaptures⟩ :=
      exists_captures haccepts hsome hcached hpeer harms hstays
    rw [← hformat]
    exact h.taken haccepts [] (by simp) info hcaptures
  · intro h
    refine ⟨fun haccepts es₂ hkeeps info hcaptures => ?_, State.unchanged_of_not_accepts⟩
    obtain ⟨es', hgates⟩ := hreached haccepts
    have hcached := Gates.cached_run es'
    rw [← hgates] at hcached
    have harms : n.armsCsi = true := by
      rw [← haccepts.armsCsi]
      exact hcaptures.arms
    exact h (accepts_iff.mp haccepts) harms _
      (hcaptures.staysOn haccepts hsome hcached hkeeps)

def ofFormats (fs : List PpduFormat) : Wire.MeasurementSetup :=
  (Wire.MeasurementSetup.new 1).withAcquisition
    { AcquisitionFilter.default with ppduFormats := fs.foldl .insert .ANY }

/-- A set of all four HE formats is honoured, whichever of them the radio acquires. -/
theorem honoured_iff_he :
    Honoured .full ⟨(State.sniffer .esp32C5).node, run Gates.step .boot []⟩
      (ofFormats [.heSu, .heMu, .heErSu, .heTb]) := by
  refine (honoured_iff .full _ [] (by decide)).mpr fun _ _ f hstays => ?_
  obtain ⟨sw, hsw, hcovers⟩ := hstays
  revert hsw hcovers
  cases sw <;> cases f <;> decide

/-- A sniffer takes a set of HT alone on, and goes on capturing HE frames. -/
theorem not_honoured :
    ¬ Honoured .full (State.sniffer .esp32C5) (ofFormats [.ht]) := by
  intro h
  have hformat : ppdu .esp32C5 (frameIn .heSu .zero) = .heSu :=
    ppdu_frameIn .su rfl rfl .zero
  have hcaptures : Captures .full ((State.sniffer .esp32C5).applyMeasurementSetup (ofFormats [.ht])).1
      [] (frameIn .heSu .zero) := by
    refine ⟨rfl, ⟨.su, by decide +kernel, ?_⟩, rfl⟩
    rw [hformat]
    rfl
  have hcontains := h.taken rfl [] (by simp) _ hcaptures
  rw [hformat] at hcontains
  revert hcontains
  decide

end EspCsi.Setup
