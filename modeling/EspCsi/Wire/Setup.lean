import EspCsi.Wire.Types

/-!
# Measurement setups

`wire/setup.rs`: the serialized form of a measurement setup, split into what a node accepts and how
the channel is sounded.
-/

namespace EspCsi.Wire

def MAX_RESPONDERS : ℕ := 8

/-- A set of PPDU formats, one bit each. -/
structure PpduSet where
  bits : UInt16
deriving DecidableEq, Repr

namespace PpduSet

/-- The empty set, which a filter reads as "every format". -/
def ANY : PpduSet := ⟨0⟩

def bit (f : PpduFormat) : UInt16 :=
  let index : UInt16 :=
    match f with
    | .unknown => 0
    | .dsss => 1
    | .nonHt => 2
    | .ht => 3
    | .vht => 4
    | .vhtMu => 5
    | .heSu => 6
    | .heMu => 7
    | .heErSu => 8
    | .heTb => 9
    | .eht => 10
  1 <<< index

def insert (s : PpduSet) (f : PpduFormat) : PpduSet := ⟨s.bits ||| bit f⟩

/-- Whether `f` is in the set. The empty set contains every format. -/
def contains (s : PpduSet) (f : PpduFormat) : Bool := s.bits == 0 || s.bits &&& bit f != 0

def isAny (s : PpduSet) : Bool := s.bits == 0

/-- Whether every format in the set is an HE format. -/
def onlyHe (s : PpduSet) : Bool :=
  let he := bit .heSu ||| bit .heMu ||| bit .heErSu ||| bit .heTb
  s.bits != 0 && s.bits &&& ~~~he == 0

/-- Whether the set excludes the legacy formats (DSSS and non-HT OFDM). -/
def excludesLegacy (s : PpduSet) : Bool :=
  s.bits != 0 && s.bits &&& (bit .dsss ||| bit .nonHt) == 0

end PpduSet

structure AcquisitionFilter where
  channel : Option UInt8
  bandwidth : Option Bandwidth
  ppduFormats : PpduSet
  transmitter : Option Mac
deriving DecidableEq, Repr

def AcquisitionFilter.default : AcquisitionFilter := ⟨none, none, .ANY, none⟩

inductive ReportType where
  | raw
  | grouped
deriving DecidableEq, Repr

structure StimulusParams where
  periodicityUs : UInt32
  bandwidth : Bandwidth
  report : ReportType
  ng : UInt8
  nb : UInt8
  triggerBased : Bool
  responders : HVec Mac MAX_RESPONDERS
deriving DecidableEq, Repr

namespace StimulusParams

/-- Raw reports, no grouping, non-TB, any responder. -/
def new (periodicityUs : UInt32) (bandwidth : Bandwidth) : StimulusParams where
  periodicityUs
  bandwidth
  report := .raw
  ng := 1
  nb := 8
  triggerBased := false
  responders := ⟨[], Nat.zero_le _⟩

/-- Sounding rate in Hz implied by the periodicity, saturated to 16 bits. -/
def rateHz (s : StimulusParams) : UInt16 :=
  if s.periodicityUs = 0 then 0xffff
  else
    let hz := 1000000 / s.periodicityUs
    if hz > 0xffff then 0xffff else if hz = 0 then 1 else hz.toUInt16

end StimulusParams

/-- A measurement setup: an id, what to accept and, for a node that sounds the channel, how to
sound it. -/
structure MeasurementSetup where
  id : UInt8
  acquisition : AcquisitionFilter
  stimulus : Option StimulusParams
deriving DecidableEq, Repr

def MeasurementSetup.new (id : UInt8) : MeasurementSetup := ⟨id, .default, none⟩

def MeasurementSetup.withAcquisition (s : MeasurementSetup) (acquisition : AcquisitionFilter) :
    MeasurementSetup :=
  { s with acquisition }

def MeasurementSetup.withStimulus (s : MeasurementSetup) (stimulus : StimulusParams) :
    MeasurementSetup :=
  { s with stimulus := some stimulus }

/-- Why a node could not take on a measurement setup. -/
inductive SetupError where
  | noStimulus
  | unsupportedStimulus (parameter : String)
  | unsupportedAcquisition (parameter : String)
deriving DecidableEq, Repr

end EspCsi.Wire
