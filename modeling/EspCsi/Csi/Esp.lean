import EspCsi.Csi.Session
import EspCsi.EspNow.Protocol

/-!
# The vendor source

`csi/esp.rs`: the mapping from the radio's CSI callback argument onto a frame of the wire contract.
-/

namespace EspCsi.Csi

open Wire

/-- What the radio hands to the CSI callback. Which receive-control fields a chip reports depends on
its MAC generation; a build reads only those of its own. -/
structure WifiCsiInfo where
  buf : List Int8
  mac : Mac
  timestampUs : UInt64
  secondaryChannel : Secondary
  header : List UInt8
  payload : List UInt8
  firstWordInvalid : Bool
  rssi : Int8
  noiseFloor : Int8
  channel : UInt8
  rate : UInt8
  signalLength : UInt16
  rxState : UInt8
  rxSequence : UInt16
  -- the classic MAC
  packetMode : UInt8
  cwb : Bool
  spaceTimeBlockCode : UInt8
  modulationCodingScheme : UInt8
  shortGuideInterval : Bool
  antenna : UInt8
  notSounding : Bool
  aggregation : Bool
  smoothing : Bool
  forwardErrorCorrectionCoding : Bool
  ampduCount : UInt8
  -- the 802.11ax generation
  curBbFormat : UInt8
  rxChannelEstimateInfoValid : Bool
  rxChannelEstimateLength : UInt16
  dumpLength : UInt16
  isGroup : Bool
  rxEndState : UInt8
  rxMatch0 : Bool
  rxMatch1 : Bool
  rxMatch2 : Bool
  rxMatch3 : Bool
  heSiga1 : UInt32
  heSiga2 : UInt16
  heSigbLength : UInt8
  curSingleMpdu : Bool
deriving DecidableEq

def WifiCsiInfo.quiet (mac : Mac) (rxSequence : UInt16) (timestampUs : UInt64) : WifiCsiInfo where
  buf := List.replicate 128 0
  mac
  timestampUs
  secondaryChannel := .none
  header := []
  payload := []
  firstWordInvalid := false
  rssi := -60
  noiseFloor := -95
  channel := 1
  rate := 11
  signalLength := 100
  rxState := 0
  rxSequence
  packetMode := 0
  cwb := false
  spaceTimeBlockCode := 0
  modulationCodingScheme := 0
  shortGuideInterval := false
  antenna := 0
  notSounding := true
  aggregation := false
  smoothing := false
  forwardErrorCorrectionCoding := false
  ampduCount := 0
  curBbFormat := 0
  rxChannelEstimateInfoValid := false
  rxChannelEstimateLength := 0
  dumpLength := 0
  isGroup := false
  rxEndState := 0
  rxMatch0 := false
  rxMatch1 := false
  rxMatch2 := false
  rxMatch3 := false
  heSiga1 := 0
  heSiga2 := 0
  heSigbLength := 0
  curSingleMpdu := false

def isHe : Chip → Bool
  | .esp32C5 | .esp32C6 => true
  | _ => false

def secondaryRaw : Secondary → UInt8
  | .none => 0
  | .above => 1
  | .below => 2

def rxMetaClassic (info : WifiCsiInfo) (timestampUs : UInt64) : RxMeta × LayoutId :=
  let sigMode := info.packetMode
  let stbc := info.spaceTimeBlockCode != 0
  let mcs := info.modulationCodingScheme
  let ppdu : PpduFormat :=
    match sigMode.toNat with
    -- DSSS has the rates below 8
    | 0 => if info.rate < 8 then .dsss else .nonHt
    | 1 => .ht
    | 3 => .vht
    | _ => .unknown
  let htLike := ppdu == .ht || ppdu == .vht
  ({ timestampUs
     rssi := info.rssi
     noiseFloor := info.noiseFloor
     channel := info.channel
     secondary := info.secondaryChannel
     bandwidth := some (if info.cwb then .mhz40 else .mhz20)
     ppdu
     mcs := if htLike then some mcs else none
     stbc := some stbc
     sgi := some info.shortGuideInterval
     nRx := 1
     nSs := some (if ppdu = .ht then mcs / 8 + 1 else 1)
     antenna := some info.antenna
     sigLen := info.signalLength
     rxState := info.rxState
     notSounding := some info.notSounding
     aggregation := some info.aggregation
     frameSeq := some info.rxSequence
     vendor := .espClassic info.rate sigMode info.smoothing info.forwardErrorCorrectionCoding
       info.ampduCount },
   .classifyClassic (secondaryRaw info.secondaryChannel) sigMode info.cwb stbc info.buf.length)

/-- Bandwidth and STBC, which the newer MAC does not report, from the layout where it is known. -/
def heBandwidthStbc (layout : LayoutId) (ppdu : PpduFormat) (secondary : Secondary) :
    Option Bandwidth × Option Bool :=
  match layout with
  | .c5Ht40 => (some .mhz40, some false)
  | .c5Ht40Stbc => (some .mhz40, some true)
  | .c5Ht20NoneStbc | .c5Ht20BelowStbc | .c5Ht20AboveStbc => (some .mhz20, some true)
  | .unknown =>
    match ppdu with
    | .heSu | .heMu | .heErSu | .heTb => (some .mhz20, none)
    -- a frame next to a secondary channel may have either width
    | _ => if secondary = .none then (some .mhz20, none) else (none, none)
  | .c5LltfNone | .c5LltfBelow | .c5LltfAbove => (some .mhz20, none)
  | _ => (some .mhz20, some false)

/-- The newer MAC's metadata and layout. Only the C5 has a published buffer table. -/
def rxMetaHe (chip : Chip) (info : WifiCsiInfo) (timestampUs : UInt64) : RxMeta × LayoutId :=
  let bb := info.curBbFormat
  let ppdu : PpduFormat :=
    match bb.toNat with
    | 0 => .dsss
    | 1 => .nonHt
    | 2 => .ht
    | 3 => .vht
    | 4 => .heSu
    | 5 => .heMu
    | 6 => .heErSu
    | 7 => .heTb
    | 11 => .vhtMu
    | _ => .unknown
  -- the C6 has no buffer table, and reports three fields that the C5 does not
  let c6 := chip = .esp32C6
  let layout : LayoutId :=
    if c6 then .unknown
    else .classifyC5 bb (secondaryRaw info.secondaryChannel) info.buf.length
  let (bandwidth, stbc) := heBandwidthStbc layout ppdu info.secondaryChannel
  let rxmatch : UInt8 :=
    (info.rxMatch1.toUInt8 <<< 1) ||| (info.rxMatch2.toUInt8 <<< 2) |||
      (info.rxMatch3.toUInt8 <<< 3) ||| (if c6 then info.rxMatch0.toUInt8 else 0)
  ({ timestampUs
     rssi := info.rssi
     noiseFloor := info.noiseFloor
     channel := info.channel
     secondary := info.secondaryChannel
     bandwidth
     ppdu
     mcs := none
     stbc
     sgi := none
     nRx := 1
     nSs := none
     antenna := none
     sigLen := info.signalLength
     rxState := info.rxState
     notSounding := none
     aggregation := none
     frameSeq := some info.rxSequence
     vendor := .espHe info.rate bb info.rxChannelEstimateInfoValid info.rxChannelEstimateLength
       info.dumpLength info.isGroup info.rxEndState rxmatch info.heSiga1 info.heSiga2
       (if c6 then info.heSigbLength else 0) (c6 && info.curSingleMpdu) },
   layout)

def rxMeta (chip : Chip) (info : WifiCsiInfo) (timestampUs : UInt64) : RxMeta × LayoutId :=
  if isHe chip then rxMetaHe chip info timestampUs else rxMetaClassic info timestampUs

def instanceIn (s : Session) (info : WifiCsiInfo) : Option UInt32 :=
  if s.stimulusControlled then EspNow.controlSequenceIn info.payload else none

/-- Build a frame from a CSI callback argument, unless its buffer exceeds the payload's capacity.
The receive clock is widened on the way. -/
def frameFromEsp (board : Board) (s : Session) (info : WifiCsiInfo) : Option (CsiFrame × Session) :=
  if h : info.buf.length ≤ MAX_CSI_BYTES then
    let widened := s.widenTimestamp info.timestampUs.toUInt32
    let (rxMeta, layout) := rxMeta board.chip info widened.1
    let header := if s.headerDigest then HeaderDigest.parse info.header else none
    some
      ({ rxMeta
         stimulus := s.stimulus info.mac (instanceIn s info)
         header
         payload := .espRaw board.chip layout info.firstWordInvalid ⟨info.buf, h⟩ },
       widened.2)
  else none

namespace CsiPacket

def fromWifiCsiInfo (board : Board) (s : Session) (info : WifiCsiInfo) (now : UInt64) :
    Option (CsiPacket × Session) :=
  (frameFromEsp board s info).map fun built => new board built.2 built.1 .espVendor now

end CsiPacket

end EspCsi.Csi
