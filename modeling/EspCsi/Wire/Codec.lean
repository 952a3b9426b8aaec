import EspCsi.Lib.Postcard
import EspCsi.Wire.Setup

/-!
# The postcard encoding of the wire types

One codec for each type of the contract, its fields in declaration order and its variants in the
order of their declaration.
-/

namespace EspCsi.Wire

open Postcard

/-! ## Enumerations -/

def sourceKindCodec : Codec SourceKind :=
  .enumeration [.espVendor, .ieee80211bf, .synthetic] (by intro a; cases a <;> simp) (by decide)

def chipCodec : Codec Chip :=
  .enumeration [.esp32, .esp32S2, .esp32S3, .esp32C3, .esp32C5, .esp32C6]
    (by intro a; cases a <;> simp) (by decide)

def secondaryCodec : Codec Secondary :=
  .enumeration [.none, .above, .below] (by intro a; cases a <;> simp) (by decide)

def bandwidthCodec : Codec Bandwidth :=
  .enumeration [.mhz20, .mhz40, .mhz80, .mhz160, .mhz320] (by intro a; cases a <;> simp) (by decide)

def ppduFormatCodec : Codec PpduFormat :=
  .enumeration
    [.unknown, .dsss, .nonHt, .ht, .vht, .vhtMu, .heSu, .heMu, .heErSu, .heTb, .eht]
    (by intro a; cases a <;> simp) (by decide)

def layoutIdCodec : Codec LayoutId :=
  .enumeration
    [.unknown, .classicNoneNonHt, .classicNoneHt20, .classicNoneHt20Stbc, .classicBelowNonHt,
      .classicBelowHt20, .classicBelowHt20Stbc, .classicBelowHt40, .classicBelowHt40Stbc,
      .classicAboveNonHt, .classicAboveHt20, .classicAboveHt20Stbc, .classicAboveHt40,
      .classicAboveHt40Stbc, .c5LltfNone, .c5LltfBelow, .c5LltfAbove, .c5Ht20None,
      .c5Ht20NoneStbc, .c5Ht20Below, .c5Ht20BelowStbc, .c5Ht20Above, .c5Ht20AboveStbc, .c5Ht40,
      .c5Ht40Stbc, .c5He20Su]
    (by intro a; cases a <;> simp) (by decide)

/-! ## Structures -/

def macCodec : Codec Mac :=
  (Codec.u8.pair <| .pair .u8 <| .pair .u8 <| .pair .u8 <| .pair .u8 .u8).imap
    (fun m => (m.b0, m.b1, m.b2, m.b3, m.b4, m.b5))
    (fun (b0, b1, b2, b3, b4, b5) => ⟨b0, b1, b2, b3, b4, b5⟩) fun _ => rfl

def envelopeCodec : Codec Envelope :=
  (Codec.u8.pair <| macCodec.pair <| .pair .u32 <| sourceKindCodec.pair .u32).imap
    (fun e => (e.version, e.nodeId, e.sessionId, e.source, e.streamSeq))
    (fun (version, nodeId, sessionId, source, streamSeq) =>
      ⟨version, nodeId, sessionId, source, streamSeq⟩) fun _ => rfl

def sessionInfoCodec : Codec SessionInfo :=
  (chipCodec.pair <| Codec.pair (.pair .u8 <| .pair .u8 .u8) <| .pair .u64 (.option .u64)).imap
    (fun i => (i.chip, i.crateVersion, i.timestampUs, i.epochUnixUs))
    (fun (chip, crateVersion, timestampUs, epochUnixUs) =>
      ⟨chip, crateVersion, timestampUs, epochUnixUs⟩) fun _ => rfl

def headerDigestCodec : Codec HeaderDigest :=
  (Codec.u16.pair <| macCodec.pair <| macCodec.pair <| macCodec.pair .u16).imap
    (fun h => (h.frameControl, h.addr1, h.addr2, h.addr3, h.seqCtrl))
    (fun (frameControl, addr1, addr2, addr3, seqCtrl) =>
      ⟨frameControl, addr1, addr2, addr3, seqCtrl⟩) fun _ => rfl

/-! ## Variants with fields -/

inductive StimulusTag where
  | controlled
  | ambient
  | observed
deriving DecidableEq

def StimulusTag.Fields : StimulusTag → Type
  | controlled => UInt8 × UInt16 × Mac
  | ambient => Mac
  | observed => Mac × UInt8

def stimulusCodec : Codec Stimulus :=
  (Codec.tagged (β := StimulusTag.Fields) [.controlled, .ambient, .observed]
    (by intro i; cases i <;> simp) (by decide)
    (fun
      | .controlled => .pair .u8 (.pair .u16 macCodec)
      | .ambient => macCodec
      | .observed => macCodec.pair .u8)).imap
    (fun
      | .controlled setupId instanceId ta => ⟨.controlled, (setupId, instanceId, ta)⟩
      | .ambient ta => ⟨.ambient, ta⟩
      | .observed ta dialogToken => ⟨.observed, (ta, dialogToken)⟩)
    (fun
      | ⟨.controlled, (setupId, instanceId, ta)⟩ => .controlled setupId instanceId ta
      | ⟨.ambient, ta⟩ => .ambient ta
      | ⟨.observed, (ta, dialogToken)⟩ => .observed ta dialogToken)
    (by intro a; cases a <;> rfl)

inductive VendorTag where
  | none
  | espClassic
  | espHe
deriving DecidableEq

def VendorTag.Fields : VendorTag → Type
  | none => Unit
  | espClassic => UInt8 × UInt8 × Bool × Bool × UInt8
  | espHe => UInt8 × UInt8 × Bool × UInt16 × UInt16 × Bool × UInt8 × UInt8 × UInt32 × UInt16 ×
      UInt8 × Bool

def vendorRxCodec : Codec VendorRx :=
  (Codec.tagged (β := VendorTag.Fields) [.none, .espClassic, .espHe]
    (by intro i; cases i <;> simp) (by decide)
    (fun
      | .none => .unit
      | .espClassic => .pair .u8 <| .pair .u8 <| .pair .bool <| .pair .bool .u8
      | .espHe => .pair .u8 <| .pair .u8 <| .pair .bool <| .pair .u16 <| .pair .u16 <|
          .pair .bool <| .pair .u8 <| .pair .u8 <| .pair .u32 <| .pair .u16 <| .pair .u8 .bool)).imap
    (fun
      | .none => ⟨.none, ()⟩
      | .espClassic rate sigMode smoothing fecLdpc ampduCnt =>
        ⟨.espClassic, (rate, sigMode, smoothing, fecLdpc, ampduCnt)⟩
      | .espHe rate curBbFormat estimateValid estimateLen dumpLen isGroup rxendState rxmatch
          heSiga1 heSiga2 sigbLen singleMpdu =>
        ⟨.espHe, (rate, curBbFormat, estimateValid, estimateLen, dumpLen, isGroup, rxendState,
          rxmatch, heSiga1, heSiga2, sigbLen, singleMpdu)⟩)
    (fun
      | ⟨.none, _⟩ => .none
      | ⟨.espClassic, (rate, sigMode, smoothing, fecLdpc, ampduCnt)⟩ =>
        .espClassic rate sigMode smoothing fecLdpc ampduCnt
      | ⟨.espHe, (rate, curBbFormat, estimateValid, estimateLen, dumpLen, isGroup, rxendState,
          rxmatch, heSiga1, heSiga2, sigbLen, singleMpdu)⟩ =>
        .espHe rate curBbFormat estimateValid estimateLen dumpLen isGroup rxendState rxmatch
          heSiga1 heSiga2 sigbLen singleMpdu)
    (by intro a; cases a <;> rfl)

inductive PayloadTag where
  | espRaw
  | grouped
  | variation
deriving DecidableEq

def PayloadTag.Fields : PayloadTag → Type
  | espRaw => Chip × LayoutId × Bool × HVec Int8 MAX_CSI_BYTES
  | grouped => UInt8 × UInt8 × Int16 × UInt16 × UInt8 × UInt8 × HVec UInt8 MAX_CSI_BYTES
  | variation => UInt16

def csiPayloadCodec : Codec CsiPayload :=
  (Codec.tagged (β := PayloadTag.Fields) [.espRaw, .grouped, .variation]
    (by intro i; cases i <;> simp) (by decide)
    (fun
      | .espRaw => chipCodec.pair <| layoutIdCodec.pair <| .pair .bool <|
          .vec .i8 MAX_CSI_BYTES (by decide)
      | .grouped => .pair .u8 <| .pair .u8 <| .pair .i16 <| .pair .u16 <| .pair .u8 <| .pair .u8 <|
          .vec .u8 MAX_CSI_BYTES (by decide)
      | .variation => .u16)).imap
    (fun
      | .espRaw chip layout firstWordInvalid bytes =>
        ⟨.espRaw, (chip, layout, firstWordInvalid, bytes)⟩
      | .grouped ng nb scStart nSc nRx nTx data =>
        ⟨.grouped, (ng, nb, scStart, nSc, nRx, nTx, data)⟩
      | .variation value => ⟨.variation, value⟩)
    (fun
      | ⟨.espRaw, (chip, layout, firstWordInvalid, bytes)⟩ =>
        .espRaw chip layout firstWordInvalid bytes
      | ⟨.grouped, (ng, nb, scStart, nSc, nRx, nTx, data)⟩ =>
        .grouped ng nb scStart nSc nRx nTx data
      | ⟨.variation, value⟩ => .variation value)
    (by intro a; cases a <;> rfl)

/-! ## Measurements -/

def rxMetaCodec : Codec RxMeta :=
  (Codec.u64.pair <| .pair .i8 <| .pair .i8 <| .pair .u8 <| secondaryCodec.pair <|
    .pair (.option bandwidthCodec) <| ppduFormatCodec.pair <| .pair (.option .u8) <|
    .pair (.option .bool) <| .pair (.option .bool) <| .pair .u8 <| .pair (.option .u8) <|
    .pair (.option .u8) <| .pair .u16 <| .pair .u8 <| .pair (.option .bool) <|
    .pair (.option .bool) <| .pair (.option .u16) vendorRxCodec).imap
    (fun m => (m.timestampUs, m.rssi, m.noiseFloor, m.channel, m.secondary, m.bandwidth, m.ppdu,
      m.mcs, m.stbc, m.sgi, m.nRx, m.nSs, m.antenna, m.sigLen, m.rxState, m.notSounding,
      m.aggregation, m.frameSeq, m.vendor))
    (fun (timestampUs, rssi, noiseFloor, channel, secondary, bandwidth, ppdu, mcs, stbc, sgi, nRx,
        nSs, antenna, sigLen, rxState, notSounding, aggregation, frameSeq, vendor) =>
      ⟨timestampUs, rssi, noiseFloor, channel, secondary, bandwidth, ppdu, mcs, stbc, sgi, nRx,
        nSs, antenna, sigLen, rxState, notSounding, aggregation, frameSeq, vendor⟩) fun _ => rfl

def csiFrameCodec : Codec CsiFrame :=
  (rxMetaCodec.pair <| stimulusCodec.pair <| .pair (.option headerDigestCodec) csiPayloadCodec).imap
    (fun f => (f.rxMeta, f.stimulus, f.header, f.payload))
    (fun (rxMeta, stimulus, header, payload) => ⟨rxMeta, stimulus, header, payload⟩) fun _ => rfl

inductive BodyTag where
  | csi
  | session
deriving DecidableEq

def BodyTag.Fields : BodyTag → Type
  | csi => CsiFrame
  | session => SessionInfo

def bodyCodec : Codec Body :=
  (Codec.tagged (β := BodyTag.Fields) [.csi, .session] (by intro i; cases i <;> simp) (by decide)
    (fun
      | .csi => csiFrameCodec
      | .session => sessionInfoCodec)).imap
    (fun
      | .csi frame => ⟨.csi, frame⟩
      | .session info => ⟨.session, info⟩)
    (fun
      | ⟨.csi, frame⟩ => .csi frame
      | ⟨.session, info⟩ => .session info)
    (by intro a; cases a <;> rfl)

/-! ## Measurement setups -/

def ppduSetCodec : Codec PpduSet := Codec.u16.imap PpduSet.bits PpduSet.mk fun _ => rfl

def acquisitionFilterCodec : Codec AcquisitionFilter :=
  (Codec.pair (.option .u8) <| .pair (.option bandwidthCodec) <| ppduSetCodec.pair <|
    .option macCodec).imap
    (fun f => (f.channel, f.bandwidth, f.ppduFormats, f.transmitter))
    (fun (channel, bandwidth, ppduFormats, transmitter) =>
      ⟨channel, bandwidth, ppduFormats, transmitter⟩) fun _ => rfl

def reportTypeCodec : Codec ReportType :=
  .enumeration [.raw, .grouped] (by intro a; cases a <;> simp) (by decide)

def stimulusParamsCodec : Codec StimulusParams :=
  (Codec.u32.pair <| bandwidthCodec.pair <| reportTypeCodec.pair <| .pair .u8 <| .pair .u8 <|
    .pair .bool <| .vec macCodec MAX_RESPONDERS (by decide)).imap
    (fun s => (s.periodicityUs, s.bandwidth, s.report, s.ng, s.nb, s.triggerBased, s.responders))
    (fun (periodicityUs, bandwidth, report, ng, nb, triggerBased, responders) =>
      ⟨periodicityUs, bandwidth, report, ng, nb, triggerBased, responders⟩) fun _ => rfl

def measurementSetupCodec : Codec MeasurementSetup :=
  (Codec.u8.pair <| acquisitionFilterCodec.pair <| .option stimulusParamsCodec).imap
    (fun s => (s.id, s.acquisition, s.stimulus))
    (fun (id, acquisition, stimulus) => ⟨id, acquisition, stimulus⟩) fun _ => rfl

theorem envelopeCodec_read_head {v : UInt8} {bytes rest : List UInt8} {e : Envelope}
    (h : envelopeCodec.read (v :: bytes) = .ok (e, rest)) : e.version = v := by
  obtain ⟨fields, hfields, rfl⟩ := Codec.imap_read_eq_ok h
  obtain ⟨mid, hversion, -⟩ := Codec.pair_read_eq_ok hfields
  cases hversion
  rfl

example : envelopeCodec.maxSize = 18 := by decide

example : bodyCodec.maxSize = 725 := by decide

end EspCsi.Wire
