import EspCsi.Wire.Layout

/-!
# The wire contract

What a node emits, independent of the radio that measured it: the types of `wire/mod.rs`.
-/

namespace EspCsi.Wire

def WIRE_VERSION : UInt8 := 1

/-- Largest raw CSI buffer any supported chip produces, in bytes. -/
def MAX_CSI_BYTES : ℕ := 612

/-- A MAC address, most significant byte first. -/
structure Mac where
  b0 : UInt8
  b1 : UInt8
  b2 : UInt8
  b3 : UInt8
  b4 : UInt8
  b5 : UInt8
deriving DecidableEq, Repr, Inhabited

namespace Mac

def zero : Mac := ⟨0, 0, 0, 0, 0, 0⟩

def broadcast : Mac := ⟨0xff, 0xff, 0xff, 0xff, 0xff, 0xff⟩

def bytes (m : Mac) : List UInt8 := [m.b0, m.b1, m.b2, m.b3, m.b4, m.b5]

end Mac

/-- A vector of capacity `n`. -/
abbrev HVec (α : Type) (n : ℕ) := {as : List α // as.length ≤ n}

inductive SourceKind where
  | espVendor
  | ieee80211bf
  | synthetic
deriving DecidableEq, Repr, Inhabited

/-- Who emitted a frame, when, and from which measurement source. -/
structure Envelope where
  version : UInt8
  nodeId : Mac
  sessionId : UInt32
  source : SourceKind
  streamSeq : UInt32
deriving DecidableEq, Repr, Inhabited

def Envelope.new (nodeId : Mac) (sessionId : UInt32) (source : SourceKind) (streamSeq : UInt32) :
    Envelope :=
  { version := WIRE_VERSION, nodeId, sessionId, source, streamSeq }

/-- Chips that can produce a raw payload. -/
inductive Chip where
  | esp32
  | esp32S2
  | esp32S3
  | esp32C3
  | esp32C5
  | esp32C6
deriving DecidableEq, Repr, Inhabited

/-- Session announcement: what a host needs to interpret the frames that follow it. -/
structure SessionInfo where
  chip : Chip
  crateVersion : UInt8 × UInt8 × UInt8
  timestampUs : UInt64
  epochUnixUs : Option UInt64
deriving DecidableEq, Repr

inductive Secondary where
  | none
  | above
  | below
deriving DecidableEq, Repr, Inhabited

inductive Bandwidth where
  | mhz20
  | mhz40
  | mhz80
  | mhz160
  | mhz320
deriving DecidableEq, Repr

inductive PpduFormat where
  | unknown
  | dsss
  | nonHt
  | ht
  | vht
  | vhtMu
  | heSu
  | heMu
  | heErSu
  | heTb
  | eht
deriving DecidableEq, Repr, Inhabited

/-- What excited the channel that was measured. -/
inductive Stimulus where
  | controlled (setupId : UInt8) (instanceId : UInt16) (ta : Mac)
  | ambient (ta : Mac)
  | observed (ta : Mac) (dialogToken : UInt8)
deriving DecidableEq, Repr

/-- The transmitter a stimulus names, whatever its kind. -/
def Stimulus.ta : Stimulus → Mac
  | controlled _ _ ta => ta
  | ambient ta => ta
  | observed ta _ => ta

/-- Chip-family-specific receive fields. -/
inductive VendorRx where
  | none
  | espClassic (rate sigMode : UInt8) (smoothing fecLdpc : Bool) (ampduCnt : UInt8)
  | espHe (rate curBbFormat : UInt8) (estimateValid : Bool) (estimateLen dumpLen : UInt16)
      (isGroup : Bool) (rxendState rxmatch : UInt8) (heSiga1 : UInt32) (heSiga2 : UInt16)
      (sigbLen : UInt8) (singleMpdu : Bool)
deriving DecidableEq, Repr

/-- Normalised receive metadata. -/
structure RxMeta where
  timestampUs : UInt64
  rssi : Int8
  noiseFloor : Int8
  channel : UInt8
  secondary : Secondary
  bandwidth : Option Bandwidth
  ppdu : PpduFormat
  mcs : Option UInt8
  stbc : Option Bool
  sgi : Option Bool
  nRx : UInt8
  nSs : Option UInt8
  antenna : Option UInt8
  sigLen : UInt16
  rxState : UInt8
  notSounding : Option Bool
  aggregation : Option Bool
  frameSeq : Option UInt16
  vendor : VendorRx
deriving DecidableEq, Repr

/-- The fixed part of the measured MPDU's MAC header. -/
structure HeaderDigest where
  frameControl : UInt16
  addr1 : Mac
  addr2 : Mac
  addr3 : Mac
  seqCtrl : UInt16
deriving DecidableEq, Repr

namespace HeaderDigest

def HEADER_LEN : ℕ := 24

/-- Frame type (bits 2..4 of frame control): 0 management, 1 control, 2 data. -/
def frameType (h : HeaderDigest) : UInt8 := ((h.frameControl >>> 2) &&& 0b11).toUInt8

/-- Frame subtype (bits 4..8 of frame control). -/
def subtype (h : HeaderDigest) : UInt8 := ((h.frameControl >>> 4) &&& 0b1111).toUInt8

/-- Whether the Retry bit is set: the MPDU is a retransmission. -/
def isRetry (h : HeaderDigest) : Bool := (h.frameControl &&& ((1 : UInt16) <<< (11 : UInt16))) != 0

/-- Whether the frame carries a transmitter address. ACK and CTS carry only a receiver. -/
def hasTransmitter (h : HeaderDigest) : Bool :=
  !(h.frameType == 1 && (h.subtype == 12 || h.subtype == 13))

def u16OfLeBytes (lo hi : UInt8) : UInt16 := lo.toUInt16 ||| (hi.toUInt16 <<< 8)

def macAt (hdr : List UInt8) (i : ℕ) : Mac where
  b0 := hdr.getD i 0
  b1 := hdr.getD (i + 1) 0
  b2 := hdr.getD (i + 2) 0
  b3 := hdr.getD (i + 3) 0
  b4 := hdr.getD (i + 4) 0
  b5 := hdr.getD (i + 5) 0

/-- Parse the first 24 bytes of an 802.11 MAC header. -/
def parse (hdr : List UInt8) : Option HeaderDigest :=
  if hdr.length < HEADER_LEN then none
  else
    let digest : HeaderDigest :=
      { frameControl := u16OfLeBytes (hdr.getD 0 0) (hdr.getD 1 0)
        addr1 := macAt hdr 4
        addr2 := macAt hdr 10
        addr3 := macAt hdr 16
        seqCtrl := u16OfLeBytes (hdr.getD 22 0) (hdr.getD 23 0) }
    if digest.hasTransmitter then some digest else none

end HeaderDigest

inductive CsiPayload where
  | espRaw (chip : Chip) (layout : LayoutId) (firstWordInvalid : Bool)
      (bytes : HVec Int8 MAX_CSI_BYTES)
  | grouped (ng nb : UInt8) (scStart : Int16) (nSc : UInt16) (nRx nTx : UInt8)
      (data : HVec UInt8 MAX_CSI_BYTES)
  | variation (value : UInt16)
deriving DecidableEq, Repr

structure CsiFrame where
  rxMeta : RxMeta
  stimulus : Stimulus
  header : Option HeaderDigest
  payload : CsiPayload
deriving DecidableEq, Repr

/-- The transmitter of the measured PPDU: the header's `addr2` when present, else the stimulus'
transmitter address. -/
def CsiFrame.transmitter (f : CsiFrame) : Option Mac :=
  match f.header with
  | some h => some h.addr2
  | none => some f.stimulus.ta

inductive Body where
  | csi (frame : CsiFrame)
  | session (info : SessionInfo)
deriving DecidableEq, Repr

end EspCsi.Wire
