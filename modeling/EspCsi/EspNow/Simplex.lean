import EspCsi.EspNow.Initiator

/-!
# The ESP-NOW simplex exchange

The two ends of the asymmetric exchange, `initiator/esp_now_simplex.rs` and
`responder/esp_now_simplex.rs`: a peer beacons until it is found, a source locks onto it and floods.
-/

namespace EspCsi.EspNow

open Wire

def FLOOD_BUF_LEN : ℕ := 16

def HELLO_BUF_LEN : ℕ := 8

def BEACON_BUF_LEN : ℕ := 16

def RX_BURST_MAX_RX_ONLY : ℕ := 64

def isControl (r : PoolFrame) : Bool :=
  (parseWithMagic controlPacketCodec r.data INITIATOR_MAGIC_NUMBER true).isSome

def isReply (r : PoolFrame) : Bool :=
  (parseWithMagic responderPacketCodec r.data RESPONDER_MAGIC_NUMBER true).isSome

/-! ## The source -/

/-- The source's state: the peer it has locked onto, whether its hello is out, and the number of its
next flood frame. -/
structure SimplexSource where
  peerMac : Option Mac
  pool : Pool
  peerAddr : Option Mac
  greeted : Bool
  seq : UInt32

namespace SimplexSource

/-- A source with a configured peer neither looks for it nor greets it. -/
def start (config : EspNowConfig) : SimplexSource where
  peerMac := config.peerMac
  pool := .empty false
  peerAddr := config.peerMac
  greeted := config.peerMac.isSome
  seq := 0

/-- Take the next frame while looking for a peer, and lock onto the sender of a control packet. -/
def discover (s : SimplexSource) : SimplexSource :=
  match s.peerAddr, s.pool.queue with
  | none, r :: _ =>
    { s with
      pool := (s.pool.drain 1).2
      peerAddr := if isControl r then some r.srcAddress else none }
  | _, _ => s

/-- The hello to the peer just found. Whether it arrives is not looked at. -/
def hello (s : SimplexSource) : Option (Mac × List UInt8) :=
  match s.peerAddr, s.greeted with
  | some peer, false =>
    (serializeWithMagic responderPacketCodec ⟨⟩ RESPONDER_MAGIC_NUMBER true
      HELLO_BUF_LEN).toOption.map fun data => (peer, data)
  | _, _ => none

def greet (s : SimplexSource) : SimplexSource := { s with greeted := s.peerAddr.isSome }

def floodFrame (s : SimplexSource) : Option (Mac × List UInt8) :=
  match s.peerAddr, s.greeted with
  | some peer, true =>
    (serializeWithMagic controlPacketCodec ⟨false, s.seq⟩ INITIATOR_MAGIC_NUMBER s.peerMac.isNone
      FLOOD_BUF_LEN).toOption.map fun data => (peer, data)
  | _, _ => none

/-- The send has ended. A failed one leaves its number to the next frame. -/
def endFlood (s : SimplexSource) (ok : Bool) : SimplexSource :=
  if ok then { s with seq := s.seq + 1 } else s

end SimplexSource

/-! ## The peer -/

/-- The peer's state: the source it has detected, and the number of its next beacon. -/
structure SimplexPeer where
  peerMac : Option Mac
  txEnabled : Bool
  pool : Pool
  detectedSrc : Option Mac
  beaconSeq : UInt32

namespace SimplexPeer

def start (config : EspNowConfig) (txEnabled : Bool) : SimplexPeer where
  peerMac := config.peerMac
  txEnabled
  pool := .empty false
  detectedSrc := config.peerMac
  beaconSeq := 0

/-- The discovery beacon, while no source is detected. -/
def beacon (s : SimplexPeer) : Option (List UInt8) :=
  if s.txEnabled ∧ s.detectedSrc = none then
    (serializeWithMagic controlPacketCodec ⟨true, s.beaconSeq⟩ INITIATOR_MAGIC_NUMBER
      s.peerMac.isNone BEACON_BUF_LEN).toOption
  else none

def endBeacon (s : SimplexPeer) : SimplexPeer := { s with beaconSeq := s.beaconSeq + 1 }

/-- Whether a frame is the source's, as far as a beaconing peer can tell. -/
def isSource (s : SimplexPeer) (r : PoolFrame) : Bool :=
  match s.peerMac with
  | some expected => r.srcAddress == expected
  | none => isReply r

/-- Take the next frame: a beaconing peer looks for the source in it, a receive-only one drains the
pool. -/
def listen (s : SimplexPeer) : SimplexPeer :=
  match s.detectedSrc, s.pool.queue with
  | none, r :: _ =>
    { s with
      pool := (s.pool.drain 1).2
      detectedSrc := if s.isSource r then some r.srcAddress else none }
  | some _, _ => { s with pool := (s.pool.drain (1 + RX_BURST_MAX_RX_ONLY)).2 }
  | none, [] => s

end SimplexPeer

end EspCsi.EspNow
