import EspCsi.Csi.Events
import EspCsi.EspNow.Pool

/-!
# The ESP-NOW initiator

The driver loop of `initiator/esp_now.rs`: a receive pass over queued replies, then a control frame
to the target the pass left. When a frame is due and how the send ends are left to the environment.
-/

namespace EspCsi.EspNow

open Wire

def BROADCAST_ADDRESS : Mac := .broadcast

def RX_TRACKED_PEERS_CAPACITY : ℕ := 16

def RX_BURST_MAX_WITH_TX : ℕ := 1

def CONTROL_PACKET_BUF_LEN : ℕ := 16

/-- What the drivers read of an ESP-NOW configuration. -/
structure EspNowConfig where
  peerMac : Option Mac
  secondaryChannel : Option Secondary
  forcePhy : Bool
deriving DecidableEq, Repr

def EspNowConfig.default : EspNowConfig := ⟨none, none, false⟩

/-! ## Known peers -/

/-- The keys of the peer map, in the order they were learned. -/
structure KnownPeers where
  keys : List Mac
  nodup : keys.Nodup
  bounded : keys.length ≤ RX_TRACKED_PEERS_CAPACITY
deriving DecidableEq

namespace KnownPeers

def empty : KnownPeers := ⟨[], .nil, Nat.zero_le _⟩

def only (mac : Mac) : KnownPeers :=
  ⟨[mac], List.nodup_singleton mac, Nat.le_add_left 1 15⟩

def learn (k : KnownPeers) (mac : Mac) : KnownPeers :=
  if hmem : mac ∈ k.keys then k
  else if hroom : k.keys.length < RX_TRACKED_PEERS_CAPACITY then
    { keys := k.keys ++ [mac]
      nodup := List.nodup_append.mpr ⟨k.nodup, List.nodup_singleton mac, by
        intro a ha b hb
        obtain rfl := List.mem_singleton.mp hb
        exact fun heq => hmem (heq ▸ ha)⟩
      bounded := by
        rw [List.length_append, List.length_singleton]
        omega }
  -- the map is cleared, and what it knows starts over
  else only mac

end KnownPeers

/-- Whether a received frame is a reply to take: from the configured responder in manual pairing,
behind the responder's magic in auto pairing. -/
def acceptsReply (peerMac : Option Mac) (r : PoolFrame) : Bool :=
  match peerMac with
  | some expected => r.srcAddress = expected
  | none => (parseWithMagic responderPacketCodec r.data RESPONDER_MAGIC_NUMBER true).isSome

def handleResponderPacket (peerMac : Option Mac) (knownPeers : KnownPeers) (r : PoolFrame) :
    KnownPeers :=
  if acceptsReply peerMac r then knownPeers.learn r.srcAddress else knownPeers

/-- The address the initiator's control traffic is sent to. -/
def downlinkTarget (peerMac : Option Mac) (knownPeers : KnownPeers) : Mac :=
  match peerMac with
  | some mac => mac
  | none =>
    match knownPeers.keys with
    | [only] => only
    | _ => BROADCAST_ADDRESS

def rxBurstDrainLimit (txActive : Bool) : ℕ := if txActive then RX_BURST_MAX_WITH_TX else 65535

/-- The part of the loop's state that a receive pass changes. `accepted` lists the sources of all
replies taken so far; nothing of the crate reads it. -/
structure Downlink where
  knownPeers : KnownPeers
  txTarget : Mac
  accepted : List Mac
deriving DecidableEq

namespace Downlink

def start (peerMac : Option Mac) : Downlink := ⟨.empty, peerMac.getD BROADCAST_ADDRESS, []⟩

def receivePass (peerMac : Option Mac) (d : Downlink) (rs : List PoolFrame) : Downlink :=
  let knownPeers := rs.foldl (handleResponderPacket peerMac) d.knownPeers
  { knownPeers
    txTarget := downlinkTarget peerMac knownPeers
    accepted := d.accepted ++ (rs.filter (acceptsReply peerMac)).map PoolFrame.srcAddress }

end Downlink

/-! ## The driver -/

/-- Where the loop stands: it may go round, it has just done its receive pass, or it awaits the end
of a send. -/
inductive Phase where
  | waiting
  | ready
  | sending
deriving DecidableEq, Repr

/-- The initiator's state, transmit and receive tasks enabled. `nth` and `sounding` number the next
control frame and the last one whose sending began, without wrapping; nothing of the crate reads
them. -/
structure Initiator where
  peerMac : Option Mac
  reports : Bool
  node : Csi.Node
  pool : Pool
  controlSequence : UInt32
  downlink : Downlink
  phase : Phase
  nth : ℕ
  sounding : ℕ

namespace Initiator

/-- The state the loop starts in. It announces the reporting in force at that time. -/
def start (config : EspNowConfig) (node : Csi.Node) : Initiator where
  peerMac := config.peerMac
  reports := node.gates.reports
  node
  pool := .empty false
  controlSequence := 0
  downlink := .start config.peerMac
  phase := .waiting
  nth := 0
  sounding := 0

def receivePass (s : Initiator) : Initiator :=
  let drained := s.pool.drain (rxBurstDrainLimit true)
  { s with
    pool := drained.2
    downlink := s.downlink.receivePass s.peerMac drained.1
    phase := .ready }

def controlFrame (s : Initiator) : Option (Mac × List UInt8) :=
  (serializeWithMagic controlPacketCodec ⟨s.reports, s.controlSequence⟩ INITIATOR_MAGIC_NUMBER
    s.peerMac.isNone CONTROL_PACKET_BUF_LEN).toOption.map fun data => (s.downlink.txTarget, data)

theorem controlFrame_eq (s : Initiator) :
    s.controlFrame = some (s.downlink.txTarget,
      tagged controlPacketCodec ⟨s.reports, s.controlSequence⟩ INITIATOR_MAGIC_NUMBER
        s.peerMac.isNone) := by
  have hfits : 4 + controlPacketCodec.maxSize ≤ CONTROL_PACKET_BUF_LEN := by decide
  rw [controlFrame, serializeWithMagic_fits _ _ _ _ hfits]
  rfl

/-- Sending begins: replies from now on are measured under the number of this frame. -/
def beginSend (s : Initiator) : Initiator :=
  { s with
    node := { s.node with session := s.node.session.setSoundingInstance s.controlSequence }
    phase := .sending
    sounding := s.nth }

def endSend (s : Initiator) (ok : Bool) : Initiator :=
  if ok then
    { s with controlSequence := s.controlSequence + 1, phase := .waiting, nth := s.nth + 1 }
  else { s with phase := .waiting }

end Initiator

end EspCsi.EspNow
