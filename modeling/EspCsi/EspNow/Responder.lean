import EspCsi.EspNow.Initiator

/-!
# The ESP-NOW responder

The driver loop of `responder/esp_now.rs`: it takes in control packets, locks onto the first valid
initiator, and owes it a reply for what it has taken in.
-/

namespace EspCsi.EspNow

open Wire

def RESPONDER_PACKET_BUF_LEN : ℕ := 8

def PEER_HEALTHCHECK_PERIOD : UInt16 := 256

/-- Consecutive packets that must agree on a mode before it is applied. -/
def MODE_SWITCH_HYSTERESIS : UInt8 := 3

/-- Shared responder state. The initiator's address is kept packed in a word by the source. -/
structure Shared where
  isConnected : Bool
  reports : Bool
  initiatorMac : Mac
  peerHealthcheckCounter : UInt16
  lastControlSequence : UInt32
  sequenceInitialized : Bool
  pendingFlag : Bool
  lastInitiatorSilent : Bool
  modeStreak : UInt8
deriving DecidableEq, Repr

structure RxDiagnostics where
  parseFail : UInt64
  magicDrop : UInt64
  sourceFilterDrop : UInt64
  peerAddFail : UInt64
  sequenceMiss : UInt64
  controlPackets : UInt64
deriving DecidableEq, Repr

def RxDiagnostics.reset : RxDiagnostics := ⟨0, 0, 0, 0, 0, 0⟩

/-- The responder's state. `answering` is the number of the control packet it took in last, with that
number's place in the initiator's count; nothing of the crate reads it. -/
structure Responder where
  mac : Mac
  chip : Chip
  config : EspNowConfig
  rawListen : Bool
  node : Csi.Node
  pool : Pool
  shared : Shared
  rx : RxDiagnostics
  answering : Option (UInt32 × ℕ)

namespace Responder

def start (mac : Mac) (chip : Chip) (config : EspNowConfig) (rawListen : Bool) (node : Csi.Node) :
    Responder where
  mac
  chip
  config
  rawListen
  node
  pool := .empty rawListen
  shared :=
    { isConnected := config.peerMac.isSome
      reports := node.gates.reports
      initiatorMac := config.peerMac.getD .zero
      peerHealthcheckCounter := 0
      lastControlSequence := 0
      sequenceInitialized := false
      pendingFlag := false
      lastInitiatorSilent := false
      modeStreak := 0 }
  rx := .reset
  answering := none

def unicastReplies (s : Responder) : Bool :=
  s.config.secondaryChannel.isSome || (s.chip == .esp32C5 && s.config.forcePhy)

def replyDestination (s : Responder) : Mac :=
  if s.unicastReplies then s.shared.initiatorMac else BROADCAST_ADDRESS

/-- Count a control packet, and the ones its number shows to be missing. A number that does not move
forward resyncs silently. -/
def countSequence (s : Responder) (packet : ControlPacket) : Responder :=
  let gap := (packet.sequenceNumber.toNat : ℤ) - s.shared.lastControlSequence.toNat
  let missed := if s.shared.sequenceInitialized ∧ gap > 1 then (gap - 1).toNat else 0
  { s with
    rx := { s.rx with
      controlPackets := s.rx.controlPackets + 1
      sequenceMiss := s.rx.sequenceMiss + UInt64.ofNat missed }
    shared := { s.shared with
      sequenceInitialized := true
      lastControlSequence := packet.sequenceNumber } }

/-- Lock onto the first valid initiator, where the radio's peer table takes it, or look after its
entry from time to time; and owe a reply. -/
def connect (s : Responder) (src : Mac) (registers : Bool) : Responder :=
  let failed : RxDiagnostics :=
    if registers then s.rx else { s.rx with peerAddFail := s.rx.peerAddFail + 1 }
  if !s.shared.isConnected then
    { s with
      rx := failed
      shared := { s.shared with
        initiatorMac := if registers then src else s.shared.initiatorMac
        peerHealthcheckCounter := if registers then 0 else s.shared.peerHealthcheckCounter
        -- an address that the radio does not take leaves the reply owed all the same
        isConnected := registers
        pendingFlag := true } }
  else
    let counter := s.shared.peerHealthcheckCounter + 1
    { s with
      rx := if counter &&& (PEER_HEALTHCHECK_PERIOD - 1) = 0 then failed else s.rx
      shared := { s.shared with peerHealthcheckCounter := counter, pendingFlag := true } }

/-- Follow the initiator when it stops reporting: from the third packet in a row that says so, this
node reports to the host. -/
def followReporting (s : Responder) (initiatorReports : Bool) : Responder :=
  let initiatorSilent := !initiatorReports
  if initiatorSilent ≠ s.shared.lastInitiatorSilent then
    { s with shared := { s.shared with lastInitiatorSilent := initiatorSilent, modeStreak := 1 } }
  else
    let streak := if s.shared.modeStreak = 255 then 255 else s.shared.modeStreak + 1
    let s := { s with shared := { s.shared with modeStreak := streak } }
    -- only ever towards reporting: nothing takes it back
    if streak = MODE_SWITCH_HYSTERESIS ∧ initiatorSilent ∧ !s.shared.reports then
      { s with
        node := s.node.setRuntimeReporting .HOST
        shared := { s.shared with reports := true } }
    else s

/-- Parse and ingest one received control packet. `registers` says what the radio's peer table makes
of an address it is asked to take. -/
def ingestControlPacket (s : Responder) (r : PoolFrame) (txEnabled registers : Bool) : Responder :=
  let expectMagic := s.config.peerMac.isNone
  if s.rawListen then s
  else if s.shared.isConnected ∧ s.shared.initiatorMac ≠ r.srcAddress then
    { s with rx := { s.rx with sourceFilterDrop := s.rx.sourceFilterDrop + 1 } }
  else
    match parseWithMagic controlPacketCodec r.data INITIATOR_MAGIC_NUMBER expectMagic with
    | none =>
      { s with
        rx :=
          if expectMagic then { s.rx with magicDrop := s.rx.magicDrop + 1 }
          else { s.rx with parseFail := s.rx.parseFail + 1 } }
    | some packet =>
      -- captures are labelled by this number from here on
      let s := { s with
        node := { s.node with session := s.node.session.setSoundingInstance packet.sequenceNumber }
        answering := some (packet.sequenceNumber, r.nth) }
      let s := s.countSequence packet
      let s := if txEnabled then s.connect r.srcAddress registers else s
      s.followReporting packet.initiatorReports

/-- Take one frame from the pool and ingest it, the transmit task being enabled. -/
def ingestNext (s : Responder) (registers : Bool) : Responder :=
  let drained := s.pool.drain RX_BURST_MAX_WITH_TX
  drained.1.foldl (fun s r => s.ingestControlPacket r true registers) { s with pool := drained.2 }

def replyData (s : Responder) : Option (List UInt8) :=
  if s.config.peerMac.isNone then
    (serializeWithMagic responderPacketCodec ⟨⟩ RESPONDER_MAGIC_NUMBER true
      RESPONDER_PACKET_BUF_LEN).toOption
  else some [RESPONDER_BEACON_SENTINEL]

theorem replyData_eq (s : Responder) :
    s.replyData = some (if s.config.peerMac.isNone then
      tagged responderPacketCodec ⟨⟩ RESPONDER_MAGIC_NUMBER true else [RESPONDER_BEACON_SENTINEL]) := by
  have hfits : 4 + responderPacketCodec.maxSize ≤ RESPONDER_PACKET_BUF_LEN := by decide
  unfold replyData
  rw [serializeWithMagic_fits _ _ _ _ hfits]
  split_ifs <;> rfl

def reply (s : Responder) : Option (Mac × List UInt8) × Responder :=
  if s.shared.isConnected ∧ s.shared.pendingFlag then
    (s.replyData.map fun data => (s.replyDestination, data),
      { s with shared := { s.shared with pendingFlag := false } })
  else (none, s)

/-! ## What taking in a frame can do -/

theorem connect_eq (s : Responder) (src : Mac) (registers : Bool) :
    ∃ rx shared, s.connect src registers = { s with rx, shared } := by
  unfold connect
  split_ifs <;> exact ⟨_, _, rfl⟩

theorem followReporting_eq (s : Responder) (initiatorReports : Bool) :
    ∃ node shared, s.followReporting initiatorReports = { s with node, shared } := by
  unfold followReporting
  by_cases hturn : (!initiatorReports) ≠ s.shared.lastInitiatorSilent
  · exact ⟨s.node, _, if_pos hturn⟩
  · rw [if_neg hturn]
    dsimp only
    split_ifs <;> exact ⟨_, _, rfl⟩

theorem ingestControlPacket_cases (s : Responder) (r : PoolFrame) (txEnabled registers : Bool) :
    (∃ rx, s.ingestControlPacket r txEnabled registers = { s with rx }) ∨
      ∃ packet node shared rx,
        parseWithMagic controlPacketCodec r.data INITIATOR_MAGIC_NUMBER s.config.peerMac.isNone =
          some packet ∧
        s.ingestControlPacket r txEnabled registers =
          { s with node, shared, rx, answering := some (packet.sequenceNumber, r.nth) } := by
  unfold ingestControlPacket
  by_cases hraw : s.rawListen = true
  · exact .inl ⟨s.rx, if_pos hraw⟩
  · rw [if_neg hraw]
    by_cases hother : s.shared.isConnected ∧ s.shared.initiatorMac ≠ r.srcAddress
    -- locked onto another initiator
    · exact .inl ⟨_, if_pos hother⟩
    · rw [if_neg hother]
      cases hparse : parseWithMagic controlPacketCodec r.data INITIATOR_MAGIC_NUMBER
          s.config.peerMac.isNone with
      -- not a control packet of this pairing mode
      | none => exact .inl ⟨_, rfl⟩
      | some packet =>
        refine .inr ⟨packet, ?_⟩
        cases txEnabled with
        | false =>
          obtain ⟨node, shared, hfollow⟩ := followReporting_eq
            (countSequence { s with
              node := { s.node with
                session := s.node.session.setSoundingInstance packet.sequenceNumber }
              answering := some (packet.sequenceNumber, r.nth) } packet) packet.initiatorReports
          exact ⟨node, shared, _, rfl, hfollow⟩
        | true =>
          obtain ⟨rx, shared, hconnect⟩ := connect_eq
            (countSequence { s with
              node := { s.node with
                session := s.node.session.setSoundingInstance packet.sequenceNumber }
              answering := some (packet.sequenceNumber, r.nth) } packet) r.srcAddress registers
          simp only [if_true, hconnect]
          obtain ⟨node, shared, hfollow⟩ := followReporting_eq _ packet.initiatorReports
          exact ⟨node, shared, rx, trivial, hfollow⟩

@[simp] theorem ingestControlPacket_mac (s : Responder) (r : PoolFrame)
    (txEnabled registers : Bool) : (s.ingestControlPacket r txEnabled registers).mac = s.mac := by
  rcases s.ingestControlPacket_cases r txEnabled registers with
    ⟨rx, heq⟩ | ⟨packet, node, shared, rx, -, heq⟩ <;> rw [heq]

theorem ingestNext_cases (s : Responder) (registers : Bool) :
    s.ingestNext registers = { s with pool := (s.pool.drain RX_BURST_MAX_WITH_TX).2 } ∨
      ∃ r ∈ s.pool.queue, s.ingestNext registers =
        { s with pool := (s.pool.drain RX_BURST_MAX_WITH_TX).2 }.ingestControlPacket r true
          registers := by
  cases hqueue : s.pool.queue with
  | nil => exact .inl (by simp [ingestNext, Pool.drain, hqueue])
  | cons r rest => exact .inr ⟨r, by simp, by simp [ingestNext, Pool.drain, hqueue,
      RX_BURST_MAX_WITH_TX]⟩

@[simp] theorem ingestNext_mac (s : Responder) (registers : Bool) :
    (s.ingestNext registers).mac = s.mac := by
  rcases s.ingestNext_cases registers with heq | ⟨r, -, heq⟩
  · rw [heq]
  · rw [heq, ingestControlPacket_mac]

@[simp] theorem reply_mac (s : Responder) : s.reply.2.mac = s.mac := by
  unfold reply
  split_ifs <;> rfl

end Responder

end EspCsi.EspNow
