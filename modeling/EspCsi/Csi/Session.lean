import Mathlib.Data.Nat.Notation
import Mathlib.Tactic.SplitIfs
import EspCsi.Wire.Types

/-!
# Session context

What `csi/session.rs` stamps onto every delivered frame: the node's identity, the session it
belongs to, a widened receive clock, and what excited the channel. With it, the packet that
carries all of this (`csi/mod.rs`).
-/

namespace EspCsi.Csi

open Wire

/-- What a build and its board fix: the chip, the crate version and the base MAC. -/
structure Board where
  chip : Chip
  crateVersion : UInt8 × UInt8 × UInt8
  baseMac : Mac
deriving DecidableEq, Repr

def Board.esp32 : Board := ⟨.esp32, (0, 13, 0), ⟨0x24, 0x6f, 0x28, 0, 0, 1⟩⟩

/-- The process-wide session state. `runNo` counts the runs begun; nothing of the crate reads it. -/
structure Session where
  runNo : ℕ
  sessionId : UInt32
  sessionPinned : Bool
  epochUnixUs : UInt64
  epochAtTicks : UInt64
  epochSet : Bool
  streamSeq : UInt32
  tsLastRaw : UInt32
  tsWraps : UInt32
  anchorPending : Bool
  stimulusControlled : Bool
  setupId : UInt8
  soundingInstance : UInt32
  headerDigest : Bool
deriving DecidableEq, Repr

namespace Session

def boot : Session where
  runNo := 0
  sessionId := 0
  sessionPinned := false
  epochUnixUs := 0
  epochAtTicks := 0
  epochSet := false
  streamSeq := 0
  tsLastRaw := 0
  tsWraps := 0
  anchorPending := false
  stimulusControlled := false
  setupId := 0
  soundingInstance := 0
  headerDigest := false

def setSession (s : Session) (sessionId : UInt32) (epochUnixUs : Option UInt64) (now : UInt64) :
    Session :=
  let s := { s with sessionId, sessionPinned := true }
  match epochUnixUs with
  | some us => { s with epochUnixUs := us, epochAtTicks := now, epochSet := true }
  | none => { s with epochSet := false }

def setHeaderDigestEnabled (s : Session) (enabled : Bool) : Session :=
  { s with headerDigest := enabled }

/-- Prepare the context for a run. `random` is drawn when no session is pinned. -/
def beginRun (s : Session) (controlled headerDigest : Bool) (random : UInt32) : Session :=
  { s with
    runNo := s.runNo + 1
    sessionId := if s.sessionPinned then s.sessionId else random
    streamSeq := 0
    tsLastRaw := 0
    tsWraps := 0
    stimulusControlled := controlled
    setupId := 0
    soundingInstance := 0
    headerDigest
    anchorPending := true }

def setSoundingInstance (s : Session) (instanceNo : UInt32) : Session :=
  { s with soundingInstance := instanceNo }

def setSetupId (s : Session) (id : UInt8) : Session := { s with setupId := id }

/-- The 64-bit time of `raw` after `wraps` wraps of the 32-bit clock. -/
def stamp (wraps raw : UInt32) : UInt64 := (wraps.toUInt64 <<< 32) ||| raw.toUInt64

def HALF : UInt32 := 0xffffffff / 2

/-- Widen the radio's 32-bit microsecond receive timestamp to 64 bits. -/
def widenTimestamp (s : Session) (raw : UInt32) : UInt64 × Session :=
  if raw < s.tsLastRaw then
    if s.tsLastRaw - raw > HALF then
      let wraps := s.tsWraps + 1
      (stamp wraps raw, { s with tsWraps := wraps, tsLastRaw := raw })
    else
      -- a slightly late frame from the current epoch: stamped, `tsLastRaw` kept
      (stamp s.tsWraps raw, s)
  else if raw - s.tsLastRaw > HALF ∧ s.tsWraps > 0 then
    -- a straggler from before the most recent wrap
    (stamp (s.tsWraps - 1) raw, s)
  else (stamp s.tsWraps raw, { s with tsLastRaw := raw })

theorem widenTimestamp_snd (s : Session) (raw : UInt32) :
    ∃ tsLastRaw tsWraps, (s.widenTimestamp raw).2 = { s with tsLastRaw, tsWraps } := by
  unfold widenTimestamp
  split_ifs <;> exact ⟨_, _, rfl⟩

def nextEnvelope (board : Board) (source : SourceKind) (s : Session) : Envelope × Session :=
  (.new board.baseMac s.sessionId source s.streamSeq, { s with streamSeq := s.streamSeq + 1 })

/-- What excited the channel for a frame from transmitter `ta`, numbered by the frame itself when
it carries a sounding number and by the last one recorded otherwise. -/
def stimulus (s : Session) (ta : Mac) (instanceNo : Option UInt32) : Stimulus :=
  if s.stimulusControlled then
    .controlled s.setupId (instanceNo.getD s.soundingInstance).toUInt16 ta
  else .ambient ta

def takeAnnouncement (board : Board) (s : Session) (timestampUs now : UInt64) :
    Option SessionInfo × Session :=
  if s.anchorPending then
    let elapsed := if s.epochAtTicks ≤ now then now - s.epochAtTicks else 0
    let epoch := if s.epochSet then some (s.epochUnixUs + elapsed) else none
    (some ⟨board.chip, board.crateVersion, timestampUs, epoch⟩, { s with anchorPending := false })
  else (none, s)

end Session

/-- One delivered channel measurement. Its envelope is at the current wire version; `runNo`, the run
it was built in, is not part of what is sent. -/
structure CsiPacket where
  envelope : Envelope
  frame : CsiFrame
  session : Option SessionInfo
  runNo : ℕ
  current : envelope.version = WIRE_VERSION
deriving DecidableEq

namespace CsiPacket

/-- Wrap a frame from any source in this node's envelope. -/
def new (board : Board) (s : Session) (frame : CsiFrame) (source : SourceKind) (now : UInt64) :
    CsiPacket × Session :=
  let announced := s.takeAnnouncement board frame.rxMeta.timestampUs now
  let enveloped := announced.2.nextEnvelope board source
  (⟨enveloped.1, frame, announced.1, s.runNo, rfl⟩, enveloped.2)

/-- The first packet built in a run carries the announcement, and no other. -/
theorem new_spec (board : Board) (s : Session) (frame : CsiFrame) (source : SourceKind)
    (now : UInt64) :
    (new board s frame source now).1.runNo = s.runNo ∧
      (new board s frame source now).1.session.isSome = s.anchorPending ∧
      (new board s frame source now).2.runNo = s.runNo ∧
      (new board s frame source now).2.anchorPending = false := by
  cases h : s.anchorPending <;> simp [new, Session.takeAnnouncement, Session.nextEnvelope, h]

def mac (p : CsiPacket) : Mac := p.frame.transmitter.getD .zero

end CsiPacket

end EspCsi.Csi
