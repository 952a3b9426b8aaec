import EspCsi.Csi.Session
import EspCsi.Wire.Frame

/-!
# Logging backends

The part of `logging/logging.rs` that every other module rests on: the logger's state, the CSI
channel of the async backend, and the bytes each entry point writes in the serialized mode.
-/

namespace EspCsi.Logging

open Wire Csi

inductive LogMode where
  | text
  | arrayList
  | serialized
  | espCsiTool
deriving DecidableEq, Repr

/-- Which backend `init_logger` selected: a logger task behind bounded channels, or blocking
writes in the caller. -/
inductive Backend where
  | async
  | sync
deriving DecidableEq, Repr

def CSI_LOG_CHANNEL_CAPACITY : ℕ := 32

/-- The logger's state: `csiChannel` is what the logger task has yet to write. -/
structure Logger where
  mode : LogMode
  backend : Backend
  csiChannel : List CsiPacket
  logDroppedPackets : UInt32

namespace Logger

def boot : Logger where
  mode := .text
  backend := .sync
  csiChannel := []
  logDroppedPackets := 0

inductive Outcome where
  | written
  | queued
  | dropped
deriving DecidableEq, Repr

def logCsi (l : Logger) (packet : CsiPacket) : Outcome × Logger :=
  match l.backend with
  | .sync => (.written, l)
  | .async =>
    if l.csiChannel.length < CSI_LOG_CHANNEL_CAPACITY then
      (.queued, { l with csiChannel := l.csiChannel ++ [packet] })
    else (.dropped, { l with logDroppedPackets := l.logDroppedPackets + 1 })

def accepts (l : Logger) : Bool :=
  l.backend == .sync || l.csiChannel.length < CSI_LOG_CHANNEL_CAPACITY

/-- The logger task takes the oldest queued packet to write it. -/
def receive (l : Logger) : Option (CsiPacket × Logger) :=
  match l.csiChannel with
  | [] => none
  | packet :: rest => some (packet, { l with csiChannel := rest })

end Logger

/-! ## The serialized stream -/

def COBS_DELIMITER : UInt8 := 0

/-- Text without a NUL byte. -/
abbrev Text := {bytes : List UInt8 // COBS_DELIMITER ∉ bytes}

def bodies (packet : CsiPacket) : List Body :=
  (packet.session.map Body.session).toList ++ [.csi packet.frame]

/-- `encode_packet_frames`, and the frames of `write_serialized_packet_async`: what is written for
a packet, a body that does not encode being skipped. -/
def encodePacketFrames (packet : CsiPacket) : List UInt8 :=
  (bodies packet).flatMap fun body =>
    match encodeCobs packet.envelope body MAX_ENCODED_LEN with
    | .ok frame => frame
    | .error _ => []

/-- The message `log::info!` queues: a line that does not fit its 256 bytes is dropped. -/
def queuedMessage (text : Text) : Option Text :=
  if text.val.length + 2 ≤ 256 then
    some ⟨text.val ++ [13, 10], by
      rw [List.mem_append, not_or]
      exact ⟨text.property, by decide⟩⟩
  else none

/-- A text message in a frame slot of its own. -/
def writeTextFramed (text : Text) : List UInt8 := COBS_DELIMITER :: (text.val ++ [COBS_DELIMITER])

/-- One whole write in the serialized mode, by its entry point. -/
inductive Write where
  | packet (p : CsiPacket)
  | logLn (text : Text)
  | logLine (text : Text)

/-- The bytes `log_ln!` puts on the stream: a queued message on the async backend, a plain
`println!` on the sync one. -/
def logLnBytes (text : Text) : Backend → List UInt8
  | .async => (queuedMessage text).elim [] writeTextFramed
  | .sync => text.val ++ [10]

/-- `log_line` frames the text itself on the sync backend, where no task does it downstream. -/
def logLineBytes (text : Text) : Backend → List UInt8
  | .async => logLnBytes text .async
  | .sync => writeTextFramed text

def Write.bytes (backend : Backend) : Write → List UInt8
  | packet p => encodePacketFrames p
  | logLn text => logLnBytes text backend
  | logLine text => logLineBytes text backend

def stream (backend : Backend) (writes : List Write) : List UInt8 :=
  writes.flatMap (Write.bytes backend)

def chunks (backend : Backend) (writes : List Write) : List (List UInt8) :=
  (stream backend writes).splitOn COBS_DELIMITER

/-- The host tool's test for a text line. -/
def printable (chunk : List UInt8) : Bool :=
  !chunk.isEmpty &&
    chunk.all fun b => b == 13 || b == 10 || b == 9 || (0x20 ≤ b && b < 0x7f)

end EspCsi.Logging
