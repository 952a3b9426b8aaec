import EspCsi.EspNow.Responder
import EspCsi.EspNow.Simplex
import EspCsi.Lib.Pacing

/-!
# Transmit pacing

When the three ESP-NOW loops send: `initiator/esp_now.rs`, `responder/esp_now.rs` and
`initiator/esp_now_simplex.rs`. Times are microseconds of one clock, which does not overflow its 64
bits in any run. What takes how long, and how a send ends, is left to the environment.
-/

namespace EspCsi.EspNow

open Wire Pacing

def TX_BACKOFF_US : ℕ := 200

def TX_WAIT_SLICE_US : ℕ := 100

def ADAPT_UP_EVERY_SUCCESSES : UInt16 := 32

def ADAPT_DOWN_PERCENT : ℕ := 25

def ADAPT_UP_PERCENT : ℕ := 10

def MIN_TX_HZ_FLOOR : ℕ := 100

def MAX_TX_HZ_CEILING : ℕ := 8000

def MIN_REPLY_HZ_FLOOR : ℕ := 100

def MAX_REPLY_HZ_CEILING : ℕ := 8000

structure IOTaskConfig where
  rxEnabled : Bool
  txEnabled : Bool
deriving DecidableEq, Repr

/-- How a send ends: well, for want of buffers (`OutOfMemory` and `SendFailed`), or otherwise. -/
inductive SendOutcome where
  | ok
  | noBuffer
  | failed
deriving DecidableEq, Repr

def hzToIntervalUs (hz : ℕ) : ℕ := max (1000000 / max hz 1) 1

/-! ## Adaptive pacing -/

/-- The pacing state that the initiator and the responder keep alike. -/
structure Pacer where
  io : IOTaskConfig
  hzMax : ℕ
  hzMin : ℕ
  adaptiveHz : ℕ
  intervalUs : ℕ
  consecutiveTxOk : UInt16
  nextTxUs : ℕ
deriving DecidableEq, Repr

namespace Pacer

def start (floor ceiling frequencyHz : ℕ) (io : IOTaskConfig) (now : ℕ) : Pacer :=
  let hzMax := min (max frequencyHz 1) ceiling
  let intervalUs := if io.rxEnabled then hzToIntervalUs hzMax else hzToIntervalUs frequencyHz
  { io
    hzMax
    hzMin := min (max (hzMax / 8) floor) hzMax
    adaptiveHz := hzMax
    intervalUs
    consecutiveTxOk := 0
    nextTxUs := now + intervalUs }

def adaptivePacingEnabled (p : Pacer) : Bool := p.io.rxEnabled && p.io.txEnabled

def setHz (p : Pacer) (hz : ℕ) : Pacer :=
  { p with adaptiveHz := hz, intervalUs := hzToIntervalUs hz }

/-- A stable send. So many in a row raise the rate. -/
def succeeded (p : Pacer) : Pacer :=
  if p.adaptivePacingEnabled then
    let ok := if p.consecutiveTxOk = 0xffff then 0xffff else p.consecutiveTxOk + 1
    if ok ≥ ADAPT_UP_EVERY_SUCCESSES then
      let stepUp := max (p.adaptiveHz * ADAPT_UP_PERCENT / 100) 1
      { p with consecutiveTxOk := 0 }.setHz (min (p.adaptiveHz + stepUp) p.hzMax)
    else { p with consecutiveTxOk := ok }
  else p

def backOff (p : Pacer) : Pacer :=
  let p := { p with consecutiveTxOk := 0 }
  if p.adaptivePacingEnabled then
    let stepDown := max (p.adaptiveHz * ADAPT_DOWN_PERCENT / 100) 1
    p.setHz (max (p.adaptiveHz - stepDown) p.hzMin)
  else p

def adapt (p : Pacer) : SendOutcome → Pacer
  | .ok => p.succeeded
  | .noBuffer => p.backOff
  | .failed => { p with consecutiveTxOk := 0 }

/-- A send has ended. The next deadline keeps its phase from the previous one. -/
def sent (p : Pacer) (outcome : SendOutcome) : Pacer :=
  let p := p.adapt outcome
  { p with nextTxUs := p.nextTxUs + p.intervalUs }

def backoffUs (p : Pacer) : SendOutcome → ℕ
  | .noBuffer => if p.adaptivePacingEnabled then TX_BACKOFF_US else 0
  | _ => 0

/-- How long the loop waits before its next turn while a frame is to be sent. -/
def waitUs (p : Pacer) (now : ℕ) : ℕ :=
  let sliceDiv := if p.io.rxEnabled then 8 else 4
  let sliceUs := min (max (p.intervalUs / sliceDiv) 1) TX_WAIT_SLICE_US
  max (min (p.nextTxUs - now) sliceUs) 1

end Pacer

/-! ## The loops -/

/-- How long a turn of a loop takes: from its wake-up to the look at the clock, from there until the
frame is handed to the radio, until that send is over, and beyond the time it asked to wait. -/
structure Delays where
  look : ℕ
  hand : ℕ
  send : ℕ
  oversleep : ℕ
deriving DecidableEq, Repr

/-- A driver with its pacing, the time it wakes up at, and the sends it has begun. -/
structure Timed (α : Type) where
  driver : α
  pacer : Pacer
  clock : ℕ
  sends : List Slot

namespace Timed

variable {α : Type}

def send (s : Timed α) (driver : α) (d : Delays) (outcome : SendOutcome) : Timed α where
  driver
  pacer := s.pacer.sent outcome
  clock := s.clock + d.look + d.hand + d.send + s.pacer.backoffUs outcome
  sends := s.sends ++ [⟨s.pacer.nextTxUs, s.clock + d.look + d.hand⟩]

def due (s : Timed α) (d : Delays) : Bool :=
  s.pacer.io.txEnabled && decide (s.pacer.nextTxUs ≤ s.clock + d.look)

def sleep (s : Timed α) (waitUs : ℕ) (d : Delays) : Timed α :=
  { s with clock := s.clock + waitUs + d.oversleep }

end Timed

/-- What happens at a paced node: a frame comes in, or the loop takes a turn. `registers` is the
radio's answer where an address is put into its peer table. -/
inductive Beat where
  | rcvCb (r : PoolFrame)
  | turn (registers : Bool) (outcome : SendOutcome) (d : Delays)

namespace Initiator

def receive (s : Initiator) (io : IOTaskConfig) : Initiator :=
  if io.rxEnabled then
    let drained := s.pool.drain (rxBurstDrainLimit io.txEnabled)
    { s with
      pool := drained.2
      downlink := s.downlink.receivePass s.peerMac drained.1
      phase := .ready }
  else { s with phase := .ready }

def targetHz (frequencyHz : Option UInt16) : ℕ :=
  (frequencyHz.map fun hz => max hz.toNat 1).getD 65535

def startTimed (config : EspNowConfig) (node : Csi.Node) (frequencyHz : Option UInt16)
    (io : IOTaskConfig) (now : ℕ) : Timed Initiator where
  driver := .start config node
  pacer := .start MIN_TX_HZ_FLOOR MAX_TX_HZ_CEILING (targetHz frequencyHz) io now
  clock := now
  sends := []

/-- A turn of the loop: a receive pass, a control frame if one is due, and a wait. -/
def turn (s : Timed Initiator) (outcome : SendOutcome) (d : Delays) : Timed Initiator :=
  let driver := s.driver.receive s.pacer.io
  let s :=
    if s.due d && driver.controlFrame.isSome then
      s.send (driver.beginSend.endSend (outcome == .ok)) d outcome
    else { s with driver, clock := s.clock + d.look }
  s.sleep (if s.pacer.io.txEnabled then s.pacer.waitUs s.clock
    else if s.pacer.io.rxEnabled then 20 else 1) d

def beat (s : Timed Initiator) : Beat → Timed Initiator
  | .rcvCb r => { s with driver := { s.driver with pool := s.driver.pool.rcvCb r } }
  | .turn _ outcome d => turn s outcome d

end Initiator

namespace Responder

def RX_BURST_MAX_RX_ONLY : ℕ := 64

/-- The receive pass: one frame when replies go out too. -/
def receive (s : Responder) (io : IOTaskConfig) (registers : Bool) : Responder :=
  if io.rxEnabled && io.txEnabled then s.ingestNext registers else s

/-- The receive-only wait: the next frame and those that stacked up behind it. -/
def receiveOnly (s : Responder) (registers : Bool) : Responder :=
  let drained := s.pool.drain (1 + RX_BURST_MAX_RX_ONLY)
  drained.1.foldl (fun s r => s.ingestControlPacket r false registers) { s with pool := drained.2 }

def targetHz (frequencyHz : Option UInt16) : ℕ := (frequencyHz.map UInt16.toNat).getD 65535

def startTimed (mac : Mac) (chip : Chip) (config : EspNowConfig) (rawListen : Bool)
    (node : Csi.Node) (frequencyHz : Option UInt16) (io : IOTaskConfig) (now : ℕ) :
    Timed Responder where
  driver := .start mac chip config rawListen node
  pacer := .start MIN_REPLY_HZ_FLOOR MAX_REPLY_HZ_CEILING (targetHz frequencyHz) io now
  clock := now
  sends := []

/-- The sending half of a turn: a receive pass, and a reply if one is due and owed. -/
def offer (s : Timed Responder) (registers : Bool) (outcome : SendOutcome) (d : Delays) :
    Timed Responder :=
  let driver := s.driver.receive s.pacer.io registers
  if s.due d then
    match driver.reply with
    | (some _, driver) => s.send driver d outcome
    | (none, driver) => { s with driver, clock := s.clock + d.look }
  else { s with driver, clock := s.clock + d.look }

/-- The waiting half: for the next frame, or for the next turn. -/
def wait (s : Timed Responder) (registers : Bool) (d : Delays) : Timed Responder :=
  if !s.pacer.io.txEnabled && s.pacer.io.rxEnabled then
    { s with driver := s.driver.receiveOnly registers }.sleep 0 d
  else
    let pending := s.pacer.io.txEnabled && s.driver.shared.isConnected &&
      s.driver.shared.pendingFlag
    s.sleep (if pending then s.pacer.waitUs s.clock else 1) d

def beat (s : Timed Responder) : Beat → Timed Responder
  | .rcvCb r => { s with driver := { s.driver with pool := s.driver.pool.rcvCb r } }
  | .turn registers outcome d => wait (offer s registers outcome d) registers d

end Responder

/-- The flood of a source that has its peer. `capIntervalUs` is the optional rate cap. -/
structure TimedSource where
  driver : SimplexSource
  capIntervalUs : Option ℕ
  nextTxUs : ℕ
  clock : ℕ
  sends : List Slot

namespace TimedSource

def startFlood (driver : SimplexSource) (freqHz : Option UInt16) (now : ℕ) : TimedSource where
  driver
  capIntervalUs := freqHz.map fun f => 1000000 / max f.toNat 1
  nextTxUs := now
  clock := now
  sends := []

/-- One frame of the flood, and the wait for the next deadline if the rate is capped. -/
def turn (s : TimedSource) (outcome : SendOutcome) (d : Delays) : TimedSource :=
  if s.driver.floodFrame.isSome then
    let begun := s.clock + d.look + d.hand
    let ended := begun + d.send + (if outcome = .noBuffer then TX_BACKOFF_US else 0)
    let s : TimedSource :=
      { s with
        driver := s.driver.endFlood (outcome == .ok)
        clock := ended
        sends := s.sends ++ [⟨s.nextTxUs, begun⟩] }
    match s.capIntervalUs with
    | some interval =>
      let nextTxUs := s.nextTxUs + interval
      { s with
        nextTxUs
        clock := if ended < nextTxUs then nextTxUs + d.oversleep else ended }
    | none => s
  else s

def beat (s : TimedSource) : Beat → TimedSource
  | .rcvCb r => { s with driver := { s.driver with pool := s.driver.pool.rcvCb r } }
  | .turn _ outcome d => s.turn outcome d

end TimedSource

end EspCsi.EspNow
