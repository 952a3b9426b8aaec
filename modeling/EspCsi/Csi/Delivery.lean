import EspCsi.Csi.Gates
import EspCsi.Csi.Policy
import EspCsi.Logging.Logger
import EspCsi.Stats

/-!
# CSI delivery

The path of a captured frame through `csi/delivery.rs`: past the gates, the filter and the policy,
into a packet, and down to exactly one consumer.
-/

namespace EspCsi.Csi

open Wire Logging

/-! ## Reporting policy -/

/-- What the callback keeps between measurements, and the flag that tells it to start over. -/
structure PolicyState where
  reset : Bool
  threshold : ThresholdState
  decimator : Decimator
deriving DecidableEq

namespace PolicyState

def boot : PolicyState := ⟨false, .new, .new⟩

def takeReset (s : PolicyState) : PolicyState := if s.reset then boot else s

/-- Judge a captured buffer by the policy in force. Returns whether to deliver it, and its score. -/
def judge (g : Gates) (s : PolicyState) (buf : List Int8) (nowUs : UInt64) :
    Bool × UInt16 × PolicyState :=
  match g.policyKind with
  | .threshold =>
    let scored := s.threshold.score buf
    let decided := scored.2.decide scored.1 g.policyA g.policyB nowUs
    (decided.1, scored.1, { s with threshold := decided.2 })
  | .decimate =>
    let ticked := s.decimator.tick g.policyA
    (ticked.1, 0, { s with decimator := ticked.2 })
  | _ => (true, 0, s)

end PolicyState

def policyAdmits (g : Gates) (s : PolicyState) (buf : List Int8) (nowUs : UInt64) :
    Bool × UInt16 × PolicyState :=
  s.takeReset.judge g buf nowUs

def admitCapture (g : Gates) (s : PolicyState) (info : WifiCsiInfo) (now : UInt64) :
    Bool × UInt16 × PolicyState :=
  if g.policyKind = .report then (true, 0, s) else policyAdmits g s info.buf now

/-- The buffer a policy judges a frame from any source by. A payload without a raw estimate passes
a threshold policy unscored. -/
def policyBuffer (g : Gates) (frame : CsiFrame) : Option (List Int8) :=
  match frame.payload with
  | .espRaw _ _ _ bytes => some bytes.val
  | _ => if g.policyKind = .threshold then none else some []

/-- A threshold policy may report the score in place of the measurement. -/
def reportedAs (g : Gates) (score : UInt16) (frame : CsiFrame) : CsiFrame :=
  if g.policyVariation && g.policyKind == .threshold then { frame with payload := .variation score }
  else frame

def policyAdmitsFrame (g : Gates) (s : PolicyState) (frame : CsiFrame) (now : UInt64) :
    Bool × CsiFrame × PolicyState :=
  if g.policyKind = .report then (true, frame, s)
  else
    match policyBuffer g frame with
    | none => (true, frame, s)
    | some buf =>
      let judged := policyAdmits g s buf now
      (judged.1, if judged.1 then reportedAs g judged.2.1 frame else frame, judged.2.2)

/-! ## The node -/

abbrev TaskId := ℕ

inductive Effect where
  | rawCallback (cb : CallbackId)
  | callback (cb : CallbackId) (p : CsiPacket)
  | enqueued (p : CsiPacket)
  | woken (t : TaskId)
  | received (p : CsiPacket)
  | hostWrite (p : CsiPacket)
deriving DecidableEq

def CSI_QUEUE_LEN : ℕ := 32

/-- The process-wide state of a node. `out` records what it has done, oldest first; nothing of the
crate reads it. -/
structure Node where
  gates : Gates
  session : Session
  stats : Stats
  logger : Logger
  csiQueue : List CsiPacket
  csiWaker : Option TaskId
  reportingChanged : Bool
  csiOutputChanged : Bool
  policy : PolicyState
  out : List Effect

namespace Node

def boot : Node where
  gates := .boot
  session := .boot
  stats := .boot
  logger := .boot
  csiQueue := []
  csiWaker := none
  reportingChanged := false
  csiOutputChanged := false
  policy := .boot
  out := []

def observe (n : Node) (e : Effect) : Node := { n with out := n.out ++ [e] }

/-- Change the reporting at runtime. The callback restarts its policy state on seeing the change. -/
def setRuntimeReporting (n : Node) (policy : Reporting) : Node :=
  { n with
    gates := n.gates.setRuntimeReporting policy
    policy := { n.policy with reset := true }
    reportingChanged := true }

def setCsiOutputEnabled (n : Node) (enabled : Bool) : Node :=
  { n with gates := n.gates.setCsiOutputEnabled enabled, csiOutputChanged := true }

/-! ## Consumers -/

def chargeLoss (n : Node) (cause : LossCause) : Node :=
  { n with stats := n.stats.recordLoss cause 1 }

def wake (n : Node) : Node :=
  match n.csiWaker with
  | some t => n.observe (.woken t)
  | none => n

def enqueue (n : Node) (packet : CsiPacket) : Node :=
  wake { n with csiQueue := n.csiQueue ++ [packet], out := n.out ++ [.enqueued packet] }

def overflow (n : Node) (packet : CsiPacket) : Node :=
  if n.gates.overflowDropOldest then { n with csiQueue := n.csiQueue.tail }.enqueue packet else n

def enqueueCsi (n : Node) (packet : CsiPacket) : Node :=
  if n.csiQueue.length < CSI_QUEUE_LEN then n.enqueue packet
  else (n.chargeLoss .queueFull).overflow packet

def logCsi (n : Node) (packet : CsiPacket) : Node :=
  { n with
    logger := (n.logger.logCsi packet).2
    out := n.out ++ if (n.logger.logCsi packet).1 = .written then [.hostWrite packet] else [] }

def loggerBackend (n : Node) : Node :=
  match n.logger.receive with
  | some (packet, logger) => { n with logger }.observe (.hostWrite packet)
  | none => n

/-- Per-transmitter statistics of a packet. The C5's receive sequence number is not usable. -/
def recordTx (n : Node) (chip : Chip) (packet : CsiPacket) : Node :=
  if n.stats.seqDropDetection then
    { n with
      stats := n.stats.recordTxFrame packet.mac
        (if chip = .esp32C5 then none else packet.frame.rxMeta.frameSeq)
        (packet.frame.header.map HeaderDigest.isRetry) }
  else n

/-- Dispatch to exactly one of the callback, the async queue and the inline log. -/
def dispatch (n : Node) (packet : CsiPacket) : Node :=
  match n.gates.csiDeliveryMode with
  | .callback =>
    match n.gates.csiCallback with
    | some cb => n.observe (.callback cb packet)
    | none => n
  | .async => n.enqueueCsi packet
  | .off => if n.gates.csiInlineLogEnabled && !n.gates.reportLocal then n.logCsi packet else n

def deliver (n : Node) (chip : Chip) (packet : CsiPacket) : Node :=
  (n.recordTx chip packet).dispatch packet

/-! ## Capture -/

def countCapture (n : Node) (chip : Chip) (info : WifiCsiInfo) : Node :=
  { n with
    stats :=
      if isHe chip then n.stats.recordCollectorRx.recordCurBbFormat info.curBbFormat
      else n.stats.recordCollectorRx }

def countFiltered (n : Node) : Node :=
  { n with stats := { n.stats with rxFiltered := n.stats.rxFiltered + 1 } }

def countSuppressed (n : Node) : Node :=
  { n with stats := { n.stats with rxPolicySuppressed := n.stats.rxPolicySuppressed + 1 } }

def buildCapture (board : Board) (n : Node) (info : WifiCsiInfo) (now : UInt64)
    (score : UInt16) : Node × Option CsiPacket :=
  match CsiPacket.fromWifiCsiInfo board n.session info now with
  | none => (n.chargeLoss .oversize, none)
  | some (packet, session) =>
    ({ n with session }, some { packet with frame := reportedAs n.gates score packet.frame })

/-- The radio's CSI callback up to `deliver`: the packet to deliver, if any. -/
def acquireCapture (board : Board) (n : Node) (info : WifiCsiInfo) (now : UInt64) :
    Node × Option CsiPacket :=
  let n := n.countCapture board.chip info
  match n.gates.csiRawCallback with
  -- the raw callback takes the place of all that follows
  | some cb => (n.observe (.rawCallback cb), none)
  | none =>
    if !n.gates.csiPublishEnabled then (n, none)
    else if !n.gates.csiPassesFilter board.chip info then (n.countFiltered, none)
    else
      let judged := admitCapture n.gates n.policy info now
      let n := { n with policy := judged.2.2 }
      if !judged.1 then (n.countSuppressed, none) else n.buildCapture board info now judged.2.1

def deliverAcquired (chip : Chip) : Node × Option CsiPacket → Node
  | (n, some packet) => n.deliver chip packet
  | (n, none) => n

def captureCsiInfo (board : Board) (n : Node) (info : WifiCsiInfo) (now : UInt64) : Node :=
  deliverAcquired board.chip (n.acquireCapture board info now)

def buildEmitted (board : Board) (n : Node) (kind : SourceKind) (frame : CsiFrame)
    (now : UInt64) : Node × Option CsiPacket :=
  let built := CsiPacket.new board n.session frame kind now
  ({ n with session := built.2, stats := n.stats.recordCollectorRx }, some built.1)

def acquireEmit (board : Board) (n : Node) (kind : SourceKind) (frame : CsiFrame) (now : UInt64) :
    Node × Option CsiPacket :=
  if !n.gates.csiPublishEnabled then (n, none)
  else
    let judged := policyAdmitsFrame n.gates n.policy frame now
    let n := { n with policy := judged.2.2 }
    if !judged.1 then (n.countSuppressed, none) else n.buildEmitted board kind judged.2.1 now

def emit (board : Board) (n : Node) (kind : SourceKind) (frame : CsiFrame) (now : UInt64) :
    Bool × Node :=
  let acquired := n.acquireEmit board kind frame now
  (acquired.2.isSome, deliverAcquired board.chip acquired)

/-! ## The queue's consumer -/

def enterAsync (n : Node) : Node := { n with gates := n.gates.enterAsync }

def takeCsi (n : Node) (t : TaskId) : Option CsiPacket × Node :=
  match n.csiQueue with
  | packet :: rest => (some packet, { n with csiQueue := rest })
  | [] => (none, { n with csiWaker := some t })

def pollCsiPacket (n : Node) (t : TaskId) : Node :=
  match n.takeCsi t with
  | (some packet, n) => n.observe (.received packet)
  | (none, n) => n

def pollPrintCsi (n : Node) (t : TaskId) : Node :=
  match n.takeCsi t with
  | (some packet, n) => n.logCsi packet
  | (none, n) => n

/-! ## Runs -/

/-- What a run puts in place before its driver starts. -/
structure RunConfig where
  reporting : Reporting
  controlled : Bool
  headerDigest : Bool
  setupId : UInt8
  isEmitter : Bool
  random : UInt32

def RunConfig.monitor : RunConfig where
  reporting := .HOST
  controlled := false
  headerDigest := false
  setupId := 0
  isEmitter := false
  random := 1

/-- The part of `run_inner` that touches this state, ahead of the driver. -/
def beginRun (n : Node) (cfg : RunConfig) : Node :=
  { n.setRuntimeReporting cfg.reporting with
    stats := n.stats.reset.setSeqDropDetection (!cfg.isEmitter)
    session :=
      (n.session.beginRun cfg.controlled cfg.headerDigest cfg.random).setSetupId cfg.setupId }

/-- The statistics task sees an output toggle: every transmitter resyncs on its next frame. -/
def processOutputChanged (n : Node) : Node :=
  if n.csiOutputChanged then
    { n with csiOutputChanged := false, stats := { n.stats with resetSeqTracker := true } }
  else n

def initLogger (n : Node) (mode : LogMode) (backend : Backend) : Node :=
  { n with gates := n.gates.setCsiLoggingEnabled true, logger := { n.logger with mode, backend } }

end Node

end EspCsi.Csi
