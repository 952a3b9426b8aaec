import EspCsi.Csi.Capture
import EspCsi.Lib.Transition

/-!
# The delivery machine

Whole calls into the crate as the events of one machine: the radio's callback, the public functions
that write delivery state, the queue's consumer, and the crate's own tasks.
-/

namespace EspCsi.Csi

open Wire Logging

inductive Event where
  | capture (info : WifiCsiInfo) (now : UInt64)
  | emit (kind : SourceKind) (frame : CsiFrame) (now : UInt64)
  | setCsiLoggingEnabled (enabled : Bool)
  | setCsiDeliveryMode (mode : CsiDeliveryMode)
  | setCsiCallback (cb : CallbackId)
  | clearCsiCallback
  | setCsiRawCallback (cb : CallbackId)
  | setCsiOutputEnabled (enabled : Bool)
  | setCsiPeerFilter (mac : Mac)
  | setCsiMinSigMode (min : UInt8)
  | setReporting (policy : Reporting)
  | setCsiQueueOverflow (policy : OverflowPolicy)
  | nextCsiPacket (t : TaskId)
  | pollCsiPacket (t : TaskId)
  | printCsi (t : TaskId)
  | pollPrintCsi (t : TaskId)
  | loggerBackend
  | initLogger (mode : LogMode) (backend : Backend)
  | setLogMode (mode : LogMode)
  | setSession (sessionId : UInt32) (epochUnixUs : Option UInt64) (now : UInt64)
  | setHeaderDigestEnabled (enabled : Bool)
  | setSoundingInstance (instanceNo : UInt32)
  | processOutputChanged
  | beginRun (cfg : Node.RunConfig)
  | reset

/-- One whole call. `next_csi_packet` and `print_csi_w_metadata` are entered once and polled until
they return. -/
def step (board : Board) (n : Node) : Event → Node
  | .capture info now => n.captureCsiInfo board info now
  | .emit kind frame now => (n.emit board kind frame now).2
  | .setCsiLoggingEnabled enabled => { n with gates := n.gates.setCsiLoggingEnabled enabled }
  | .setCsiDeliveryMode mode => { n with gates := n.gates.setCsiDeliveryMode mode }
  | .setCsiCallback cb => { n with gates := n.gates.setCsiCallback cb }
  | .clearCsiCallback => { n with gates := n.gates.clearCsiCallback }
  | .setCsiRawCallback cb => { n with gates := n.gates.setCsiRawCallback cb }
  | .setCsiOutputEnabled enabled => n.setCsiOutputEnabled enabled
  | .setCsiPeerFilter mac => { n with gates := n.gates.setCsiPeerFilter mac }
  | .setCsiMinSigMode min => { n with gates := n.gates.setCsiMinSigMode min }
  | .setReporting policy => n.setRuntimeReporting policy
  | .setCsiQueueOverflow policy => { n with gates := n.gates.setCsiQueueOverflow policy }
  | .nextCsiPacket t => n.enterAsync.pollCsiPacket t
  | .pollCsiPacket t => n.pollCsiPacket t
  | .printCsi t => n.enterAsync.pollPrintCsi t
  | .pollPrintCsi t => n.pollPrintCsi t
  | .loggerBackend => n.loggerBackend
  | .initLogger mode backend => n.initLogger mode backend
  | .setLogMode mode => { n with logger := { n.logger with mode } }
  | .setSession sessionId epochUnixUs now =>
    { n with session := n.session.setSession sessionId epochUnixUs now }
  | .setHeaderDigestEnabled enabled =>
    { n with session := n.session.setHeaderDigestEnabled enabled }
  | .setSoundingInstance instanceNo =>
    { n with session := n.session.setSoundingInstance instanceNo }
  | .processOutputChanged => n.processOutputChanged
  | .beginRun cfg => n.beginRun cfg
  | .reset => { n with gates := n.gates.reset }

/-! ## Delivering events -/

/-- An event up to `deliver`: the packet it hands to delivery, if any. -/
def acquire (board : Board) (n : Node) : Event → Node × Option CsiPacket
  | .capture info now => n.acquireCapture board info now
  | .emit kind frame now => n.acquireEmit board kind frame now
  | e => (step board n e, none)

def Node.delivered (board : Board) (n : Node) (e : Event) : Option CsiPacket :=
  (acquire board n e).2

theorem step_eq_deliverAcquired (board : Board) (n : Node) (e : Event) :
    step board n e = Node.deliverAcquired board.chip (acquire board n e) := by
  cases e <;> rfl

/-- What acquiring a packet leaves of the state: the packet is built in the session, and nothing
else but the counters and the policy state changes. -/
theorem acquire_of_delivered {board : Board} {n : Node} {e : Event} {p : CsiPacket}
    (h : n.delivered board e = some p) :
    ∃ session stats policy, (acquire board n e).1 = { n with session, stats, policy } := by
  cases e with
  | capture info now =>
    by_cases hdel : n.Delivers board info now
    · obtain ⟨q, session, rxCount, bbFormatHist, policy, -, heq⟩ :=
        Node.acquireCapture_of_delivers hdel
      exact ⟨session, _, policy, by rw [acquire, heq]⟩
    · obtain ⟨stats, policy, out, heq, -⟩ := Node.acquireCapture_of_not_delivers hdel
      simp [Node.delivered, acquire, heq] at h
  | emit kind frame now =>
    by_cases hemits : n.Emits frame now
    · exact ⟨_, _, _, by rw [acquire, Node.acquireEmit_of_emits hemits]⟩
    · obtain ⟨stats, policy, heq⟩ := Node.acquireEmit_of_not_emits board kind hemits
      simp [Node.delivered, acquire, heq] at h
  | _ => simp [Node.delivered, acquire] at h

/-- A packet is built in the run under way, and carries its announcement when it is the first. -/
theorem acquire_session {board : Board} {n : Node} {e : Event} {p : CsiPacket}
    (h : n.delivered board e = some p) :
    p.runNo = n.session.runNo ∧ p.session.isSome = n.session.anchorPending ∧
      (acquire board n e).1.session.runNo = n.session.runNo ∧
      (acquire board n e).1.session.anchorPending = false := by
  cases e with
  | capture info now =>
    by_cases hdel : n.Delivers board info now
    · obtain ⟨q, session, rxCount, bbFormatHist, policy, hq, heq⟩ :=
        Node.acquireCapture_of_delivers hdel
      obtain rfl : q = p := by simpa [Node.delivered, acquire, heq] using h
      obtain ⟨tsLastRaw, tsWraps, hwiden⟩ :=
        n.session.widenTimestamp_snd info.timestampUs.toUInt32
      simp only [Node.packetOf, CsiPacket.fromWifiCsiInfo, frameFromEsp, hdel.2.2.2.2, dite_true,
        Option.map_some, hwiden] at hq
      obtain ⟨rfl, rfl⟩ := Prod.mk.inj (Option.some_inj.mp hq)
      simpa [acquire, heq] using CsiPacket.new_spec board { n.session with tsLastRaw, tsWraps } _ _ _
    · obtain ⟨stats, policy, out, heq, -⟩ := Node.acquireCapture_of_not_delivers hdel
      simp [Node.delivered, acquire, heq] at h
  | emit kind frame now =>
    by_cases hemits : n.Emits frame now
    · obtain rfl : (n.emittedPacket board kind frame now).1 = p := by
        simpa [Node.delivered, acquire, Node.acquireEmit_of_emits hemits] using h
      rw [acquire, Node.acquireEmit_of_emits hemits]
      exact CsiPacket.new_spec board n.session _ kind now
    · obtain ⟨stats, policy, heq⟩ := Node.acquireEmit_of_not_emits board kind hemits
      simp [Node.delivered, acquire, heq] at h
  | _ => simp [Node.delivered, acquire] at h

theorem step_of_delivered {board : Board} {n : Node} {e : Event} {p : CsiPacket}
    (h : n.delivered board e = some p) :
    ∃ session stats policy,
      step board n e = Node.deliver { n with session, stats, policy } board.chip p := by
  obtain ⟨session, stats, policy, heq⟩ := acquire_of_delivered h
  refine ⟨session, stats, policy, ?_⟩
  have hpair : acquire board n e = ({ n with session, stats, policy }, some p) := Prod.ext heq h
  rw [step_eq_deliverAcquired, hpair, Node.deliverAcquired]

def Event.drains : Event → Bool
  | .nextCsiPacket _ | .pollCsiPacket _ | .printCsi _ | .pollPrintCsi _ | .loggerBackend => true
  | _ => false

theorem not_delivers_of_undelivered {board : Board} {n : Node} {info : WifiCsiInfo} {now : UInt64}
    (hdel : n.delivered board (.capture info now) = none) : ¬ n.Delivers board info now := by
  intro h
  obtain ⟨p, session, _, _, _, -, heq⟩ := Node.acquireCapture_of_delivers h
  simp [Node.delivered, acquire, heq] at hdel

theorem not_emits_of_undelivered {board : Board} {n : Node} {kind : SourceKind} {frame : CsiFrame}
    {now : UInt64} (hdel : n.delivered board (.emit kind frame now) = none) :
    ¬ n.Emits frame now := by
  intro h
  simp [Node.delivered, acquire, Node.acquireEmit_of_emits h] at hdel

theorem step_of_undelivered {board : Board} {n : Node} {e : Event}
    (hdel : n.delivered board e = none) (hdrain : e.drains = false) :
    (step board n e).csiQueue = n.csiQueue ∧
      (step board n e).logger.csiChannel = n.logger.csiChannel ∧
      ((step board n e).out = n.out ∨ ∃ cb, (step board n e).out = n.out ++ [.rawCallback cb]) := by
  cases e with
  | capture info now =>
    obtain ⟨stats, policy, out, heq, -, hout⟩ :=
      Node.captureCsiInfo_of_not_delivers (not_delivers_of_undelivered hdel)
    rw [step, heq]
    exact ⟨rfl, rfl, hout⟩
  | emit kind frame now =>
    obtain ⟨stats, policy, heq⟩ :=
      Node.acquireEmit_of_not_emits board kind (not_emits_of_undelivered hdel)
    rw [step, Node.emit, heq]
    exact ⟨rfl, rfl, .inl rfl⟩
  | nextCsiPacket | pollCsiPacket | printCsi | pollPrintCsi | loggerBackend =>
    exact absurd hdrain (by simp [Event.drains])
  | processOutputChanged =>
    simp only [step, Node.processOutputChanged]
    split_ifs <;> exact ⟨rfl, rfl, .inl rfl⟩
  | _ => exact ⟨rfl, rfl, .inl rfl⟩

structure Session.SameRun (s s' : Session) : Prop where
  runNo : s'.runNo = s.runNo
  anchorPending : s'.anchorPending = s.anchorPending
  tsLastRaw : s'.tsLastRaw = s.tsLastRaw
  tsWraps : s'.tsWraps = s.tsWraps

theorem step_session_of_undelivered {board : Board} {n : Node} {e : Event}
    (hdel : n.delivered board e = none) (hbegin : ∀ cfg, e ≠ .beginRun cfg) :
    n.session.SameRun (step board n e).session := by
  cases e with
  | capture info now =>
    obtain ⟨stats, policy, out, heq, -⟩ :=
      Node.captureCsiInfo_of_not_delivers (not_delivers_of_undelivered hdel)
    rw [step, heq]
    exact ⟨rfl, rfl, rfl, rfl⟩
  | emit kind frame now =>
    obtain ⟨stats, policy, heq⟩ :=
      Node.acquireEmit_of_not_emits board kind (not_emits_of_undelivered hdel)
    rw [step, Node.emit, heq]
    exact ⟨rfl, rfl, rfl, rfl⟩
  | beginRun cfg => exact absurd rfl (hbegin cfg)
  | nextCsiPacket t | pollCsiPacket t =>
    simp only [step, Node.pollCsiPacket, Node.takeCsi, Node.enterAsync]
    cases n.csiQueue <;> exact ⟨rfl, rfl, rfl, rfl⟩
  | printCsi t | pollPrintCsi t =>
    simp only [step, Node.pollPrintCsi, Node.takeCsi, Node.enterAsync]
    cases n.csiQueue <;> exact ⟨rfl, rfl, rfl, rfl⟩
  | loggerBackend =>
    simp only [step, Node.loggerBackend]
    split <;> exact ⟨rfl, rfl, rfl, rfl⟩
  | processOutputChanged =>
    simp only [step, Node.processOutputChanged]
    split_ifs <;> exact ⟨rfl, rfl, rfl, rfl⟩
  | setSession sessionId epochUnixUs now =>
    simp only [step, Session.setSession]
    cases epochUnixUs <;> exact ⟨rfl, rfl, rfl, rfl⟩
  | _ => exact ⟨rfl, rfl, rfl, rfl⟩

/-! ## The gates on their own -/

/-- What an event does to the gates. Only the public functions and the start and the end of a run
write them. -/
def Gates.step (g : Gates) : Event → Gates
  | .setCsiLoggingEnabled enabled => g.setCsiLoggingEnabled enabled
  | .setCsiDeliveryMode mode => g.setCsiDeliveryMode mode
  | .setCsiCallback cb => g.setCsiCallback cb
  | .clearCsiCallback => g.clearCsiCallback
  | .setCsiRawCallback cb => g.setCsiRawCallback cb
  | .setCsiOutputEnabled enabled => g.setCsiOutputEnabled enabled
  | .setCsiPeerFilter mac => g.setCsiPeerFilter mac
  | .setCsiMinSigMode min => g.setCsiMinSigMode min
  | .setReporting policy => g.setRuntimeReporting policy
  | .setCsiQueueOverflow policy => g.setCsiQueueOverflow policy
  | .nextCsiPacket _ | .printCsi _ => g.enterAsync
  | .initLogger _ _ => g.setCsiLoggingEnabled true
  | .beginRun cfg => g.setRuntimeReporting cfg.reporting
  | .reset => g.reset
  | .capture .. | .emit .. | .pollCsiPacket _ | .pollPrintCsi _ | .loggerBackend | .setLogMode _
  | .setSession .. | .setHeaderDigestEnabled _ | .setSoundingInstance _ | .processOutputChanged => g

theorem step_gates (board : Board) (n : Node) (e : Event) :
    (step board n e).gates = n.gates.step e := by
  cases e <;> simp [step, Gates.step, Node.setRuntimeReporting, Node.setCsiOutputEnabled,
    Node.enterAsync, Node.initLogger, Node.beginRun]

theorem run_gates (board : Board) (n : Node) (evs : List Event) :
    (Transition.run (step board) n evs).gates = Transition.run Gates.step n.gates evs :=
  Transition.run_map (f := Node.gates) (step_gates board) n evs

/-- Calls other than `set_reporting` and the start of a run, which also sets it. -/
def Event.keepsReporting : Event → Bool
  | .setReporting _ | .beginRun _ => false
  | _ => true

theorem Gates.step_reporting {e : Event} (h : e.keepsReporting = true) (g : Gates) :
    (g.step e).runtimeReporting = g.runtimeReporting ∧ (g.step e).reports = g.reports := by
  cases e with
  | setReporting | beginRun => exact absurd h (by simp [Event.keepsReporting])
  | nextCsiPacket t | printCsi t =>
    simp only [Gates.step, Gates.enterAsync]
    split_ifs <;> exact ⟨rfl, rfl⟩
  | _ => exact ⟨rfl, rfl⟩

theorem Gates.Cached.step {g : Gates} (h : g.Cached) (e : Event) : (g.step e).Cached := by
  cases e with
  | setCsiPeerFilter mac => exact ⟨h.publish, rfl⟩
  | setCsiMinSigMode min => exact ⟨h.publish, rfl⟩
  | setCsiLoggingEnabled | setCsiCallback | setCsiRawCallback | setCsiOutputEnabled
  | setReporting | initLogger | beginRun => exact .applyPublishGate h.filter
  | nextCsiPacket | printCsi => exact h.enterAsync
  | reset => exact ⟨rfl, h.filter⟩
  | _ => exact ⟨h.publish, h.filter⟩

theorem Gates.cached_run (evs : List Event) : (Transition.run Gates.step Gates.boot evs).Cached :=
  (Transition.always_of_step (Q := Gates.Cached) Gates.cached_boot fun _ e h => h.step e).last

end EspCsi.Csi
