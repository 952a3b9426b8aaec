import EspCsi.Csi.Admission

/-!
# What a run delivers by

A run's packets and its counts come from the calls made in it and from what the user configured, and
from nothing that earlier runs left behind.
-/

namespace EspCsi.Csi

open Wire Logging Transition

/-! ## What is left behind -/

namespace Session

/-- The session without the number of the run, and without an anchor that is not in force. -/
def seen (s : Session) : Session :=
  { s with
    runNo := 0
    epochUnixUs := if s.epochSet then s.epochUnixUs else 0
    epochAtTicks := if s.epochSet then s.epochAtTicks else 0 }

theorem seen_seen (s : Session) : s.seen.seen = s.seen := by
  cases h : s.epochSet <;> simp [seen, h]

theorem seen_widenTimestamp (s : Session) (raw : UInt32) :
    s.seen.widenTimestamp raw = ((s.widenTimestamp raw).1, (s.widenTimestamp raw).2.seen) := by
  have hlast : s.seen.tsLastRaw = s.tsLastRaw := rfl
  have hwraps : s.seen.tsWraps = s.tsWraps := rfl
  rw [widenTimestamp, widenTimestamp, hlast, hwraps]
  split_ifs <;> rfl

theorem seen_takeAnnouncement (board : Board) (s : Session) (timestampUs now : UInt64) :
    s.seen.takeAnnouncement board timestampUs now =
      ((s.takeAnnouncement board timestampUs now).1,
        (s.takeAnnouncement board timestampUs now).2.seen) := by
  cases hset : s.epochSet <;> cases hanchor : s.anchorPending <;>
    simp [takeAnnouncement, seen, hset, hanchor]

end Session

namespace CsiPacket

/-- The packet without the number of its run. -/
def sent (p : CsiPacket) : CsiPacket := { p with runNo := 0 }

theorem seen_new (board : Board) (s : Session) (frame : CsiFrame) (source : SourceKind)
    (now : UInt64) :
    new board s.seen frame source now =
      ((new board s frame source now).1.sent, (new board s frame source now).2.seen) := by
  simp only [new, Session.seen_takeAnnouncement]
  rfl

theorem seen_fromWifiCsiInfo (board : Board) (s : Session) (info : WifiCsiInfo) (now : UInt64) :
    fromWifiCsiInfo board s.seen info now =
      (fromWifiCsiInfo board s info now).map fun built => (built.1.sent, built.2.seen) := by
  by_cases hlen : info.buf.length ≤ MAX_CSI_BYTES
  · simp only [fromWifiCsiInfo, frameFromEsp, hlen, dite_true, Session.seen_widenTimestamp,
      Option.map_some, seen_new]
    rfl
  · simp only [fromWifiCsiInfo, frameFromEsp, hlen, dite_false, Option.map_none]

end CsiPacket

/-- A pending restart is as good as done. -/
def PolicyState.seen (s : PolicyState) : PolicyState := { s.takeReset with reset := false }

theorem seen_admitCapture (g : Gates) (s : PolicyState) (info : WifiCsiInfo) (now : UInt64) :
    (admitCapture g s.seen info now).1 = (admitCapture g s info now).1 ∧
      (admitCapture g s.seen info now).2.1 = (admitCapture g s info now).2.1 ∧
      (admitCapture g s.seen info now).2.2.seen = (admitCapture g s info now).2.2.seen := by
  cases hreset : s.reset <;> cases hkind : g.policyKind <;>
    simp [admitCapture, policyAdmits, PolicyState.judge, PolicyState.seen, PolicyState.takeReset,
      PolicyState.boot, hreset, hkind]

theorem seen_policyAdmitsFrame (g : Gates) (s : PolicyState) (frame : CsiFrame) (now : UInt64) :
    (policyAdmitsFrame g s.seen frame now).1 = (policyAdmitsFrame g s frame now).1 ∧
      (policyAdmitsFrame g s.seen frame now).2.1 = (policyAdmitsFrame g s frame now).2.1 ∧
      (policyAdmitsFrame g s.seen frame now).2.2.seen = (policyAdmitsFrame g s frame now).2.2.seen := by
  cases hbuf : policyBuffer g frame <;> cases hreset : s.reset <;> cases hkind : g.policyKind <;>
    simp [policyAdmitsFrame, policyAdmits, PolicyState.judge, PolicyState.seen,
      PolicyState.takeReset, PolicyState.boot, hbuf, hreset, hkind]

/-- The counts that the captures and the policy decide, whatever the consumers do. -/
def captureCounts (s : Stats) : Stats :=
  { Stats.boot with
    rxCount := s.rxCount
    rxFiltered := s.rxFiltered
    rxOversize := s.rxOversize
    rxPolicySuppressed := s.rxPolicySuppressed
    bbFormatHist := s.bbFormatHist }

theorem captureCounts_recordTxFrame (s : Stats) (mac : Mac) (seq : Option UInt16)
    (retry : Option Bool) : captureCounts (s.recordTxFrame mac seq retry) = captureCounts s := by
  simp only [Stats.recordTxFrame]
  split_ifs <;> rfl

/-! ## Nodes that go on alike -/

/-- Nodes that differ in what earlier runs left behind at most. -/
structure Node.Alike (n m : Node) : Prop where
  gates : n.gates = m.gates
  session : n.session.seen = m.session.seen
  counts : captureCounts n.stats = captureCounts m.stats
  policy : n.policy.seen = m.policy.seen

namespace Node.Alike

variable {n m : Node}

theorem deliver_self (n : Node) (chip : Chip) (p : CsiPacket) : (n.deliver chip p).Alike n where
  gates := n.deliver_gates chip p
  session := congrArg Session.seen (n.deliver_session chip p)
  counts := by
    have htx : captureCounts (n.recordTx chip p).stats = captureCounts n.stats := by
      cases hdetects : n.stats.seqDropDetection with
      | true =>
        simp only [recordTx, hdetects, if_true]
        exact captureCounts_recordTxFrame ..
      | false => simp [recordTx, hdetects]
    rcases (n.recordTx chip p).dispatch_stats p with hstats | hstats
    · rw [deliver, hstats, htx]
    · rw [deliver, hstats]
      exact htx
  policy := congrArg PolicyState.seen (n.deliver_policy chip p)

theorem symm (h : n.Alike m) : m.Alike n := ⟨h.1.symm, h.2.symm, h.3.symm, h.4.symm⟩

theorem trans {k : Node} (h : n.Alike m) (h' : m.Alike k) : n.Alike k :=
  ⟨h.1.trans h'.1, h.2.trans h'.2, h.3.trans h'.3, h.4.trans h'.4⟩

theorem deliver (h : n.Alike m) (chip : Chip) (p q : CsiPacket) :
    (n.deliver chip p).Alike (m.deliver chip q) :=
  (deliver_self n chip p).trans (h.trans (deliver_self m chip q).symm)

/-! ### What a capture does -/

theorem count (h : n.Alike m) {f : Stats → Stats}
    (hf : ∀ s, captureCounts (f s) = captureCounts (f (captureCounts s))) :
    ({ n with stats := f n.stats } : Node).Alike { m with stats := f m.stats } :=
  ⟨h.1, h.2, by rw [hf, h.counts, ← hf], h.4⟩

theorem countCapture (h : n.Alike m) (chip : Chip) (info : WifiCsiInfo) :
    (n.countCapture chip info).Alike (m.countCapture chip info) := by
  apply h.count (f := fun s => if isHe chip then s.recordCollectorRx.recordCurBbFormat info.curBbFormat
    else s.recordCollectorRx)
  intro s
  split_ifs <;> rfl

theorem countFiltered (h : n.Alike m) : n.countFiltered.Alike m.countFiltered :=
  h.count (f := fun s => { s with rxFiltered := s.rxFiltered + 1 }) fun _ => rfl

theorem countSuppressed (h : n.Alike m) : n.countSuppressed.Alike m.countSuppressed :=
  h.count (f := fun s => { s with rxPolicySuppressed := s.rxPolicySuppressed + 1 }) fun _ => rfl

theorem chargeLoss (h : n.Alike m) (cause : LossCause) :
    (n.chargeLoss cause).Alike (m.chargeLoss cause) :=
  h.count (f := fun s => s.recordLoss cause 1) fun _ => by cases cause <;> rfl

theorem observe (h : n.Alike m) (e e' : Effect) : (n.observe e).Alike (m.observe e') :=
  ⟨h.1, h.2, h.3, h.4⟩

def Acquired (x y : Node × Option CsiPacket) : Prop :=
  x.1.Alike y.1 ∧ x.2.map CsiPacket.sent = y.2.map CsiPacket.sent

theorem admitCapture_eq (h : n.Alike m) (info : WifiCsiInfo) (now : UInt64) :
    (admitCapture n.gates n.policy info now).1 = (admitCapture m.gates m.policy info now).1 ∧
      (admitCapture n.gates n.policy info now).2.1 =
        (admitCapture m.gates m.policy info now).2.1 ∧
      (admitCapture n.gates n.policy info now).2.2.seen =
        (admitCapture m.gates m.policy info now).2.2.seen := by
  obtain ⟨hadmits, hscore, hpolicy⟩ := seen_admitCapture n.gates n.policy info now
  obtain ⟨hadmits', hscore', hpolicy'⟩ := seen_admitCapture m.gates m.policy info now
  rw [h.gates, h.policy] at hadmits hscore hpolicy
  rw [h.gates]
  exact ⟨hadmits.symm.trans hadmits', hscore.symm.trans hscore', hpolicy.symm.trans hpolicy'⟩

theorem buildCapture (h : n.Alike m) (board : Board) (info : WifiCsiInfo) (now : UInt64)
    (score : UInt16) :
    Acquired (n.buildCapture board info now score) (m.buildCapture board info now score) := by
  have hbuilt : (CsiPacket.fromWifiCsiInfo board n.session info now).map
      (fun built => (built.1.sent, built.2.seen)) =
        (CsiPacket.fromWifiCsiInfo board m.session info now).map
          fun built => (built.1.sent, built.2.seen) := by
    rw [← CsiPacket.seen_fromWifiCsiInfo, ← CsiPacket.seen_fromWifiCsiInfo, h.session]
  rw [Node.buildCapture, Node.buildCapture]
  cases hn : CsiPacket.fromWifiCsiInfo board n.session info now with
  | none =>
    rw [hn, Option.map_none] at hbuilt
    rw [Option.map_eq_none_iff.mp hbuilt.symm]
    exact ⟨h.chargeLoss .oversize, rfl⟩
  | some built =>
    rw [hn, Option.map_some] at hbuilt
    obtain ⟨built', hm, hsame⟩ := Option.map_eq_some_iff.mp hbuilt.symm
    obtain ⟨hsent, hseen⟩ := Prod.mk.inj hsame
    rw [hm]
    refine ⟨⟨h.gates, hseen.symm, h.counts, h.policy⟩, ?_⟩
    have hframe : built'.1.frame = built.1.frame := (congrArg CsiPacket.frame hsent :)
    have henvelope : built'.1.envelope = built.1.envelope := (congrArg CsiPacket.envelope hsent :)
    have hsession : built'.1.session = built.1.session := (congrArg CsiPacket.session hsent :)
    simp only [Option.map_some, CsiPacket.sent, hframe, henvelope, hsession, h.gates]

theorem judge (h : n.Alike m) {policy policy' : PolicyState} (hpolicy : policy.seen = policy'.seen) :
    ({ n with gates := m.gates, policy } : Node).Alike { m with policy := policy' } :=
  ⟨rfl, h.2, h.3, hpolicy⟩

theorem acquireCapture (h : n.Alike m) (board : Board) (info : WifiCsiInfo) (now : UInt64) :
    Acquired (n.acquireCapture board info now) (m.acquireCapture board info now) := by
  have hcount := h.countCapture board.chip info
  obtain ⟨hadmits, hscore, hpolicy⟩ := hcount.admitCapture_eq info now
  rw [Node.acquireCapture, Node.acquireCapture]
  simp only [hcount.gates] at hadmits hscore hpolicy ⊢
  rw [hadmits, hscore]
  cases (m.countCapture board.chip info).gates.csiRawCallback with
  | some cb => exact ⟨hcount.observe _ _, rfl⟩
  | none =>
    simp only
    split_ifs
    · exact ⟨hcount, rfl⟩
    · exact ⟨hcount.countFiltered, rfl⟩
    · exact ⟨(hcount.judge hpolicy).countSuppressed, rfl⟩
    · exact (hcount.judge hpolicy).buildCapture board info now _

/-! ### What another source's measurement does -/

theorem policyAdmitsFrame_eq (h : n.Alike m) (frame : CsiFrame) (now : UInt64) :
    (policyAdmitsFrame n.gates n.policy frame now).1 =
        (policyAdmitsFrame m.gates m.policy frame now).1 ∧
      (policyAdmitsFrame n.gates n.policy frame now).2.1 =
        (policyAdmitsFrame m.gates m.policy frame now).2.1 ∧
      (policyAdmitsFrame n.gates n.policy frame now).2.2.seen =
        (policyAdmitsFrame m.gates m.policy frame now).2.2.seen := by
  obtain ⟨hadmits, hframe, hpolicy⟩ := seen_policyAdmitsFrame n.gates n.policy frame now
  obtain ⟨hadmits', hframe', hpolicy'⟩ := seen_policyAdmitsFrame m.gates m.policy frame now
  rw [h.gates, h.policy] at hadmits hframe hpolicy
  rw [h.gates]
  exact ⟨hadmits.symm.trans hadmits', hframe.symm.trans hframe', hpolicy.symm.trans hpolicy'⟩

theorem buildEmitted (h : n.Alike m) (board : Board) (kind : SourceKind) (frame : CsiFrame)
    (now : UInt64) :
    Acquired (n.buildEmitted board kind frame now) (m.buildEmitted board kind frame now) := by
  have hbuilt := CsiPacket.seen_new board n.session frame kind now
  rw [h.session, CsiPacket.seen_new] at hbuilt
  obtain ⟨hsent, hseen⟩ := Prod.mk.inj hbuilt
  have hcount := h.count (f := Stats.recordCollectorRx) fun _ => rfl
  exact ⟨⟨h.gates, hseen.symm, hcount.counts, h.policy⟩, congrArg some hsent.symm⟩

theorem acquireEmit (h : n.Alike m) (board : Board) (kind : SourceKind) (frame : CsiFrame)
    (now : UInt64) :
    Acquired (n.acquireEmit board kind frame now) (m.acquireEmit board kind frame now) := by
  obtain ⟨hadmits, hframe, hpolicy⟩ := h.policyAdmitsFrame_eq frame now
  rw [Node.acquireEmit, Node.acquireEmit]
  simp only [h.gates] at hadmits hframe hpolicy ⊢
  rw [hadmits, hframe]
  split_ifs
  · exact ⟨h, rfl⟩
  · exact ⟨(h.judge hpolicy).countSuppressed, rfl⟩
  · exact (h.judge hpolicy).buildEmitted board kind _ now

/-! ### Every call -/

theorem deliverAcquired {x y : Node × Option CsiPacket} (h : Acquired x y) (chip : Chip) :
    (Node.deliverAcquired chip x).Alike (Node.deliverAcquired chip y) := by
  obtain ⟨n, p⟩ := x
  obtain ⟨m, q⟩ := y
  obtain ⟨hnodes, hpackets⟩ := h
  cases p with
  | none =>
    have hq : q = none := Option.map_eq_none_iff.mp hpackets.symm
    rw [hq]
    exact hnodes
  | some p =>
    obtain ⟨q', rfl, -⟩ := Option.map_eq_some_iff.mp hpackets.symm
    exact hnodes.deliver chip p q'

theorem mapGates (h : n.Alike m) (f : Gates → Gates) :
    ({ n with gates := f n.gates } : Node).Alike { m with gates := f m.gates } :=
  ⟨congrArg f h.gates, h.2, h.3, h.4⟩

/-- A call that moves the session, and reads none of what is left behind in it. -/
theorem mapSession (h : n.Alike m) {f : Session → Session}
    (hf : ∀ s, (f s).seen = (f s.seen).seen) :
    ({ n with session := f n.session } : Node).Alike { m with session := f m.session } :=
  ⟨h.1, by rw [hf, h.session, ← hf], h.3, h.4⟩

theorem setRuntimeReporting (h : n.Alike m) (policy : Reporting) :
    (n.setRuntimeReporting policy).Alike (m.setRuntimeReporting policy) :=
  ⟨congrArg (·.setRuntimeReporting policy) h.gates, h.2, h.3, rfl⟩

theorem pollCsiPacket_self (n : Node) (t : TaskId) : (n.pollCsiPacket t).Alike n := by
  unfold Node.pollCsiPacket Node.takeCsi
  cases n.csiQueue <;> exact ⟨rfl, rfl, rfl, rfl⟩

theorem pollPrintCsi_self (n : Node) (t : TaskId) : (n.pollPrintCsi t).Alike n := by
  unfold Node.pollPrintCsi Node.takeCsi
  cases n.csiQueue <;> exact ⟨rfl, rfl, rfl, rfl⟩

theorem loggerBackend_self (n : Node) : n.loggerBackend.Alike n := by
  unfold Node.loggerBackend
  split <;> exact ⟨rfl, rfl, rfl, rfl⟩

theorem processOutputChanged_self (n : Node) : n.processOutputChanged.Alike n := by
  unfold Node.processOutputChanged
  split_ifs <;> exact ⟨rfl, rfl, rfl, rfl⟩

theorem of_self (h : n.Alike m) {f : Node → Node} (hf : ∀ k, (f k).Alike k) :
    (f n).Alike (f m) :=
  (hf n).trans (h.trans (hf m).symm)

theorem beginRun (h : n.Alike m) (cfg : RunConfig) : (n.beginRun cfg).Alike (m.beginRun cfg) where
  gates := congrArg (·.setRuntimeReporting cfg.reporting) h.gates
  session := by
    have hf (s : Session) :
        ((s.beginRun cfg.controlled cfg.headerDigest cfg.random).setSetupId cfg.setupId).seen =
          ((s.seen.beginRun cfg.controlled cfg.headerDigest cfg.random).setSetupId
            cfg.setupId).seen := by
      cases hset : s.epochSet <;> simp [Session.seen, Session.beginRun, Session.setSetupId, hset]
    exact (h.mapSession hf).session
  counts := rfl
  policy := rfl

theorem acquire (h : n.Alike m) (board : Board) (e : Event) :
    Acquired (Csi.acquire board n e) (Csi.acquire board m e) := by
  cases e with
  | capture info now => exact h.acquireCapture board info now
  | emit kind frame now => exact h.acquireEmit board kind frame now
  | setReporting policy => exact ⟨h.setRuntimeReporting policy, rfl⟩
  | nextCsiPacket t =>
    exact ⟨(h.mapGates Gates.enterAsync).of_self (f := (·.pollCsiPacket t))
      (pollCsiPacket_self · t), rfl⟩
  | pollCsiPacket t => exact ⟨h.of_self (f := (·.pollCsiPacket t)) (pollCsiPacket_self · t), rfl⟩
  | printCsi t =>
    exact ⟨(h.mapGates Gates.enterAsync).of_self (f := (·.pollPrintCsi t))
      (pollPrintCsi_self · t), rfl⟩
  | pollPrintCsi t => exact ⟨h.of_self (f := (·.pollPrintCsi t)) (pollPrintCsi_self · t), rfl⟩
  | loggerBackend => exact ⟨h.of_self loggerBackend_self, rfl⟩
  | processOutputChanged => exact ⟨h.of_self processOutputChanged_self, rfl⟩
  | setSession sessionId epochUnixUs now =>
    refine ⟨h.mapSession (f := (·.setSession sessionId epochUnixUs now)) fun s => ?_, rfl⟩
    cases epochUnixUs <;> rfl
  | setHeaderDigestEnabled enabled =>
    refine ⟨h.mapSession (f := (·.setHeaderDigestEnabled enabled)) fun s => ?_, rfl⟩
    exact (s.setHeaderDigestEnabled enabled).seen_seen.symm
  | setSoundingInstance instanceNo =>
    refine ⟨h.mapSession (f := (·.setSoundingInstance instanceNo)) fun s => ?_, rfl⟩
    exact (s.setSoundingInstance instanceNo).seen_seen.symm
  | beginRun cfg => exact ⟨h.beginRun cfg, rfl⟩
  | _ => exact ⟨⟨by simp only [Csi.acquire, step_gates, h.gates], h.2, h.3, h.4⟩, rfl⟩

theorem step (h : n.Alike m) (board : Board) (e : Event) :
    (Csi.step board n e).Alike (Csi.step board m e) := by
  rw [step_eq_deliverAcquired, step_eq_deliverAcquired]
  exact deliverAcquired (h.acquire board e) board.chip

end Node.Alike

/-! ## What the consumers are given -/

/-- The effect, its packet without the number of its run. -/
def Effect.sent : Effect → Effect
  | .callback cb p => .callback cb p.sent
  | .enqueued p => .enqueued p.sent
  | .received p => .received p.sent
  | .hostWrite p => .hostWrite p.sent
  | e => e

namespace Node

variable {n : Node} {p : CsiPacket} {rest : List CsiPacket}

theorem logCsi_of_sync (h : n.logger.backend = .sync) (p : CsiPacket) :
    n.logCsi p = n.observe (.hostWrite p) := by
  simp [logCsi, Logger.logCsi, observe, h]

theorem logCsi_of_async (h : n.logger.backend = .async) (p : CsiPacket) :
    n.logCsi p =
      if n.logger.csiChannel.length < CSI_LOG_CHANNEL_CAPACITY then
        { n with logger := { n.logger with csiChannel := n.logger.csiChannel ++ [p] } }
      else
        { n with
          logger := { n.logger with logDroppedPackets := n.logger.logDroppedPackets + 1 } } := by
  by_cases hroom : n.logger.csiChannel.length < CSI_LOG_CHANNEL_CAPACITY <;>
    simp [logCsi, Logger.logCsi, h, hroom]

theorem takeCsi_of_nil (h : n.csiQueue = []) (t : TaskId) :
    n.takeCsi t = (none, { n with csiWaker := some t }) := by
  simp only [takeCsi, h]

theorem takeCsi_of_cons (h : n.csiQueue = p :: rest) (t : TaskId) :
    n.takeCsi t = (some p, { n with csiQueue := rest }) := by
  simp only [takeCsi, h]

theorem loggerBackend_of_nil (h : n.logger.csiChannel = []) : n.loggerBackend = n := by
  simp only [loggerBackend, Logger.receive, h]

theorem loggerBackend_of_cons (h : n.logger.csiChannel = p :: rest) :
    n.loggerBackend =
      ({ n with logger := { n.logger with csiChannel := rest } } : Node).observe
        (.hostWrite p) := by
  simp only [loggerBackend, Logger.receive, h]

end Node

/-- The same packets wait for the same consumers. The drop counts may differ: no consumer sees
them. -/
structure Node.Waiting (n m : Node) : Prop where
  queue : n.csiQueue.map CsiPacket.sent = m.csiQueue.map CsiPacket.sent
  waker : n.csiWaker = m.csiWaker
  backend : n.logger.backend = m.logger.backend
  channel : n.logger.csiChannel.map CsiPacket.sent = m.logger.csiChannel.map CsiPacket.sent

/-- And since they had done `before` and `before'`, the nodes did the same with the same packets. -/
structure Node.GivenAlike (before before' : List Effect) (n m : Node) : Prop extends n.Waiting m where
  out : ∃ es es', n.out = before ++ es ∧ m.out = before' ++ es' ∧
    es.map Effect.sent = es'.map Effect.sent

namespace Node.GivenAlike

variable {before before' : List Effect} {n m : Node} {p q : CsiPacket}

theorem append (h : n.GivenAlike before before' m) (es es' : List Effect)
    (hes : es.map Effect.sent = es'.map Effect.sent) :
    ({ n with out := n.out ++ es } : Node).GivenAlike before before' { m with out := m.out ++ es' } := by
  obtain ⟨ds, ds', hn, hm, hds⟩ := h.out
  refine ⟨⟨h.queue, h.waker, h.backend, h.channel⟩, ds ++ es, ds' ++ es', ?_, ?_, ?_⟩
  · rw [hn, List.append_assoc]
  · rw [hm, List.append_assoc]
  · rw [List.map_append, List.map_append, hds, hes]

theorem observe (h : n.GivenAlike before before' m) {e e' : Effect} (he : e.sent = e'.sent) :
    (n.observe e).GivenAlike before before' (m.observe e') :=
  h.append [e] [e'] (congrArg (fun sent => [sent]) he)

theorem withQueue (h : n.GivenAlike before before' m) (ps qs : List CsiPacket)
    (hqueue : ps.map CsiPacket.sent = qs.map CsiPacket.sent) :
    ({ n with csiQueue := ps } : Node).GivenAlike before before' { m with csiQueue := qs } :=
  ⟨⟨hqueue, h.waker, h.backend, h.channel⟩, h.out⟩

theorem withLogger (h : n.GivenAlike before before' m) (l l' : Logger)
    (hbackend : l.backend = l'.backend)
    (hchannel : l.csiChannel.map CsiPacket.sent = l'.csiChannel.map CsiPacket.sent) :
    ({ n with logger := l } : Node).GivenAlike before before' { m with logger := l' } :=
  ⟨⟨h.queue, h.waker, hbackend, hchannel⟩, h.out⟩

/-! ### What delivery does -/

theorem wake (h : n.GivenAlike before before' m) : n.wake.GivenAlike before before' m.wake := by
  rw [Node.wake, Node.wake, h.waker]
  cases m.csiWaker with
  | none => exact h
  | some t => exact h.observe rfl

theorem enqueue (h : n.GivenAlike before before' m) (hp : p.sent = q.sent) :
    (n.enqueue p).GivenAlike before before' (m.enqueue q) := by
  have hqueue : (n.csiQueue ++ [p]).map CsiPacket.sent = (m.csiQueue ++ [q]).map CsiPacket.sent := by
    simp [h.queue, hp]
  have hstored : (Effect.enqueued p).sent = (Effect.enqueued q).sent := congrArg Effect.enqueued hp
  exact ((h.withQueue _ _ hqueue).observe hstored).wake

theorem overflow (h : n.GivenAlike before before' m) (hgates : n.gates = m.gates)
    (hp : p.sent = q.sent) : (n.overflow p).GivenAlike before before' (m.overflow q) := by
  have htail : n.csiQueue.tail.map CsiPacket.sent = m.csiQueue.tail.map CsiPacket.sent := by
    rw [List.map_tail, h.queue, List.map_tail]
  by_cases hoverwrite : m.gates.overflowDropOldest = true
  · rw [Node.overflow, Node.overflow, if_pos hoverwrite, if_pos (hgates ▸ hoverwrite)]
    exact (h.withQueue _ _ htail).enqueue hp
  · rw [Node.overflow, Node.overflow, if_neg hoverwrite, if_neg (hgates ▸ hoverwrite)]
    exact h

theorem enqueueCsi (h : n.GivenAlike before before' m) (hgates : n.gates = m.gates)
    (hp : p.sent = q.sent) : (n.enqueueCsi p).GivenAlike before before' (m.enqueueCsi q) := by
  have hlength : n.csiQueue.length = m.csiQueue.length := by
    simpa using congrArg List.length h.queue
  have hlost : (n.chargeLoss .queueFull).GivenAlike before before' (m.chargeLoss .queueFull) :=
    ⟨⟨h.queue, h.waker, h.backend, h.channel⟩, h.out⟩
  rw [Node.enqueueCsi, Node.enqueueCsi, hlength]
  split_ifs
  · exact h.enqueue hp
  · exact hlost.overflow hgates hp

theorem logCsi (h : n.GivenAlike before before' m) (hp : p.sent = q.sent) :
    (n.logCsi p).GivenAlike before before' (m.logCsi q) := by
  cases hbackend : m.logger.backend with
  | sync =>
    rw [logCsi_of_sync (h.backend.trans hbackend), logCsi_of_sync hbackend]
    exact h.observe (congrArg Effect.hostWrite hp :)
  | async =>
    have hlength : n.logger.csiChannel.length = m.logger.csiChannel.length := by
      simpa using congrArg List.length h.channel
    rw [logCsi_of_async (h.backend.trans hbackend), logCsi_of_async hbackend, hlength]
    split_ifs
    · exact h.withLogger _ _ h.backend (by simp [h.channel, hp])
    · exact h.withLogger _ _ h.backend h.channel

theorem dispatch (h : n.GivenAlike before before' m) (hgates : n.gates = m.gates)
    (hp : p.sent = q.sent) : (n.dispatch p).GivenAlike before before' (m.dispatch q) := by
  rw [Node.dispatch, Node.dispatch, hgates]
  cases m.gates.csiDeliveryMode with
  | callback =>
    cases m.gates.csiCallback with
    | none => exact h
    | some cb => exact h.observe (congrArg (Effect.callback cb) hp :)
  | async => exact h.enqueueCsi hgates hp
  | off =>
    simp only
    split_ifs
    · exact h.logCsi hp
    · exact h

theorem deliver (h : n.GivenAlike before before' m) (hgates : n.gates = m.gates)
    (hp : p.sent = q.sent) (chip : Chip) :
    (n.deliver chip p).GivenAlike before before' (m.deliver chip q) := by
  obtain ⟨stats, hn⟩ := recordTx_eq n chip p
  obtain ⟨stats', hm⟩ := recordTx_eq m chip q
  rw [Node.deliver, Node.deliver, hn, hm]
  have hcounted : ({ n with stats } : Node).GivenAlike before before' { m with stats := stats' } :=
    ⟨⟨h.queue, h.waker, h.backend, h.channel⟩, h.out⟩
  exact hcounted.dispatch hgates hp

/-! ### What the consumers do -/

theorem takeCsi (h : n.GivenAlike before before' m) (t : TaskId) :
    (n.takeCsi t).1.map CsiPacket.sent = (m.takeCsi t).1.map CsiPacket.sent ∧
      (n.takeCsi t).2.GivenAlike before before' (m.takeCsi t).2 := by
  have hqueue := h.queue
  cases hn : n.csiQueue with
  | nil =>
    rw [hn, List.map_nil] at hqueue
    have hm : m.csiQueue = [] := List.map_eq_nil_iff.mp hqueue.symm
    rw [takeCsi_of_nil hn, takeCsi_of_nil hm]
    exact ⟨rfl, ⟨h.queue, rfl, h.backend, h.channel⟩, h.out⟩
  | cons p rest =>
    rw [hn, List.map_cons] at hqueue
    obtain ⟨q, rest', hm, hp, hrest⟩ := List.map_eq_cons_iff.mp hqueue.symm
    rw [takeCsi_of_cons hn, takeCsi_of_cons hm]
    exact ⟨congrArg some hp.symm, h.withQueue _ _ hrest.symm⟩

theorem pollCsiPacket (h : n.GivenAlike before before' m) (t : TaskId) :
    (n.pollCsiPacket t).GivenAlike before before' (m.pollCsiPacket t) := by
  obtain ⟨hpacket, hserved⟩ := h.takeCsi t
  rw [Node.pollCsiPacket, Node.pollCsiPacket]
  rcases hn : n.takeCsi t with ⟨_ | p, n'⟩ <;> rcases hm : m.takeCsi t with ⟨_ | q, m'⟩ <;>
    rw [hn, hm] at hpacket hserved
  · exact hserved
  · cases hpacket
  · cases hpacket
  · exact hserved.observe (congrArg Effect.received (Option.some_inj.mp hpacket) :)

theorem pollPrintCsi (h : n.GivenAlike before before' m) (t : TaskId) :
    (n.pollPrintCsi t).GivenAlike before before' (m.pollPrintCsi t) := by
  obtain ⟨hpacket, hserved⟩ := h.takeCsi t
  rw [Node.pollPrintCsi, Node.pollPrintCsi]
  rcases hn : n.takeCsi t with ⟨_ | p, n'⟩ <;> rcases hm : m.takeCsi t with ⟨_ | q, m'⟩ <;>
    rw [hn, hm] at hpacket hserved
  · exact hserved
  · cases hpacket
  · cases hpacket
  · exact hserved.logCsi (Option.some_inj.mp hpacket)

theorem loggerBackend (h : n.GivenAlike before before' m) :
    n.loggerBackend.GivenAlike before before' m.loggerBackend := by
  have hchannel := h.channel
  cases hn : n.logger.csiChannel with
  | nil =>
    rw [hn, List.map_nil] at hchannel
    have hm : m.logger.csiChannel = [] := List.map_eq_nil_iff.mp hchannel.symm
    rw [loggerBackend_of_nil hn, loggerBackend_of_nil hm]
    exact h
  | cons p rest =>
    rw [hn, List.map_cons] at hchannel
    obtain ⟨q, rest', hm, hp, hrest⟩ := List.map_eq_cons_iff.mp hchannel.symm
    rw [loggerBackend_of_cons hn, loggerBackend_of_cons hm]
    have hwritten : (Effect.hostWrite p).sent = (Effect.hostWrite q).sent :=
      congrArg Effect.hostWrite hp.symm
    exact (h.withLogger { n.logger with csiChannel := rest } { m.logger with csiChannel := rest' }
      h.backend hrest.symm).observe hwritten

/-! ### Every call -/

theorem acquireCapture_fst (board : Board) (n : Node) (info : WifiCsiInfo) (now : UInt64) :
    ∃ session stats policy, (n.acquireCapture board info now).1 =
      { n with
        session, stats, policy
        out := n.out ++ (n.gates.csiRawCallback.map Effect.rawCallback).toList } := by
  obtain ⟨stats, hcount⟩ : ∃ stats, n.countCapture board.chip info = { n with stats } := ⟨_, rfl⟩
  rw [Node.acquireCapture, hcount]
  cases hraw : n.gates.csiRawCallback with
  | some cb => exact ⟨_, _, _, rfl⟩
  | none =>
    simp only [Option.map_none, Option.toList_none, List.append_nil]
    split_ifs
    · exact ⟨_, _, _, rfl⟩
    · exact ⟨_, _, _, rfl⟩
    · exact ⟨_, _, _, rfl⟩
    · rw [Node.buildCapture]
      split <;> exact ⟨_, _, _, rfl⟩

theorem acquireEmit_fst (board : Board) (n : Node) (kind : SourceKind) (frame : CsiFrame)
    (now : UInt64) : ∃ session stats policy, (n.acquireEmit board kind frame now).1 =
      { n with session, stats, policy } := by
  simp only [Node.acquireEmit]
  split_ifs <;> exact ⟨_, _, _, rfl⟩

theorem acquire (h : n.GivenAlike before before' m) (hgates : n.gates = m.gates) (board : Board)
    (e : Event) : (Csi.acquire board n e).1.GivenAlike before before' (Csi.acquire board m e).1 := by
  cases e with
  | capture info now =>
    obtain ⟨_, _, _, hn⟩ := acquireCapture_fst board n info now
    obtain ⟨_, _, _, hm⟩ := acquireCapture_fst board m info now
    rw [Csi.acquire, Csi.acquire, hn, hm, hgates]
    have hraw := h.append _ (m.gates.csiRawCallback.map Effect.rawCallback).toList rfl
    exact ⟨⟨hraw.queue, hraw.waker, hraw.backend, hraw.channel⟩, hraw.out⟩
  | emit kind frame now =>
    obtain ⟨_, _, _, hn⟩ := acquireEmit_fst board n kind frame now
    obtain ⟨_, _, _, hm⟩ := acquireEmit_fst board m kind frame now
    rw [Csi.acquire, Csi.acquire, hn, hm]
    exact ⟨⟨h.queue, h.waker, h.backend, h.channel⟩, h.out⟩
  | nextCsiPacket t =>
    have hentered : n.enterAsync.GivenAlike before before' m.enterAsync :=
      ⟨⟨h.queue, h.waker, h.backend, h.channel⟩, h.out⟩
    exact hentered.pollCsiPacket t
  | pollCsiPacket t => exact h.pollCsiPacket t
  | printCsi t =>
    have hentered : n.enterAsync.GivenAlike before before' m.enterAsync :=
      ⟨⟨h.queue, h.waker, h.backend, h.channel⟩, h.out⟩
    exact hentered.pollPrintCsi t
  | pollPrintCsi t => exact h.pollPrintCsi t
  | loggerBackend => exact h.loggerBackend
  | processOutputChanged =>
    simp only [Csi.acquire, Csi.step, Node.processOutputChanged]
    split_ifs <;> exact ⟨⟨h.queue, h.waker, h.backend, h.channel⟩, h.out⟩
  | initLogger mode backend => exact ⟨⟨h.queue, h.waker, rfl, h.channel⟩, h.out⟩
  | _ => exact ⟨⟨h.queue, h.waker, h.backend, h.channel⟩, h.out⟩

theorem step (h : n.GivenAlike before before' m) (halike : n.Alike m) (board : Board) (e : Event) :
    (Csi.step board n e).GivenAlike before before' (Csi.step board m e) := by
  have hserved := h.acquire halike.gates board e
  obtain ⟨hnodes, hpackets⟩ := halike.acquire board e
  rw [step_eq_deliverAcquired, step_eq_deliverAcquired]
  cases hn : Csi.acquire board n e with
  | mk n' p =>
    cases hm : Csi.acquire board m e with
    | mk m' q =>
      rw [hn, hm] at hserved hnodes hpackets
      cases p with
      | none =>
        have hq : q = none := Option.map_eq_none_iff.mp hpackets.symm
        rw [hq]
        exact hserved
      | some p =>
        obtain ⟨q', rfl, hp⟩ := Option.map_eq_some_iff.mp hpackets.symm
        exact hserved.deliver hnodes.gates hp.symm board.chip

theorem run (h : n.GivenAlike before before' m) (halike : n.Alike m) (board : Board)
    (evs : List Event) :
    (Transition.run (Csi.step board) n evs).GivenAlike before before'
      (Transition.run (Csi.step board) m evs) := by
  induction evs generalizing n m with
  | nil => exact h
  | cons e evs ih => exact ih (h.step halike board e) (halike.step board e)

end Node.GivenAlike

/-! ## What survives a run -/

/-- Calls that set what stays in force across runs. -/
def Event.configures : Event → Bool
  | .setCsiPeerFilter _ | .setCsiMinSigMode _ | .setCsiRawCallback _ | .setCsiQueueOverflow _
  | .setSession .. => true
  | _ => false

namespace Gates

def idle (g : Gates) : Gates := g.setRuntimeReporting .none

theorem setRuntimeReporting_idle (g : Gates) (policy : Reporting) :
    g.idle.setRuntimeReporting policy = g.setRuntimeReporting policy := rfl

theorem idle_step (g : Gates) (e : Event) : (g.step e).idle = (g.idle.step e).idle := by
  cases e with
  | nextCsiPacket t | printCsi t =>
    have hmode : g.idle.csiDeliveryMode = g.csiDeliveryMode := rfl
    simp only [step, enterAsync, hmode]
    split_ifs <;> rfl
  | _ => rfl

/-- The gates that the end of a run leaves. -/
def kept (g : Gates) : Gates := g.reset.idle

theorem kept_step (g : Gates) (e : Event) :
    (g.step e).kept = if e.configures then (g.kept.step e).kept else g.kept := by
  cases e with
  | nextCsiPacket t | printCsi t =>
    simp only [step, enterAsync, Event.configures]
    split_ifs <;> rfl
  | _ => rfl

end Gates

namespace Session

/-- The session that the user named, as it stands before the first packet of a run. -/
def named (s : Session) : Session := (s.beginRun false false 0).seen

theorem named_named (s : Session) : s.named.named = s.named := by
  cases hset : s.epochSet <;> cases hpinned : s.sessionPinned <;>
    simp [named, seen, beginRun, hset, hpinned]

theorem seen_beginRun (s : Session) (controlled headerDigest : Bool) (random : UInt32) :
    (s.beginRun controlled headerDigest random).seen =
      (s.named.beginRun controlled headerDigest random).seen := by
  cases hset : s.epochSet <;> cases hpinned : s.sessionPinned <;>
    simp [named, seen, beginRun, hset, hpinned]

end Session

def Session.nameBy (s : Session) : Event → Session
  | .setSession sessionId epochUnixUs now => s.setSession sessionId epochUnixUs now
  | _ => s

theorem Session.named_nameBy (s : Session) (e : Event) :
    (s.named.nameBy e).named = (s.nameBy e).named := by
  cases e with
  | setSession sessionId epochUnixUs now => cases epochUnixUs <;> rfl
  | _ => exact s.named_named

/-- Neither a measurement nor the start of a run changes what the user named. -/
theorem named_step (board : Board) (n : Node) (e : Event) :
    (step board n e).session.named = (n.session.nameBy e).named := by
  cases e with
  | capture info now =>
    by_cases h : n.Delivers board info now
    · obtain ⟨p, session, rxCount, bbFormatHist, policy, hp, heq⟩ :=
        Node.captureCsiInfo_of_delivers h
      obtain ⟨frame, s, score, streamSeq, anchorPending, hframe, -, rfl⟩ := Node.packetOf_eq_some hp
      obtain ⟨-, -, rfl⟩ := frameFromEsp_eq_some hframe
      obtain ⟨tsLastRaw, tsWraps, hwiden⟩ :=
        n.session.widenTimestamp_snd info.timestampUs.toUInt32
      rw [step, heq, Node.deliver_session, hwiden]
      rfl
    · obtain ⟨stats, policy, out, heq, -⟩ := Node.captureCsiInfo_of_not_delivers h
      rw [step, heq]
      rfl
  | emit kind frame now =>
    by_cases h : n.Emits frame now
    · obtain ⟨-, streamSeq, anchorPending, heq⟩ := CsiPacket.new_eq board n.session
        (policyAdmitsFrame n.gates n.policy frame now).2.1 kind now
      simp only [step, Node.emit, Node.acquireEmit_of_emits h, Node.deliverAcquired,
        Node.deliver_session, Node.emittedPacket, heq]
      rfl
    · obtain ⟨stats, policy, heq⟩ := Node.acquireEmit_of_not_emits board kind h
      simp only [step, Node.emit, heq, Node.deliverAcquired]
      rfl
  | nextCsiPacket t | pollCsiPacket t =>
    simp only [step, Node.pollCsiPacket, Node.takeCsi, Node.enterAsync]
    cases n.csiQueue <;> rfl
  | printCsi t | pollPrintCsi t =>
    simp only [step, Node.pollPrintCsi, Node.takeCsi, Node.enterAsync]
    cases n.csiQueue <;> rfl
  | loggerBackend =>
    simp only [step, Node.loggerBackend]
    split <;> rfl
  | processOutputChanged =>
    simp only [step, Node.processOutputChanged]
    split_ifs <;> rfl
  -- only a pinned session keeps its name and its anchor
  | beginRun cfg =>
    cases hpinned : n.session.sessionPinned <;>
      simp [step, Node.beginRun, Session.nameBy, Session.named, Session.seen, Session.beginRun,
        Session.setSetupId, hpinned]
  | _ => rfl

/-! ## Runs do not see each other -/

def configure (s : Gates × Session) (e : Event) : Gates × Session :=
  ((s.1.step e).kept, (s.2.nameBy e).named)

theorem kept_run (board : Board) (n : Node) (history : List Event) :
    ((run (step board) n history).gates.kept, (run (step board) n history).session.named) =
      run configure (n.gates.kept, n.session.named) (history.filter Event.configures) := by
  rw [← List.filterMap_eq_filter]
  apply run_filterMap (f := fun k : Node => (k.gates.kept, k.session.named))
  intro k e
  rw [step_gates, Gates.kept_step, named_step]
  cases hconf : e.configures with
  | true => simp [Option.guard, hconf, configure, Session.named_nameBy]
  | false =>
    have hname : k.session.nameBy e = k.session := by
      cases e with
      | setSession => cases hconf
      | _ => rfl
    simp [Option.guard, hconf, hname]

/-- Calls before a run, on what survives it and on the consumers and the gates of the next. -/
def prepare (s : Gates × Session) (e : Event) : Gates × Session :=
  ((s.1.step e).idle, (s.2.nameBy e).named)

theorem idle_run (board : Board) (n : Node) (pre : List Event) :
    ((run (step board) n pre).gates.idle, (run (step board) n pre).session.named) =
      run prepare (n.gates.idle, n.session.named) pre := by
  apply run_map (f := fun k : Node => (k.gates.idle, k.session.named))
  intro k e
  rw [step_gates, Gates.idle_step, named_step, prepare, Session.named_nameBy]

def Node.started (board : Board) (history pre : List Event) (cfg : Node.RunConfig) : Node :=
  (run (step board) .boot (history ++ .reset :: pre)).beginRun cfg

theorem Node.alike_beginRun {n m : Node} (hgates : n.gates.idle = m.gates.idle)
    (hsession : n.session.named = m.session.named) (cfg : Node.RunConfig) :
    (n.beginRun cfg).Alike (m.beginRun cfg) where
  gates := by
    have hset := congrArg (·.setRuntimeReporting cfg.reporting) hgates
    simp only [Gates.setRuntimeReporting_idle] at hset
    exact hset
  session := by
    have hbegin (s : Session) :
        ((s.beginRun cfg.controlled cfg.headerDigest cfg.random).setSetupId cfg.setupId).seen =
          (s.beginRun cfg.controlled cfg.headerDigest cfg.random).seen.setSetupId cfg.setupId := rfl
    rw [Node.beginRun, Node.beginRun, hbegin, hbegin, Session.seen_beginRun, hsession,
      ← Session.seen_beginRun]
  counts := rfl
  policy := rfl

theorem Node.alike_started (board : Board) {history history' : List Event}
    (h : history.filter Event.configures = history'.filter Event.configures) (pre : List Event)
    (cfg : Node.RunConfig) :
    (Node.started board history pre cfg).Alike (.started board history' pre cfg) := by
  have hkept := (kept_run board .boot history).trans (h ▸ (kept_run board .boot history').symm)
  have hprepared (hist : List Event) :
      ((run (step board) .boot (hist ++ .reset :: pre)).gates.idle,
        (run (step board) .boot (hist ++ .reset :: pre)).session.named) =
      run prepare ((run (step board) .boot hist).gates.kept,
        (run (step board) .boot hist).session.named) pre := by
    rw [run_append, run_cons, idle_run]
    rfl
  have hsame := (hprepared history).trans (hkept ▸ (hprepared history').symm)
  exact Node.alike_beginRun (congrArg Prod.fst hsame) (congrArg Prod.snd hsame) cfg

def Node.sends (board : Board) (n : Node) (e : Event) : List CsiPacket :=
  ((n.delivered board e).map CsiPacket.sent).toList

/-- After histories with the same configuration calls, whatever else they did, a run hands the same
packets to delivery, has the same gates and counts the same captures. Where they also left the same
packets waiting, its consumers are given the same, in the same order. -/
theorem run_isolated (board : Board) {history history' : List Event}
    (h : history.filter Event.configures = history'.filter Event.configures)
    (pre evs : List Event) (cfg : Node.RunConfig) :
    gather (step board) (Node.sends board) (.started board history pre cfg) evs =
        gather (step board) (Node.sends board) (.started board history' pre cfg) evs ∧
      (run (step board) (.started board history pre cfg) evs).gates =
        (run (step board) (.started board history' pre cfg) evs).gates ∧
      captureCounts (run (step board) (.started board history pre cfg) evs).stats =
        captureCounts (run (step board) (.started board history' pre cfg) evs).stats ∧
      ((Node.started board history pre cfg).Waiting (.started board history' pre cfg) →
        ∃ es es', (run (step board) (.started board history pre cfg) evs).out =
            (Node.started board history pre cfg).out ++ es ∧
          (run (step board) (.started board history' pre cfg) evs).out =
            (Node.started board history' pre cfg).out ++ es' ∧
          es.map Effect.sent = es'.map Effect.sent) := by
  have hstarted := Node.alike_started board h pre cfg
  obtain ⟨hpackets, hend⟩ := gather_congr (R := Node.Alike) (g := Node.sends board)
    (fun _ _ e hnodes => hnodes.step board e)
    (fun _ _ e hnodes => congrArg Option.toList (hnodes.acquire board e).2) hstarted evs
  refine ⟨hpackets, hend.gates, hend.counts, fun hwaiting => ?_⟩
  have hserved := Node.GivenAlike.mk hwaiting
    ⟨[], [], (List.append_nil _).symm, (List.append_nil _).symm, rfl⟩
  exact (hserved.run hstarted board evs).out

/-- A run that was left in the middle of a decimation, its packet received. -/
def decimatedRun : List Event :=
  [.nextCsiPacket 2, .beginRun .monitor, .setReporting (.decimate 3),
    .capture (.quiet .zero 5 900) 1, .capture (.quiet .zero 6 910) 2,
    .capture (.quiet .zero 6 920) 3, .pollCsiPacket 2]

/-- One frame of a run after it and of a first run, received by a waiting task. -/
theorem run_isolated_decimated :
    (run (step .esp32) (.started .esp32 decimatedRun [.nextCsiPacket 2] .monitor)
        [.capture (.quiet .zero 7 100) 3, .pollCsiPacket 2]).gates =
      (run (step .esp32) (.started .esp32 [] [.nextCsiPacket 2] .monitor)
        [.capture (.quiet .zero 7 100) 3, .pollCsiPacket 2]).gates ∧
    ∃ es es', (run (step .esp32) (.started .esp32 decimatedRun [.nextCsiPacket 2] .monitor)
          [.capture (.quiet .zero 7 100) 3, .pollCsiPacket 2]).out =
        (Node.started .esp32 decimatedRun [.nextCsiPacket 2] .monitor).out ++ es ∧
      (run (step .esp32) (.started .esp32 [] [.nextCsiPacket 2] .monitor)
          [.capture (.quiet .zero 7 100) 3, .pollCsiPacket 2]).out =
        (Node.started .esp32 [] [.nextCsiPacket 2] .monitor).out ++ es' ∧
      es.map Effect.sent = es'.map Effect.sent :=
  have h : decimatedRun.filter Event.configures = [].filter Event.configures := rfl
  have hisolated := run_isolated .esp32 h [.nextCsiPacket 2]
    [.capture (.quiet .zero 7 100) 3, .pollCsiPacket 2] .monitor
  ⟨hisolated.2.1, hisolated.2.2.2 ⟨by decide +kernel, by decide +kernel, by decide +kernel,
    by decide +kernel⟩⟩

end EspCsi.Csi
