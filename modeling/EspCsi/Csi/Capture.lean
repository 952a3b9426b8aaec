import EspCsi.Csi.Delivery

/-!
# What one captured frame can do

A captured frame is either withheld, which leaves a trace in the counters and the policy state only,
or built into a packet and delivered. Every later argument about captures goes through these two
cases.
-/

namespace EspCsi.Csi

open Wire Logging

/-! ## What a packet keeps of its frame -/

@[simp] theorem reportedAs_rxMeta (g : Gates) (score : UInt16) (frame : CsiFrame) :
    (reportedAs g score frame).rxMeta = frame.rxMeta := by
  unfold reportedAs
  split_ifs <;> rfl

@[simp] theorem reportedAs_header (g : Gates) (score : UInt16) (frame : CsiFrame) :
    (reportedAs g score frame).header = frame.header := by
  unfold reportedAs
  split_ifs <;> rfl

@[simp] theorem reportedAs_stimulus (g : Gates) (score : UInt16) (frame : CsiFrame) :
    (reportedAs g score frame).stimulus = frame.stimulus := by
  unfold reportedAs
  split_ifs <;> rfl

@[simp] theorem reportedAs_transmitter (g : Gates) (score : UInt16) (frame : CsiFrame) :
    (reportedAs g score frame).transmitter = frame.transmitter := by
  unfold reportedAs
  split_ifs <;> rfl

theorem CsiPacket.new_eq (board : Board) (s : Session) (frame : CsiFrame) (source : SourceKind)
    (now : UInt64) :
    (new board s frame source now).1.frame = frame ∧
      ∃ streamSeq anchorPending,
        (new board s frame source now).2 = { s with streamSeq, anchorPending } := by
  refine ⟨rfl, ?_⟩
  cases h : s.anchorPending with
  | true =>
    refine ⟨s.streamSeq + 1, false, ?_⟩
    simp [new, Session.takeAnnouncement, Session.nextEnvelope, h]
  | false =>
    refine ⟨s.streamSeq + 1, s.anchorPending, ?_⟩
    simp [new, Session.takeAnnouncement, Session.nextEnvelope, h]

theorem frameFromEsp_eq_some {board : Board} {s s' : Session} {info : WifiCsiInfo}
    {frame : CsiFrame} (h : frameFromEsp board s info = some (frame, s')) :
    let widened := s.widenTimestamp info.timestampUs.toUInt32
    frame.rxMeta = (rxMeta board.chip info widened.1).1 ∧
      frame.stimulus = s.stimulus info.mac (instanceIn s info) ∧ s' = widened.2 := by
  by_cases hlen : info.buf.length ≤ MAX_CSI_BYTES
  swap
  · simp [frameFromEsp, hlen] at h
  simp only [frameFromEsp, hlen, dite_true] at h
  obtain ⟨rfl, rfl⟩ := Prod.mk.inj (Option.some_inj.mp h)
  exact ⟨rfl, rfl, rfl⟩

namespace Node

/-! ## Frame lemmas of the delivery path -/

@[simp] theorem observe_gates (n : Node) (e : Effect) : (n.observe e).gates = n.gates := rfl
@[simp] theorem observe_session (n : Node) (e : Effect) : (n.observe e).session = n.session := rfl
@[simp] theorem observe_stats (n : Node) (e : Effect) : (n.observe e).stats = n.stats := rfl
@[simp] theorem observe_out (n : Node) (e : Effect) : (n.observe e).out = n.out ++ [e] := rfl

@[simp] theorem wake_gates (n : Node) : n.wake.gates = n.gates := by
  unfold wake
  split <;> rfl

@[simp] theorem wake_session (n : Node) : n.wake.session = n.session := by
  unfold wake
  split <;> rfl

@[simp] theorem wake_stats (n : Node) : n.wake.stats = n.stats := by
  unfold wake
  split <;> rfl

@[simp] theorem enqueue_csiQueue (n : Node) (p : CsiPacket) :
    (n.enqueue p).csiQueue = n.csiQueue ++ [p] := by
  unfold enqueue wake
  split <;> rfl

@[simp] theorem enqueueCsi_gates (n : Node) (p : CsiPacket) :
    (n.enqueueCsi p).gates = n.gates := by
  unfold enqueueCsi overflow
  split_ifs <;> simp [enqueue, chargeLoss]

@[simp] theorem enqueueCsi_session (n : Node) (p : CsiPacket) :
    (n.enqueueCsi p).session = n.session := by
  unfold enqueueCsi overflow
  split_ifs <;> simp [enqueue, chargeLoss]

theorem enqueueCsi_stats (n : Node) (p : CsiPacket) :
    (n.enqueueCsi p).stats = n.stats ∨ (n.enqueueCsi p).stats = n.stats.recordLoss .queueFull 1 := by
  unfold enqueueCsi overflow
  split_ifs <;> simp [enqueue, chargeLoss]

@[simp] theorem dispatch_gates (n : Node) (p : CsiPacket) : (n.dispatch p).gates = n.gates := by
  unfold dispatch
  split
  · split <;> rfl
  · exact enqueueCsi_gates n p
  · split_ifs <;> rfl

@[simp] theorem dispatch_session (n : Node) (p : CsiPacket) :
    (n.dispatch p).session = n.session := by
  unfold dispatch
  split
  · split <;> rfl
  · exact enqueueCsi_session n p
  · split_ifs <;> rfl

theorem dispatch_stats (n : Node) (p : CsiPacket) :
    (n.dispatch p).stats = n.stats ∨ (n.dispatch p).stats = n.stats.recordLoss .queueFull 1 := by
  unfold dispatch
  split
  · split <;> exact .inl rfl
  · exact enqueueCsi_stats n p
  · split_ifs <;> exact .inl rfl

theorem recordTx_eq (n : Node) (chip : Chip) (p : CsiPacket) :
    ∃ stats, n.recordTx chip p = { n with stats } := by
  unfold recordTx
  split_ifs <;> exact ⟨_, rfl⟩

@[simp] theorem recordTx_gates (n : Node) (chip : Chip) (p : CsiPacket) :
    (n.recordTx chip p).gates = n.gates := by
  obtain ⟨stats, h⟩ := recordTx_eq n chip p
  rw [h]

@[simp] theorem recordTx_session (n : Node) (chip : Chip) (p : CsiPacket) :
    (n.recordTx chip p).session = n.session := by
  obtain ⟨stats, h⟩ := recordTx_eq n chip p
  rw [h]

@[simp] theorem deliver_gates (n : Node) (chip : Chip) (p : CsiPacket) :
    (n.deliver chip p).gates = n.gates := by
  simp [deliver]

@[simp] theorem deliver_session (n : Node) (chip : Chip) (p : CsiPacket) :
    (n.deliver chip p).session = n.session := by
  simp [deliver]

@[simp] theorem logCsi_gates (n : Node) (p : CsiPacket) : (n.logCsi p).gates = n.gates := rfl

@[simp] theorem loggerBackend_gates (n : Node) : n.loggerBackend.gates = n.gates := by
  unfold loggerBackend
  split <;> rfl

@[simp] theorem pollCsiPacket_gates (n : Node) (t : TaskId) :
    (n.pollCsiPacket t).gates = n.gates := by
  unfold pollCsiPacket takeCsi
  cases n.csiQueue <;> rfl

@[simp] theorem pollPrintCsi_gates (n : Node) (t : TaskId) :
    (n.pollPrintCsi t).gates = n.gates := by
  unfold pollPrintCsi takeCsi
  cases n.csiQueue <;> rfl

@[simp] theorem processOutputChanged_gates (n : Node) : n.processOutputChanged.gates = n.gates := by
  unfold processOutputChanged
  split_ifs <;> rfl

/-! ## Withheld or delivered -/

def PolicyAdmits (n : Node) (info : WifiCsiInfo) (now : UInt64) : Prop :=
  (admitCapture n.gates n.policy info now).1 = true

instance (n : Node) (info : WifiCsiInfo) (now : UInt64) : Decidable (n.PolicyAdmits info now) :=
  inferInstanceAs (Decidable (_ = _))

/-- The frame makes it to delivery: past the raw callback, the publish gate, the filter and the
policy, and into a packet. -/
def Delivers (board : Board) (n : Node) (info : WifiCsiInfo) (now : UInt64) : Prop :=
  n.gates.csiRawCallback = none ∧ n.gates.csiPublishEnabled = true ∧
    n.gates.csiPassesFilter board.chip info = true ∧ n.PolicyAdmits info now ∧
    info.buf.length ≤ MAX_CSI_BYTES

instance (board : Board) (n : Node) (info : WifiCsiInfo) (now : UInt64) :
    Decidable (n.Delivers board info now) :=
  inferInstanceAs (Decidable (_ ∧ _))

/-- The packet an admitted frame is delivered as, and the session state it leaves. -/
def packetOf (board : Board) (n : Node) (info : WifiCsiInfo) (now : UInt64) :
    Option (CsiPacket × Session) :=
  (CsiPacket.fromWifiCsiInfo board n.session info now).map fun built =>
    ({ built.1 with
        frame := reportedAs n.gates (admitCapture n.gates n.policy info now).2.1 built.1.frame },
      built.2)

theorem packetOf_eq_some {board : Board} {n : Node} {info : WifiCsiInfo} {now : UInt64}
    {p : CsiPacket} {session : Session} (h : n.packetOf board info now = some (p, session)) :
    ∃ frame s score streamSeq anchorPending,
      frameFromEsp board n.session info = some (frame, s) ∧
      p.frame = reportedAs n.gates score frame ∧
      session = { s with streamSeq, anchorPending } := by
  rw [packetOf, CsiPacket.fromWifiCsiInfo] at h
  cases hframe : frameFromEsp board n.session info with
  | none => simp [hframe] at h
  | some built =>
    simp only [hframe, Option.map_some] at h
    obtain ⟨rfl, rfl⟩ := Prod.mk.inj (Option.some_inj.mp h)
    obtain ⟨hkept, streamSeq, anchorPending, hsession⟩ :=
      CsiPacket.new_eq board built.2 built.1 .espVendor now
    exact ⟨built.1, built.2, _, streamSeq, anchorPending, rfl, congrArg (reportedAs n.gates _) hkept,
      hsession⟩

theorem fromWifiCsiInfo_isSome (board : Board) (s : Session) (info : WifiCsiInfo) (now : UInt64) :
    (CsiPacket.fromWifiCsiInfo board s info now).isSome ↔ info.buf.length ≤ MAX_CSI_BYTES := by
  unfold CsiPacket.fromWifiCsiInfo frameFromEsp
  split_ifs with h <;> simp [h]

theorem countCapture_eq (n : Node) (chip : Chip) (info : WifiCsiInfo) :
    ∃ rxCount bbFormatHist,
      n.countCapture chip info = { n with stats := { n.stats with rxCount, bbFormatHist } } := by
  unfold countCapture
  split_ifs <;> exact ⟨_, _, rfl⟩

theorem acquireCapture_of_delivers {board : Board} {n : Node} {info : WifiCsiInfo} {now : UInt64}
    (h : n.Delivers board info now) :
    ∃ p session rxCount bbFormatHist policy,
      n.packetOf board info now = some (p, session) ∧
      n.acquireCapture board info now =
        ({ n with session, stats := { n.stats with rxCount, bbFormatHist }, policy }, some p) := by
  obtain ⟨hraw, hpub, hfilter, hpolicy, hlen⟩ := h
  obtain ⟨rxCount, bbFormatHist, hcount⟩ := countCapture_eq n board.chip info
  obtain ⟨built, hbuilt⟩ := Option.isSome_iff_exists.mp
    ((fromWifiCsiInfo_isSome board n.session info now).mpr hlen)
  have hadmit : (admitCapture n.gates n.policy info now).1 = true := hpolicy
  let judged := admitCapture n.gates n.policy info now
  refine ⟨{ built.1 with frame := reportedAs n.gates judged.2.1 built.1.frame }, built.2, rxCount,
    bbFormatHist, judged.2.2, ?_, ?_⟩
  · rw [packetOf, hbuilt]
    rfl
  · simp [acquireCapture, hcount, hraw, hpub, hfilter, hadmit, buildCapture, hbuilt, judged]

theorem captureCsiInfo_of_delivers {board : Board} {n : Node} {info : WifiCsiInfo} {now : UInt64}
    (h : n.Delivers board info now) :
    ∃ p session rxCount bbFormatHist policy,
      n.packetOf board info now = some (p, session) ∧
      n.captureCsiInfo board info now =
        deliver { n with session, stats := { n.stats with rxCount, bbFormatHist }, policy }
          board.chip p := by
  obtain ⟨p, session, rxCount, bbFormatHist, policy, hp, heq⟩ := acquireCapture_of_delivers h
  refine ⟨p, session, rxCount, bbFormatHist, policy, hp, ?_⟩
  rw [captureCsiInfo, heq, deliverAcquired]

/-- What a withheld frame leaves of the counters: nothing but the count of captures, of withheld
frames by their cause, and at most one oversize loss. -/
def CountsOnly (before after : Stats) : Prop :=
  ∃ rxCount bbFormatHist rxFiltered rxPolicySuppressed,
    let counted := { before with rxCount, bbFormatHist, rxFiltered, rxPolicySuppressed }
    after = counted ∨ after = counted.recordLoss .oversize 1

/-- A withheld frame leaves its trace in the counters and the policy state, and a raw callback at
most outside. -/
theorem acquireCapture_of_not_delivers {board : Board} {n : Node} {info : WifiCsiInfo}
    {now : UInt64} (h : ¬ n.Delivers board info now) :
    ∃ stats policy out,
      n.acquireCapture board info now = ({ n with stats, policy, out }, none) ∧
      CountsOnly n.stats stats ∧ (out = n.out ∨ ∃ cb, out = n.out ++ [.rawCallback cb]) := by
  obtain ⟨rxCount, bbFormatHist, hcount⟩ := countCapture_eq n board.chip info
  rw [acquireCapture, hcount]
  cases hraw : n.gates.csiRawCallback with
  -- the raw callback takes the frame before any gate
  | some cb =>
    refine ⟨{ n.stats with rxCount, bbFormatHist }, n.policy, n.out ++ [.rawCallback cb], ?_,
      ⟨rxCount, bbFormatHist, _, _, .inl rfl⟩, .inr ⟨cb, rfl⟩⟩
    simp [observe]
  | none =>
    by_cases hpub : n.gates.csiPublishEnabled = true
    · by_cases hfilter : n.gates.csiPassesFilter board.chip info = true
      · by_cases hpolicy : n.PolicyAdmits info now
        -- admitted, but too large for a packet: the only case that charges a loss
        · have hbuilt : CsiPacket.fromWifiCsiInfo board n.session info now = none := by
            rw [← Option.not_isSome_iff_eq_none, fromWifiCsiInfo_isSome]
            exact fun hlen => h ⟨hraw, hpub, hfilter, hpolicy, hlen⟩
          have hadmit : (admitCapture n.gates n.policy info now).1 = true := hpolicy
          refine ⟨({ n.stats with rxCount, bbFormatHist }).recordLoss .oversize 1,
            (admitCapture n.gates n.policy info now).2.2, n.out, ?_,
            ⟨rxCount, bbFormatHist, _, _, .inr rfl⟩, .inl rfl⟩
          simp [hpub, hfilter, hadmit, buildCapture, hbuilt, chargeLoss]
        · have hadmit : (admitCapture n.gates n.policy info now).1 = false := by
            simpa [PolicyAdmits] using hpolicy
          refine ⟨{ n.stats with
              rxCount, bbFormatHist, rxPolicySuppressed := n.stats.rxPolicySuppressed + 1 },
            (admitCapture n.gates n.policy info now).2.2, n.out, ?_,
            ⟨rxCount, bbFormatHist, _, _, .inl rfl⟩, .inl rfl⟩
          simp [hpub, hfilter, hadmit, countSuppressed]
      · refine ⟨{ n.stats with rxCount, bbFormatHist, rxFiltered := n.stats.rxFiltered + 1 },
          n.policy, n.out, ?_, ⟨rxCount, bbFormatHist, _, _, .inl rfl⟩, .inl rfl⟩
        simp [hpub, hfilter, countFiltered]
    · refine ⟨{ n.stats with rxCount, bbFormatHist }, n.policy, n.out, ?_,
        ⟨rxCount, bbFormatHist, _, _, .inl rfl⟩, .inl rfl⟩
      simp [hpub]

theorem captureCsiInfo_of_not_delivers {board : Board} {n : Node} {info : WifiCsiInfo}
    {now : UInt64} (h : ¬ n.Delivers board info now) :
    ∃ stats policy out,
      n.captureCsiInfo board info now = { n with stats, policy, out } ∧
      CountsOnly n.stats stats ∧ (out = n.out ∨ ∃ cb, out = n.out ++ [.rawCallback cb]) := by
  obtain ⟨stats, policy, out, heq, hstats, hout⟩ := acquireCapture_of_not_delivers h
  refine ⟨stats, policy, out, ?_, hstats, hout⟩
  rw [captureCsiInfo, heq, deliverAcquired]

@[simp] theorem captureCsiInfo_gates (board : Board) (n : Node) (info : WifiCsiInfo)
    (now : UInt64) : (n.captureCsiInfo board info now).gates = n.gates := by
  by_cases h : n.Delivers board info now
  · obtain ⟨p, session, rxCount, bbFormatHist, policy, -, heq⟩ := captureCsiInfo_of_delivers h
    rw [heq, deliver_gates]
  · obtain ⟨stats, policy, out, heq, -⟩ := captureCsiInfo_of_not_delivers h
    rw [heq]

/-! ## Other sources -/

def Emits (n : Node) (frame : CsiFrame) (now : UInt64) : Prop :=
  n.gates.csiPublishEnabled = true ∧ (policyAdmitsFrame n.gates n.policy frame now).1 = true

instance (n : Node) (frame : CsiFrame) (now : UInt64) : Decidable (n.Emits frame now) :=
  inferInstanceAs (Decidable (_ ∧ _))

def emittedPacket (board : Board) (n : Node) (kind : SourceKind) (frame : CsiFrame)
    (now : UInt64) : CsiPacket × Session :=
  CsiPacket.new board n.session (policyAdmitsFrame n.gates n.policy frame now).2.1 kind now

theorem acquireEmit_of_emits {board : Board} {n : Node} {kind : SourceKind} {frame : CsiFrame}
    {now : UInt64} (h : n.Emits frame now) :
    n.acquireEmit board kind frame now =
      ({ n with
          session := (n.emittedPacket board kind frame now).2
          stats := n.stats.recordCollectorRx
          policy := (policyAdmitsFrame n.gates n.policy frame now).2.2 },
        some (n.emittedPacket board kind frame now).1) := by
  simp [acquireEmit, h.1, h.2, buildEmitted, emittedPacket]

theorem acquireEmit_of_not_emits (board : Board) {n : Node} (kind : SourceKind) {frame : CsiFrame}
    {now : UInt64} (h : ¬ n.Emits frame now) :
    ∃ stats policy, n.acquireEmit board kind frame now = ({ n with stats, policy }, none) := by
  by_cases hpub : n.gates.csiPublishEnabled = true
  · have hpolicy : (policyAdmitsFrame n.gates n.policy frame now).1 = false := by
      simpa [Emits, hpub] using h
    refine ⟨{ n.stats with rxPolicySuppressed := n.stats.rxPolicySuppressed + 1 },
      (policyAdmitsFrame n.gates n.policy frame now).2.2, ?_⟩
    simp [acquireEmit, hpub, hpolicy, countSuppressed]
  · refine ⟨n.stats, n.policy, ?_⟩
    simp [acquireEmit, hpub]

@[simp] theorem emit_gates (board : Board) (n : Node) (kind : SourceKind) (frame : CsiFrame)
    (now : UInt64) : (n.emit board kind frame now).2.gates = n.gates := by
  by_cases h : n.Emits frame now
  · simp [emit, acquireEmit_of_emits h, deliverAcquired]
  · obtain ⟨stats, policy, heq⟩ := acquireEmit_of_not_emits board kind h
    simp [emit, heq, deliverAcquired]

end Node

end EspCsi.Csi
