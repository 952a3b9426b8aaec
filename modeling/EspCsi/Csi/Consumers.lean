import EspCsi.Csi.Events

/-!
# Installed consumers

When a captured frame reaches the callback or the awaiting task it is due to. The publish gate holds
one consumer intent, written by installing a consumer and by the logging switch alike, so what
matters is the order of the calls.
-/

namespace EspCsi.Csi

open Wire Logging Transition

/-! ## Consumer intent -/

namespace Gates

/-- Calls that record the intent to consume. A call that awaits a packet does so in the `Off` mode
only. -/
def Installs (g : Gates) : Event → Prop
  | .setCsiCallback _ | .setCsiRawCallback _ | .initLogger _ _ => True
  | .setCsiLoggingEnabled enabled => enabled = true
  | .nextCsiPacket _ | .printCsi _ => g.csiDeliveryMode = .off
  | _ => False

def Withdraws (_ : Gates) : Event → Prop
  | .setCsiLoggingEnabled enabled => enabled = false
  | .reset => True
  | _ => False

/-- Since boot some call recorded the intent to consume, and none after it withdrew it. -/
def Installed (evs : List Event) : Prop := Since Gates.step Installs Withdraws boot evs

theorem step_userPublishIntent (g : Gates) (e : Event) :
    (g.step e).userPublishIntent = true ↔
      g.Installs e ∨ g.userPublishIntent = true ∧ ¬ g.Withdraws e := by
  cases e with
  | nextCsiPacket t | printCsi t =>
    by_cases hmode : g.csiDeliveryMode = .off <;>
      simp [Gates.step, Gates.enterAsync, Installs, Withdraws, hmode, Gates.applyPublishGate]
  | setCsiLoggingEnabled enabled =>
    cases enabled <;>
      simp [Gates.step, Gates.setCsiLoggingEnabled, Installs, Withdraws, Gates.applyPublishGate]
  | _ =>
    simp [Gates.step, Installs, Withdraws, Gates.setCsiCallback, Gates.setCsiRawCallback,
      Gates.clearCsiCallback, Gates.setCsiDeliveryMode, Gates.setCsiOutputEnabled,
      Gates.setCsiPeerFilter, Gates.setCsiMinSigMode, Gates.refreshFilterActive,
      Gates.setRuntimeReporting, Gates.setCsiQueueOverflow, Gates.setCsiLoggingEnabled,
      Gates.reset, Gates.applyPublishGate]

theorem userPublishIntent_iff_installed (evs : List Event) :
    (run Gates.step boot evs).userPublishIntent = true ↔ Installed evs :=
  flag_iff_since (F := fun g : Gates => g.userPublishIntent = true) Bool.false_ne_true
    step_userPublishIntent evs

theorem csiRawCallback_run (evs : List Event) (h : ∀ cb, Event.setCsiRawCallback cb ∉ evs) :
    (run Gates.step boot evs).csiRawCallback = none := by
  induction evs using List.reverseRecOn with
  | nil => rfl
  | append_singleton evs e ih =>
    have hprev := ih fun cb hcb => h cb (List.mem_append_left [e] hcb)
    rw [run_concat]
    cases e with
    | setCsiRawCallback cb => exact absurd (by simp) (h cb)
    | nextCsiPacket t | printCsi t =>
      simp only [Gates.step, Gates.enterAsync]
      split_ifs <;> exact hprev
    | _ => exact hprev

end Gates

/-! ## Served consumers -/

namespace Node

/-- The node reports, output is on, and the frame passes the filter and the policy. -/
structure Due (board : Board) (n : Node) (info : WifiCsiInfo) (now : UInt64) : Prop where
  reports : n.gates.reports = true
  output : n.gates.csiOutputEnabled = true
  filter : n.gates.csiPassesFilter board.chip info = true
  policy : n.PolicyAdmits info now

def Calling (n : Node) (cb : CallbackId) : Prop :=
  n.gates.csiDeliveryMode = .callback ∧ n.gates.csiCallback = some cb

/-- The task `t` is parked on an empty queue, and the queue is selected. -/
def Awaiting (n : Node) (t : TaskId) : Prop :=
  n.gates.csiDeliveryMode = .async ∧ n.csiWaker = some t ∧ n.csiQueue = []

/-- The frame is handed to the consumer that is due to receive it. -/
structure Served (board : Board) (n : Node) (info : WifiCsiInfo) (now : UInt64) : Prop where
  callback : ∀ cb, n.Calling cb → ∃ p s, n.packetOf board info now = some (p, s) ∧
    (n.captureCsiInfo board info now).out = n.out ++ [.callback cb p]
  awaiting : ∀ t, n.Awaiting t → ∃ p s, n.packetOf board info now = some (p, s) ∧
    (n.captureCsiInfo board info now).csiQueue = [p] ∧
    (n.captureCsiInfo board info now).out = n.out ++ [.enqueued p, .woken t]

/-- A due frame misses the consumer that is selected for it. -/
def Silenced (board : Board) (n : Node) (info : WifiCsiInfo) (now : UInt64) : Prop :=
  n.Due board info now ∧ ((∃ cb, n.Calling cb) ∨ ∃ t, n.Awaiting t) ∧ ¬ n.Served board info now

theorem deliver_calling {n : Node} {cb : CallbackId} (h : n.Calling cb) (chip : Chip)
    (p : CsiPacket) : (n.deliver chip p).out = n.out ++ [.callback cb p] := by
  obtain ⟨stats, hstats⟩ := recordTx_eq n chip p
  rw [deliver, hstats, dispatch]
  simp [h.1, h.2]

theorem deliver_awaiting {n : Node} {t : TaskId} (h : n.Awaiting t) (chip : Chip)
    (p : CsiPacket) :
    (n.deliver chip p).csiQueue = [p] ∧
      (n.deliver chip p).out = n.out ++ [.enqueued p, .woken t] := by
  obtain ⟨stats, hstats⟩ := recordTx_eq n chip p
  rw [deliver, hstats, dispatch]
  simp [h.1, h.2, enqueueCsi, enqueue, wake, CSI_QUEUE_LEN, observe]

theorem Delivers.served {board : Board} {n : Node} {info : WifiCsiInfo} {now : UInt64}
    (h : n.Delivers board info now) : n.Served board info now := by
  obtain ⟨p, session, rxCount, bbFormatHist, policy, hp, heq⟩ := captureCsiInfo_of_delivers h
  constructor
  · intro cb hcb
    refine ⟨p, session, hp, ?_⟩
    rw [heq]
    apply deliver_calling
    exact hcb
  · intro t ht
    refine ⟨p, session, hp, ?_⟩
    rw [heq]
    apply deliver_awaiting
    exact ht

theorem Served.delivers {board : Board} {n : Node} {info : WifiCsiInfo} {now : UInt64}
    (h : n.Served board info now) (hconsumer : (∃ cb, n.Calling cb) ∨ ∃ t, n.Awaiting t) :
    n.Delivers board info now := by
  by_contra hnot
  obtain ⟨stats, policy, out, heq, -, hout⟩ := captureCsiInfo_of_not_delivers hnot
  rcases hconsumer with ⟨cb, hcb⟩ | ⟨t, ht⟩
  · obtain ⟨p, s, -, hserved⟩ := h.callback cb hcb
    rw [heq] at hserved
    rcases hout with rfl | ⟨raw, rfl⟩ <;> simp at hserved
  · obtain ⟨p, s, -, -, hserved⟩ := h.awaiting t ht
    rw [heq] at hserved
    rcases hout with rfl | ⟨raw, rfl⟩ <;> simp at hserved

end Node

/-- After any calls from boot, a due frame reaches the selected consumer exactly when the intent to
consume was recorded and not withdrawn since, and the frame fits a packet. -/
theorem served_iff_installed (board : Board) (evs : List Event)
    (hraw : ∀ cb, Event.setCsiRawCallback cb ∉ evs) (info : WifiCsiInfo) (now : UInt64) :
    let n := run (step board) .boot evs
    (n.Due board info now → n.Served board info now) ↔
      (n.Due board info now → (∃ cb, n.Calling cb) ∨ (∃ t, n.Awaiting t) →
        Gates.Installed evs ∧ info.buf.length ≤ MAX_CSI_BYTES) := by
  intro n
  have hgates : n.gates = run Gates.step .boot evs := run_gates board .boot evs
  have hcached : n.gates.Cached := hgates ▸ Gates.cached_run evs
  have hnone : n.gates.csiRawCallback = none := hgates ▸ Gates.csiRawCallback_run evs hraw
  have hintent : n.gates.userPublishIntent = true ↔ Gates.Installed evs :=
    hgates ▸ Gates.userPublishIntent_iff_installed evs
  have hpublish (hdue : n.Due board info now) :
      n.gates.csiPublishEnabled = true ↔ Gates.Installed evs := by
    rw [hcached.publish, hdue.reports, hdue.output, ← hintent, Bool.and_true, Bool.and_true]
  constructor
  · intro h hdue hconsumer
    obtain ⟨-, hopen, -, -, hlen⟩ := (h hdue).delivers hconsumer
    exact ⟨(hpublish hdue).mp hopen, hlen⟩
  · intro h hdue
    by_cases hconsumer : (∃ cb, n.Calling cb) ∨ ∃ t, n.Awaiting t
    · obtain ⟨hinstalled, hlen⟩ := h hdue hconsumer
      exact Node.Delivers.served
        ⟨hnone, (hpublish hdue).mpr hinstalled, hdue.filter, hdue.policy, hlen⟩
    · -- nobody to serve
      exact ⟨fun cb hcb => absurd (.inl ⟨cb, hcb⟩) hconsumer,
        fun t ht => absurd (.inr ⟨t, ht⟩) hconsumer⟩

theorem served_iff_installed_callback :
    let n := run (step .esp32) .boot [.setReporting .HOST, .setCsiCallback 0]
    n.Served .esp32 (.quiet .zero 0 0) 0 :=
  (served_iff_installed .esp32 [.setReporting .HOST, .setCsiCallback 0] (by simp)
    (.quiet .zero 0 0) 0).mpr
    (fun _ _ => ⟨⟨[.setReporting .HOST], _, [], rfl, trivial, along_nil⟩,
      by simp [WifiCsiInfo.quiet, MAX_CSI_BYTES]⟩)
    ⟨rfl, rfl, rfl, rfl⟩

/-- Switching logging off silences a registered callback, and a queue selected before its consumer
first awaits never receives. -/
theorem consumers_silenced :
    (run (step .esp32) .boot
      [.setReporting .HOST, .setCsiCallback 0, .setCsiLoggingEnabled false]).Silenced .esp32
        (.quiet .zero 0 0) 0 ∧
    (run (step .esp32) .boot
      [.setReporting .HOST, .setCsiDeliveryMode .async, .nextCsiPacket 7]).Silenced .esp32
        (.quiet .zero 0 0) 0 := by
  constructor
  · refine ⟨⟨rfl, rfl, rfl, rfl⟩, .inl ⟨0, rfl, rfl⟩, fun h => ?_⟩
    have hopen := (h.delivers (.inl ⟨0, rfl, rfl⟩)).2.1
    exact absurd hopen (by decide)
  · refine ⟨⟨rfl, rfl, rfl, rfl⟩, .inr ⟨7, rfl, rfl, rfl⟩, fun h => ?_⟩
    have hopen := (h.delivers (.inr ⟨7, rfl, rfl, rfl⟩)).2.1
    exact absurd hopen (by decide)

end EspCsi.Csi
