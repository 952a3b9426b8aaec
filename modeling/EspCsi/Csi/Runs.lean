import EspCsi.Csi.Announcement

/-!
# The queue across runs

Which packets a run's consumer is handed. The queue outlives the run: `begin_run` restarts the
session context that packets are built in, and nothing takes out what was queued, or was on its way
to the queue, before.
-/

namespace EspCsi.Csi

open Wire Logging Transition

/-! ## What a packet is built from -/

theorem CsiPacket.new_envelope (board : Board) (s : Session) (frame : CsiFrame)
    (source : SourceKind) (now : UInt64) :
    (new board s frame source now).1.envelope =
      .new board.baseMac s.sessionId source s.streamSeq := by
  cases h : s.anchorPending <;>
    simp [new, Session.takeAnnouncement, Session.nextEnvelope, h]

theorem delivered_envelope {board : Board} {n : Node} {e : Event} {p : CsiPacket}
    (h : n.delivered board e = some p) :
    p.envelope.sessionId = n.session.sessionId ∧ p.envelope.streamSeq = n.session.streamSeq := by
  cases e with
  | capture info now =>
    by_cases hdel : n.Delivers board info now
    · obtain ⟨q, session, rxCount, bbFormatHist, policy, hq, heq⟩ :=
        Node.acquireCapture_of_delivers hdel
      obtain rfl : q = p := by simpa [Node.delivered, acquire, heq] using h
      obtain ⟨tsLastRaw, tsWraps, hwiden⟩ :=
        n.session.widenTimestamp_snd info.timestampUs.toUInt32
      simp only [Node.packetOf, CsiPacket.fromWifiCsiInfo, frameFromEsp, hdel.2.2.2.2, dite_true,
        Option.map_some, hwiden] at hq
      obtain ⟨rfl, rfl⟩ := Prod.mk.inj (Option.some_inj.mp hq)
      simp only [CsiPacket.new_envelope]
      exact ⟨rfl, rfl⟩
    · obtain ⟨stats, policy, out, heq, -⟩ := Node.acquireCapture_of_not_delivers hdel
      simp [Node.delivered, acquire, heq] at h
  | emit kind frame now =>
    by_cases hemits : n.Emits frame now
    · obtain rfl : (n.emittedPacket board kind frame now).1 = p := by
        simpa [Node.delivered, acquire, Node.acquireEmit_of_emits hemits] using h
      rw [Node.emittedPacket, CsiPacket.new_envelope]
      exact ⟨rfl, rfl⟩
    · obtain ⟨stats, policy, heq⟩ := Node.acquireEmit_of_not_emits board kind hemits
      simp [Node.delivered, acquire, heq] at h
  | _ => simp [Node.delivered, acquire] at h

def Event.measures : Event → Bool
  | .capture .. | .emit .. => true
  | _ => false

theorem delivered_of_not_measures (board : Board) (n : Node) {e : Event}
    (h : e.measures = false) : n.delivered board e = none := by
  cases e with
  | capture | emit => simp [Event.measures] at h
  | _ => rfl

/-! ## What the consumer takes -/

/-- The packet that a poll of `next_csi_packet` returns, on its own or within
`print_csi_w_metadata`. -/
def Node.taken (n : Node) : Event → Option CsiPacket
  | .nextCsiPacket t | .printCsi t => (n.enterAsync.takeCsi t).1
  | .pollCsiPacket t | .pollPrintCsi t => (n.takeCsi t).1
  | _ => none

theorem Node.takeCsi_fst (n : Node) (t : TaskId) : (n.takeCsi t).1 = n.csiQueue.head? := by
  unfold takeCsi
  cases n.csiQueue <;> rfl

theorem Node.mem_queue_of_taken {n : Node} {e : Event} {p : CsiPacket} (h : n.taken e = some p) :
    p ∈ n.csiQueue := by
  cases e with
  | nextCsiPacket t | printCsi t | pollCsiPacket t | pollPrintCsi t =>
    rw [taken, takeCsi_fst] at h
    exact List.mem_of_mem_head? h
  | _ => simp [taken] at h

theorem Node.taken_of_delivered {board : Board} {n : Node} {e : Event} {p : CsiPacket}
    (h : n.delivered board e = some p) : n.taken e = none := by
  cases e with
  | capture | emit => rfl
  | _ => simp [delivered, acquire] at h

theorem csiQueue_step {board : Board} {n : Node} {e : Event} (h : n.delivered board e = none) :
    n.csiQueue = (n.taken e).toList ++ (step board n e).csiQueue := by
  cases hdrain : e.drains with
  | false =>
    have hnone : n.taken e = none := by
      cases e with
      | nextCsiPacket | printCsi | pollCsiPacket | pollPrintCsi => simp [Event.drains] at hdrain
      | _ => rfl
    rw [(step_of_undelivered h hdrain).1, hnone]
    rfl
  | true =>
    cases e with
    | nextCsiPacket t | pollCsiPacket t =>
      simp only [step, Node.pollCsiPacket, Node.taken, Node.takeCsi, Node.enterAsync, Node.observe]
      cases n.csiQueue <;> rfl
    | printCsi t | pollPrintCsi t =>
      simp only [step, Node.pollPrintCsi, Node.taken, Node.takeCsi, Node.enterAsync, Node.logCsi]
      cases n.csiQueue <;> rfl
    | loggerBackend =>
      simp only [step, Node.loggerBackend, Node.taken]
      split <;> rfl
    | _ => simp [Event.drains] at hdrain

/-! ## What is on its way to the queue -/

/-- Whether a delivery that has got this far may still enqueue its packet. -/
def Stage.reachesQueue : Stage → Bool
  | .call | .log => false
  | .account | .dispatch | .store | .overflow | .evict | .retry => true

theorem Stage.mem_queue_advance {chip : Chip} {n : Node} {q p : CsiPacket} {stage : Stage}
    (h : p ∈ (stage.advance chip n q).1.csiQueue) :
    p ∈ n.csiQueue ∨ stage.reachesQueue = true ∧ p = q := by
  cases stage with
  | account =>
    obtain ⟨stats, heq⟩ := n.recordTx_eq chip q
    rw [Stage.advance, heq] at h
    exact .inl h
  | dispatch =>
    simp only [Stage.advance] at h
    split at h <;> exact .inl h
  | call =>
    simp only [Stage.advance] at h
    split at h <;> exact .inl h
  | store | retry =>
    simp only [Stage.advance] at h
    split_ifs at h
    · rw [Node.enqueue_csiQueue, List.mem_append, List.mem_singleton] at h
      exact h.imp_right fun heq => ⟨rfl, heq⟩
    · exact .inl h
  | overflow =>
    simp only [Stage.advance] at h
    split_ifs at h <;> exact .inl h
  | evict => exact .inl (List.mem_of_mem_tail h)
  | log =>
    simp only [Stage.advance] at h
    split_ifs at h <;> exact .inl h

theorem Stage.reachesQueue_of_advance {chip : Chip} {n : Node} {q : CsiPacket}
    {stage stage' : Stage} (h : (stage.advance chip n q).2 = some stage') :
    stage.reachesQueue = true := by
  cases stage with
  | call => cases hcallback : n.gates.csiCallback <;> simp [Stage.advance, hcallback] at h
  | log =>
    simp only [Stage.advance] at h
    split_ifs at h
  | _ => rfl

namespace Interleaved

/-- The packet is in the queue, or may still get there. -/
def Pending (s : Interleaved) (p : CsiPacket) : Prop :=
  p ∈ s.node.csiQueue ∨ ∃ u ∈ s.underway, u.1.reachesQueue = true ∧ u.2 = p

theorem pending_advance {board : Board} {s : Interleaved} {i : ℕ} {p : CsiPacket}
    (h : (s.advance board i).Pending p) : s.Pending p := by
  cases hi : s.underway[i]? with
  | none => simpa [advance, hi] using h
  | some held =>
    obtain ⟨stage, q⟩ := held
    have hheld : (stage, q) ∈ s.underway := List.mem_of_getElem? hi
    have hqueue (hp : p ∈ (stage.advance board.chip s.node q).1.csiQueue) : s.Pending p := by
      rcases Stage.mem_queue_advance hp with hold | ⟨hreaches, rfl⟩
      · exact .inl hold
      · exact .inr ⟨(stage, p), hheld, hreaches, rfl⟩
    cases hnext : stage.advance board.chip s.node q with
    | mk node next =>
      rw [hnext] at hqueue
      simp only [advance, hi, hnext] at h
      cases next with
      | none =>
        rcases h with hp | ⟨u, hu, hreaches, rfl⟩
        · exact hqueue hp
        · exact .inr ⟨u, List.mem_of_mem_eraseIdx hu, hreaches, rfl⟩
      | some stage' =>
        rcases h with hp | ⟨u, hu, hreaches, rfl⟩
        · exact hqueue hp
        · rcases List.mem_or_eq_of_mem_set hu with hold | rfl
          · exact .inr ⟨u, hold, hreaches, rfl⟩
          · have hstage := Stage.reachesQueue_of_advance (congrArg Prod.snd hnext)
            exact .inr ⟨(stage, q), hheld, hstage, rfl⟩

theorem pending_begin {board : Board} {s : Interleaved} {e : Event} {p : CsiPacket}
    (h : (s.begin board e).Pending p) :
    s.Pending p ∨ s.node.delivered board e = some p := by
  cases hdel : s.node.delivered board e with
  | some q =>
    obtain ⟨session, stats, policy, heq⟩ := acquire_of_delivered hdel
    have hsnd : (acquire board s.node e).2 = some q := hdel
    rcases h with hp | ⟨u, hu, hreaches, rfl⟩
    · rw [begin, heq] at hp
      exact .inl (.inl hp)
    · rw [begin, hsnd] at hu
      rcases List.mem_append.mp hu with hold | hnew
      · exact .inl (.inr ⟨u, hold, hreaches, rfl⟩)
      · right
        simp at hnew
        rw [hnew]
  | none =>
    rw [begin, acquire_of_not_delivered hdel] at h
    left
    rcases h with hp | ⟨u, hu, hreaches, rfl⟩
    · refine .inl ?_
      rw [csiQueue_step hdel]
      exact List.mem_append_right _ hp
    · exact .inr ⟨u, by simpa using hu, hreaches, rfl⟩

/-! ## A run's own packets -/

/-- The packet was captured in the run, and carries its session and a number of its stream. -/
def CapturedIn (board : Board) (s : Interleaved) (as : List Action) (p : CsiPacket) : Prop :=
  ∃ pre e, pre ++ [.call e] <+: as ∧
    (run (step board) s pre).node.delivered board e = some p ∧
    p.envelope.sessionId = (run (step board) s pre).node.session.sessionId ∧
    p.envelope.streamSeq = (run (step board) s pre).node.session.streamSeq

/-- Every packet that `next_csi_packet` returns was captured in the run. -/
def ReturnsOwn (board : Board) (s : Interleaved) (as : List Action) : Prop :=
  ∀ pre e p, pre ++ [.call e] <+: as → (run (step board) s pre).node.taken e = some p →
    CapturedIn board s pre p

theorem CapturedIn.mono {board : Board} {s : Interleaved} {as bs : List Action} {p : CsiPacket}
    (h : CapturedIn board s as p) (hle : as <+: bs) : CapturedIn board s bs p := by
  obtain ⟨pre, e, hpre, hcap⟩ := h
  exact ⟨pre, e, hpre.trans hle, hcap⟩

theorem not_capturedIn {board : Board} {s : Interleaved} {as : List Action} {p : CsiPacket}
    (h : ∀ e, .call e ∈ as → e.measures = false) : ¬ CapturedIn board s as p := by
  rintro ⟨pre, e, hpre, hdel, -⟩
  have hmem : Action.call e ∈ as := hpre.subset (by simp)
  rw [delivered_of_not_measures board _ (h e hmem)] at hdel
  cases hdel

/-- Nothing is queued, and no delivery under way can still get to the queue. -/
def QueueClear (s : Interleaved) : Prop :=
  s.node.csiQueue = [] ∧ ∀ u ∈ s.underway, u.1.reachesQueue = false

instance (s : Interleaved) : Decidable s.QueueClear := inferInstanceAs (Decidable (_ ∧ _))

theorem capturedIn_of_pending {board : Board} {s : Interleaved} (h : s.QueueClear)
    (as : List Action) : ∀ p, (run (step board) s as).Pending p → CapturedIn board s as p := by
  induction as using List.reverseRecOn with
  | nil =>
    rintro p (hp | ⟨u, hu, hreaches, -⟩)
    · rw [run_nil, h.1] at hp
      simp at hp
    · rw [h.2 u hu] at hreaches
      cases hreaches
  | append_singleton as a ih =>
    intro p hp
    rw [run_concat] at hp
    cases a with
    | call e =>
      rcases pending_begin hp with hold | hnew
      · exact (ih p hold).mono (List.prefix_append as _)
      · exact ⟨as, e, List.prefix_rfl, hnew, delivered_envelope hnew⟩
    | advance i => exact (ih p (pending_advance hp)).mono (List.prefix_append as _)

theorem returnsOwn_of_clear {board : Board} {s : Interleaved} (h : s.QueueClear)
    (as : List Action) : ReturnsOwn board s as := by
  intro pre e p _ htaken
  exact capturedIn_of_pending h pre p (.inl (Node.mem_queue_of_taken htaken))

/-! ## What was on its way before -/

theorem exists_queued (board : Board) (n : Node) {us : List (Stage × CsiPacket)} {i : ℕ}
    {stage : Stage} {p : CsiPacket} (hi : us[i]? = some (stage, p))
    (hreaches : stage.reachesQueue = true) (hqueue : n.csiQueue = [])
    (hmode : n.gates.csiDeliveryMode = .async) (hold : n.gates.overflowDropOldest = true) :
    ∃ k, (run (step board) ⟨n, us⟩ (List.replicate k (.advance i))).node.csiQueue = [p] := by
  obtain ⟨hlt, hentry⟩ := List.getElem?_eq_some_iff.mp hi
  cases stage with
  | retry | store =>
    exact ⟨1, by simp [step, advance, hlt, hentry, Stage.advance, hqueue, CSI_QUEUE_LEN]⟩
  | evict =>
    refine ⟨2, ?_⟩
    simp [List.replicate, step, advance, hlt, hentry, Stage.advance, hqueue, CSI_QUEUE_LEN]
  | overflow =>
    refine ⟨3, ?_⟩
    simp [List.replicate, step, advance, hlt, hentry, Stage.advance, hqueue, CSI_QUEUE_LEN, hold]
  | dispatch =>
    refine ⟨2, ?_⟩
    simp [List.replicate, step, advance, hlt, hentry, Stage.advance, hqueue, CSI_QUEUE_LEN, hmode]
  | account =>
    obtain ⟨stats, heq⟩ := n.recordTx_eq board.chip p
    refine ⟨3, ?_⟩
    simp [List.replicate, step, advance, hlt, hentry, Stage.advance, hqueue, CSI_QUEUE_LEN, hmode,
      heq]
  | call | log => simp [Stage.reachesQueue] at hreaches

theorem clear_of_returnsOwn {board : Board} {s : Interleaved}
    (h : ∀ as, (∀ cfg, .call (.beginRun cfg) ∉ as) → ReturnsOwn board s as) : s.QueueClear := by
  -- nothing is measured ahead of the packet that the last poll returns
  have hnothing (as : List Action) (hquiet : ∀ e, .call e ∈ as → e.measures = false)
      (hbegin : ∀ cfg, .call (.beginRun cfg) ∉ as) :
      (run (step board) s as).node.csiQueue = [] := by
    cases hqueue : (run (step board) s as).node.csiQueue with
    | nil => rfl
    | cons p rest =>
      have hown := h (as ++ [.call (.pollCsiPacket 0)]) (by simpa using hbegin)
      have htaken : (run (step board) s as).node.taken (.pollCsiPacket 0) = some p := by
        rw [Node.taken, Node.takeCsi_fst, hqueue, List.head?_cons]
      exact absurd (hown as _ p List.prefix_rfl htaken) (not_capturedIn hquiet)
  have hempty : s.node.csiQueue = [] := hnothing [] (by simp) (by simp)
  refine ⟨hempty, fun u hu => ?_⟩
  by_contra hreaches
  obtain ⟨i, hi⟩ := List.getElem?_of_mem hu
  -- the calls that let the delivery through
  let gates := (s.node.gates.setCsiDeliveryMode .async).setCsiQueueOverflow .dropOldest
  have hselect : run (step board) s
      [.call (.setCsiDeliveryMode .async), .call (.setCsiQueueOverflow .dropOldest)] =
        ⟨{ s.node with gates }, s.underway⟩ := by
    simp [step, begin, acquire, Csi.step, gates]
  obtain ⟨k, hk⟩ := exists_queued board { s.node with gates } hi
    (by simpa using hreaches) hempty rfl rfl
  rw [← hselect, ← run_append, hnothing] at hk
  · cases hk
  · intro e he
    simp at he
    rcases he with rfl | rfl <;> rfl
  · simp

/-- Every packet returned in a run was captured in it, whatever is captured and drained, exactly when
the run begins with an empty queue and nothing on its way there. -/
theorem returnsOwn_iff_clear (board : Board) (s : Interleaved) (cfg : Node.RunConfig) :
    (∀ as, (∀ cfg', .call (.beginRun cfg') ∉ as) →
        ReturnsOwn board (s.step board (.call (.beginRun cfg))) as) ↔
      s.QueueClear := by
  have hsame : (s.step board (.call (.beginRun cfg))).QueueClear ↔ s.QueueClear := by
    simp [QueueClear, step, begin, acquire, Csi.step, Node.beginRun, Node.setRuntimeReporting]
  rw [← hsame]
  exact ⟨clear_of_returnsOwn, fun h as _ => returnsOwn_of_clear h as⟩

def leftBehind : Interleaved :=
  run (step .esp32) boot
    [.call (.beginRun .monitor), .call (.nextCsiPacket 7), .call (.capture (.quiet .zero 0 0) 0),
      .advance 0, .advance 0, .advance 0, .call .reset]

/-- The next run's consumer is handed it first, under the session of the run before. -/
theorem not_returnsOwn :
    let s := leftBehind.step .esp32 (.call (.beginRun { Node.RunConfig.monitor with random := 2 }))
    ¬ ReturnsOwn .esp32 s [.call (.nextCsiPacket 7)] ∧
      (s.node.taken (.nextCsiPacket 7)).map (fun p => p.envelope.sessionId) = some 1 ∧
      s.node.session.sessionId = 2 := by
  intro s
  have htaken : (s.node.taken (.nextCsiPacket 7)).map (fun p => p.envelope.sessionId) = some 1 := by
    decide +kernel
  obtain ⟨p, hp, -⟩ := Option.map_eq_some_iff.mp htaken
  refine ⟨fun h => ?_, htaken, by decide +kernel⟩
  exact not_capturedIn (by simp) (h [] (.nextCsiPacket 7) p List.prefix_rfl hp)

end Interleaved

end EspCsi.Csi
