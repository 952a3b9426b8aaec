import EspCsi.Csi.Destinations
import EspCsi.Csi.Numbering

/-!
# Order of the host output

What a run writes to the host, in the order in which it was delivered. A packet can wait in the queue
and in the logger's channel, and none overtakes another unless one is logged past those that wait.
-/

namespace EspCsi.Csi

open Wire Logging Transition

def Event.choosesBackend : Event → Bool
  | .initLogger _ _ => true
  | _ => false

namespace Node

/-- The sync backend has no channel, and none is left over from another one. -/
def Settled (n : Node) : Prop := n.logger.backend = .sync → n.logger.csiChannel = []

/-- A packet is logged inline only when no other one waits in the queue, and a backend is chosen only
when none waits for the logger task. -/
def Orderly (board : Board) (n : Node) (e : Event) : Prop :=
  (e.choosesBackend = true → n.logger.csiChannel = []) ∧
    (n.delivered board e ≠ none → n.Logs → n.csiQueue = [])

instance (board : Board) (n : Node) (e : Event) : Decidable (n.Orderly board e) :=
  inferInstanceAs (Decidable (_ ∧ _))

/-- From `n` to `n'` the packets `w` were written: these and those that wait in `n'` waited in `n` or
are `ps`, in this order. -/
structure Writes (n : Node) (ps w : List CsiPacket) (n' : Node) : Prop where
  written : hostWrites n'.out = hostWrites n.out ++ w
  sublist : (w ++ n'.logger.csiChannel ++ n'.csiQueue).Sublist
    (n.logger.csiChannel ++ n.csiQueue ++ ps)
  settled : n'.Settled

variable {n n' n'' : Node} {ps ps' w w' : List CsiPacket} {p : CsiPacket}

theorem Writes.trans (h : n.Writes ps w n') (h' : n'.Writes ps' w' n'') :
    n.Writes (ps ++ ps') (w ++ w') n'' where
  written := by rw [h'.written, h.written, List.append_assoc]
  sublist := by
    have hrest := (h'.sublist.append_left w)
    have hfirst := h.sublist.append_right ps'
    simp only [List.append_assoc] at hrest hfirst ⊢
    exact hrest.trans hfirst
  settled := h'.settled

theorem Writes.mono (h : n.Writes ps w n') (hle : ps.Sublist ps') : n.Writes ps' w n' :=
  ⟨h.written, h.sublist.trans (hle.append_left _), h.settled⟩

theorem writes_nil (h : n.Settled) (hout : hostWrites n'.out = hostWrites n.out)
    (hqueue : n'.csiQueue = n.csiQueue) (hchannel : n'.logger.csiChannel = n.logger.csiChannel)
    (hbackend : n'.logger.backend = n.logger.backend) : n.Writes [] [] n' where
  written := by rw [hout, List.append_nil]
  sublist := by rw [hqueue, hchannel, List.nil_append, List.append_nil]
  settled := by rwa [Settled, hbackend, hchannel]

/-! ## What a step writes -/

theorem exists_logCsi (h : n.Settled) (p : CsiPacket) :
    ∃ w, hostWrites (n.logCsi p).out = hostWrites n.out ++ w ∧
      (w ++ (n.logCsi p).logger.csiChannel).Sublist (n.logger.csiChannel ++ [p]) ∧
      (n.logCsi p).Settled := by
  cases hbackend : n.logger.backend with
  | sync =>
    have hchannel := h hbackend
    refine ⟨[p], ?_, ?_, ?_⟩
    · simp [logCsi, Logger.logCsi, hbackend, Effect.toHost]
    · simp [logCsi, Logger.logCsi, hbackend, hchannel]
    · intro _
      simpa [logCsi, Logger.logCsi, hbackend] using hchannel
  | async =>
    by_cases hroom : n.logger.csiChannel.length < CSI_LOG_CHANNEL_CAPACITY
    · refine ⟨[], ?_, ?_, ?_⟩
      · simp [logCsi, Logger.logCsi, hbackend, hroom, hostWrites]
      · simp [logCsi, Logger.logCsi, hbackend, hroom]
      · intro hsync
        simp [logCsi, Logger.logCsi, hbackend, hroom] at hsync
    · refine ⟨[], ?_, ?_, ?_⟩
      · simp [logCsi, Logger.logCsi, hbackend, hroom, hostWrites]
      · simp [logCsi, Logger.logCsi, hbackend, hroom]
      · intro hsync
        simp [logCsi, Logger.logCsi, hbackend, hroom] at hsync

theorem writes_logCsi_of_refused (h : n.Settled) (hfull : n.logger.accepts = false) (p : CsiPacket) :
    n.Writes [] [] (n.logCsi p) := by
  obtain ⟨hbackend, hroom⟩ : n.logger.backend = .async ∧
      ¬ n.logger.csiChannel.length < CSI_LOG_CHANNEL_CAPACITY := by
    cases hbackend : n.logger.backend <;> simp_all [Logger.accepts]
  apply writes_nil h <;> simp [logCsi, Logger.logCsi, hbackend, hroom]

theorem writes_print {rest : List CsiPacket} (h : n.Settled) (hqueue : n.csiQueue = p :: rest) :
    ∃ w, n.Writes [] w ({ n with csiQueue := rest }.logCsi p) := by
  obtain ⟨w, hout, hsub, hsettled⟩ := exists_logCsi (n := { n with csiQueue := rest }) h p
  refine ⟨w, hout, ?_, hsettled⟩
  have hrest := hsub.append_right rest
  rw [List.append_assoc n.logger.csiChannel, List.singleton_append, ← hqueue] at hrest
  rw [List.append_nil]
  exact hrest

@[simp] theorem enqueue_logger (n : Node) (p : CsiPacket) : (n.enqueue p).logger = n.logger := by
  unfold enqueue wake
  split <;> rfl

theorem writes_enqueue (h : n.Settled) (p : CsiPacket) : n.Writes [p] [] (n.enqueue p) where
  written := by
    unfold enqueue wake
    split <;> simp [observe, hostWrites, Effect.toHost]
  sublist := by simp
  settled := by
    rw [Settled, enqueue_logger]
    exact h

theorem writes_enqueueCsi (h : n.Settled) (p : CsiPacket) : n.Writes [p] [] (n.enqueueCsi p) := by
  have hcharge : n.Writes [] [] (n.chargeLoss .queueFull) := writes_nil h rfl rfl rfl rfl
  unfold enqueueCsi overflow
  split_ifs
  · exact writes_enqueue h p
  · -- the oldest queued packet makes room
    have htail : (n.logger.csiChannel ++ n.csiQueue.tail).Sublist
        (n.logger.csiChannel ++ n.csiQueue ++ []) := by
      rw [List.append_nil]
      exact (List.tail_sublist _).append_left _
    have hevict : n.Writes [] [] { n.chargeLoss .queueFull with csiQueue := n.csiQueue.tail } :=
      ⟨(List.append_nil _).symm, htail, h⟩
    exact hevict.trans (writes_enqueue hevict.settled p)
  · exact hcharge.mono (List.nil_sublist _)

theorem writes_dispatch (h : n.Settled) (hqueue : n.Logs → n.csiQueue = []) (p : CsiPacket) :
    ∃ w, n.Writes [p] w (n.dispatch p) := by
  have hnothing {n' : Node} (hw : n.Writes [] [] n') : ∃ w, n.Writes [p] w n' :=
    ⟨[], hw.mono (List.nil_sublist _)⟩
  cases hmode : n.gates.csiDeliveryMode with
  | callback =>
    cases hcb : n.gates.csiCallback with
    | none =>
      simp only [dispatch, hmode, hcb]
      exact hnothing (writes_nil h rfl rfl rfl rfl)
    | some cb =>
      simp only [dispatch, hmode, hcb]
      exact hnothing (writes_nil h (by simp [observe, Effect.toHost]) rfl rfl rfl)
  | async =>
    simp only [dispatch, hmode]
    exact ⟨[], writes_enqueueCsi h p⟩
  | off =>
    simp only [dispatch, hmode]
    split_ifs with hinline
    · by_cases hacc : n.logger.accepts = true
      · simp only [Bool.and_eq_true, Bool.not_eq_true'] at hinline
        have hempty := hqueue ⟨hmode, hinline.1, hinline.2, hacc⟩
        obtain ⟨w, hout, hsub, hsettled⟩ := exists_logCsi h p
        refine ⟨w, hout, ?_, hsettled⟩
        show (w ++ (n.logCsi p).logger.csiChannel ++ n.csiQueue).Sublist _
        rwa [hempty, List.append_nil, List.append_nil]
      · exact hnothing (writes_logCsi_of_refused h (Bool.not_eq_true _ ▸ hacc) p)
    · exact hnothing (writes_nil h rfl rfl rfl rfl)

theorem exists_writes_step {board : Board} (h : n.Settled) {e : Event} (hord : n.Orderly board e) :
    ∃ w, n.Writes (n.delivered board e).toList w (step board n e) := by
  cases hdel : n.delivered board e with
  -- a delivered packet goes where `dispatch` sends it
  | some p =>
    obtain ⟨session, stats, policy, heq⟩ := step_of_delivered hdel
    obtain ⟨stats', hrec⟩ := recordTx_eq { n with session, stats, policy } board.chip p
    have hqueue : n.Logs → n.csiQueue = [] := hord.2 (by simp [hdel])
    obtain ⟨w, hw⟩ := writes_dispatch (n := { n with session, stats := stats', policy }) h hqueue p
    rw [heq, deliver, hrec]
    exact ⟨w, hw.written, hw.sublist, hw.settled⟩
  | none =>
    -- a consumer takes the oldest packet off the queue; it is never written
    have htake {n' : Node} (hout : hostWrites n'.out = hostWrites n.out)
        (hqueue : n'.csiQueue = n.csiQueue.tail) (hlogger : n'.logger = n.logger) :
        n.Writes [] [] n' := by
      refine ⟨by rw [hout, List.append_nil], ?_, by rwa [Settled, hlogger]⟩
      rw [hqueue, hlogger, List.append_nil]
      exact (List.tail_sublist _).append_left _
    have hsame {n' : Node} (hout : hostWrites n'.out = hostWrites n.out)
        (hqueue : n'.csiQueue = n.csiQueue) (hlogger : n'.logger = n.logger) :
        ∃ w, n.Writes [] w n' :=
      ⟨[], writes_nil h hout hqueue (by rw [hlogger]) (by rw [hlogger])⟩
    cases e with
    | nextCsiPacket t | pollCsiPacket t =>
      simp only [Csi.step, pollCsiPacket, takeCsi, enterAsync]
      cases hqueue : n.csiQueue with
      | nil => exact hsame rfl hqueue.symm rfl
      | cons p rest =>
        exact ⟨[], htake (by simp [observe, Effect.toHost]) (by simp [observe, hqueue]) rfl⟩
    | printCsi t | pollPrintCsi t =>
      simp only [Csi.step, pollPrintCsi, takeCsi, enterAsync]
      cases hqueue : n.csiQueue with
      | nil => exact hsame rfl hqueue.symm rfl
      | cons p rest =>
        obtain ⟨w, hw⟩ := writes_print h hqueue
        exact ⟨w, hw.written, hw.sublist, hw.settled⟩
    | loggerBackend =>
      simp only [Csi.step, loggerBackend, Logger.receive]
      cases hchannel : n.logger.csiChannel with
      | nil => exact hsame rfl rfl rfl
      | cons p rest =>
        refine ⟨[p], ?_, ?_, ?_⟩
        · simp [observe, Effect.toHost]
        · simp [observe, hchannel]
        -- the sync backend has no channel to receive from
        · intro hsync
          exact absurd (h hsync) (by simp [hchannel])
    | initLogger mode backend =>
      -- a backend chosen while packets wait would lose them
      have hempty : n.logger.csiChannel = [] := hord.1 rfl
      exact ⟨[], (List.append_nil _).symm, by rw [Option.toList_none, List.append_nil]; rfl,
        fun _ => hempty⟩
    | setLogMode mode => exact ⟨[], writes_nil h rfl rfl rfl rfl⟩
    | capture info now =>
      obtain ⟨stats, policy, out, heq, -, hout⟩ :=
        captureCsiInfo_of_not_delivers (not_delivers_of_undelivered hdel)
      rw [Csi.step, heq]
      refine hsame ?_ rfl rfl
      rcases hout with hout | ⟨cb, hout⟩
      · rw [hout]
      · simp [hout, Effect.toHost]
    | emit kind frame now =>
      obtain ⟨stats, policy, heq⟩ :=
        acquireEmit_of_not_emits board kind (not_emits_of_undelivered hdel)
      rw [Csi.step, emit, heq]
      exact hsame rfl rfl rfl
    | processOutputChanged =>
      simp only [Csi.step, processOutputChanged]
      split_ifs <;> exact hsame rfl rfl rfl
    | _ => exact hsame rfl rfl rfl

/-! ## What a run writes -/

theorem exists_writes_run {board : Board} {es : List Event} (h : n.Settled)
    (hord : Along (Csi.step board) (Orderly board) n es) :
    ∃ w, n.Writes (n.packets board es) w (run (Csi.step board) n es) := by
  induction es generalizing n with
  | nil => exact ⟨[], writes_nil h rfl rfl rfl rfl⟩
  | cons e es ih =>
    obtain ⟨he, hes⟩ := along_cons.mp hord
    obtain ⟨w, hstep⟩ := exists_writes_step h he
    obtain ⟨w', hrun⟩ := ih hstep.settled hes
    exact ⟨w ++ w', hstep.trans hrun⟩

def hostOutput (board : Board) (n : Node) (es : List Event) : List CsiPacket :=
  (hostWrites (run (Csi.step board) n es).out).drop (hostWrites n.out).length

theorem hostOutput_sublist {board : Board} {es : List Event} (hqueue : n.csiQueue = [])
    (hchannel : n.logger.csiChannel = []) (hord : Along (Csi.step board) (Orderly board) n es) :
    (n.hostOutput board es).Sublist (n.packets board es) := by
  obtain ⟨w, hw⟩ := exists_writes_run (fun _ => hchannel) hord
  have hsub := hw.sublist
  rw [hqueue, hchannel, List.nil_append, List.nil_append, List.append_assoc] at hsub
  rw [hostOutput, hw.written, List.drop_left]
  exact (List.sublist_append_left w _).trans hsub

end Node

/-! ## One session -/

/-- Calls that neither begin a run or a session nor choose how the logger writes. -/
def Event.keepsOutput : Event → Bool
  | .beginRun _ | .setSession _ _ _ | .initLogger _ _ | .setLogMode _ => false
  | _ => true

theorem CsiPacket.new_sessionId (board : Board) (s : Session) (frame : CsiFrame)
    (source : SourceKind) (now : UInt64) :
    (new board s frame source now).2.sessionId = s.sessionId := by
  cases h : s.anchorPending <;>
    simp [new, Session.takeAnnouncement, Session.nextEnvelope, h]

theorem acquire_sessionId {board : Board} {n : Node} {e : Event} {p : CsiPacket}
    (h : n.delivered board e = some p) :
    (acquire board n e).1.session.sessionId = n.session.sessionId := by
  cases e with
  | capture info now =>
    by_cases hdel : n.Delivers board info now
    · obtain ⟨q, session, rxCount, bbFormatHist, policy, hq, heq⟩ :=
        Node.acquireCapture_of_delivers hdel
      obtain ⟨tsLastRaw, tsWraps, hwiden⟩ :=
        n.session.widenTimestamp_snd info.timestampUs.toUInt32
      simp only [Node.packetOf, CsiPacket.fromWifiCsiInfo, frameFromEsp, hdel.2.2.2.2, dite_true,
        Option.map_some, hwiden] at hq
      obtain ⟨-, rfl⟩ := Prod.mk.inj (Option.some_inj.mp hq)
      rw [acquire, heq]
      simp only [CsiPacket.new_sessionId]
    · obtain ⟨stats, policy, out, heq, -⟩ := Node.acquireCapture_of_not_delivers hdel
      simp [Node.delivered, acquire, heq] at h
  | emit kind frame now =>
    by_cases hemits : n.Emits frame now
    · rw [acquire, Node.acquireEmit_of_emits hemits]
      exact CsiPacket.new_sessionId board n.session _ kind now
    · obtain ⟨stats, policy, heq⟩ := Node.acquireEmit_of_not_emits board kind hemits
      simp [Node.delivered, acquire, heq] at h
  | _ => simp [Node.delivered, acquire] at h

theorem step_sessionId {board : Board} {n : Node} {e : Event} (he : e.keepsOutput = true) :
    (step board n e).session.sessionId = n.session.sessionId := by
  cases hdel : n.delivered board e with
  | some p =>
    have hsnd : (acquire board n e).2 = some p := hdel
    have hsame := acquire_sessionId hdel
    rw [step_eq_deliverAcquired]
    generalize acquire board n e = acquired at hsnd hsame ⊢
    obtain ⟨n', packet⟩ := acquired
    obtain rfl : packet = some p := hsnd
    rw [Node.deliverAcquired, Node.deliver_session]
    exact hsame
  | none =>
    cases e with
    | beginRun | setSession | initLogger | setLogMode => simp [Event.keepsOutput] at he
    | capture info now =>
      obtain ⟨stats, policy, out, heq, -⟩ :=
        Node.captureCsiInfo_of_not_delivers (not_delivers_of_undelivered hdel)
      rw [step, heq]
    | emit kind frame now =>
      obtain ⟨stats, policy, heq⟩ :=
        Node.acquireEmit_of_not_emits board kind (not_emits_of_undelivered hdel)
      rw [step, Node.emit, heq]
      rfl
    | nextCsiPacket t | pollCsiPacket t =>
      simp only [step, Node.pollCsiPacket, Node.takeCsi, Node.enterAsync]
      cases n.csiQueue <;> rfl
    | printCsi t | pollPrintCsi t =>
      simp only [step, Node.pollPrintCsi, Node.takeCsi, Node.enterAsync]
      cases n.csiQueue <;> rfl
    | loggerBackend =>
      simp only [step, Node.loggerBackend]
      split <;> rfl
    | processOutputChanged =>
      simp only [step, Node.processOutputChanged]
      split_ifs <;> rfl
    | _ => rfl

theorem packets_sessionId {board : Board} {n : Node} {es : List Event}
    (hes : ∀ e ∈ es, e.keepsOutput = true) :
    ∀ p ∈ n.packets board es, p.envelope.sessionId = n.session.sessionId := by
  induction es generalizing n with
  | nil => simp [Node.packets]
  | cons e es ih =>
    obtain ⟨he, hrest⟩ := List.forall_mem_cons.mp hes
    intro p hp
    rcases List.mem_append.mp hp with hnow | hlater
    · exact (delivered_envelope (Option.mem_toList.mp hnow)).1
    · rw [ih hrest p hlater, step_sessionId he]

end EspCsi.Csi
