import EspCsi.Csi.Counters
import EspCsi.Csi.Destinations

/-!
# What `emit` reports

A source outside the radio learns from the result of `emit` alone whether its measurement went
anywhere. The result is settled by the publish gate and the policy, ahead of the dispatch that may
still find nobody to hand the packet to.
-/

namespace EspCsi.Csi

open Wire Logging Transition

namespace Node

/-! ## What a call did with a packet -/

def effectsSince (n n' : Node) : List Effect := n'.out.drop n.out.length

def Invoked (n n' : Node) (p : CsiPacket) : Prop :=
  ∃ cb, n.gates.csiCallback = some cb ∧ .callback cb p ∈ n.effectsSince n'

def Queued (n n' : Node) (p : CsiPacket) : Prop := .enqueued p ∈ n.effectsSince n'

/-- The packet was passed to the logger, which wrote it, queued it, or dropped it and counted
that. -/
def Passed (n n' : Node) (p : CsiPacket) : Prop :=
  .hostWrite p ∈ n.effectsSince n' ∨ n'.logger.csiChannel = n.logger.csiChannel ++ [p] ∨
    n'.logger.logDroppedPackets = n.logger.logDroppedPackets + 1

/-- The packet was handed to exactly one live destination. -/
def HandedToOne (n n' : Node) (p : CsiPacket) : Prop :=
  (n.Invoked n' p ∧ ¬ n.Queued n' p ∧ ¬ n.Passed n' p) ∨
    (¬ n.Invoked n' p ∧ n.Queued n' p ∧ ¬ n.Passed n' p) ∨
    (¬ n.Invoked n' p ∧ ¬ n.Queued n' p ∧ n.Passed n' p)

theorem effectsSince_append {n n' : Node} {es : List Effect} (h : n'.out = n.out ++ es) :
    n.effectsSince n' = es := by
  simp [effectsSince, h]

theorem passed_iff_of_logger {n n' : Node} {p : CsiPacket} (h : n'.logger = n.logger) :
    n.Passed n' p ↔ .hostWrite p ∈ n.effectsSince n' := by
  have hdropped : n.logger.logDroppedPackets ≠ n.logger.logDroppedPackets + 1 := by
    intro heq
    simpa using congrArg (fun c => c - n.logger.logDroppedPackets) heq
  simp [Passed, h, hdropped]

theorem not_handedToOne_of_quiet {n n' : Node} {p : CsiPacket} (hout : n'.out = n.out)
    (hlogger : n'.logger = n.logger) : ¬ n.HandedToOne n' p := by
  have heffects : n.effectsSince n' = [] := effectsSince_append (by rw [hout, List.append_nil])
  simp [HandedToOne, Invoked, Queued, passed_iff_of_logger hlogger, heffects]

/-! ## Who is there to hand a packet to -/

def Prints (n : Node) : Prop :=
  n.gates.csiDeliveryMode = .off ∧ n.gates.csiInlineLogEnabled = true ∧
    n.gates.reportLocal = false

/-- The selected destination can take a packet: a registered callback, a queue with room or one that
makes room, or the logger. -/
def Live (n : Node) : Prop := n.Calls ∨ n.Stores ∨ n.Prints

instance (n : Node) : Decidable n.Prints := inferInstanceAs (Decidable (_ ∧ _))
instance (n : Node) : Decidable n.Live := inferInstanceAs (Decidable (_ ∨ _))

variable {n : Node} {p : CsiPacket}

theorem handedToOne_calls (h : n.Calls) : n.HandedToOne (n.dispatch p) p := by
  obtain ⟨hmode, hsome⟩ := h
  obtain ⟨cb, hcb⟩ := Option.isSome_iff_exists.mp hsome
  have hdispatch : n.dispatch p = n.observe (.callback cb p) := by simp [dispatch, hmode, hcb]
  have heffects : n.effectsSince (n.dispatch p) = [.callback cb p] :=
    effectsSince_append (by rw [hdispatch, observe_out])
  have hlogger : (n.dispatch p).logger = n.logger := by rw [hdispatch, observe_logger]
  refine .inl ⟨⟨cb, hcb, ?_⟩, ?_, ?_⟩
  · simp [heffects]
  · simp [Queued, heffects]
  · simp [passed_iff_of_logger hlogger, heffects]

theorem enqueue_out (n : Node) (p : CsiPacket) :
    (∃ woken : Option TaskId, (n.enqueue p).out = n.out ++ .enqueued p :: woken.toList.map .woken) ∧
      (n.enqueue p).logger = n.logger := by
  unfold enqueue wake
  cases hwaker : n.csiWaker with
  | none => exact ⟨⟨none, rfl⟩, rfl⟩
  | some t => exact ⟨⟨some t, by simp⟩, rfl⟩

theorem handedToOne_stores (h : n.Stores) : n.HandedToOne (n.dispatch p) p := by
  obtain ⟨hmode, hroom⟩ := h
  have hdispatch : ∃ n₁ : Node, n.dispatch p = n₁.enqueue p ∧ n₁.out = n.out ∧
      n₁.logger = n.logger := by
    simp only [dispatch, hmode, enqueueCsi, overflow]
    by_cases hlt : n.csiQueue.length < CSI_QUEUE_LEN
    · exact ⟨n, if_pos hlt, rfl, rfl⟩
    · have hold : n.gates.overflowDropOldest = true := hroom.resolve_left hlt
      rw [if_neg hlt]
      exact ⟨_, if_pos hold, rfl, rfl⟩
  obtain ⟨n₁, hdispatch, hout, hlogger⟩ := hdispatch
  obtain ⟨⟨woken, hstored⟩, hkept⟩ := n₁.enqueue_out p
  have heffects : n.effectsSince (n.dispatch p) = .enqueued p :: woken.toList.map .woken :=
    effectsSince_append (by rw [hdispatch, hstored, hout])
  have hsame : (n.dispatch p).logger = n.logger := by rw [hdispatch, hkept, hlogger]
  refine .inr (.inl ⟨?_, ?_, ?_⟩)
  · simp [Invoked, heffects]
  · simp [Queued, heffects]
  · simp [passed_iff_of_logger hsame, heffects]

theorem handedToOne_prints (h : n.Prints) : n.HandedToOne (n.dispatch p) p := by
  obtain ⟨hmode, hinline, hlocal⟩ := h
  have hdispatch : n.dispatch p = n.logCsi p := by simp [dispatch, hmode, hinline, hlocal]
  have heffects : n.effectsSince (n.dispatch p) =
      if (n.logger.logCsi p).1 = .written then [.hostWrite p] else [] :=
    effectsSince_append (by rw [hdispatch]; rfl)
  refine .inr (.inr ⟨?_, ?_, ?_⟩)
  · simp only [Invoked, heffects]
    split_ifs <;> simp
  · simp only [Queued, heffects]
    split_ifs <;> simp
  · rw [Passed, heffects, hdispatch]
    cases hbackend : n.logger.backend with
    | sync => simp [Logger.logCsi, hbackend]
    | async =>
      by_cases hlt : n.logger.csiChannel.length < CSI_LOG_CHANNEL_CAPACITY
      · simp [logCsi, Logger.logCsi, hbackend, hlt]
      · simp [logCsi, Logger.logCsi, hbackend, hlt]

theorem not_handedToOne (h : ¬ n.Live) : ¬ n.HandedToOne (n.dispatch p) p := by
  have hnothing : (n.dispatch p).out = n.out ∧ (n.dispatch p).logger = n.logger := by
    unfold dispatch
    cases hmode : n.gates.csiDeliveryMode with
    | callback =>
      cases hcb : n.gates.csiCallback with
      | none => exact ⟨rfl, rfl⟩
      | some cb => exact absurd (.inl ⟨hmode, by simp [hcb]⟩) h
    | async =>
      have hfull : ¬ n.csiQueue.length < CSI_QUEUE_LEN :=
        fun hlt => h (.inr (.inl ⟨hmode, .inl hlt⟩))
      have hnewest : ¬ n.gates.overflowDropOldest = true :=
        fun hold => h (.inr (.inl ⟨hmode, .inr hold⟩))
      simp [enqueueCsi, overflow, hfull, hnewest, chargeLoss]
    | off =>
      have hskip : (n.gates.csiInlineLogEnabled && !n.gates.reportLocal) = false := by
        apply Bool.eq_false_iff.mpr
        intro hopen
        rw [Bool.and_eq_true, Bool.not_eq_true'] at hopen
        exact h (.inr (.inr ⟨hmode, hopen⟩))
      simp [hskip]
  exact not_handedToOne_of_quiet hnothing.1 hnothing.2

theorem handedToOne_dispatch : n.HandedToOne (n.dispatch p) p ↔ n.Live := by
  constructor
  · intro hhanded
    by_contra hdead
    exact not_handedToOne hdead hhanded
  · rintro (hcalls | hstores | hprints)
    · exact handedToOne_calls hcalls
    · exact handedToOne_stores hstores
    · exact handedToOne_prints hprints

/-! ## The result -/

/-- `emit` returns true just when it hands the measurement to one live destination, exactly when the
selected destination is live or the gates withhold the measurement. -/
theorem emit_truthful_iff (board : Board) (n : Node) (kind : SourceKind) (frame : CsiFrame)
    (now : UInt64) :
    let emitted := n.emit board kind frame now
    (emitted.1 = true ↔ n.HandedToOne emitted.2 (n.emittedPacket board kind frame now).1) ↔
      (n.Emits frame now → n.Live) := by
  intro emitted
  by_cases hemits : n.Emits frame now
  · let admitted : Node := { n with
      session := (n.emittedPacket board kind frame now).2
      stats := n.stats.recordCollectorRx
      policy := (policyAdmitsFrame n.gates n.policy frame now).2.2 }
    have hemitted : emitted =
        (true, admitted.deliver board.chip (n.emittedPacket board kind frame now).1) := by
      simp only [emitted, emit, acquireEmit_of_emits hemits]
      rfl
    obtain ⟨stats, hrecord⟩ :=
      recordTx_eq admitted board.chip (n.emittedPacket board kind frame now).1
    rw [hemitted, deliver, hrecord]
    -- neither the packet nor its statistics change who is there to take it
    have hhanded : n.HandedToOne
        (dispatch { admitted with stats } (n.emittedPacket board kind frame now).1)
        (n.emittedPacket board kind frame now).1 ↔ n.Live :=
      handedToOne_dispatch (n := { admitted with stats })
    simp [hhanded, hemits]
  · obtain ⟨stats, policy, heq⟩ := acquireEmit_of_not_emits board kind hemits
    have hemitted : emitted = (false, { n with stats, policy }) := by
      simp only [emitted, emit, heq]
      rfl
    have hnothing : ¬ n.HandedToOne emitted.2 (n.emittedPacket board kind frame now).1 :=
      not_handedToOne_of_quiet (by rw [hemitted]) (by rw [hemitted])
    rw [hemitted] at hnothing
    simp [hemitted, hemits, hnothing]

/-- A callback is cleared while the node reports, with logging off: nobody is left, and `emit`
returns true. -/
theorem emit_untruthful :
    let n := run (step .esp32) .boot [.setReporting .HOST, .setCsiCallback 0, .clearCsiCallback]
    let emitted := n.emit .esp32 .synthetic Counted.syntheticFrame 0
    ¬ (emitted.1 = true ↔
      n.HandedToOne emitted.2 (n.emittedPacket .esp32 .synthetic Counted.syntheticFrame 0).1) := by
  intro n emitted h
  have htrue : emitted.1 = true := by decide +kernel
  exact not_handedToOne_of_quiet (by decide +kernel) rfl (h.mp htrue)

end Node

end EspCsi.Csi
