import Mathlib.Data.List.Nodup
import EspCsi.Csi.Events

/-!
# Report destinations

What becomes of every admitted measurement over a run: which of them reached the host output, which
an on-device consumer. A ledger follows each one through the queue and the logger beside the
machine.
-/

namespace EspCsi.Csi

open Wire Logging Transition

/-- An admitted measurement, numbered in the order of admission, with what was in force when it was
admitted: its destination, and whether an on-device consumer was installed. -/
structure Measurement where
  serial : ℕ
  packet : CsiPacket
  dest : Option ReportTo
  consumer : Bool
deriving DecidableEq

/-- Every measurement admitted so far, those in the queue, and those handed to an on-device consumer
or to the logger, oldest first. -/
structure Ledger where
  admitted : List Measurement
  queue : List Measurement
  handed : List Measurement
  logged : List Measurement

namespace Node

/-- Where a measurement admitted now is to go. A host report needs inline logging. -/
def destination (n : Node) : Option ReportTo :=
  match n.gates.runtimeReporting with
  | .report .host => if n.gates.csiInlineLogEnabled then some .host else none
  | .report .localOnly => some .localOnly
  | _ => none

/-- A callback is registered and selected, or the queue is. -/
def hasConsumer (n : Node) : Bool :=
  match n.gates.csiDeliveryMode with
  | .callback => n.gates.csiCallback.isSome
  | .async => true
  | .off => false

def Stores (n : Node) : Prop :=
  n.gates.csiDeliveryMode = .async ∧
    (n.csiQueue.length < CSI_QUEUE_LEN ∨ n.gates.overflowDropOldest = true)

def Evicts (n : Node) : Prop := n.Stores ∧ ¬ n.csiQueue.length < CSI_QUEUE_LEN

def Calls (n : Node) : Prop :=
  n.gates.csiDeliveryMode = .callback ∧ n.gates.csiCallback.isSome = true

def Logs (n : Node) : Prop :=
  n.gates.csiDeliveryMode = .off ∧ n.gates.csiInlineLogEnabled = true ∧
    n.gates.reportLocal = false ∧ n.logger.accepts = true

instance (n : Node) : Decidable n.Stores := inferInstanceAs (Decidable (_ ∧ _))
instance (n : Node) : Decidable n.Evicts := inferInstanceAs (Decidable (_ ∧ _))
instance (n : Node) : Decidable n.Calls := inferInstanceAs (Decidable (_ ∧ _))
instance (n : Node) : Decidable n.Logs := inferInstanceAs (Decidable (_ ∧ _))

theorem of_destination_host {n : Node} (h : n.destination = some .host) :
    n.gates.csiInlineLogEnabled = true ∧ n.gates.reportLocal = false := by
  unfold destination Gates.runtimeReporting at h
  cases hkind : n.gates.policyKind <;> cases hlocal : n.gates.reportLocal <;>
    simp_all

theorem of_destination_local {n : Node} (h : n.destination = some .localOnly) :
    n.gates.reportLocal = true := by
  unfold destination Gates.runtimeReporting at h
  cases hkind : n.gates.policyKind <;> cases hlocal : n.gates.reportLocal <;>
    simp_all

end Node

namespace Ledger

def empty : Ledger := ⟨[], [], [], []⟩

def next (l : Ledger) (n : Node) (p : CsiPacket) : Measurement :=
  ⟨l.admitted.length, p, n.destination, n.hasConsumer⟩

def enter (l : Ledger) (n : Node) (p : CsiPacket) : Ledger where
  admitted := l.admitted ++ [l.next n p]
  queue :=
    if n.Stores then (if n.Evicts then l.queue.tail else l.queue) ++ [l.next n p] else l.queue
  handed := if n.Stores ∨ n.Calls then l.handed ++ [l.next n p] else l.handed
  logged := if n.Logs then l.logged ++ [l.next n p] else l.logged

def take (l : Ledger) : Ledger := { l with queue := l.queue.tail }

def print (l : Ledger) (n : Node) : Ledger :=
  { l with
    queue := l.queue.tail
    logged := l.logged ++ if n.logger.accepts then l.queue.head?.toList else [] }

def step (board : Board) (n : Node) (l : Ledger) (e : Event) : Ledger :=
  match n.delivered board e with
  | some p => l.enter n p
  | none =>
    match e with
    | .nextCsiPacket _ | .pollCsiPacket _ => l.take
    | .printCsi _ | .pollPrintCsi _ => l.print n
    | _ => l

end Ledger

def ledgerStep (board : Board) (s : Node × Ledger) (e : Event) : Node × Ledger :=
  (step board s.1 e, s.2.step board s.1 e)

/-! ## What dispatch does -/

def Effect.toHost : Effect → Option CsiPacket
  | .hostWrite p => some p
  | _ => none

def Effect.toConsumer : Effect → Option CsiPacket
  | .callback _ p | .enqueued p => some p
  | _ => none

def hostWrites (out : List Effect) : List CsiPacket := out.filterMap Effect.toHost

def consumed (out : List Effect) : List CsiPacket := out.filterMap Effect.toConsumer

@[simp] theorem hostWrites_append (out more : List Effect) :
    hostWrites (out ++ more) = hostWrites out ++ hostWrites more := by
  simp [hostWrites]

@[simp] theorem consumed_append (out more : List Effect) :
    consumed (out ++ more) = consumed out ++ consumed more := by
  simp [consumed]

@[simp] theorem hostWrites_singleton (e : Effect) : hostWrites [e] = e.toHost.toList := by
  cases e <;> rfl

@[simp] theorem consumed_singleton (e : Effect) : consumed [e] = e.toConsumer.toList := by
  cases e <;> rfl

namespace Node

@[simp] theorem observe_logger (n : Node) (e : Effect) : (n.observe e).logger = n.logger := rfl

/-- What was written to the host output or waits in the logger's channel. -/
def hostLog (n : Node) : List CsiPacket := hostWrites n.out ++ n.logger.csiChannel

@[simp] theorem consumed_enqueue (n : Node) (p : CsiPacket) :
    consumed (n.enqueue p).out = consumed n.out ++ [p] := by
  unfold enqueue wake
  split <;> simp [observe, consumed, Effect.toConsumer]

@[simp] theorem hostLog_enqueue (n : Node) (p : CsiPacket) : (n.enqueue p).hostLog = n.hostLog := by
  unfold enqueue wake
  split <;> simp [hostLog, observe, hostWrites, Effect.toHost]

theorem enqueueCsi_csiQueue {n : Node} (h : n.gates.csiDeliveryMode = .async) (p : CsiPacket) :
    (n.enqueueCsi p).csiQueue =
      if n.Stores then (if n.Evicts then n.csiQueue.tail else n.csiQueue) ++ [p]
      else n.csiQueue := by
  by_cases hroom : n.csiQueue.length < CSI_QUEUE_LEN
  · simp [enqueueCsi, Stores, Evicts, h, hroom]
  · by_cases hold : n.gates.overflowDropOldest = true <;>
      simp [enqueueCsi, overflow, chargeLoss, Stores, Evicts, h, hroom, hold]

theorem consumed_enqueueCsi {n : Node} (h : n.gates.csiDeliveryMode = .async) (p : CsiPacket) :
    consumed (n.enqueueCsi p).out = consumed n.out ++ if n.Stores then [p] else [] := by
  by_cases hroom : n.csiQueue.length < CSI_QUEUE_LEN
  · simp [enqueueCsi, Stores, h, hroom]
  · by_cases hold : n.gates.overflowDropOldest = true <;>
      simp [enqueueCsi, overflow, chargeLoss, Stores, h, hroom, hold]

theorem hostLog_enqueueCsi (n : Node) (p : CsiPacket) : (n.enqueueCsi p).hostLog = n.hostLog := by
  unfold enqueueCsi overflow
  split_ifs
  · exact hostLog_enqueue n p
  · exact hostLog_enqueue _ p
  · rfl

theorem hostLog_logCsi (n : Node) (p : CsiPacket) :
    (n.logCsi p).hostLog.Perm (n.hostLog ++ if n.logger.accepts then [p] else []) := by
  cases hbackend : n.logger.backend with
  | sync =>
    have hperm : ([p] ++ n.logger.csiChannel).Perm (n.logger.csiChannel ++ [p]) :=
      List.perm_append_comm
    simpa [hostLog, hostWrites, Effect.toHost, logCsi, Logger.logCsi, Logger.accepts, hbackend] using
      hperm.append_left _
  | async =>
    by_cases hroom : n.logger.csiChannel.length < CSI_LOG_CHANNEL_CAPACITY <;>
      simp [hostLog, hostWrites, Effect.toHost, logCsi, Logger.logCsi, Logger.accepts, hbackend, hroom]

theorem dispatch_csiQueue (n : Node) (p : CsiPacket) :
    (n.dispatch p).csiQueue =
      if n.Stores then (if n.Evicts then n.csiQueue.tail else n.csiQueue) ++ [p]
      else n.csiQueue := by
  cases hmode : n.gates.csiDeliveryMode with
  | async => simpa only [dispatch, hmode] using enqueueCsi_csiQueue hmode p
  | callback => cases hcb : n.gates.csiCallback <;> simp [dispatch, Stores, hmode, hcb, observe]
  | off =>
    simp only [dispatch, hmode, Stores]
    split_ifs <;> simp_all [logCsi]

theorem consumed_dispatch (n : Node) (p : CsiPacket) :
    consumed (n.dispatch p).out = consumed n.out ++ if n.Stores ∨ n.Calls then [p] else [] := by
  cases hmode : n.gates.csiDeliveryMode with
  | async =>
    have hcalls : ¬ n.Calls := by simp [Calls, hmode]
    simpa only [dispatch, hmode, hcalls, or_false] using consumed_enqueueCsi hmode p
  | callback =>
    cases hcb : n.gates.csiCallback <;>
      simp [dispatch, Stores, Calls, hmode, hcb, Effect.toConsumer]
  | off =>
    have hnone : ¬ (n.Stores ∨ n.Calls) := by simp [Stores, Calls, hmode]
    simp only [dispatch, hmode, hnone, if_false, List.append_nil, logCsi]
    split_ifs <;> simp [Effect.toConsumer]

theorem hostLog_dispatch (n : Node) (p : CsiPacket) :
    (n.dispatch p).hostLog.Perm (n.hostLog ++ if n.Logs then [p] else []) := by
  cases hmode : n.gates.csiDeliveryMode with
  | async => simp [dispatch, Logs, hmode, hostLog_enqueueCsi]
  | callback =>
    cases hcb : n.gates.csiCallback <;> simp [dispatch, Logs, hmode, hcb, hostLog, Effect.toHost]
  | off =>
    by_cases hinline : n.gates.csiInlineLogEnabled = true ∧ n.gates.reportLocal = false
    · simpa [dispatch, Logs, hmode, hinline] using hostLog_logCsi n p
    · have hskip : (n.gates.csiInlineLogEnabled && !n.gates.reportLocal) = false := by
        simpa using hinline
      have hlogs : ¬ n.Logs := fun h => hinline ⟨h.2.1, h.2.2.1⟩
      simp [dispatch, hmode, hskip, hlogs]

end Node

/-! ## The ledger is true to the machine -/

/-- The ledger's queue is the queue, its logged measurements are what was written or waits in the
logger's channel, and those it counts as handed over are what the consumers were given. -/
structure Ledger.Follows (l : Ledger) (n : Node) : Prop where
  queue : l.queue.map Measurement.packet = n.csiQueue
  logged : (l.logged.map Measurement.packet).Perm n.hostLog
  handed : l.handed.map Measurement.packet = consumed n.out

theorem Ledger.Follows.enter {l : Ledger} {n : Node} (h : l.Follows n) (p : CsiPacket) :
    (l.enter n p).Follows (n.dispatch p) := by
  constructor
  · rw [Node.dispatch_csiQueue]
    simp only [Ledger.enter, ← h.queue]
    split_ifs <;> simp [Ledger.next, List.map_tail]
  · refine List.Perm.trans ?_ (n.hostLog_dispatch p).symm
    simp only [Ledger.enter]
    split_ifs
    · simpa [Ledger.next] using h.logged.append_right [p]
    · simpa using h.logged
  · rw [Node.consumed_dispatch, ← h.handed]
    simp only [Ledger.enter]
    split_ifs <;> simp [Ledger.next]

theorem Ledger.Follows.take {l : Ledger} {n : Node} (h : l.Follows n) (t : TaskId) :
    l.take.Follows (n.pollCsiPacket t) := by
  cases hq : n.csiQueue with
  | nil =>
    have hempty : l.queue = [] := by simpa [hq] using h.queue
    simp only [Node.pollCsiPacket, Node.takeCsi, hq]
    exact ⟨by simp [Ledger.take, hempty], h.logged, h.handed⟩
  | cons packet rest =>
    simp only [Node.pollCsiPacket, Node.takeCsi, hq]
    constructor
    · simp [Ledger.take, Node.observe, List.map_tail, h.queue, hq]
    · simpa [Ledger.take, Node.hostLog, Effect.toHost] using h.logged
    · simpa [Ledger.take, Effect.toConsumer] using h.handed

theorem Ledger.Follows.print {l : Ledger} {n : Node} (h : l.Follows n) (t : TaskId) :
    (l.print n).Follows (n.pollPrintCsi t) := by
  cases hq : n.csiQueue with
  | nil =>
    have hempty : l.queue = [] := by simpa [hq] using h.queue
    have hlogged : (l.print n).logged = l.logged := by simp [Ledger.print, hempty]
    simp only [Node.pollPrintCsi, Node.takeCsi, hq]
    exact ⟨by simp [Ledger.print, hempty], hlogged ▸ h.logged, h.handed⟩
  | cons packet rest =>
    have hmap : l.queue.map Measurement.packet = packet :: rest := h.queue.trans hq
    obtain ⟨x, xs, hx, rfl, hxs⟩ := List.map_eq_cons_iff.mp hmap
    simp only [Node.pollPrintCsi, Node.takeCsi, hq]
    refine ⟨by simpa [Ledger.print, hx, Node.logCsi] using hxs, ?_, ?_⟩
    · refine List.Perm.trans ?_ (Node.hostLog_logCsi _ _).symm
      have hlogged : (l.logged.map Measurement.packet).Perm
          (Node.hostLog { n with csiQueue := rest }) := h.logged
      cases hacc : n.logger.accepts
      · simpa [Ledger.print, hx, hacc] using hlogged
      · simpa [Ledger.print, hx, hacc] using hlogged.append_right [x.packet]
    · have hhanded := h.handed
      simp only [Node.logCsi, consumed_append, Ledger.print]
      rw [hhanded]
      split_ifs <;> simp [Effect.toConsumer, consumed]

theorem Ledger.Follows.backend {l : Ledger} {n : Node} (h : l.Follows n) :
    l.Follows n.loggerBackend := by
  cases hch : n.logger.csiChannel with
  | nil => simpa [Node.loggerBackend, Logger.receive, hch] using h
  | cons packet rest =>
    have hlogged := h.logged
    simp only [Node.hostLog, hch] at hlogged
    refine ⟨?_, ?_, ?_⟩
    · simpa [Node.loggerBackend, Logger.receive, hch, Node.observe] using h.queue
    · simpa [Node.loggerBackend, Logger.receive, hch, Node.hostLog, Effect.toHost] using hlogged
    · simpa [Node.loggerBackend, Logger.receive, hch, Effect.toConsumer] using h.handed

theorem Ledger.Follows.step {board : Board} {l : Ledger} {n : Node} (h : l.Follows n) (e : Event) :
    (l.step board n e).Follows (Csi.step board n e) := by
  unfold Ledger.step
  cases hdel : n.delivered board e with
  | some p =>
    obtain ⟨session, stats, policy, heq⟩ := step_of_delivered hdel
    obtain ⟨stats', hrec⟩ :=
      Node.recordTx_eq { n with session, stats, policy } board.chip p
    rw [heq, Node.deliver, hrec]
    have hsame : l.Follows { n with session, stats := stats', policy } :=
      ⟨h.queue, h.logged, h.handed⟩
    exact hsame.enter p
  | none =>
    have henter : l.Follows n.enterAsync := ⟨h.queue, h.logged, h.handed⟩
    have hother := step_of_undelivered hdel
    cases e with
    | nextCsiPacket t => exact henter.take t
    | pollCsiPacket t => exact h.take t
    | printCsi t => exact henter.print t
    | pollPrintCsi t => exact h.print t
    | loggerBackend => exact h.backend
    | _ =>
      obtain ⟨hqueue, hchannel, hout⟩ := hother rfl
      refine ⟨h.queue.trans hqueue.symm, h.logged.trans (.of_eq ?_), h.handed.trans ?_⟩
      · rcases hout with hout | ⟨cb, hout⟩ <;> simp [Node.hostLog, hchannel, hout, Effect.toHost]
      · rcases hout with hout | ⟨cb, hout⟩ <;> simp [hout, Effect.toConsumer]

/-- From boot, the ledger is true to the machine after any run. -/
theorem follows_run (board : Board) (evs : List Event) :
    let s := run (ledgerStep board) (.boot, .empty) evs
    s.2.Follows s.1 :=
  (always_of_step (Q := fun s : Node × Ledger => s.2.Follows s.1) ⟨rfl, .refl _, rfl⟩
    fun _ e h => h.step e).last

/-! ## Honoured destinations -/

/-- Every measurement to be reported to the host was taken by the logger, and given to the consumer
if there was one; none that was to stay on the device was. -/
structure Ledger.Honoured (l : Ledger) : Prop where
  host : ∀ x ∈ l.admitted, x.dest = some .host →
    x ∈ l.logged ∧ (x.consumer = true → x ∈ l.handed)
  onDevice : ∀ x ∈ l.admitted, x.dest = some .localOnly → x ∉ l.logged

instance (l : Ledger) : Decidable l.Honoured :=
  decidable_of_iff
    ((∀ x ∈ l.admitted, x.dest = some .host →
        x ∈ l.logged ∧ (x.consumer = true → x ∈ l.handed)) ∧
      ∀ x ∈ l.admitted, x.dest = some .localOnly → x ∉ l.logged)
    ⟨fun h => ⟨h.1, h.2⟩, fun h => ⟨h.host, h.onDevice⟩⟩

/-- The step passes no measurement by its destination: a host report is logged at once or stored in
the queue, leaves the queue through the logger only, and a local one never reaches the logger. -/
def Ledger.Respects (board : Board) (s : Node × Ledger) (e : Event) : Prop :=
  match s.1.delivered board e with
  | some _ =>
    (s.1.destination = some .host →
      s.1.gates.csiDeliveryMode = .off ∧ s.1.logger.accepts = true ∨ s.1.Stores) ∧
    (s.1.Evicts → ∀ x ∈ s.2.queue.head?, x.dest ≠ some .host)
  | none =>
    match e with
    | .nextCsiPacket _ | .pollCsiPacket _ => ∀ x ∈ s.2.queue.head?, x.dest ≠ some .host
    | .printCsi _ | .pollPrintCsi _ =>
      ∀ x ∈ s.2.queue.head?, (x.dest = some .host → s.1.logger.accepts = true) ∧
        (x.dest = some .localOnly → s.1.logger.accepts = false)
    | _ => True

namespace Ledger

/-- No measurement is in two places, and a queued or logged one that had a consumer was given to
it. -/
structure Sound (l : Ledger) : Prop where
  serial : ∀ x ∈ l.admitted, x.serial < l.admitted.length
  nodup : (l.queue ++ l.logged).Nodup
  known : ∀ x ∈ l.queue ++ l.logged, x ∈ l.admitted
  handed : ∀ x ∈ l.queue ++ l.logged, x.consumer = true → x ∈ l.handed

theorem Sound.next_not_mem {l : Ledger} (h : l.Sound) (n : Node) (p : CsiPacket) :
    l.next n p ∉ l.admitted :=
  fun hmem => absurd (h.serial _ hmem) (lt_irrefl _)

theorem mem_tail_iff {α : Type*} {xs : List α} (h : xs.Nodup) {x : α} :
    x ∈ xs.tail ↔ x ∈ xs ∧ xs.head? ≠ some x := by
  cases xs with
  | nil => simp
  | cons y ys =>
    have hy : y ∉ ys := (List.nodup_cons.mp h).1
    by_cases heq : y = x
    · simp [← heq, hy]
    · simp [heq, Ne.symm heq]

theorem Sound.nodup_queue {l : Ledger} (h : l.Sound) : l.queue.Nodup :=
  (List.nodup_append.mp h.nodup).1

theorem Sound.head_ne_of_logged {l : Ledger} (h : l.Sound) {x : Measurement}
    (hlog : x ∈ l.logged) : l.queue.head? ≠ some x := by
  intro hhead
  exact (List.nodup_append.mp h.nodup).2.2 x (List.mem_of_mem_head? hhead) x hlog rfl

theorem mem_enter {l : Ledger} (h : l.Sound) (n : Node) (p : CsiPacket) {x : Measurement} :
    x ∈ (l.enter n p).queue ++ (l.enter n p).logged ↔
      (x = l.next n p ∧ (n.Stores ∨ n.Logs)) ∨
        (x ∈ l.queue ++ l.logged ∧ ¬ (n.Evicts ∧ l.queue.head? = some x)) := by
  have hqueue := h.nodup_queue
  have hapart := h.head_ne_of_logged (x := x)
  have hstores : n.Evicts → n.Stores := And.left
  by_cases hev : n.Evicts
  · by_cases hlogs : n.Logs <;>
      simp [enter, hev, hstores hev, hlogs, mem_tail_iff hqueue] <;> tauto
  · by_cases hst : n.Stores <;> by_cases hlogs : n.Logs <;>
      simp [enter, hev, hst, hlogs] <;> tauto

theorem mem_take {l : Ledger} (h : l.Sound) {x : Measurement} :
    x ∈ l.take.queue ++ l.take.logged ↔ x ∈ l.queue ++ l.logged ∧ l.queue.head? ≠ some x := by
  have hqueue := h.nodup_queue
  have hapart := h.head_ne_of_logged (x := x)
  simp only [take, List.mem_append, mem_tail_iff hqueue]
  tauto

theorem mem_print {l : Ledger} (h : l.Sound) (n : Node) {x : Measurement} :
    x ∈ (l.print n).queue ++ (l.print n).logged ↔
      x ∈ l.queue ++ l.logged ∧ (l.queue.head? = some x → n.logger.accepts = true) := by
  have hqueue := h.nodup_queue
  have hapart := h.head_ne_of_logged (x := x)
  have hmem : l.queue.head? = some x → x ∈ l.queue := List.mem_of_mem_head?
  cases hacc : n.logger.accepts <;>
    simp [print, hacc, List.mem_append, mem_tail_iff hqueue] <;> tauto

theorem Sound.enter {l : Ledger} (h : l.Sound) (n : Node) (p : CsiPacket) :
    (l.enter n p).Sound := by
  have hnew := h.next_not_mem n p
  have hnewq : l.next n p ∉ l.queue ++ l.logged := fun hmem => hnew (h.known _ hmem)
  have hsub : (if n.Evicts then l.queue.tail else l.queue).Sublist l.queue := by
    split_ifs
    · exact List.tail_sublist _
    · exact .refl _
  constructor
  · intro x hx
    rcases List.mem_append.mp hx with hx | hx
    · have := h.serial x hx
      simp only [Ledger.enter, List.length_append, List.length_singleton]
      omega
    · obtain rfl := List.mem_singleton.mp hx
      simp [Ledger.enter, Ledger.next]
  · by_cases hstores : n.Stores
    · -- stored in the queue, hence not logged
      have hlogs : ¬ n.Logs := fun hlogs => absurd (hstores.1.symm.trans hlogs.1) (by decide)
      have hrest : ((if n.Evicts then l.queue.tail else l.queue) ++ l.logged).Sublist
          (l.queue ++ l.logged) := hsub.append (.refl _)
      simp only [Ledger.enter, hstores, hlogs, if_true, if_false, List.append_assoc,
        List.singleton_append]
      rw [List.nodup_middle]
      exact (h.nodup.sublist hrest).cons fun hmem => hnewq (hrest.subset hmem)
    -- logged, or given to a callback and kept nowhere
    · by_cases hlogs : n.Logs
      · simp only [Ledger.enter, hstores, hlogs, if_true, if_false, ← List.append_assoc]
        exact (List.perm_append_singleton _ _).nodup_iff.mpr (h.nodup.cons hnewq)
      · simpa only [Ledger.enter, hstores, hlogs, if_false] using h.nodup
  · intro x hx
    rcases (mem_enter h n p).mp hx with ⟨rfl, -⟩ | ⟨hold, -⟩
    · simp [Ledger.enter]
    · exact List.mem_append_left _ (h.known x hold)
  · intro x hx hcons
    have hgrow : x ∈ l.handed → x ∈ (l.enter n p).handed := by
      intro hmem
      simp only [Ledger.enter]
      split_ifs
      · exact List.mem_append_left _ hmem
      · exact hmem
    rcases (mem_enter h n p).mp hx with ⟨rfl, hst | hlogs⟩ | ⟨hold, -⟩
    · simp [Ledger.enter, hst]
    · simp [Ledger.next, Node.hasConsumer, hlogs.1] at hcons
    · exact hgrow (h.handed x hold hcons)

theorem Sound.take {l : Ledger} (h : l.Sound) : l.take.Sound where
  serial := h.serial
  nodup := h.nodup.sublist ((List.tail_sublist _).append (.refl _))
  known x hx := h.known x ((mem_take h).mp hx).1
  handed x hx := h.handed x ((mem_take h).mp hx).1

theorem Sound.print {l : Ledger} (h : l.Sound) (n : Node) : (l.print n).Sound where
  serial := h.serial
  nodup := by
    cases hq : l.queue with
    | nil => simpa [Ledger.print, hq] using h.nodup
    | cons x xs =>
      have hnodup : (x :: (xs ++ l.logged)).Nodup := by simpa [hq] using h.nodup
      cases hacc : n.logger.accepts
      · simpa [Ledger.print, hq, hacc] using (List.nodup_cons.mp hnodup).2
      · have hmoved : (xs ++ l.logged ++ [x]).Nodup :=
          (List.perm_append_singleton x (xs ++ l.logged)).nodup_iff.mpr hnodup
        simpa [Ledger.print, hq, hacc] using hmoved
  known x hx := h.known x ((mem_print h n).mp hx).1
  handed x hx := h.handed x ((mem_print h n).mp hx).1

/-- No host report is lost yet, and no local one has leaked. -/
structure Kept (l : Ledger) : Prop where
  host : ∀ x ∈ l.admitted, x.dest = some .host → x ∈ l.queue ++ l.logged
  apart : ∀ x ∈ l.logged, x.dest ≠ some .localOnly

theorem kept_enter_iff {l : Ledger} (h : l.Sound) (hkept : l.Kept) (n : Node) (p : CsiPacket) :
    (l.enter n p).Kept ↔
      (n.destination = some .host →
        n.gates.csiDeliveryMode = .off ∧ n.logger.accepts = true ∨ n.Stores) ∧
      (n.Evicts → ∀ x ∈ l.queue.head?, x.dest ≠ some .host) := by
  constructor
  · intro henter
    constructor
    · intro hdest
      -- a host report that was just admitted is in the queue or logged, as it was not known before
      have hmem := henter.host (l.next n p) (by simp [enter]) hdest
      rcases (mem_enter h n p).mp hmem with ⟨-, hst | hlogs⟩ | ⟨hold, -⟩
      · exact .inr hst
      · exact .inl ⟨hlogs.1, hlogs.2.2.2⟩
      · exact absurd (h.known _ hold) (h.next_not_mem n p)
    · intro hev x hhead hdest
      -- one that is evicted is nowhere else
      have hknown := h.known x (List.mem_append_left l.logged (List.mem_of_mem_head? hhead))
      have hmem := henter.host x (List.mem_append_left _ hknown) hdest
      rcases (mem_enter h n p).mp hmem with ⟨rfl, -⟩ | ⟨-, hsafe⟩
      · exact h.next_not_mem n p hknown
      · exact hsafe ⟨hev, hhead⟩
  · rintro ⟨hnew, hev⟩
    constructor
    · intro x hx hdest
      apply (mem_enter h n p).mpr
      rcases List.mem_append.mp hx with hx | hx
      · exact .inr ⟨hkept.host x hx hdest, fun hlost => hev hlost.1 x hlost.2 hdest⟩
      · obtain rfl := List.mem_singleton.mp hx
        obtain ⟨hinline, hlocal⟩ := Node.of_destination_host hdest
        exact .inl ⟨rfl, (hnew hdest).symm.imp id fun hoff => ⟨hoff.1, hinline, hlocal, hoff.2⟩⟩
    · intro x hx hdest
      simp only [enter] at hx
      split_ifs at hx with hlogs
      · rcases List.mem_append.mp hx with hx | hx
        · exact hkept.apart x hx hdest
        · obtain rfl := List.mem_singleton.mp hx
          have hlocal := Node.of_destination_local hdest
          simp [hlogs.2.2.1] at hlocal
      · exact hkept.apart x hx hdest

theorem kept_take_iff {l : Ledger} (h : l.Sound) (hkept : l.Kept) :
    l.take.Kept ↔ ∀ x ∈ l.queue.head?, x.dest ≠ some .host := by
  constructor
  · intro htake x hhead hdest
    have hmem := List.mem_append_left l.logged (List.mem_of_mem_head? hhead)
    exact ((mem_take h).mp (htake.host x (h.known x hmem) hdest)).2 hhead
  · intro hhead
    refine ⟨fun x hx hdest => (mem_take h).mpr ⟨hkept.host x hx hdest, fun hx' => ?_⟩, hkept.apart⟩
    exact hhead x hx' hdest

theorem kept_print_iff {l : Ledger} (h : l.Sound) (hkept : l.Kept) (n : Node) :
    (l.print n).Kept ↔
      ∀ x ∈ l.queue.head?, (x.dest = some .host → n.logger.accepts = true) ∧
        (x.dest = some .localOnly → n.logger.accepts = false) := by
  constructor
  · intro hprint x hhead
    have hmem := List.mem_append_left l.logged (List.mem_of_mem_head? hhead)
    constructor
    · intro hdest
      exact ((mem_print h n).mp (hprint.host x (h.known x hmem) hdest)).2 hhead
    · intro hdest
      by_contra hacc
      have hlog : x ∈ (l.print n).logged := by
        simp only [Bool.not_eq_false] at hacc
        simp [print, hacc, Option.mem_def.mp hhead]
      exact hprint.apart x hlog hdest
  · intro hhead
    constructor
    · intro x hx hdest
      exact (mem_print h n).mpr ⟨hkept.host x hx hdest, fun hx' => (hhead x hx').1 hdest⟩
    · intro x hx hdest
      rcases List.mem_append.mp hx with hx | hx
      · exact hkept.apart x hx hdest
      · cases hacc : n.logger.accepts
        · simp [hacc] at hx
        · have hx' : l.queue.head? = some x := by simpa [hacc] using hx
          exact absurd ((hhead x hx').2 hdest) (by simp [hacc])

theorem Kept.of_enter {l : Ledger} (h : l.Sound) {n : Node} {p : CsiPacket}
    (hkept : (l.enter n p).Kept) : l.Kept where
  host x hx hdest := by
    have hmem := hkept.host x (List.mem_append_left _ hx) hdest
    rcases (mem_enter h n p).mp hmem with ⟨rfl, -⟩ | ⟨hold, -⟩
    · exact absurd hx (h.next_not_mem n p)
    · exact hold
  apart x hx := by
    apply hkept.apart
    simp only [enter]
    split_ifs
    · exact List.mem_append_left _ hx
    · exact hx

theorem Kept.of_take {l : Ledger} (h : l.Sound) (hkept : l.take.Kept) : l.Kept where
  host x hx hdest := ((mem_take h).mp (hkept.host x hx hdest)).1
  apart := hkept.apart

theorem Kept.of_print {l : Ledger} (h : l.Sound) {n : Node} (hkept : (l.print n).Kept) :
    l.Kept where
  host x hx hdest := ((mem_print h n).mp (hkept.host x hx hdest)).1
  apart x hx := hkept.apart x (List.mem_append_left _ hx)

theorem Sound.step {l : Ledger} (h : l.Sound) (board : Board) (n : Node) (e : Event) :
    (l.step board n e).Sound := by
  unfold Ledger.step
  cases n.delivered board e with
  | some p => exact h.enter n p
  | none =>
    cases e with
    | nextCsiPacket | pollCsiPacket => exact h.take
    | printCsi | pollPrintCsi => exact h.print n
    | _ => exact h

theorem Kept.of_step {board : Board} {l : Ledger} (h : l.Sound) {n : Node} {e : Event}
    (hkept : (l.step board n e).Kept) : l.Kept := by
  unfold Ledger.step at hkept
  cases hdel : n.delivered board e with
  | some p => exact Kept.of_enter h (by simpa only [hdel] using hkept)
  | none =>
    simp only [hdel] at hkept
    cases e with
    | nextCsiPacket | pollCsiPacket => exact Kept.of_take h hkept
    | printCsi | pollPrintCsi => exact Kept.of_print h hkept
    | _ => exact hkept

theorem kept_step_iff {board : Board} {l : Ledger} (h : l.Sound) (hkept : l.Kept) (n : Node)
    (e : Event) : (l.step board n e).Kept ↔ Respects board (n, l) e := by
  unfold Ledger.step Respects
  cases n.delivered board e with
  | some p => exact kept_enter_iff h hkept n p
  | none =>
    cases e with
    | nextCsiPacket | pollCsiPacket => exact kept_take_iff h hkept
    | printCsi | pollPrintCsi => exact kept_print_iff h hkept n
    | _ => exact iff_true_intro hkept

/-- At the end of a run every destination was honoured when none was missed and no host report is
left in the queue. -/
theorem honoured_iff_kept {l : Ledger} (h : l.Sound) :
    l.Honoured ↔ l.Kept ∧ ∀ x ∈ l.queue, x.dest ≠ some .host := by
  constructor
  · intro hon
    refine ⟨⟨fun x hx hdest => List.mem_append_right _ (hon.host x hx hdest).1,
      fun x hx hdest => hon.onDevice x (h.known x (List.mem_append_right _ hx)) hdest hx⟩, ?_⟩
    intro x hx hdest
    have hknown := h.known x (List.mem_append_left _ hx)
    exact (List.nodup_append.mp h.nodup).2.2 x hx x (hon.host x hknown hdest).1 rfl
  · rintro ⟨hkept, hqueue⟩
    refine ⟨fun x hx hdest => ?_, fun x _ hdest hlog => hkept.apart x hlog hdest⟩
    have hmem := hkept.host x hx hdest
    exact ⟨(List.mem_append.mp hmem).resolve_left fun hq => hqueue x hq hdest, h.handed x hmem⟩

end Ledger

/-- Over any run from boot, every destination is honoured exactly when every step respects them and
the queue ends without a host report. -/
theorem honoured_iff_respects (board : Board) (evs : List Event) :
    let l := (run (ledgerStep board) (.boot, .empty) evs).2
    l.Honoured ↔
      Along (ledgerStep board) (Ledger.Respects board) (.boot, .empty) evs ∧
        ∀ x ∈ l.queue, x.dest ≠ some .host := by
  intro l
  have hempty : Ledger.empty.Sound := ⟨by simp [Ledger.empty], by simp [Ledger.empty],
    by simp [Ledger.empty], by simp [Ledger.empty]⟩
  have hkept : Ledger.empty.Kept := ⟨by simp [Ledger.empty], by simp [Ledger.empty]⟩
  have hkeep (s : Node × Ledger) (e : Event) (h : s.2.Sound) : (ledgerStep board s e).2.Sound :=
    h.step board s.1 e
  have hsound : l.Sound :=
    (always_of_step (Q := fun s : Node × Ledger => s.2.Sound) hempty hkeep).last
  rw [Ledger.honoured_iff_kept hsound]
  have halways : Always (ledgerStep board) (fun s => s.2.Kept) (.boot, .empty) evs ↔
      Along (ledgerStep board) (Ledger.Respects board) (.boot, .empty) evs :=
    always_iff_along (I := fun s : Node × Ledger => s.2.Sound) (H := fun _ _ => True)
      (fun _ _ _ => trivial) hempty hkept
      (fun s e hs hk _ => Ledger.kept_step_iff hs hk s.1 e) fun s e hs _ _ _ => hkeep s e hs
  have hlast : l.Kept ↔ Always (ledgerStep board) (fun s => s.2.Kept) (.boot, .empty) evs :=
    ⟨always_of_last (Q := fun s : Node × Ledger => s.2.Kept)
      (I := fun s : Node × Ledger => s.2.Sound) hempty hkeep
      fun s e hs => Ledger.Kept.of_step hs, Always.last⟩
  rw [hlast, halways]

/-- With a callback installed a host report is never written, and a local one is written by the task
that drains the queue into the logger. -/
theorem destinations_not_honoured :
    ¬ (run (ledgerStep .esp32) (.boot, .empty)
        [.setReporting .HOST, .initLogger .text .sync, .setCsiCallback 0,
          .capture (.quiet .zero 0 0) 0]).2.Honoured ∧
      ¬ (run (ledgerStep .esp32) (.boot, .empty)
        [.setReporting (.report .localOnly), .initLogger .text .async, .printCsi 0,
          .capture (.quiet .zero 0 0) 0, .pollPrintCsi 0]).2.Honoured := by
  decide +kernel

end EspCsi.Csi
