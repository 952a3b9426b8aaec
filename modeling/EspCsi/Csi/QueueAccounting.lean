import EspCsi.Csi.Runs
import EspCsi.Lib.LossyQueue

/-!
# Async-queue loss accounting

What the `rx_queue_full` count says about the packets that were lost. Producers, consumer and policy
switches interleave between any two operations on the queue; books are kept beside the machine of
what every packet submitted to the queue came to.
-/

namespace EspCsi.Csi

open Wire Logging Transition LossyQueue

/-- A producer within `deliver`. `took` says whether its eviction took a packet out; nothing of the
crate reads it. -/
structure Producer where
  stage : Stage
  packet : CsiPacket
  took : Bool
deriving DecidableEq

namespace Producer

def submitting (u : Producer) : Bool :=
  match u.stage with
  | .store | .overflow | .evict | .retry => true
  | .account | .dispatch | .call | .log => false

/-- It has counted a loss that has not happened. -/
def owes (u : Producer) : Bool :=
  match u.stage with
  | .overflow | .evict => true
  | .retry => !u.took
  | .account | .dispatch | .store | .call | .log => false

end Producer

/-- The node, the producers under way, and the books: what was submitted to the queue, stored in it,
returned by `next_csi_packet` and lost, and how often `rx_queue_full` was incremented. Nothing of the
crate reads the books. -/
structure Tracked where
  node : Node
  underway : List Producer
  submitted : List CsiPacket
  enqueued : List CsiPacket
  received : List CsiPacket
  lost : List CsiPacket
  full : ℕ

namespace Tracked

open Interleaved (Action)

def boot : Tracked := ⟨.boot, [], [], [], [], [], 0⟩

def forget (s : Tracked) : Interleaved :=
  ⟨s.node, s.underway.map fun u => (u.stage, u.packet)⟩

/-- What one atomic operation of a producer enters into the books. -/
def record (s : Tracked) (u : Producer) : Tracked :=
  match u.stage with
  | .dispatch =>
    if s.node.gates.csiDeliveryMode = .async then { s with submitted := s.submitted ++ [u.packet] }
    else s
  | .store =>
    if s.node.csiQueue.length < CSI_QUEUE_LEN then { s with enqueued := s.enqueued ++ [u.packet] }
    else { s with full := s.full + 1 }
  | .overflow =>
    if s.node.gates.overflowDropOldest then s else { s with lost := s.lost ++ [u.packet] }
  -- what is evicted is lost, whoever put it in
  | .evict => { s with lost := s.lost ++ s.node.csiQueue.head?.toList }
  | .retry =>
    if s.node.csiQueue.length < CSI_QUEUE_LEN then { s with enqueued := s.enqueued ++ [u.packet] }
    else { s with lost := s.lost ++ [u.packet] }
  | .account | .call | .log => s

def begin (board : Board) (s : Tracked) (e : Event) : Tracked :=
  { s with
    node := (acquire board s.node e).1
    underway :=
      s.underway ++ (acquire board s.node e).2.toList.map fun p => ⟨.account, p, false⟩
    received := s.received ++ (s.node.taken e).toList }

def advance (board : Board) (s : Tracked) (i : ℕ) : Tracked :=
  match s.underway[i]? with
  | none => s
  | some u =>
    match u.stage.advance board.chip s.node u.packet with
    | (node, some stage) =>
      { s.record u with
        node
        underway := s.underway.set i
          { u with stage, took := u.stage = .evict && !s.node.csiQueue.isEmpty } }
    | (node, none) => { s.record u with node, underway := s.underway.eraseIdx i }

def step (board : Board) (s : Tracked) : Action → Tracked
  | .call e => s.begin board e
  | .advance i => s.advance board i

theorem forget_step (board : Board) (s : Tracked) (a : Action) :
    (s.step board a).forget = s.forget.step board a := by
  cases a with
  | call e => simp [step, begin, forget, Interleaved.step, Interleaved.begin, Function.comp_def]
  | advance i =>
    simp only [step, advance, Interleaved.step, Interleaved.advance, forget, List.getElem?_map]
    cases s.underway[i]? with
    | none => rfl
    | some u =>
      simp only [Option.map_some]
      rcases u.stage.advance board.chip s.node u.packet with ⟨node, _ | stage⟩
      · simp [List.eraseIdx_map]
      · simp [List.map_set]

theorem run_forget (board : Board) (s : Tracked) (as : List Action) :
    (run (step board) s as).forget = run (Interleaved.step board) s.forget as :=
  run_map (f := forget) (forget_step board) s as

/-! ## The books -/

def books (s : Tracked) : Books CsiPacket where
  queue := s.node.csiQueue
  held := (s.underway.filter Producer.submitting).map Producer.packet
  submitted := s.submitted
  enqueued := s.enqueued
  received := s.received
  lost := s.lost
  charged := s.full
  credit := s.underway.countP Producer.owes

/-- The producer's retry finds the queue full again after its eviction took a packet out. -/
def Overdraws (s : Tracked) : Action → Prop
  | .advance i =>
    match s.underway[i]? with
    | some u => u.stage = .retry ∧ u.took = true ∧ ¬ s.node.csiQueue.length < CSI_QUEUE_LEN
    | none => False
  | .call _ => False

instance (s : Tracked) : (a : Action) → Decidable (s.Overdraws a)
  | .advance i =>
    match h : s.underway[i]? with
    | some u =>
      decidable_of_iff
        (u.stage = .retry ∧ u.took = true ∧ ¬ s.node.csiQueue.length < CSI_QUEUE_LEN)
        (by simp [Overdraws, h])
    | none => isFalse (by simp [Overdraws, h])
  | .call _ => isFalse id

theorem split_of_getElem? {α : Type} {us : List α} {i : ℕ} {u : α} (h : us[i]? = some u) :
    ∃ before after, us = before ++ u :: after ∧ (∀ u', us.set i u' = before ++ u' :: after) ∧
      us.eraseIdx i = before ++ after := by
  obtain ⟨hlt, heq⟩ := List.getElem?_eq_some_iff.mp h
  have hsplit : us = us.take i ++ u :: us.drop (i + 1) := by
    rw [← heq, ← List.drop_eq_getElem_cons hlt, List.take_append_drop]
  refine ⟨us.take i, us.drop (i + 1), hsplit, fun u' => ?_, List.eraseIdx_eq_take_drop_succ us i⟩
  rw [List.set_eq_take_append_cons_drop, if_pos hlt]

theorem moves_begin (board : Board) (s : Tracked) (e : Event) :
    Moves s.books true (s.begin board e).books := by
  cases hdel : s.node.delivered board e with
  | some p =>
    obtain ⟨session, stats, policy, heq⟩ := acquire_of_delivered hdel
    have hsnd : (acquire board s.node e).2 = some p := hdel
    have hsame : (s.begin board e).books = s.books := by
      simp [begin, books, heq, hsnd, Node.taken_of_delivered hdel, Producer.submitting,
        Producer.owes]
    rw [hsame]
    exact .idle
  | none =>
    have hqueue := csiQueue_step hdel
    have hbegin : (s.begin board e).books =
        { s.books with
          queue := (Csi.step board s.node e).csiQueue
          received := s.received ++ (s.node.taken e).toList } := by
      simp [begin, books, Interleaved.acquire_of_not_delivered hdel]
    rw [hbegin]
    cases htaken : s.node.taken e with
    | none =>
      rw [htaken] at hqueue
      have hsame : { s.books with
          queue := (Csi.step board s.node e).csiQueue
          received := s.received ++ (none : Option CsiPacket).toList } = s.books := by
        simp [books, hqueue]
      rw [hsame]
      exact .idle
    | some p =>
      rw [htaken] at hqueue
      exact .receive p (Csi.step board s.node e).csiQueue hqueue

theorem advance_eq {board : Board} {s : Tracked} {i : ℕ} {before after : List Producer}
    {stage : Stage} {p : CsiPacket} {took : Bool}
    (hi : s.underway[i]? = some ⟨stage, p, took⟩)
    (hset : ∀ u', s.underway.set i u' = before ++ u' :: after)
    (herase : s.underway.eraseIdx i = before ++ after) :
    s.advance board i =
      match stage.advance board.chip s.node p with
      | (node, some stage') =>
        { s.record ⟨stage, p, took⟩ with
          node
          underway := before ++ ⟨stage', p, stage = .evict && !s.node.csiQueue.isEmpty⟩ :: after }
      | (node, none) => { s.record ⟨stage, p, took⟩ with node, underway := before ++ after } := by
  simp only [advance, hi]
  rcases stage.advance board.chip s.node p with ⟨node, _ | stage'⟩
  · simp only [herase]
  · simp only [hset]

theorem moves_advance (board : Board) (s : Tracked) (i : ℕ) :
    Moves s.books (decide (¬ s.Overdraws (.advance i))) (s.advance board i).books := by
  cases hi : s.underway[i]? with
  | none =>
    simp only [advance, hi]
    exact .idle
  | some u =>
    obtain ⟨stage, p, took⟩ := u
    obtain ⟨before, after, hunder, hset, herase⟩ := split_of_getElem? hi
    -- what the other producers hold and owe
    let others := ((before ++ after).filter Producer.submitting).map Producer.packet
    let owed := (before ++ after).countP Producer.owes
    have hheld (hsub : Producer.submitting ⟨stage, p, took⟩ = true) :
        s.books.held.Perm (p :: others) := by
      simp [books, hunder, hsub, others, List.perm_middle]
    have howed (howes : Producer.owes ⟨stage, p, took⟩ = true) : owed + 1 = s.books.credit := by
      simp [books, hunder, howes, owed, Nat.add_assoc]
    rw [advance_eq hi hset herase]
    cases stage with
    | account =>
      obtain ⟨stats, heq⟩ := s.node.recordTx_eq board.chip p
      convert (Moves.idle : Moves s.books _ s.books) using 1
      simp [Stage.advance, heq, record, books, hunder, Producer.submitting, Producer.owes]
    | dispatch =>
      cases hmode : s.node.gates.csiDeliveryMode with
      | async =>
        have hentered : (((before ++ ⟨.store, p, false⟩ :: after).filter Producer.submitting).map
            Producer.packet).Perm (p :: s.books.held) := by
          simp [books, hunder, List.filter_cons, Producer.submitting, List.perm_middle]
        convert (Moves.submit p hentered : Moves s.books _ _) using 1
        simp [Stage.advance, hmode, record, books, hunder, List.filter_cons,
          Producer.submitting, Producer.owes]
      | callback | off =>
        convert (Moves.idle : Moves s.books _ s.books) using 1
        simp [Stage.advance, hmode, record, books, hunder, Producer.submitting, Producer.owes]
    | call =>
      convert (Moves.idle : Moves s.books _ s.books) using 1
      cases hcb : s.node.gates.csiCallback <;>
        simp [Stage.advance, hcb, record, books, hunder, Producer.submitting, Producer.owes,
          Node.observe]
    | store =>
      by_cases hroom : s.node.csiQueue.length < CSI_QUEUE_LEN
      · convert (Moves.enqueue p (hheld rfl) (Nat.le_refl s.books.credit) : Moves s.books _ _) using 1
        simp [Stage.advance, hroom, record, books, hunder, Producer.owes, others]
      · convert (Moves.charge : Moves s.books _ _) using 1
        simp [Stage.advance, hroom, record, books, hunder, List.filter_cons, List.countP_cons,
          Producer.submitting, Producer.owes, Node.chargeLoss, Nat.add_assoc]
    | overflow =>
      by_cases hold : s.node.gates.overflowDropOldest = true
      · convert (Moves.idle : Moves s.books _ s.books) using 1
        simp [Stage.advance, hold, record, books, hunder, List.filter_cons, List.countP_cons,
          Producer.submitting, Producer.owes]
      · convert (Moves.drop p (hheld rfl) (howed rfl) : Moves s.books _ _) using 1
        simp [Stage.advance, hold, record, books, others, owed]
    | evict =>
      cases hqueue : s.node.csiQueue with
      | nil =>
        convert (Moves.idle : Moves s.books _ s.books) using 1
        simp [Stage.advance, hqueue, record, books, hunder, List.filter_cons, List.countP_cons,
          Producer.submitting, Producer.owes]
      | cons q rest =>
        convert (Moves.evict q rest hqueue (howed rfl) : Moves s.books _ _) using 1
        simp [Stage.advance, hqueue, record, books, hunder, List.filter_cons, List.countP_cons,
          Producer.submitting, Producer.owes, owed]
    | retry =>
      by_cases hroom : s.node.csiQueue.length < CSI_QUEUE_LEN
      · have hle : owed ≤ s.books.credit := by
          have hsub := (List.sublist_cons_self ⟨.retry, p, took⟩ after).append_left before
          rw [← hunder] at hsub
          exact hsub.countP_le
        convert (Moves.enqueue p (hheld rfl) hle : Moves s.books _ _) using 1
        simp [Stage.advance, hroom, record, books, others, owed]
      · cases took with
        | false =>
          convert (Moves.drop p (hheld rfl) (howed rfl) : Moves s.books _ _) using 1
          simp [Stage.advance, hroom, record, books, others, owed]
        | true =>
          have hover : s.Overdraws (.advance i) := by
            rw [Overdraws, hi]
            exact ⟨rfl, rfl, hroom⟩
          convert (Moves.overdraw p (hheld rfl) : Moves s.books _ _) using 1
          · simp [hover]
          · simp [Stage.advance, hroom, record, books, hunder, others, Producer.owes]
    | log =>
      convert (Moves.idle : Moves s.books _ s.books) using 1
      by_cases hlog : s.node.gates.csiInlineLogEnabled && !s.node.gates.reportLocal <;>
        simp [Stage.advance, hlog, record, books, hunder, Producer.submitting, Producer.owes,
          Node.logCsi]

theorem moves_step (board : Board) (s : Tracked) (a : Action) :
    Moves s.books (decide (¬ s.Overdraws a)) (s.step board a).books := by
  cases a with
  | call e => exact moves_begin board s e
  | advance i => exact moves_advance board s i

/-! ## The counter -/

theorem rxQueueFull_acquire {board : Board} {n : Node} {e : Event}
    (hbegin : ∀ cfg, e ≠ .beginRun cfg) :
    (acquire board n e).1.stats.rxQueueFull = n.stats.rxQueueFull := by
  cases e with
  | capture info now =>
    by_cases hdel : n.Delivers board info now
    · obtain ⟨p, session, rxCount, bbFormatHist, policy, -, heq⟩ :=
        Node.acquireCapture_of_delivers hdel
      rw [acquire, heq]
    · obtain ⟨stats, policy, out, heq, ⟨_, _, _, _, rfl | rfl⟩, -⟩ :=
        Node.acquireCapture_of_not_delivers hdel
      · rw [acquire, heq]
      · rw [acquire, heq]
        rfl
  | emit kind frame now =>
    simp only [acquire, Node.acquireEmit]
    split_ifs <;> rfl
  | beginRun cfg => exact absurd rfl (hbegin cfg)
  | nextCsiPacket t | pollCsiPacket t =>
    simp only [acquire, Csi.step, Node.pollCsiPacket, Node.takeCsi, Node.enterAsync]
    cases n.csiQueue <;> rfl
  | printCsi t | pollPrintCsi t =>
    simp only [acquire, Csi.step, Node.pollPrintCsi, Node.takeCsi, Node.enterAsync]
    cases n.csiQueue <;> rfl
  | loggerBackend =>
    simp only [acquire, Csi.step, Node.loggerBackend]
    split <;> rfl
  | processOutputChanged =>
    simp only [acquire, Csi.step, Node.processOutputChanged]
    split_ifs <;> rfl
  | _ => rfl

theorem rxQueueFull_recordTx (n : Node) (chip : Chip) (p : CsiPacket) :
    (n.recordTx chip p).stats.rxQueueFull = n.stats.rxQueueFull := by
  by_cases hdetect : n.stats.seqDropDetection = true
  · rw [Node.recordTx, if_pos hdetect]
    simp only [Stats.recordTxFrame]
    split_ifs <;> rfl
  · rw [Node.recordTx, if_neg hdetect]

theorem rxQueueFull_advance (board : Board) (s : Tracked) (i : ℕ)
    (h : s.node.stats.rxQueueFull = UInt32.ofNat s.full) :
    (s.advance board i).node.stats.rxQueueFull = UInt32.ofNat (s.advance board i).full := by
  unfold advance
  cases s.underway[i]? with
  | none => exact h
  | some u =>
    obtain ⟨stage, p, took⟩ := u
    cases stage with
    | account => simpa [Stage.advance, record, rxQueueFull_recordTx] using h
    | dispatch =>
      cases hmode : s.node.gates.csiDeliveryMode <;> simpa [Stage.advance, record, hmode] using h
    | call => cases hcb : s.node.gates.csiCallback <;> simpa [Stage.advance, record, hcb] using h
    | store =>
      by_cases hroom : s.node.csiQueue.length < CSI_QUEUE_LEN
      · simpa [Stage.advance, record, hroom, Node.enqueue] using h
      · simp [Stage.advance, record, hroom, Node.chargeLoss, Stats.recordLoss, h, UInt32.ofNat_add]
    | overflow =>
      by_cases hold : s.node.gates.overflowDropOldest = true <;>
        simpa [Stage.advance, record, hold] using h
    | evict => simpa [Stage.advance, record] using h
    | retry =>
      by_cases hroom : s.node.csiQueue.length < CSI_QUEUE_LEN <;>
        simpa [Stage.advance, record, hroom, Node.enqueue] using h
    | log =>
      by_cases hlog : s.node.gates.csiInlineLogEnabled && !s.node.gates.reportLocal <;>
        simpa [Stage.advance, record, hlog, Node.logCsi] using h

theorem rxQueueFull_run (board : Board) (as : List Action)
    (h : ∀ cfg, .call (.beginRun cfg) ∉ as) :
    (run (step board) boot as).node.stats.rxQueueFull =
      UInt32.ofNat (run (step board) boot as).full := by
  induction as using List.reverseRecOn with
  | nil => rfl
  | append_singleton as a ih =>
    have hprev := ih fun cfg hmem => h cfg (List.mem_append_left [a] hmem)
    rw [run_concat]
    cases a with
    | call e =>
      have hbegin : ∀ cfg, e ≠ .beginRun cfg := by
        rintro cfg rfl
        exact h cfg (by simp)
      simpa [step, begin, rxQueueFull_acquire hbegin] using hprev
    | advance i => exact rxQueueFull_advance board _ i hprev

/-! ## Every loss is counted -/

/-- Every submitted packet is at one place: it was received, is queued, was lost, or its submission
has not ended. Packets are received in the order they were enqueued in, and `rx_queue_full` counted
every loss. -/
structure Accounted (s : Tracked) : Prop where
  once : (s.received ++ s.node.csiQueue ++ s.lost ++
    (s.underway.filter Producer.submitting).map Producer.packet).Perm s.submitted
  inOrder : s.received.Sublist s.enqueued
  counted : s.lost.length ≤ s.full

theorem ordered_run (board : Board) (as : List Action) :
    Always (step board) (fun s => s.books.Ordered ∧ s.books.Conserved) boot as := by
  refine always_of_step ⟨⟨[], rfl, .slnil⟩, .refl _⟩ ?_
  rintro s a ⟨hordered, hconserved⟩
  exact ⟨(moves_step board s a).ordered hordered, (moves_step board s a).conserved hconserved⟩

/-- In every run in which no retry finds the queue full again after its own eviction, every packet is
accounted for. -/
theorem accounted_of_not_overdraws (board : Board) (as : List Action)
    (h : Along (step board) (fun s a => ¬ s.Overdraws a) boot as) :
    Always (step board) Accounted boot as := by
  have hcharged : Always (step board) (fun s => s.books.Charged) boot as := by
    refine h.always (Nat.le_refl 0) fun s a hs ha => ?_
    have hmoves := moves_step board s a
    rw [decide_eq_true ha] at hmoves
    exact hmoves.charged hs
  intro pre hpre
  obtain ⟨⟨gone, henqueued, hreceived⟩, hconserved⟩ := ordered_run board as pre hpre
  refine ⟨hconserved, ?_, (Nat.le_add_right _ _).trans (hcharged pre hpre)⟩
  have hgone : gone.Sublist (gone ++ (run (step board) boot pre).node.csiQueue) :=
    List.sublist_append_left gone _
  rw [show (run (step board) boot pre).enqueued = _ from henqueued]
  exact hreceived.trans hgone

def captures (k : ℕ) : List Action :=
  (List.replicate k [Action.call (.capture (.quiet .zero 0 0) 0), .advance 0, .advance 0,
    .advance 0]).flatten

/-- A consumer parks, and 32 measurements fill the queue. -/
def filled : List Action :=
  [.call (.beginRun .monitor), .call (.setCsiQueueOverflow .dropOldest), .call (.nextCsiPacket 7)] ++
    captures 32

/-- A producer that finds the queue full evicts a packet and enqueues its own. -/
theorem accounted_of_not_overdraws_evict :
    Always (step .esp32) Accounted boot (filled ++ captures 1 ++ [.advance 0, .advance 0, .advance 0]) :=
  accounted_of_not_overdraws .esp32 _ (by decide +kernel)

/-- A second producer takes the room that the first one made: an old packet and the first producer's
are both lost, and one loss is counted. -/
theorem not_accounted :
    ¬ Always (step .esp32) Accounted boot
      (filled ++ captures 1 ++ [.advance 0, .advance 0] ++
        [.call (.capture (.quiet .zero 0 0) 0), .advance 1, .advance 1, .advance 1, .advance 0]) :=
  fun h => absurd h.last.counted (by decide +kernel)

end Tracked

end EspCsi.Csi
