import EspCsi.Csi.Events
import EspCsi.Lib.TokenLine

/-!
# The session announcement

Which measurement of a run comes out first. Captures and emits run in different contexts, so a
delivery can be interrupted between any two of its atomic operations; the machine below takes them
one at a time.
-/

namespace EspCsi.Csi

open Wire Logging Transition TokenLine

/-! ## Interleaved deliveries -/

/-- How far a producer has got in `deliver`. -/
inductive Stage where
  | account
  | dispatch
  | call
  | store
  | overflow
  | evict
  | retry
  | log
deriving DecidableEq

def Stage.advance (chip : Chip) (n : Node) (packet : CsiPacket) : Stage → Node × Option Stage
  | .account => (n.recordTx chip packet, some .dispatch)
  | .dispatch =>
    match n.gates.csiDeliveryMode with
    | .callback => (n, some .call)
    | .async => (n, some .store)
    | .off => (n, some .log)
  | .call =>
    match n.gates.csiCallback with
    | some cb => (n.observe (.callback cb packet), none)
    | none => (n, none)
  | .store =>
    if n.csiQueue.length < CSI_QUEUE_LEN then (n.enqueue packet, none)
    else (n.chargeLoss .queueFull, some .overflow)
  | .overflow => if n.gates.overflowDropOldest then (n, some .evict) else (n, none)
  | .evict => ({ n with csiQueue := n.csiQueue.tail }, some .retry)
  -- a consumer or another producer may have come in between
  | .retry => if n.csiQueue.length < CSI_QUEUE_LEN then (n.enqueue packet, none) else (n, none)
  | .log =>
    if n.gates.csiInlineLogEnabled && !n.gates.reportLocal then (n.logCsi packet, none)
    else (n, none)

/-- The node and the deliveries under way, each with the packet it holds. -/
structure Interleaved where
  node : Node
  underway : List (Stage × CsiPacket)

namespace Interleaved

/-- A whole call, which starts a delivery where it has a packet to deliver, or one atomic operation
of the `i`-th delivery under way. -/
inductive Action where
  | call (e : Event)
  | advance (i : ℕ)

def boot : Interleaved := ⟨.boot, []⟩

def begin (board : Board) (s : Interleaved) (e : Event) : Interleaved where
  node := (acquire board s.node e).1
  underway := s.underway ++ (acquire board s.node e).2.toList.map fun p => (.account, p)

def advance (board : Board) (s : Interleaved) (i : ℕ) : Interleaved :=
  match s.underway[i]? with
  | none => s
  | some (stage, packet) =>
    match stage.advance board.chip s.node packet with
    | (node, some stage) => ⟨node, s.underway.set i (stage, packet)⟩
    | (node, none) => ⟨node, s.underway.eraseIdx i⟩

def step (board : Board) (s : Interleaved) : Action → Interleaved
  | .call e => s.begin board e
  | .advance i => s.advance board i

/-! ## An uninterrupted delivery -/

theorem advance_last (board : Board) (n : Node) (us : List (Stage × CsiPacket)) (stage : Stage)
    (p : CsiPacket) :
    advance board ⟨n, us ++ [(stage, p)]⟩ us.length =
      match stage.advance board.chip n p with
      | (node, some stage) => ⟨node, us ++ [(stage, p)]⟩
      | (node, none) => ⟨node, us⟩ := by
  unfold advance
  simp only [List.getElem?_concat_length]
  rcases stage.advance board.chip n p with ⟨node, _ | stage⟩
  · simp [List.eraseIdx_append_of_length_le]
  · simp

/-- Taken one after the other, the atomic operations of a delivery amount to `deliver`. -/
theorem run_advance_eq_deliver (board : Board) (n : Node) (us : List (Stage × CsiPacket))
    (p : CsiPacket) (hlen : n.csiQueue.length ≤ CSI_QUEUE_LEN) :
    ∃ k, run (step board) ⟨n, us ++ [(.account, p)]⟩ (List.replicate k (.advance us.length)) =
      ⟨n.deliver board.chip p, us⟩ := by
  obtain ⟨stats, hrec⟩ := Node.recordTx_eq n board.chip p
  cases hmode : n.gates.csiDeliveryMode with
  | callback =>
    refine ⟨3, ?_⟩
    cases hcb : n.gates.csiCallback <;>
      simp [List.replicate, step, advance_last, Stage.advance, Node.deliver, Node.dispatch, hrec,
        hmode, hcb]
  | off =>
    refine ⟨3, ?_⟩
    by_cases hlog : n.gates.csiInlineLogEnabled && !n.gates.reportLocal <;>
      simp [List.replicate, step, advance_last, Stage.advance, Node.deliver, Node.dispatch, hrec,
        hmode, hlog]
  | async =>
    by_cases hroom : n.csiQueue.length < CSI_QUEUE_LEN
    · refine ⟨3, ?_⟩
      simp [List.replicate, step, advance_last, Stage.advance, Node.deliver, Node.dispatch, hrec,
        hmode, Node.enqueueCsi, hroom]
    · by_cases hold : n.gates.overflowDropOldest = true
      · -- the retry finds the room that the eviction made
        have hmade : n.csiQueue.length - 1 < CSI_QUEUE_LEN := by
          have : 0 < CSI_QUEUE_LEN := by decide
          omega
        refine ⟨6, ?_⟩
        simp [List.replicate, step, advance_last, Stage.advance, Node.deliver, Node.dispatch, hrec,
          hmode, Node.enqueueCsi, Node.overflow, Node.chargeLoss, hroom, hold, hmade]
      · refine ⟨4, ?_⟩
        simp [List.replicate, step, advance_last, Stage.advance, Node.deliver, Node.dispatch, hrec,
          hmode, Node.enqueueCsi, Node.overflow, Node.chargeLoss, hroom, hold]

theorem acquire_of_not_delivered {board : Board} {n : Node} {e : Event}
    (h : n.delivered board e = none) :
    acquire board n e = (Csi.step board n e, none) := by
  have hnone : (acquire board n e).2 = none := h
  rw [step_eq_deliverAcquired]
  generalize acquire board n e = acquired at hnone ⊢
  obtain ⟨n', packet⟩ := acquired
  obtain rfl : packet = none := hnone
  rfl

/-- So a call whose delivery nothing interrupts is the whole call. -/
theorem run_call_eq_step (board : Board) (s : Interleaved) (e : Event)
    (hlen : s.node.csiQueue.length ≤ CSI_QUEUE_LEN) :
    ∃ k, run (step board) s (.call e :: List.replicate k (.advance s.underway.length)) =
      ⟨Csi.step board s.node e, s.underway⟩ := by
  rw [step_eq_deliverAcquired]
  cases hdel : s.node.delivered board e with
  | none =>
    refine ⟨0, ?_⟩
    simp [step, begin, acquire_of_not_delivered hdel, Node.deliverAcquired]
  | some p =>
    obtain ⟨session, stats, policy, heq⟩ := acquire_of_delivered hdel
    have hpair : acquire board s.node e = ({ s.node with session, stats, policy }, some p) :=
      Prod.ext heq hdel
    obtain ⟨k, hk⟩ := run_advance_eq_deliver board { s.node with session, stats, policy }
      s.underway p hlen
    refine ⟨k, ?_⟩
    rw [run_cons, hpair, Node.deliverAcquired, ← hk]
    simp [step, begin, hpair]

/-! ## The line of packets -/

@[simp] def delivery : Effect → Option CsiPacket
  | .callback _ p | .received p | .hostWrite p => some p
  | _ => none

def deliveries (out : List Effect) : List CsiPacket := out.filterMap delivery

def announces (p : CsiPacket) : Bool := p.session.isSome

/-- The packets on their way, the announcement of a run being the token of its round. -/
def line (s : Interleaved) : Line CsiPacket where
  round := s.node.session.runNo
  pending := s.node.session.anchorPending
  held := s.underway.map Prod.snd
  queue := s.node.csiQueue
  channel := s.node.logger.csiChannel
  out := deliveries s.node.out

def logLabel (n : Node) (p : CsiPacket) : Label CsiPacket :=
  if n.logger.accepts then
    match n.logger.backend with
    | .sync => .hand .out p
    | .async => .hand .channel p
  else .drop p

def label (board : Board) (s : Interleaved) : Action → Label CsiPacket
  | .call e =>
    match s.node.delivered board e with
    | some p => .build p
    | none =>
      match e with
      | .beginRun _ => .begin
      | .nextCsiPacket _ | .pollCsiPacket _ => (s.node.csiQueue.head?.map (.hand .out)).getD .idle
      | .printCsi _ | .pollPrintCsi _ => (s.node.csiQueue.head?.map (logLabel s.node)).getD .idle
      | .loggerBackend => (s.node.logger.csiChannel.head?.map (.hand .out)).getD .idle
      | _ => .idle
  | .advance i =>
    match s.underway[i]? with
    | none => .idle
    | some (stage, p) =>
      match stage with
      | .account | .dispatch => .idle
      | .call => if s.node.gates.csiCallback.isSome then .hand .out p else .drop p
      | .store => if s.node.csiQueue.length < CSI_QUEUE_LEN then .hand .queue p else .idle
      | .overflow => if s.node.gates.overflowDropOldest then .idle else .drop p
      | .evict => (s.node.csiQueue.head?.map .drop).getD .idle
      | .retry => if s.node.csiQueue.length < CSI_QUEUE_LEN then .hand .queue p else .drop p
      | .log =>
        if s.node.gates.csiInlineLogEnabled && !s.node.gates.reportLocal then logLabel s.node p
        else .drop p

/-! ## The machine moves packets along the line -/

@[simp] theorem deliveries_append (out more : List Effect) :
    deliveries (out ++ more) = deliveries out ++ deliveries more := by
  simp [deliveries]

@[simp] theorem deliveries_nil : deliveries [] = [] := rfl

@[simp] theorem deliveries_cons (e : Effect) (out : List Effect) :
    deliveries (e :: out) = (delivery e).toList ++ deliveries out := by
  cases e <;> rfl

def nodeLine (n : Node) (held : List CsiPacket) : Line CsiPacket where
  round := n.session.runNo
  pending := n.session.anchorPending
  held
  queue := n.csiQueue
  channel := n.logger.csiChannel
  out := deliveries n.out

theorem nodeLine_enqueue (n : Node) (p : CsiPacket) (held : List CsiPacket) :
    nodeLine (n.enqueue p) held = (nodeLine n held).put .queue p := by
  unfold Node.enqueue Node.wake
  split <;> simp [nodeLine, Line.put, Node.observe]

theorem nodeLine_recordTx (n : Node) (chip : Chip) (p : CsiPacket) (held : List CsiPacket) :
    nodeLine (n.recordTx chip p) held = nodeLine n held := by
  obtain ⟨stats, heq⟩ := Node.recordTx_eq n chip p
  rw [heq]
  rfl

theorem nodeLine_logCsi (n : Node) (p : CsiPacket) (held : List CsiPacket) :
    nodeLine (n.logCsi p) held =
      match logLabel n p with
      | .hand k _ => (nodeLine n held).put k p
      | _ => nodeLine n held := by
  cases hbackend : n.logger.backend with
  | sync =>
    simp [nodeLine, logLabel, Node.logCsi, Logger.logCsi, Logger.accepts, hbackend, Line.put]
  | async =>
    by_cases hroom : n.logger.csiChannel.length < CSI_LOG_CHANNEL_CAPACITY
    · simp [nodeLine, logLabel, Node.logCsi, Logger.logCsi, Logger.accepts, hbackend, hroom,
        Line.put]
    · simp [nodeLine, logLabel, Node.logCsi, Logger.logCsi, Logger.accepts, hbackend, hroom]

theorem map_snd_set {us : List (Stage × CsiPacket)} {i : ℕ} {stage : Stage} {p : CsiPacket}
    (h : us[i]? = some (stage, p)) (stage' : Stage) :
    (us.set i (stage', p)).map Prod.snd = us.map Prod.snd := by
  rw [List.map_set]
  apply List.ext_getElem?
  intro j
  by_cases hj : i = j
  · subst hj
    obtain ⟨hlt, heq⟩ := List.getElem?_eq_some_iff.mp h
    simp [hlt, heq]
  · simp [hj]

theorem map_snd_eraseIdx {us : List (Stage × CsiPacket)} {i : ℕ} {stage : Stage} {p : CsiPacket}
    (h : us[i]? = some (stage, p)) :
    ∃ before after, us.map Prod.snd = before ++ p :: after ∧
      (us.eraseIdx i).map Prod.snd = before ++ after := by
  obtain ⟨hlt, heq⟩ := List.getElem?_eq_some_iff.mp h
  refine ⟨(us.take i).map Prod.snd, (us.drop (i + 1)).map Prod.snd, ?_, ?_⟩
  · conv_lhs => rw [← List.take_append_drop i us, List.drop_eq_getElem_cons hlt, heq]
    simp
  · rw [List.eraseIdx_eq_take_drop_succ, List.map_append]

theorem moves_advance (board : Board) (s : Interleaved) (i : ℕ) :
    Moves CsiPacket.runNo announces (line s) (label board s (.advance i))
      (line (s.advance board i)) := by
  cases hi : s.underway[i]? with
  | none =>
    simp only [advance, label, hi]
    exact .idle _
  | some held =>
    obtain ⟨stage, p⟩ := held
    obtain ⟨before, after, hheld, herase⟩ := map_snd_eraseIdx hi
    -- the delivery goes on to another stage
    have hsame (n : Node) (stage' : Stage) :
        line ⟨n, s.underway.set i (stage', p)⟩ = nodeLine n (line s).held := by
      rw [line, map_snd_set hi]
      rfl
    -- or ends
    have hend (n : Node) : line ⟨n, s.underway.eraseIdx i⟩ = nodeLine n (before ++ after) := by
      rw [line, herase]
      rfl
    have hhand (k : Place) : Moves CsiPacket.runNo announces (line s) (.hand k p)
        ((nodeLine s.node (before ++ after)).put k p) :=
      .handHeld (line s) k p before after hheld
    have hdrop : Moves CsiPacket.runNo announces (line s) (.drop p)
        (nodeLine s.node (before ++ after)) :=
      .dropHeld (line s) p before after hheld
    simp only [advance, label, hi]
    cases stage with
    | account =>
      rw [Stage.advance, hsame, nodeLine_recordTx]
      exact .idle _
    | dispatch =>
      cases hmode : s.node.gates.csiDeliveryMode <;>
        simp only [Stage.advance, hmode, hsame] <;> exact .idle _
    | call =>
      cases hcb : s.node.gates.csiCallback with
      | some cb =>
        have hput : nodeLine (s.node.observe (.callback cb p)) (before ++ after) =
            (nodeLine s.node (before ++ after)).put .out p := by
          simp [nodeLine, Line.put, Node.observe]
        simp only [Stage.advance, hcb, hend, Option.isSome_some, if_true, hput]
        exact hhand .out
      | none =>
        simp only [Stage.advance, hcb, hend]
        exact hdrop
    | store =>
      by_cases hroom : s.node.csiQueue.length < CSI_QUEUE_LEN
      · simp only [Stage.advance, hroom, if_true, hend, nodeLine_enqueue]
        exact hhand .queue
      · simp only [Stage.advance, hroom, if_false, hsame]
        exact .idle _
    | overflow =>
      by_cases hold : s.node.gates.overflowDropOldest = true
      · simp only [Stage.advance, hold, if_true, hsame]
        exact .idle _
      · simp only [Stage.advance, hold, Bool.false_eq_true, if_false, hend]
        exact hdrop
    | evict =>
      simp only [Stage.advance, hsame]
      cases hq : s.node.csiQueue with
      | nil =>
        have hnone : nodeLine { s.node with csiQueue := [] } (line s).held = line s := by
          simp only [line, ← hq]
          rfl
        simp only [List.tail_nil, List.head?_nil, hnone]
        exact .idle _
      | cons q rest => exact .dropQueue (line s) q rest hq
    | retry =>
      by_cases hroom : s.node.csiQueue.length < CSI_QUEUE_LEN
      · simp only [Stage.advance, hroom, if_true, hend, nodeLine_enqueue]
        exact hhand .queue
      · simp only [Stage.advance, hroom, if_false, hend]
        exact hdrop
    | log =>
      by_cases hlog : (s.node.gates.csiInlineLogEnabled && !s.node.gates.reportLocal) = true
      · simp only [Stage.advance, hlog, if_true, hend, nodeLine_logCsi]
        unfold logLabel
        split_ifs
        · cases s.node.logger.backend
          · exact hhand .channel
          · exact hhand .out
        · exact hdrop
      · simp only [Stage.advance, hlog, Bool.false_eq_true, if_false, hend]
        exact hdrop

theorem moves_pollCsiPacket (n : Node) (t : TaskId) (held : List CsiPacket) :
    Moves CsiPacket.runNo announces (nodeLine n held)
      ((n.csiQueue.head?.map (.hand .out)).getD .idle) (nodeLine (n.pollCsiPacket t) held) := by
  cases hq : n.csiQueue with
  | nil =>
    have hsame : nodeLine (n.pollCsiPacket t) held = nodeLine n held := by
      simp [Node.pollCsiPacket, Node.takeCsi, nodeLine, hq]
    rw [hsame]
    exact .idle _
  | cons p rest =>
    have hput : nodeLine (n.pollCsiPacket t) held =
        ({ nodeLine n held with queue := rest } : Line CsiPacket).put .out p := by
      simp [Node.pollCsiPacket, Node.takeCsi, nodeLine, hq, Node.observe, Line.put]
    rw [hput]
    exact .outQueue (nodeLine n held) p rest hq

theorem moves_pollPrintCsi (n : Node) (t : TaskId) (held : List CsiPacket) :
    Moves CsiPacket.runNo announces (nodeLine n held)
      ((n.csiQueue.head?.map (logLabel n)).getD .idle) (nodeLine (n.pollPrintCsi t) held) := by
  cases hq : n.csiQueue with
  | nil =>
    have hsame : nodeLine (n.pollPrintCsi t) held = nodeLine n held := by
      simp [Node.pollPrintCsi, Node.takeCsi, nodeLine, hq]
    rw [hsame]
    exact .idle _
  | cons p rest =>
    have htake : nodeLine (n.pollPrintCsi t) held =
        nodeLine (({ n with csiQueue := rest } : Node).logCsi p) held := by
      simp [Node.pollPrintCsi, Node.takeCsi, hq]
    rw [htake, nodeLine_logCsi]
    simp only [List.head?_cons, Option.map_some, Option.getD_some]
    unfold logLabel
    split_ifs
    · cases n.logger.backend
      · exact .logQueue (nodeLine n held) p rest hq
      · exact .outQueue (nodeLine n held) p rest hq
    · exact .dropQueue (nodeLine n held) p rest hq

theorem moves_loggerBackend (n : Node) (held : List CsiPacket) :
    Moves CsiPacket.runNo announces (nodeLine n held)
      ((n.logger.csiChannel.head?.map (.hand .out)).getD .idle)
      (nodeLine n.loggerBackend held) := by
  cases hch : n.logger.csiChannel with
  | nil =>
    simp only [Node.loggerBackend, Logger.receive, hch]
    exact .idle _
  | cons p rest =>
    have hput : nodeLine n.loggerBackend held =
        ({ nodeLine n held with channel := rest } : Line CsiPacket).put .out p := by
      simp [Node.loggerBackend, Logger.receive, nodeLine, hch, Node.observe, Line.put]
    rw [hput]
    exact .outChannel (nodeLine n held) p rest hch

theorem nodeLine_step {board : Board} {n : Node} {e : Event} (hdel : n.delivered board e = none)
    (hdrain : e.drains = false) (hbegin : ∀ cfg, e ≠ .beginRun cfg) (held : List CsiPacket) :
    nodeLine (Csi.step board n e) held = nodeLine n held := by
  obtain ⟨hqueue, hchannel, hout⟩ := step_of_undelivered hdel hdrain
  have hdeliveries : deliveries (Csi.step board n e).out = deliveries n.out := by
    rcases hout with hout | ⟨cb, hout⟩ <;> simp [hout]
  have hsame := step_session_of_undelivered hdel hbegin
  rw [nodeLine, hqueue, hchannel, hdeliveries, hsame.runNo, hsame.anchorPending]
  rfl

theorem moves_begin (board : Board) (s : Interleaved) (e : Event) :
    Moves CsiPacket.runNo announces (line s) (label board s (.call e))
      (line (s.begin board e)) := by
  cases hdel : s.node.delivered board e with
  | some p =>
    obtain ⟨session, stats, policy, heq⟩ := acquire_of_delivered hdel
    obtain ⟨hrun, hannounces, hsame, htaken⟩ := acquire_session hdel
    have hbegin : line (s.begin board e) =
        { line s with held := (line s).held ++ [p], pending := false } := by
      have hsnd : (acquire board s.node e).2 = some p := hdel
      rw [heq] at hsame htaken
      simp [begin, line, hsnd, heq] at hsame htaken ⊢
      exact ⟨hsame, htaken⟩
    simp only [label, hdel, hbegin]
    exact .build (line s) p hrun hannounces
  | none =>
    have hbegin : line (s.begin board e) = nodeLine (Csi.step board s.node e) (line s).held := by
      simp [begin, acquire_of_not_delivered hdel, line, nodeLine]
    rw [hbegin]
    have hother := nodeLine_step hdel
    simp only [label, hdel]
    cases e with
    | beginRun cfg => exact .begin (line s)
    | nextCsiPacket t => exact moves_pollCsiPacket s.node.enterAsync t (line s).held
    | pollCsiPacket t => exact moves_pollCsiPacket s.node t (line s).held
    | printCsi t => exact moves_pollPrintCsi s.node.enterAsync t (line s).held
    | pollPrintCsi t => exact moves_pollPrintCsi s.node t (line s).held
    | loggerBackend => exact moves_loggerBackend s.node (line s).held
    | _ =>
      rw [hother rfl (by simp)]
      exact .idle (line s)

theorem moves_step (board : Board) (s : Interleaved) (a : Action) :
    Moves CsiPacket.runNo announces (line s) (label board s a) (line (s.step board a)) := by
  cases a with
  | call e => exact moves_begin board s e
  | advance i => exact moves_advance board s i

/-! ## The announcement comes out first -/

/-- The first packet of each run that a consumer or the host output is given carries the run's
announcement. -/
def AnnouncedFirst (s : Interleaved) : Prop :=
  ∀ r, 1 ≤ r → ∀ p, first CsiPacket.runNo r (deliveries s.node.out) = some p → p.session.isSome

/-- The action does not drop the packet with the announcement of its run, and hands no other packet
of the run past it. -/
def KeepsOrder (board : Board) (s : Interleaved) (a : Action) : Prop :=
  Orderly CsiPacket.runNo announces (line s) (label board s a)

instance (board : Board) (s : Interleaved) (a : Action) : Decidable (KeepsOrder board s a) :=
  inferInstanceAs (Decidable (Orderly _ _ _ _))

/-- In every run from boot whose actions keep that order, it is so in every state. -/
theorem announcedFirst_of_keepsOrder (board : Board) (as : List Action)
    (h : Along (step board) (KeepsOrder board) boot as) :
    Always (step board) AnnouncedFirst boot as := by
  have hled : Always (step board)
      (fun s => ∀ r, 1 ≤ r → Led CsiPacket.runNo announces r (line s)) boot as := by
    refine Along.always (Q := fun s => ∀ r, 1 ≤ r → Led CsiPacket.runNo announces r (line s)) h ?_ ?_
    · intro r hr
      refine .silent rfl rfl fun h0 => ?_
      have : (0 : ℕ) = r := h0
      omega
    · intro s a hs ha r hr
      exact (hs r hr).step (moves_step board s a) ha
  intro pre hpre r hr p hp
  exact (hled pre hpre r hr).token_of_first (k := .out) hp

theorem announcedFirst_callback :
    Always (step .esp32) AnnouncedFirst boot
      [.call (.beginRun .monitor), .call (.setCsiCallback 0), .call (.capture (.quiet .zero 0 0) 0),
        .advance 0, .advance 0, .advance 0] :=
  announcedFirst_of_keepsOrder .esp32 _ (by decide +kernel)

/-- A frame captured while no callback is registered takes the announcement with it; the one after
it is delivered without. -/
theorem not_announcedFirst :
    ¬ AnnouncedFirst (run (step .esp32) boot
      [.call (.beginRun .monitor), .call (.setCsiCallback 0), .call .clearCsiCallback,
        .call (.capture (.quiet .zero 0 0) 0), .advance 0, .advance 0, .advance 0,
        .call (.setCsiCallback 0), .call (.capture (.quiet .zero 1 100) 0), .advance 0, .advance 0,
        .advance 0]) := by
  intro h
  have hfirst : (first CsiPacket.runNo 1 (deliveries (run (step .esp32) boot
      [.call (.beginRun .monitor), .call (.setCsiCallback 0), .call .clearCsiCallback,
        .call (.capture (.quiet .zero 0 0) 0), .advance 0, .advance 0, .advance 0,
        .call (.setCsiCallback 0), .call (.capture (.quiet .zero 1 100) 0), .advance 0, .advance 0,
        .advance 0]).node.out)).map (fun p => p.session.isSome) = some false := by
    decide +kernel
  obtain ⟨p, hp, hnone⟩ := Option.map_eq_some_iff.mp hfirst
  have hsome := h 1 le_rfl p hp
  simp [hnone] at hsome

end Interleaved

end EspCsi.Csi
