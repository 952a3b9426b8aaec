import EspCsi.EspNow.Pacing
import EspCsi.Setup.Node
import EspCsi.Wifi.Dhcp

/-!
# Stopping a run

A run joins its mode's tasks and waits for all of them. The stop signal holds at most one request,
which a task takes in `select` and sets again before it returns, so that the next one sees it too.
Every await of every task is listed with what comes after it; whatever it is that a task waits for
besides the signal is free to happen at any time, or never.
-/

namespace EspCsi

open Wire Transition

/-! ## Runs -/

/-- The ends that `run_inner` drives, with what decides how their tasks go. -/
inductive RunMode where
  | emitter
  | sniffer
  | accessPoint (config : Wifi.WifiApConfig)
  | station
  | espNow (session : Setup.SessionRole)
  | simplexSource (peerMac : Option Mac)
  | simplexPeer (peerMac : Option Mac)

/-- A call of `run` (no duration) or `run_duration`. -/
structure NodeRun where
  chip : Chip
  mode : RunMode
  ioTasks : EspNow.IOTaskConfig
  asyncLogging : Bool
  duration : Option ℕ

/-- The awaits of a run, task by task. -/
inductive Await where
  | processCsiPacket
  | collectTimer
  | collectDrain
  | waitForStop
  | stopAfterDuration
  | emitterPeriod
  | apSettle
  | netTask
  | dhcpLinkUp
  | dhcpReceive
  | dhcpSend
  | stationMonitor
  | pingLinkUp
  | pingSettle
  | pingLeases
  | icmpFlood
  | staSettle
  | connect
  | disconnect
  | radioCycle
  | connectRetry
  | staDisconnected
  | reconnect
  | reconnectRetry
  | dhcpInfo
  | clientLinkUp
  | clientConfigUp
  | clientConfigRetry
  | clientLinkPoll
  | initiatorStart
  | initiatorYield
  | initiatorSend
  | initiatorBackoff
  | initiatorSlice
  | responderYield
  | responderSend
  | responderBackoff
  | responderSlice
  | responderReceive
  | sourceDiscover
  | sourceHello
  | sourceHead
  | sourceSend
  | sourceBackoff
  | sourceCap
  | peerSend
  | peerDiscover
  | peerReceive
deriving DecidableEq, Repr

namespace Await

/-- Whether the stop signal ends the task at this point: all but these are within a `select` with
it, or (`sourceHead`) check it. -/
def guarded : Await → Bool
  | .collectTimer | .collectDrain => false
  | .dhcpSend | .disconnect | .radioCycle => false
  | .initiatorStart | .initiatorYield | .initiatorSend | .initiatorBackoff => false
  | .responderYield | .responderSend | .responderBackoff => false
  | .sourceHello | .sourceSend | .peerSend => false
  | _ => true

/-- Whether the await ends when the run's duration does. -/
def onDuration : Await → Bool
  | .collectTimer | .collectDrain | .stopAfterDuration => true
  | _ => false

/-- Where a task rests that has got this far. The check at the head of the source's loop is not an
await. -/
def rest : Await → Await
  | .sourceHead => .sourceSend
  | a => a

end Await

namespace NodeRun

def apTasks (r : NodeRun) (config : Wifi.WifiApConfig) : List Await :=
  .netTask :: (if config.serveDhcp then [.dhcpLinkUp] else []) ++ [.stationMonitor] ++
    if r.ioTasks.txEnabled then [.pingLinkUp] else []

def staTasks (r : NodeRun) : List Await :=
  .staDisconnected :: (if r.ioTasks.txEnabled then [.dhcpInfo] else []) ++ [.netTask, .clientLinkUp]

def initiatorLoop (r : NodeRun) : List (List Await) :=
  (if r.ioTasks.rxEnabled then [[.initiatorYield]] else []) ++
    (if r.ioTasks.txEnabled then [[.initiatorSend]] else []) ++ [[.initiatorSlice]]

def responderWait (r : NodeRun) : Await :=
  if !r.ioTasks.txEnabled && r.ioTasks.rxEnabled then .responderReceive else .responderSlice

def responderReply (r : NodeRun) : List (List Await) :=
  (if r.ioTasks.txEnabled then [[.responderSend]] else []) ++ [[r.responderWait]]

def responderLoop (r : NodeRun) : List (List Await) :=
  (if r.ioTasks.rxEnabled then [[.responderYield]] else []) ++ r.responderReply

def peerLoop (r : NodeRun) : List (List Await) :=
  (if r.ioTasks.txEnabled then [[.peerSend]] else []) ++ [[.peerDiscover]]

/-- What can come after an await, other than by the stop signal: the task's next await, the tasks
that it joins, or its end. -/
def next (r : NodeRun) : Await → List (List Await)
  | .processCsiPacket => [[.processCsiPacket]]
  | .collectTimer | .collectDrain | .waitForStop | .stopAfterDuration => []
  | .emitterPeriod => [[.emitterPeriod]]
  | .apSettle =>
    match r.mode with
    | .accessPoint config => [r.apTasks config]
    | _ => []
  | .netTask => []
  -- the server ends if its socket does not bind
  | .dhcpLinkUp => [[.dhcpReceive], []]
  | .dhcpReceive => [[.dhcpReceive], [.dhcpSend]]
  | .dhcpSend => [[.dhcpReceive]]
  | .stationMonitor => [[.stationMonitor]]
  | .pingLinkUp => [[.pingSettle]]
  | .pingSettle =>
    match r.mode with
    | .accessPoint config =>
      if !config.syncBurst && config.leaseCount ≤ 1 then [[.icmpFlood]]
      else [[.icmpFlood], [.pingLeases], []]
    | _ => []
  | .pingLeases => [[.icmpFlood], [.pingLeases], []]
  | .icmpFlood => [[.icmpFlood]]
  | .staSettle => [[.connect]]
  | .connect => [r.staTasks, [.disconnect]]
  | .disconnect => [[.radioCycle]]
  | .radioCycle => [[.connectRetry]]
  | .connectRetry => [[.connect]]
  | .staDisconnected => [[.reconnect]]
  | .reconnect => [[.staDisconnected], [.reconnectRetry]]
  | .reconnectRetry => [[.reconnect]]
  | .dhcpInfo => [[.icmpFlood]]
  | .clientLinkUp => [[.clientConfigUp]]
  | .clientConfigUp | .clientConfigRetry =>
    [[.clientConfigRetry], [.clientLinkPoll], [.clientLinkUp]]
  | .clientLinkPoll => [[.clientLinkPoll], [.clientLinkUp]]
  | .initiatorStart | .initiatorYield | .initiatorSlice => r.initiatorLoop
  | .initiatorSend => [[.initiatorSend], [.initiatorBackoff], [.initiatorSlice]]
  | .initiatorBackoff => [[.initiatorSlice]]
  | .responderYield => r.responderReply
  | .responderSlice | .responderReceive => r.responderLoop
  | .responderSend => [[.responderSend], [.responderBackoff], [r.responderWait]]
  | .responderBackoff => [[r.responderWait]]
  | .sourceDiscover => [[.sourceDiscover], [.sourceHello]]
  | .sourceHello => [[.sourceHead]]
  | .sourceHead => [[.sourceSend]]
  | .sourceSend => [[.sourceBackoff], [.sourceCap], [.sourceHead]]
  | .sourceBackoff => [[.sourceCap], [.sourceHead]]
  | .sourceCap => [[.sourceHead]]
  | .peerSend => [[.peerDiscover]]
  | .peerDiscover => [[.peerReceive]] ++ r.peerLoop
  | .peerReceive => [[.peerReceive]]

/-- Where the mode's own task may start. The sniffer has none. -/
def mainTask (r : NodeRun) : List Await :=
  match r.mode with
  | .emitter => [.emitterPeriod]
  | .sniffer => []
  | .accessPoint _ => [.apSettle]
  | .station => [.staSettle]
  | .espNow .initiator =>
    -- the C5 lets its radio settle first
    if r.chip = .esp32C5 then [.initiatorStart] else r.initiatorLoop.flatten
  | .espNow .responder => r.responderLoop.flatten
  | .simplexSource none => [.sourceDiscover]
  | .simplexSource (some _) => [.sourceHead]
  | .simplexPeer none => r.peerLoop.flatten
  | .simplexPeer (some _) => [.peerReceive]

/-- Whether the run is driven with RX on. The modes that flood capture nothing. -/
def driveRx (r : NodeRun) : Bool :=
  match r.mode with
  | .emitter | .simplexSource _ => false
  | _ => r.ioTasks.rxEnabled

def collection (r : NodeRun) : Await := if r.asyncLogging then .collectDrain else .collectTimer

/-- What `drive_main`, and the sniffer's arm, join with the mode's task. -/
def drive (r : NodeRun) : List Await :=
  match r.duration, r.driveRx with
  | some _, true => [.processCsiPacket, r.collection]
  | some _, false =>
    match r.mode with
    | .sniffer => [.stopAfterDuration]
    | _ => [.waitForStop, .stopAfterDuration]
  | none, true => [.processCsiPacket]
  | none, false => [.waitForStop]

/-- Whether a second `run_process_csi_packet` follows the join, as it does on the sniffer. -/
def trails (r : NodeRun) : Bool :=
  match r.mode with
  | .sniffer => r.duration.isSome && r.driveRx
  | _ => false

end NodeRun

inductive RunPhase where
  | bringUp
  | joined
  | trailing
  | returned
deriving DecidableEq, Repr

/-- A run under way: the futures it has joined that are not done, the signal, and whether the
duration is over. -/
structure Running where
  phase : RunPhase := .bringUp
  tasks : List Await := []
  signal : Bool := false
  elapsed : Bool := false

namespace Running

/-- Whether a future is done when it is polled: it takes the signal and sets it again, or its
duration is over and it sets it. -/
def ends (elapsed signal : Bool) (a : Await) : Bool :=
  signal && a.guarded || elapsed && a.onDuration

/-- Poll one future, with the signal as it is, along a path of choices. What it leaves to be polled
again, and the signal after it. A future that joins others polls them at once. -/
def pollTask (r : NodeRun) (elapsed signal : Bool) : Await → List ℕ → List Await × Bool
  | a, [] => if ends elapsed signal a then ([], true) else ([a.rest], signal)
  | a, k :: path =>
    if ends elapsed signal a then ([], true)
    else
      match (r.next a)[k]? with
      | none => ([a.rest], signal)
      | some [a'] => pollTask r elapsed signal a' path
      | some as => (as.filter fun a => !(signal && a.guarded), signal)

def pollTasks (r : NodeRun) (elapsed : Bool) : Bool → List Await → List (List ℕ) → List Await × Bool
  | signal, [], _ => ([], signal)
  | signal, a :: as, paths =>
    let (left, signal) := pollTask r elapsed signal a (paths.headD [])
    let (lefts, signal) := pollTasks r elapsed signal as paths.tail
    (left ++ lefts, signal)

/-- What becomes of the run when its futures have been polled: it returns when none is left. -/
def hold (s : Running) (tasks : List Await) (signal : Bool) : Running :=
  if tasks.isEmpty then { s with phase := .returned, tasks := [], signal := false }
  else { s with tasks := tasks, signal := signal }

def poll (r : NodeRun) (s : Running) (paths : List (List ℕ)) : Running :=
  let (tasks, signal) := pollTasks r s.elapsed s.signal s.tasks paths
  match s.phase with
  | .bringUp | .returned => s
  | .joined =>
    if tasks.isEmpty && r.trails then
      let (tasks, signal) := pollTask r s.elapsed signal .processCsiPacket []
      { s with phase := .trailing }.hold tasks signal
    else s.hold tasks signal
  | .trailing => s.hold tasks signal

inductive Event where
  | sendStop
  | elapse
  | refuse
  | drive (k : ℕ)
  | poll (paths : List (List ℕ))

/-- `drive k` ends the bring-up, with the mode's task about to get to the `k`-th of the awaits it may
start at. -/
def step (r : NodeRun) (s : Running) : Event → Running
  | .sendStop => { s with signal := true }
  | .elapse => { s with elapsed := true }
  | .refuse => if s.phase = .bringUp then { s with phase := .returned } else s
  | .drive k =>
    if s.phase = .bringUp then
      { s with phase := .joined, tasks := (r.mainTask[k]? <|> r.mainTask.head?).toList ++ r.drive }
    else s
  | .poll paths => s.poll r paths

/-! ## After the signal -/

variable {r : NodeRun} {elapsed signal : Bool} {a b : Await}

theorem rest_of_not_guarded (h : a.guarded = false) : a.rest = a := by
  cases a <;> first | rfl | simp [Await.guarded] at h

/-- A future that has been polled with the signal set passes it on, and waits for nothing that the
signal ends. -/
theorem pollTask_signal (r : NodeRun) (elapsed : Bool) (a : Await) (path : List ℕ) :
    (pollTask r elapsed true a path).2 = true ∧
      ∀ b ∈ (pollTask r elapsed true a path).1, b.guarded = false := by
  induction path generalizing a with
  | nil =>
    unfold pollTask
    cases hends : ends elapsed true a with
    | true => simp
    | false =>
      have hguarded : a.guarded = false := by
        cases hguarded : a.guarded <;> simp [ends, hguarded] at hends ⊢
      simp [rest_of_not_guarded hguarded, hguarded]
  | cons k path ih =>
    unfold pollTask
    cases hends : ends elapsed true a with
    | true => simp
    | false =>
      have hguarded : a.guarded = false := by
        cases hguarded : a.guarded <;> simp [ends, hguarded] at hends ⊢
      cases hnext : (r.next a)[k]? with
      | none => simp [rest_of_not_guarded hguarded, hguarded]
      | some as =>
        match as with
        | [] => simp
        | [a'] => exact ih a'
        | a' :: a'' :: as => simp

theorem pollTasks_signal (r : NodeRun) (elapsed : Bool) (as : List Await) (paths : List (List ℕ)) :
    (pollTasks r elapsed true as paths).2 = true ∧
      ∀ b ∈ (pollTasks r elapsed true as paths).1, b.guarded = false := by
  induction as generalizing paths with
  | nil => simp [pollTasks]
  | cons a as ih =>
    obtain ⟨hsignal, hleft⟩ := pollTask_signal r elapsed a (paths.headD [])
    obtain ⟨hsignals, hlefts⟩ := ih paths.tail
    simp only [pollTasks, hsignal]
    refine ⟨hsignals, fun b hb => ?_⟩
    rcases List.mem_append.mp hb with hb | hb
    · exact hleft b hb
    · exact hlefts b hb

/-! ## The task that collects -/

/-- `csi_data_collection` waits for the duration without regard to the signal. -/
def Collects (a : Await) : Prop := a.guarded = false ∧ a.onDuration = true

theorem collects_collection (r : NodeRun) : Collects r.collection := by
  unfold NodeRun.collection
  split <;> exact ⟨rfl, rfl⟩

theorem pollTask_collects (h : Collects a) (path : List ℕ) :
    pollTask r false signal a path = ([a], signal) := by
  obtain ⟨hguarded, hduration⟩ := h
  have hends : ends false signal a = false := by simp [ends, hguarded]
  have hnext : r.next a = [] := by
    cases a <;> first | rfl | simp [Await.onDuration] at hduration
  cases path with
  | nil => simp [pollTask, hends, rest_of_not_guarded hguarded]
  | cons k path => simp [pollTask, hends, hnext, rest_of_not_guarded hguarded]

theorem mem_pollTasks_of_collects (h : Collects a) {as : List Await} (hmem : a ∈ as)
    (paths : List (List ℕ)) : a ∈ (pollTasks r false signal as paths).1 := by
  induction as generalizing signal paths with
  | nil => exact absurd hmem List.not_mem_nil
  | cons a' as ih =>
    simp only [pollTasks]
    apply List.mem_append.mpr
    rcases List.mem_cons.mp hmem with rfl | hmem
    · left
      rw [pollTask_collects h]
      exact List.mem_singleton.mpr rfl
    · exact Or.inr (ih hmem paths.tail)

/-! ## The other tasks -/

def Untimed (as : List Await) : Prop := ∀ a ∈ as, a.onDuration = false

theorem untimed_apTasks (r : NodeRun) (config : Wifi.WifiApConfig) : Untimed (r.apTasks config) := by
  unfold NodeRun.apTasks
  split_ifs <;> simp [Untimed, Await.onDuration]

theorem untimed_staTasks (r : NodeRun) : Untimed r.staTasks := by
  unfold NodeRun.staTasks
  split_ifs <;> simp [Untimed, Await.onDuration]

theorem untimed_initiatorLoop (r : NodeRun) : ∀ as ∈ r.initiatorLoop, Untimed as := by
  unfold NodeRun.initiatorLoop
  split_ifs <;> simp [Untimed, Await.onDuration]

theorem responderWait_cases (r : NodeRun) :
    r.responderWait = .responderReceive ∨ r.responderWait = .responderSlice := by
  unfold NodeRun.responderWait
  split_ifs <;> simp

theorem untimed_responderReply (r : NodeRun) : ∀ as ∈ r.responderReply, Untimed as := by
  unfold NodeRun.responderReply
  rcases responderWait_cases r with hwait | hwait <;>
    split_ifs <;> simp [Untimed, Await.onDuration, hwait]

theorem untimed_responderLoop (r : NodeRun) : ∀ as ∈ r.responderLoop, Untimed as := by
  have hreply := untimed_responderReply r
  have hyield : Untimed [.responderYield] := by simp [Untimed, Await.onDuration]
  unfold NodeRun.responderLoop
  split_ifs
  · intro as has
    rcases List.mem_append.mp has with has | has
    · rw [List.mem_singleton.mp has]
      exact hyield
    · exact hreply as has
  · exact hreply

theorem untimed_peerLoop (r : NodeRun) : ∀ as ∈ r.peerLoop, Untimed as := by
  unfold NodeRun.peerLoop
  split_ifs <;> simp [Untimed, Await.onDuration]

theorem untimed_next (r : NodeRun) (a : Await) : ∀ as ∈ r.next a, Untimed as := by
  cases a with
  | apSettle =>
    cases hmode : r.mode with
    | accessPoint config => simpa [NodeRun.next, hmode] using untimed_apTasks r config
    | _ => simp [NodeRun.next, hmode]
  | pingSettle =>
    cases hmode : r.mode with
    | accessPoint config =>
      simp only [NodeRun.next, hmode]
      split_ifs <;> simp [Untimed, Await.onDuration]
    | _ => simp [NodeRun.next, hmode]
  | connect =>
    have hsta := untimed_staTasks r
    simp only [NodeRun.next, List.mem_cons, List.not_mem_nil, or_false]
    rintro as (rfl | rfl)
    · exact hsta
    · simp [Untimed, Await.onDuration]
  | initiatorStart | initiatorYield | initiatorSlice => exact untimed_initiatorLoop r
  | responderYield => exact untimed_responderReply r
  | responderSlice | responderReceive => exact untimed_responderLoop r
  | responderSend | responderBackoff =>
    rcases responderWait_cases r with hwait | hwait <;>
      simp [NodeRun.next, Untimed, Await.onDuration, hwait]
  | peerDiscover =>
    intro as has
    rcases List.mem_append.mp has with has | has
    · rw [List.mem_singleton.mp has]
      simp [Untimed, Await.onDuration]
    · exact untimed_peerLoop r as has
  | _ => simp [NodeRun.next, Untimed, Await.onDuration]

theorem untimed_mainTask (r : NodeRun) : Untimed r.mainTask := by
  have hflatten : ∀ {ass : List (List Await)}, (∀ as ∈ ass, Untimed as) → Untimed ass.flatten := by
    intro ass h a ha
    obtain ⟨as, has, ha⟩ := List.mem_flatten.mp ha
    exact h as has a ha
  unfold NodeRun.mainTask
  cases r.mode with
  | espNow session =>
    cases session with
    | initiator =>
      show Untimed (if r.chip = .esp32C5 then [.initiatorStart] else r.initiatorLoop.flatten)
      split_ifs
      · simp [Untimed, Await.onDuration]
      · exact hflatten (untimed_initiatorLoop r)
    | responder => exact hflatten (untimed_responderLoop r)
  | simplexSource peerMac => cases peerMac <;> simp [Untimed, Await.onDuration]
  | simplexPeer peerMac =>
    cases peerMac with
    | none => exact hflatten (untimed_peerLoop r)
    | some mac => simp [Untimed, Await.onDuration]
  | _ => simp [Untimed, Await.onDuration]

/-- What a future leaves has every property that goes on from an await to what can come after it. -/
theorem mem_pollTask {P : Await → Prop} (hrest : ∀ a, P a → P a.rest)
    (hnext : ∀ a, P a → ∀ as ∈ r.next a, ∀ b ∈ as, P b) (ha : P a) (path : List ℕ) :
    ∀ b ∈ (pollTask r elapsed signal a path).1, P b := by
  induction path generalizing a with
  | nil =>
    unfold pollTask
    cases hends : ends elapsed signal a with
    | true => simp
    | false => simpa using hrest a ha
  | cons k path ih =>
    unfold pollTask
    cases hends : ends elapsed signal a with
    | true => simp
    | false =>
      cases has : (r.next a)[k]? with
      | none => simpa using hrest a ha
      | some as =>
        have hP := hnext a ha as (List.mem_of_getElem? has)
        match as, hP with
        | [], _ => simp
        | [a'], hP => exact ih (hP a' (List.mem_singleton.mpr rfl))
        | a' :: a'' :: as, hP =>
          -- a task joined here rests at its first await, or sees the signal there
          intro b hb
          have hb : b ∈ (a' :: a'' :: as).filter fun a => !(signal && a.guarded) := hb
          exact hP b (List.mem_of_mem_filter hb)

theorem untimed_pollTask (h : a.onDuration = false) (path : List ℕ) :
    Untimed (pollTask r elapsed signal a path).1 := by
  have hrest : ∀ a : Await, a.onDuration = false → a.rest.onDuration = false := by
    intro a h
    cases a <;> first | rfl | simp [Await.onDuration] at h
  exact mem_pollTask hrest (fun a _ => untimed_next r a) h path

theorem pollTask_timed (h : a.onDuration = true) (path : List ℕ) :
    ∀ b ∈ (pollTask r elapsed signal a path).1, b = a := by
  have hnext : r.next a = [] := by
    cases a <;> first | rfl | simp [Await.onDuration] at h
  have hrest : a.rest = a := by
    cases a <;> first | rfl | simp [Await.onDuration] at h
  apply mem_pollTask (P := fun b => b = a) _ _ rfl path
  · intro b hb
    rw [hb, hrest]
  · intro b hb as has
    rw [hb, hnext] at has
    exact absurd has List.not_mem_nil

/-! ## Runs -/

def Quiet (as : List Await) : Prop := ∀ a ∈ as, ¬ Collects a

theorem Untimed.quiet {as : List Await} (h : Untimed as) : Quiet as := by
  rintro a ha ⟨-, hduration⟩
  rw [h a ha] at hduration
  exact Bool.false_ne_true hduration

theorem quiet_pollTask (h : ¬ Collects a) (path : List ℕ) :
    Quiet (pollTask r elapsed signal a path).1 := by
  cases hduration : a.onDuration with
  | false => exact (untimed_pollTask hduration path).quiet
  | true =>
    intro b hb
    rw [pollTask_timed hduration path b hb]
    exact h

theorem quiet_pollTasks {as : List Await} (h : Quiet as) (paths : List (List ℕ)) :
    Quiet (pollTasks r elapsed signal as paths).1 := by
  induction as generalizing signal paths with
  | nil => simp [pollTasks, Quiet]
  | cons a as ih =>
    intro b hb
    simp only [pollTasks] at hb
    rcases List.mem_append.mp hb with hb | hb
    · exact quiet_pollTask (h a List.mem_cons_self) _ b hb
    · exact ih (fun a ha => h a (List.mem_cons_of_mem _ ha)) _ b hb

theorem quiet_drive (h : r.duration = none ∨ r.driveRx = false) : Quiet r.drive := by
  unfold NodeRun.drive
  cases hduration : r.duration with
  | none => cases hrx : r.driveRx <;> simp [Quiet, Collects, Await.guarded, Await.onDuration]
  | some d =>
    cases hrx : r.driveRx with
    | true => simp [hduration, hrx] at h
    | false => cases hmode : r.mode <;> simp [Quiet, Collects, Await.guarded]

theorem mem_tasks_hold {s : Running} {tasks : List Await} (hb : b ∈ (s.hold tasks signal).tasks) :
    b ∈ tasks := by
  unfold hold at hb
  split_ifs at hb
  · exact absurd hb List.not_mem_nil
  · exact hb

theorem mem_tasks_poll {s : Running} {paths : List (List ℕ)} (hb : b ∈ (s.poll r paths).tasks) :
    b ∈ (pollTasks r s.elapsed s.signal s.tasks paths).1 ∨
      b ∈ (pollTask r s.elapsed (pollTasks r s.elapsed s.signal s.tasks paths).2
        .processCsiPacket []).1 ∨
      (s.phase = .bringUp ∨ s.phase = .returned) ∧ b ∈ s.tasks := by
  unfold poll at hb
  cases hpoll : pollTasks r s.elapsed s.signal s.tasks paths with
  | mk tasks signal =>
    rw [hpoll] at hb
    cases hphase : s.phase with
    | bringUp | returned =>
      rw [hphase] at hb
      exact Or.inr (Or.inr ⟨by simp, hb⟩)
    | joined =>
      rw [hphase] at hb
      cases htrails : tasks.isEmpty && r.trails with
      | false => exact Or.inl (mem_tasks_hold (by simpa [htrails] using hb))
      | true => exact Or.inr (Or.inl (mem_tasks_hold (by simpa [htrails] using hb)))
    | trailing =>
      rw [hphase] at hb
      exact Or.inl (mem_tasks_hold hb)

/-- Nothing is joined before the bring-up is done, nor after the run has returned. -/
def Settled (s : Running) : Prop := s.phase = .bringUp ∨ s.phase = .returned → s.tasks = []

theorem settled_hold {s : Running} (h : s.phase = .joined ∨ s.phase = .trailing)
    (tasks : List Await) (signal : Bool) : Settled (s.hold tasks signal) := by
  unfold hold
  split_ifs
  · exact fun _ => rfl
  · intro hphase
    rcases h with h | h <;> simp [h] at hphase

theorem settled_step {s : Running} (h : Settled s) (e : Event) : Settled (s.step r e) := by
  cases e with
  | sendStop | elapse => exact h
  | refuse =>
    simp only [step]
    split_ifs with hphase
    · exact fun _ => h (Or.inl hphase)
    · exact h
  | drive k =>
    simp only [step]
    split_ifs with hphase
    · simp [Settled]
    · exact h
  | poll paths =>
    show Settled (s.poll r paths)
    unfold poll
    cases pollTasks r s.elapsed s.signal s.tasks paths with
    | mk tasks signal =>
      cases hphase : s.phase with
      | bringUp | returned => exact h
      | joined =>
        show Settled (if _ then _ else _)
        split_ifs
        · exact settled_hold (Or.inr rfl) _ _
        · exact settled_hold (Or.inl hphase) _ _
      | trailing => exact settled_hold (Or.inr hphase) _ _

theorem quiet_step (hdrive : r.duration = none ∨ r.driveRx = false) {s : Running}
    (h : Quiet s.tasks) (e : Event) : Quiet (s.step r e).tasks := by
  cases e with
  | sendStop | elapse => exact h
  | refuse =>
    simp only [step]
    split_ifs <;> exact h
  | drive k =>
    simp only [step]
    split_ifs with hphase
    · intro a ha
      rcases List.mem_append.mp ha with ha | ha
      · have hmain : a ∈ r.mainTask := by
          cases hk : r.mainTask[k]? with
          | some b =>
            obtain rfl : a = b := by simpa [hk] using ha
            exact List.mem_of_getElem? hk
          | none =>
            rw [hk] at ha
            exact List.mem_of_mem_head? (Option.mem_toList.mp ha)
        exact (untimed_mainTask r).quiet a hmain
      · exact quiet_drive hdrive a ha
    · exact h
  | poll paths =>
    intro b hb
    rcases mem_tasks_poll hb with hb | hb | ⟨-, hb⟩
    · exact quiet_pollTasks h paths b hb
    · exact quiet_pollTask (by simp [Collects, Await.guarded]) [] b hb
    · exact h b hb

/-- Every future that is left is within an operation of its own that neither the signal nor the
duration ends. -/
def Released (s : Running) : Prop := ∀ a ∈ s.tasks, a.guarded = false ∧ a.onDuration = false

/-- Once the stop signal has been sent, however the run has gone till then, a poll of its tasks
before the duration is over leaves none that waits for the duration. -/
def EndsOnStop (r : NodeRun) : Prop :=
  ∀ es paths, (run (step r) {} es).signal = true → (run (step r) {} es).elapsed = false →
    Released ((run (step r) {} es).poll r paths)

theorem released_poll (hdrive : r.duration = none ∨ r.driveRx = false) : EndsOnStop r := by
  intro es paths hsignal helapsed b hb
  have hsettled : Settled (run (step r) {} es) :=
    (always_of_step (Q := Settled) (fun _ => rfl) fun s e h => settled_step h e).last
  have hquiet : Quiet (run (step r) {} es).tasks :=
    (always_of_step (Q := fun s : Running => Quiet s.tasks) (by simp [Quiet])
      fun s e h => quiet_step hdrive h e).last
  have hleft : b.guarded = false ∧ ¬ Collects b := by
    rcases mem_tasks_poll hb with hmem | hmem | ⟨hphase, hmem⟩
    · have hquiet' := quiet_pollTasks (r := r) hquiet paths b hmem
      rw [hsignal] at hmem
      exact ⟨(pollTasks_signal r _ _ paths).2 b hmem, hquiet'⟩
    · rw [hsignal, (pollTasks_signal r _ _ paths).1] at hmem
      exact ⟨(pollTask_signal r _ _ []).2 b hmem,
        quiet_pollTask (by simp [Collects, Await.guarded]) [] b hmem⟩
    · rw [hsettled hphase] at hmem
      exact absurd hmem List.not_mem_nil
  refine ⟨hleft.1, ?_⟩
  cases hduration : b.onDuration with
  | false => rfl
  | true => exact absurd ⟨hleft.1, hduration⟩ hleft.2

theorem collects_poll {s : Running} (hphase : s.phase = .joined) (helapsed : s.elapsed = false)
    (h : Collects a) (hmem : a ∈ s.tasks) (paths : List (List ℕ)) :
    a ∈ (s.poll r paths).tasks := by
  have hleft : a ∈ (pollTasks r false s.signal s.tasks paths).1 :=
    mem_pollTasks_of_collects h hmem paths
  unfold poll
  rw [helapsed, hphase]
  cases hpoll : pollTasks r false s.signal s.tasks paths with
  | mk tasks signal =>
    rw [hpoll] at hleft
    have hempty : tasks.isEmpty = false := by
      rw [List.isEmpty_eq_false_iff]
      exact List.ne_nil_of_mem hleft
    simpa [hempty, hold] using hleft

theorem phase_hold {s : Running} {tasks : List Await} {phase : RunPhase}
    (hphase : phase ≠ .returned) (h : (s.hold tasks signal).phase = phase) : s.phase = phase := by
  unfold hold at h
  split_ifs at h
  · exact absurd h.symm hphase
  · exact h

theorem phase_poll {s : Running} {paths : List (List ℕ)} (h : (s.poll r paths).phase = .joined) :
    s.phase = .joined := by
  unfold poll at h
  cases hphase : s.phase with
  | joined => rfl
  | bringUp | returned =>
    rw [hphase] at h
    exact hphase.symm.trans h
  | trailing =>
    rw [hphase] at h
    exact hphase.symm.trans (phase_hold (by simp) h)

theorem elapsed_hold (s : Running) (tasks : List Await) (signal : Bool) :
    (s.hold tasks signal).elapsed = s.elapsed := by
  unfold hold
  split_ifs <;> rfl

theorem elapsed_poll (s : Running) (paths : List (List ℕ)) :
    (s.poll r paths).elapsed = s.elapsed := by
  unfold poll
  cases pollTasks r s.elapsed s.signal s.tasks paths with
  | mk tasks signal =>
    cases s.phase with
    | bringUp | returned => rfl
    | trailing => exact elapsed_hold s tasks signal
    | joined =>
      show Running.elapsed (if _ then _ else _) = _
      split_ifs
      · exact elapsed_hold { s with phase := .trailing } _ _
      · exact elapsed_hold s tasks signal

/-- The collection goes on to the end of the duration, whatever happens. -/
theorem collecting_run (hduration : r.duration.isSome = true) (hrx : r.driveRx = true)
    (es : List Event) :
    (run (step r) {} es).elapsed = false → (run (step r) {} es).phase = .joined →
      r.collection ∈ (run (step r) {} es).tasks := by
  have hdrive : r.collection ∈ r.drive := by
    obtain ⟨d, hd⟩ := Option.isSome_iff_exists.mp hduration
    simp [NodeRun.drive, hd, hrx]
  apply (always_of_step (Q := fun s : Running => s.elapsed = false → s.phase = .joined →
    r.collection ∈ s.tasks) (by simp) fun s e h => ?_).last
  cases e with
  | sendStop => exact h
  | elapse => exact fun helapsed => absurd helapsed.symm Bool.false_ne_true
  | refuse =>
    simp only [step]
    split_ifs with hphase
    · exact fun _ hreturned => by simp at hreturned
    · exact h
  | drive k =>
    simp only [step]
    split_ifs with hphase
    · exact fun _ _ => List.mem_append_right _ hdrive
    · exact h
  | poll paths =>
    intro helapsed hphase
    have hphase' : s.phase = .joined := phase_poll hphase
    have helapsed' : s.elapsed = false := (elapsed_poll s paths).symm.trans helapsed
    exact collects_poll hphase' helapsed' (collects_collection r) (h helapsed' hphase') paths

/-- Stopping ends a run early exactly when it has no duration or is driven with RX off. -/
theorem endsOnStop_iff (r : NodeRun) : EndsOnStop r ↔ r.duration = none ∨ r.driveRx = false := by
  refine ⟨fun h => ?_, released_poll⟩
  by_contra hneither
  rw [not_or, ← ne_eq, Option.ne_none_iff_isSome, Bool.not_eq_false] at hneither
  obtain ⟨hduration, hrx⟩ := hneither
  -- the signal is sent as soon as the tasks are joined, and the collection does not look at it
  have hmem := collecting_run hduration hrx [.drive 0, .sendStop] rfl rfl
  have hleft := collects_poll (r := r) rfl rfl (collects_collection r) hmem []
  have hreleased := (h [.drive 0, .sendStop] [] rfl rfl _ hleft).2
  rw [(collects_collection r).2] at hreleased
  exact Bool.false_ne_true hreleased.symm

/-- A sniffer that is to run for a minute does not see the stop signal. -/
theorem stop_unseen : ¬ ∀ r, EndsOnStop r := by
  intro h
  have hleft := h ⟨.esp32S3, .sniffer, ⟨true, true⟩, false, some 60⟩ [.drive 0, .sendStop] []
    rfl rfl .collectTimer (by decide +kernel)
  exact Bool.false_ne_true hleft.2.symm

end Running

end EspCsi
