import EspCsi.Csi.Runs
import EspCsi.EspNow.Pool
import EspCsi.Lib.Wakeup

/-!
# Wake-ups of the consumers

`next_csi_packet` and `receive_async` poll alike. Their producers differ: the Async arm of `deliver`
wakes only after an enqueue that went through, and may take a packet out first; the pool's callback
wakes whether or not its frame went in.
-/

namespace EspCsi

open Wire Wakeup Transition

namespace Csi

/-! ## The CSI queue -/

/-- A producer within `deliver`: before a stage, or between its enqueue and its wake. -/
inductive Underway where
  | stage (s : Stage)
  | wake
deriving DecidableEq

def Underway.stage? : Underway → Option Stage
  | .stage s => some s
  | .wake => none

def advanceDelivery (keeps : Bool) (g : Gates) :
    Underway × CsiPacket → Channel CsiPacket → Channel CsiPacket × Option (Underway × CsiPacket)
  | (.stage .account, p), c => (c, some (.stage .dispatch, p))
  | (.stage .dispatch, p), c =>
    match g.csiDeliveryMode with
    | .callback => (c, some (.stage .call, p))
    | .async => (c, some (.stage .store, p))
    | .off => (c, some (.stage .log, p))
  | (.stage .store, p), c =>
    -- between the enqueue and the wake anyone may come
    if c.queue.length < CSI_QUEUE_LEN then (c.push p, some (.wake, p))
    else (c, some (.stage .overflow, p))
  | (.stage .overflow, p), c =>
    if g.overflowDropOldest then (c, some (.stage .evict, p)) else (c, none)
  | (.stage .evict, p), c => (c.drop, some (.stage .retry, p))
  | (.stage .retry, p), c =>
    if c.queue.length < CSI_QUEUE_LEN then (c.push p, some (.wake, p)) else (c, none)
  | (.stage .call, _), c | (.stage .log, _), c => (c, none)
  | (.wake, _), c => (c.wake keeps, none)

/-- On the queue, a stage does what it does on the node. -/
theorem advanceDelivery_stage (keeps : Bool) (chip : Chip) (n : Node) (p : CsiPacket) (s : Stage)
    (c : Channel CsiPacket) (hc : c.queue = n.csiQueue) :
    (advanceDelivery keeps n.gates (.stage s, p) c).1.queue = (s.advance chip n p).1.csiQueue ∧
      (advanceDelivery keeps n.gates (.stage s, p) c).2.bind (fun u => u.1.stage?) =
        (s.advance chip n p).2 := by
  cases s with
  | account =>
    obtain ⟨stats, heq⟩ := n.recordTx_eq chip p
    simp [advanceDelivery, Stage.advance, heq, Underway.stage?, hc]
  | dispatch =>
    cases hmode : n.gates.csiDeliveryMode <;>
      simp [advanceDelivery, Stage.advance, hmode, Underway.stage?, hc]
  | call =>
    cases hcb : n.gates.csiCallback <;>
      simp [advanceDelivery, Stage.advance, hcb, hc, Node.observe]
  | store =>
    by_cases hroom : n.csiQueue.length < CSI_QUEUE_LEN
    · simp [advanceDelivery, Stage.advance, hc, hroom, Underway.stage?, Channel.push]
    · simp [advanceDelivery, Stage.advance, hc, hroom, Underway.stage?, Node.chargeLoss]
  | overflow =>
    cases hdrop : n.gates.overflowDropOldest <;>
      simp [advanceDelivery, Stage.advance, hdrop, hc, Underway.stage?]
  | evict => simp [advanceDelivery, Stage.advance, hc, Underway.stage?, Channel.drop]
  | retry =>
    by_cases hroom : n.csiQueue.length < CSI_QUEUE_LEN
    · simp [advanceDelivery, Stage.advance, hc, hroom, Underway.stage?, Channel.push]
    · simp [advanceDelivery, Stage.advance, hc, hroom]
  | log =>
    cases hlog : n.gates.csiInlineLogEnabled && !n.gates.reportLocal <;>
      simp [advanceDelivery, Stage.advance, hlog, hc, Node.logCsi]

/-- `deliver` under gates that change as they will, and `next_csi_packet`. -/
def csiProtocol (keeps : Bool) : Protocol Gates (Underway × CsiPacket) CsiPacket where
  advance := advanceDelivery keeps
  owes := fun u => u.1 = .wake

theorem csiProtocol_sound (keeps : Bool) : (csiProtocol keeps).Sound := by
  intro g u c owed h
  obtain ⟨underway, p⟩ := u
  cases underway with
  | wake => exact h.wake keeps
  | stage s =>
    have hdebt : ∀ s, (csiProtocol keeps).debt (some (.stage s, p)) = 0 := fun _ => rfl
    have hend : (csiProtocol keeps).debt none = 0 := rfl
    have hwake : (csiProtocol keeps).debt (some (.wake, p)) = 1 := rfl
    rw [hdebt] at h
    show (advanceDelivery keeps g (.stage s, p) c).1.Sound
      (owed + (csiProtocol keeps).debt (advanceDelivery keeps g (.stage s, p) c).2)
    cases s with
    | account => exact h
    | dispatch => cases hmode : g.csiDeliveryMode <;> simpa [advanceDelivery, hmode, hdebt] using h
    | call | log => exact h
    | store | retry =>
      by_cases hroom : c.queue.length < CSI_QUEUE_LEN
      · simpa [advanceDelivery, hroom, hwake] using h.push p
      · simpa [advanceDelivery, hroom, hdebt, hend] using h
    | overflow =>
      cases hdrop : g.overflowDropOldest <;> simpa [advanceDelivery, hdrop, hdebt, hend] using h
    | evict => exact h.drop

def csiStart : Protocol.State Gates (Underway × CsiPacket) CsiPacket := ⟨.boot, {}, []⟩

end Csi

namespace EspNow

/-! ## The receive pool -/

/-- How far the radio's receive callback has got. -/
inductive Callback where
  | start
  | enqueue
  | wake
deriving DecidableEq

/-- The next atomic operation of `pool_rcv_cb`. -/
def advanceCallback (keeps rawDrop : Bool) :
    Callback × PoolFrame → Channel PoolFrame → Channel PoolFrame × Option (Callback × PoolFrame)
  | (.start, r), c =>
    if rawDrop = true ∨ r.data = [] then (c, none)
    else (c, some (.enqueue, { r with data := r.data.take ESP_NOW_MAX_DATA_LEN }))
  | (.enqueue, r), c =>
    -- a frame that finds the pool full is lost, and the consumer is woken for nothing
    (if c.queue.length < POOL_CAPACITY then c.push r else c, some (.wake, r))
  | (.wake, _), c => (c.wake keeps, none)

def poolProtocol (keeps : Bool) : Protocol Bool (Callback × PoolFrame) PoolFrame where
  advance := advanceCallback keeps
  owes := fun u => u.1 = .wake

/-- Taken one after the other, the operations up to the wake leave the pool as `rcvCb` does. -/
theorem advanceCallback_rcvCb (keeps : Bool) (pool : Pool) (r : PoolFrame) :
    (run (poolProtocol keeps).step ⟨pool.rawDrop, { queue := pool.queue }, [(.start, r)]⟩
      [.advance 0, .advance 0]).channel.queue = (pool.rcvCb r).queue := by
  unfold Pool.rcvCb
  by_cases hdrop : pool.rawDrop = true ∨ r.data = []
  · have hlost : pool.rawDrop = true ∨ r.data = [] ∨ POOL_CAPACITY ≤ pool.queue.length :=
      hdrop.imp_right Or.inl
    simp [Protocol.step, poolProtocol, advanceCallback, hdrop, hlost]
  · by_cases hroom : pool.queue.length < POOL_CAPACITY
    · have hkept : ¬ (pool.rawDrop = true ∨ r.data = [] ∨ POOL_CAPACITY ≤ pool.queue.length) := by
        rw [← or_assoc, not_or]
        exact ⟨hdrop, Nat.not_le.mpr hroom⟩
      simp [Protocol.step, poolProtocol, advanceCallback, hdrop, hroom, hkept, Channel.push]
    · have hlost : pool.rawDrop = true ∨ r.data = [] ∨ POOL_CAPACITY ≤ pool.queue.length :=
        Or.inr (Or.inr (Nat.not_lt.mp hroom))
      simp [Protocol.step, poolProtocol, advanceCallback, hdrop, hroom, hlost]

theorem poolProtocol_sound (keeps : Bool) : (poolProtocol keeps).Sound := by
  intro rawDrop u c owed h
  obtain ⟨callback, r⟩ := u
  have hend : (poolProtocol keeps).debt none = 0 := rfl
  have henqueue : ∀ r, (poolProtocol keeps).debt (some (.enqueue, r)) = 0 := fun _ => rfl
  have hwake : (poolProtocol keeps).debt (some (.wake, r)) = 1 := rfl
  show (advanceCallback keeps rawDrop (callback, r) c).1.Sound
    (owed + (poolProtocol keeps).debt (advanceCallback keeps rawDrop (callback, r) c).2)
  cases callback with
  | wake => exact h.wake keeps
  | start =>
    have hstart : c.Sound owed := h
    by_cases hdrop : rawDrop = true ∨ r.data = []
    · simpa only [advanceCallback, if_pos hdrop, hend, Nat.add_zero] using hstart
    · simpa only [advanceCallback, if_neg hdrop, henqueue, Nat.add_zero] using hstart
  | enqueue =>
    have hstart : c.Sound owed := h
    by_cases hroom : c.queue.length < POOL_CAPACITY
    · simpa only [advanceCallback, if_pos hroom, hwake] using hstart.push r
    · simpa only [advanceCallback, if_neg hroom, hwake] using hstart.mono (Nat.le_succ owed)

def poolStart : Protocol.State Bool (Callback × PoolFrame) PoolFrame := ⟨false, {}, []⟩

end EspNow

/-- Neither consumer is ever left parked on a queue that is not empty, whether the waker cell keeps
the waker it wakes or gives it away. -/
theorem no_lost_wakeup (keeps : Bool) :
    (∀ as, Always (Csi.csiProtocol keeps).step
      (fun s => ¬ s.channel.Stalled ((Csi.csiProtocol keeps).owed s.producers)) Csi.csiStart as) ∧
    ∀ as, Always (EspNow.poolProtocol keeps).step
      (fun s => ¬ s.channel.Stalled ((EspNow.poolProtocol keeps).owed s.producers))
      EspNow.poolStart as :=
  ⟨Protocol.never_stalled (Csi.csiProtocol_sound keeps) Channel.sound_start,
    Protocol.never_stalled (EspNow.poolProtocol_sound keeps) Channel.sound_start⟩

end EspCsi
