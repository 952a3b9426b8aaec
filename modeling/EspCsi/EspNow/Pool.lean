import EspCsi.Wire.Types

/-!
# Receive pool

The queue of `esp_now_pool.rs`, between the radio's receive callback and the driver task that takes
frames from it.
-/

namespace EspCsi.EspNow

open Wire

def ESP_NOW_MAX_DATA_LEN : ℕ := 250

def POOL_CAPACITY : ℕ := 16

/-- A received frame. `nth` is the place of a control frame in the initiator's numbering; nothing of
the crate reads it. -/
structure PoolFrame where
  srcAddress : Mac
  data : List UInt8
  nth : ℕ
deriving DecidableEq, Repr

/-- The queued frames, oldest first, and whether the callback discards what it is handed. -/
structure Pool where
  queue : List PoolFrame
  rawDrop : Bool
  bounded : queue.length ≤ POOL_CAPACITY
deriving DecidableEq

namespace Pool

def empty (rawDrop : Bool) : Pool := ⟨[], rawDrop, Nat.zero_le _⟩

/-- The radio's receive callback. A frame without data is dropped, and so is one that finds the pool
full. -/
def rcvCb (p : Pool) (r : PoolFrame) : Pool :=
  if h : p.rawDrop = true ∨ r.data = [] ∨ POOL_CAPACITY ≤ p.queue.length then p
  else
    { queue := p.queue ++ [{ r with data := r.data.take ESP_NOW_MAX_DATA_LEN }]
      rawDrop := p.rawDrop
      bounded := by
        rw [List.length_append, List.length_singleton]
        omega }

def drain (p : Pool) (limit : ℕ) : List PoolFrame × Pool :=
  (p.queue.take limit,
    { queue := p.queue.drop limit
      rawDrop := p.rawDrop
      bounded := by
        rw [List.length_drop]
        have := p.bounded
        omega })

theorem mem_rcvCb {p : Pool} {r x : PoolFrame} (h : x ∈ (p.rcvCb r).queue) :
    x ∈ p.queue ∨ x = { r with data := r.data.take ESP_NOW_MAX_DATA_LEN } := by
  unfold rcvCb at h
  split_ifs at h
  · exact .inl h
  · simpa using h

theorem mem_drain {p : Pool} {limit : ℕ} {x : PoolFrame} (h : x ∈ (p.drain limit).1) :
    x ∈ p.queue :=
  List.mem_of_mem_take h

theorem mem_drain_queue {p : Pool} {limit : ℕ} {x : PoolFrame}
    (h : x ∈ (p.drain limit).2.queue) : x ∈ p.queue :=
  List.mem_of_mem_drop h

end Pool

end EspCsi.EspNow
