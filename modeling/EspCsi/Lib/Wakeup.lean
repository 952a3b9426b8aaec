import EspCsi.Lib.Transition
import Mathlib.Data.List.Count
import Mathlib.Data.List.Perm.Basic

/-!
# Wake-ups

Producers that enqueue and then wake, and one consumer that polls: it dequeues, registers its waker,
dequeues again and parks. All of these are atomic operations, taken in any order. A producer `owes`
a wake from its enqueue to its wake. A protocol is sound if an operation of a producer keeps the
account of what is owed, whatever the other producers and the consumer do.
-/

namespace Wakeup

open Transition

/-! ## The channel -/

/-- Where the consumer stands in its poll. -/
inductive Phase where
  | away
  | dequeue
  | register
  | recheck
  | parked
  deriving DecidableEq, Repr

/-- The queue, the consumer, whether the waker cell holds its waker, and whether its task is to be
polled again. -/
structure Channel (α : Type*) where
  queue : List α := []
  phase : Phase := .away
  registered : Bool := false
  woken : Bool := false

namespace Channel

variable {α : Type*}

def push (c : Channel α) (x : α) : Channel α := { c with queue := c.queue ++ [x] }

/-- A dequeue that is not part of the consumer's poll. -/
def drop (c : Channel α) : Channel α := { c with queue := c.queue.tail }

/-- Wake the task whose waker was registered last. The cell either keeps the waker or gives it
away. -/
def wake (keeps : Bool) (c : Channel α) : Channel α :=
  { c with
    woken := c.woken || c.registered
    registered := c.registered && keeps }

/-- The next atomic operation of the consumer, and the item its poll returns. Its task is taken off
the run queue as its poll starts. -/
def poll (c : Channel α) : Channel α × Option α :=
  match c.phase, c.queue with
  | .away, _ | .parked, _ => ({ c with phase := .dequeue, woken := false }, none)
  | .dequeue, x :: rest => ({ c with queue := rest, phase := .away }, some x)
  | .dequeue, [] => ({ c with phase := .register }, none)
  | .register, _ => ({ c with registered := true, phase := .recheck }, none)
  | .recheck, x :: rest => ({ c with queue := rest, phase := .away }, some x)
  | .recheck, [] => ({ c with phase := .parked }, none)

def cancel (c : Channel α) : Channel α := { c with phase := .away }

/-- The consumer is parked on a queue that is not empty, with no wake pending and none owed. -/
def Stalled (c : Channel α) (owed : ℕ) : Prop :=
  c.phase = .parked ∧ c.queue ≠ [] ∧ c.woken = false ∧ owed = 0

/-- From its registration on, a wake reaches the consumer; and once it has parked, what came into the
queue since is paid for. -/
structure Sound (c : Channel α) (owed : ℕ) : Prop where
  reached : c.phase = .recheck ∨ c.phase = .parked → c.registered = true ∨ c.woken = true
  paid : c.phase = .parked → c.queue = [] ∨ c.woken = true ∨ 0 < owed

variable {c : Channel α} {owed owed' : ℕ}

theorem sound_start : Sound ({} : Channel α) owed where
  reached := by simp
  paid := by simp

theorem Sound.not_stalled (h : c.Sound owed) : ¬ c.Stalled owed := by
  rintro ⟨hphase, hqueue, hwoken, howed⟩
  rcases h.paid hphase with hempty | hpending | hpos
  · exact hqueue hempty
  · rw [hwoken] at hpending
    exact Bool.false_ne_true hpending
  · omega

theorem Sound.mono (h : c.Sound owed) (hle : owed ≤ owed') : c.Sound owed' where
  reached := h.reached
  paid := by
    intro hphase
    rcases h.paid hphase with hempty | hpending | hpos
    · exact Or.inl hempty
    · exact Or.inr (Or.inl hpending)
    · exact Or.inr (Or.inr (by omega))

theorem Sound.push (h : c.Sound owed) (x : α) : (c.push x).Sound (owed + 1) where
  reached := h.reached
  paid := fun _ => Or.inr (Or.inr (Nat.succ_pos owed))

theorem Sound.drop (h : c.Sound owed) : c.drop.Sound owed where
  reached := h.reached
  paid := by
    intro hphase
    rcases h.paid hphase with hempty | hpaid
    · left
      show c.queue.tail = []
      rw [hempty]
      rfl
    · exact Or.inr hpaid

/-- A wake pays for all that is owed: it reaches the consumer if it has registered. -/
theorem Sound.wake (h : c.Sound owed) (keeps : Bool) : (c.wake keeps).Sound owed' := by
  have hwoken : c.phase = .recheck ∨ c.phase = .parked → (c.wake keeps).woken = true := by
    intro hphase
    rcases h.reached hphase with hregistered | hwoken
    · simp [Channel.wake, hregistered]
    · simp [Channel.wake, hwoken]
  exact ⟨fun hphase => Or.inr (hwoken hphase), fun hphase => Or.inr (Or.inl (hwoken (Or.inr hphase)))⟩

theorem sound_cancel : c.cancel.Sound owed where
  reached := by simp [Channel.cancel]
  paid := by simp [Channel.cancel]

theorem Sound.poll (h : c.Sound owed) : c.poll.1.Sound owed := by
  obtain ⟨queue, phase, registered, woken⟩ := c
  cases phase with
  | away | parked => exact ⟨by simp [Channel.poll], by simp [Channel.poll]⟩
  | dequeue => cases queue <;> exact ⟨by simp [Channel.poll], by simp [Channel.poll]⟩
  | register => exact ⟨fun _ => Or.inl rfl, by simp [Channel.poll]⟩
  | recheck =>
    cases queue with
    | cons x rest => exact ⟨by simp [Channel.poll], by simp [Channel.poll]⟩
    -- it parks: the waker has been in place since before this look at the queue
    | nil => exact ⟨fun _ => h.reached (Or.inl rfl), fun _ => Or.inl rfl⟩

end Channel

/-! ## Protocols -/

/-- What a producer does, by how far it has got, with the settings it reads as they then are.
`none` is the end of it. -/
structure Protocol (ε π α : Type*) where
  advance : ε → π → Channel α → Channel α × Option π
  owes : π → Bool

namespace Protocol

variable {ε π α : Type*} {P : Protocol ε π α}

structure State (ε π α : Type*) where
  env : ε
  channel : Channel α
  producers : List π

/-- One atomic operation of anyone. `take` is a dequeue outside of the consumer's poll. -/
inductive Action (ε π : Type*) where
  | set (env : ε)
  | arrive (p : π)
  | advance (i : ℕ)
  | poll
  | cancel
  | take

def step (P : Protocol ε π α) (s : State ε π α) : Action ε π → State ε π α
  | .set env => { s with env := env }
  | .arrive p => { s with producers := s.producers ++ [p] }
  | .advance i =>
    match s.producers[i]? with
    | none => s
    | some p =>
      match P.advance s.env p s.channel with
      | (channel, some p') => { s with channel := channel, producers := s.producers.set i p' }
      | (channel, none) => { s with channel := channel, producers := s.producers.eraseIdx i }
  | .poll => { s with channel := s.channel.poll.1 }
  | .cancel => { s with channel := s.channel.cancel }
  | .take => { s with channel := s.channel.drop }

/-- How many producers stand between their enqueue and their wake. -/
def owed (P : Protocol ε π α) (ps : List π) : ℕ := ps.countP P.owes

def debt (P : Protocol ε π α) (p : Option π) : ℕ := (p.toList).countP P.owes

/-- A producer's operation keeps the account, whatever the others owe. -/
def Sound (P : Protocol ε π α) : Prop :=
  ∀ env p (c : Channel α) owed, c.Sound (owed + P.debt (some p)) →
    (P.advance env p c).1.Sound (owed + P.debt (P.advance env p c).2)

theorem owed_arrive (ps : List π) (p : π) : P.owed ps ≤ P.owed (ps ++ [p]) := by
  rw [owed, owed, List.countP_append]
  omega

theorem owed_split {ps : List π} {i : ℕ} {p : π} (hi : ps[i]? = some p) :
    P.owed ps = P.owed (ps.eraseIdx i) + P.debt (some p) := by
  obtain ⟨hlt, hp⟩ := List.getElem?_eq_some_iff.mp hi
  have hperm := List.getElem_cons_eraseIdx_perm hlt
  rw [owed, ← hperm.countP_eq, List.countP_cons, hp, debt]
  simp [owed]

theorem owed_set {ps : List π} {i : ℕ} {p : π} (hi : ps[i]? = some p) (p' : π) :
    P.owed (ps.set i p') = P.owed (ps.eraseIdx i) + P.debt (some p') := by
  obtain ⟨hlt, -⟩ := List.getElem?_eq_some_iff.mp hi
  have hset : (ps.set i p')[i]? = some p' := by rw [List.getElem?_set_self hlt]
  rw [owed_split hset, List.eraseIdx_set_eq]

theorem sound_step (hP : P.Sound) {s : State ε π α} (h : s.channel.Sound (P.owed s.producers))
    (a : Action ε π) : (P.step s a).channel.Sound (P.owed (P.step s a).producers) := by
  cases a with
  | set env => exact h
  | arrive p => exact h.mono (owed_arrive s.producers p)
  | poll => exact h.poll
  | cancel => exact Channel.sound_cancel
  | take => exact h.drop
  | advance i =>
    cases hi : s.producers[i]? with
    | none => simpa only [step, hi] using h
    | some p =>
      -- the account without this producer, and what this producer owes
      rw [owed_split hi] at h
      have hadvance := hP s.env p s.channel _ h
      cases hnext : P.advance s.env p s.channel with
      | mk channel next =>
        rw [hnext] at hadvance
        cases next with
        | some p' =>
          simp only [step, hi, hnext, owed_set hi]
          exact hadvance
        | none =>
          simp only [step, hi, hnext]
          exact hadvance

/-- No interleaving loses a wake-up. -/
theorem never_stalled (hP : P.Sound) {s : State ε π α}
    (hs : s.channel.Sound (P.owed s.producers)) (as : List (Action ε π)) :
    Always P.step (fun s => ¬ s.channel.Stalled (P.owed s.producers)) s as := by
  have hsound : Always P.step (fun s => s.channel.Sound (P.owed s.producers)) s as :=
    always_of_step hs fun s a h => sound_step hP h a
  exact fun pre hpre => (hsound pre hpre).not_stalled

end Protocol

end Wakeup
