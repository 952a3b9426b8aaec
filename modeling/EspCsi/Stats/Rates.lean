import EspCsi.Lib.Transition
import EspCsi.Stats

/-!
# Rates

`run_process_csi_packet`, the task that publishes how many frames a second were counted, and the
mean since the start of the capture. The task is taken one access to what it shares at a time, so
that frames, requests and the clock come in between wherever they can.
-/

namespace EspCsi

open Transition

/-! ## The task -/

inductive Direction where
  | rx
  | tx
deriving DecidableEq, Repr

namespace Stats

def recordTx (s : Stats) : Stats := { s with txCount := s.txCount + 1 }

def count (s : Stats) : Direction → UInt64
  | .rx => s.rxCount
  | .tx => s.txCount

def recordFrame (s : Stats) : Direction → Stats
  | .rx => s.recordCollectorRx
  | .tx => s.recordTx

end Stats

def RATE_TICK_US : ℕ := 500000

def US_PER_SEC : ℕ := 1000000

/-- What the task does next; `toggled` where it starts over because the CSI output was toggled. -/
inductive RatePhase where
  | stampStart (toggled : Bool)
  | stampUpdate (toggled : Bool)
  | mark (d : Direction) (toggled : Bool)
  | resync
  | arm
  | select
  | acknowledge
  | elapsed
  | load (d : Direction)
  | publish (d : Direction)
  | stampRated
  | returned
deriving DecidableEq, Repr

/-- A published rate: how many frames it is of, and the times it says they came between. -/
structure RateWindow where
  fromUs : ℕ
  readUs : ℕ
  frames : ℕ
deriving DecidableEq, Repr

namespace RateWindow

def secs (w : RateWindow) : ℕ := (w.readUs - w.fromUs) / US_PER_SEC

def hz (w : RateWindow) : UInt32 := UInt32.ofNat (w.frames / w.secs)

end RateWindow

/-- The statics that the rates are made from, the task's variables, and what became of the frames:
the windows they were rated in, and how many were in none when the task started over. -/
structure RateTask where
  stats : Stats
  captureStartTime : ℕ
  rateHz : Direction → UInt32
  outputChanged : Bool
  stopSignal : Bool
  nowUs : ℕ
  phase : RatePhase
  wakeUs : ℕ
  lastRateUpdate : ℕ
  lastCount : Direction → UInt64
  readUs : ℕ
  current : Direction → UInt64
  windows : Direction → List RateWindow
  cut : Direction → ℕ

inductive RateEvent where
  | frame (d : Direction)
  | setCsiOutput
  | sendStop
  | pass (us : ℕ)
  | advance
  | relaunch
deriving DecidableEq, Repr

namespace RateTask

/-- `stats_begin_run`, with the task about to be polled. Its variables are not set yet. -/
def begin (stats : Stats) (outputChanged stopSignal : Bool) (nowUs : ℕ) : RateTask where
  stats := stats.reset
  captureStartTime := nowUs
  rateHz := fun _ => 0
  outputChanged
  stopSignal
  nowUs
  phase := .stampStart false
  wakeUs := nowUs
  lastRateUpdate := nowUs
  lastCount := fun _ => 0
  readUs := nowUs
  current := fun _ => 0
  windows := fun _ => []
  cut := fun _ => 0

def goto (s : RateTask) (phase : RatePhase) : RateTask := { s with phase }

/-- `last_count = count`, what was not rated being left out. -/
def mark (s : RateTask) (d : Direction) : RateTask :=
  { s with
    lastCount := Function.update s.lastCount d (s.stats.count d)
    cut := Function.update s.cut d
      (s.cut d + ((s.stats.count d).toNat - (s.lastCount d).toNat)) }

def load (s : RateTask) (d : Direction) : RateTask :=
  { s with current := Function.update s.current d (s.stats.count d) }

/-- The window that ends where the clock was read. `saturating_sub` is the subtraction of ℕ. -/
def window (s : RateTask) (d : Direction) : RateWindow where
  fromUs := s.lastRateUpdate
  readUs := s.readUs
  frames := (s.current d).toNat - (s.lastCount d).toNat

/-- `rate_hz.store(rate)`, and `last_count = current`. -/
def publish (s : RateTask) (d : Direction) : RateTask :=
  { s with
    rateHz := Function.update s.rateHz d (s.window d).hz
    lastCount := Function.update s.lastCount d (s.current d)
    windows := Function.update s.windows d (s.windows d ++ [s.window d]) }

theorem windows_publish (s : RateTask) (d : Direction) :
    (s.publish d).windows d = s.windows d ++ [s.window d] :=
  Function.update_self _ _ _

theorem windows_publish_of_ne (s : RateTask) {d d' : Direction} (h : d' ≠ d) :
    (s.publish d).windows d' = s.windows d' :=
  Function.update_of_ne h _ _

/-- The task's next access to what it shares. A request that comes between two polls of `select3` is
one that comes after them. -/
def advance (s : RateTask) : RateTask :=
  match s.phase with
  | .stampStart toggled => { s with captureStartTime := s.nowUs }.goto (.stampUpdate toggled)
  | .stampUpdate toggled => { s with lastRateUpdate := s.nowUs }.goto (.mark .rx toggled)
  | .mark .rx toggled => (s.mark .rx).goto (.mark .tx toggled)
  | .mark .tx toggled => (s.mark .tx).goto (if toggled then .resync else .arm)
  | .resync => { s with stats := { s.stats with resetSeqTracker := true } }.goto .arm
  | .arm => { s with wakeUs := s.nowUs + RATE_TICK_US }.goto .select
  | .select =>
    if s.stopSignal then s.goto .returned
    else if s.outputChanged then { s with outputChanged := false }.goto .acknowledge
    else if s.wakeUs ≤ s.nowUs then s.goto .elapsed
    else s
  -- a toggle since the one that was taken is lost here
  | .acknowledge => { s with outputChanged := false }.goto (.stampStart true)
  | .elapsed =>
    if 1 ≤ (s.nowUs - s.lastRateUpdate) / US_PER_SEC then
      { s with readUs := s.nowUs }.goto (.load .rx)
    else s.goto .arm
  | .load .rx => (s.load .rx).goto (.load .tx)
  | .load .tx => (s.load .tx).goto (.publish .rx)
  | .publish .rx => (s.publish .rx).goto (.publish .tx)
  | .publish .tx => (s.publish .tx).goto .stampRated
  | .stampRated => { s with lastRateUpdate := s.nowUs }.goto .arm
  | .returned => s

/-- The sniffer runs the task once more when a timed run is over, with variables of its own. -/
def step (s : RateTask) : RateEvent → RateTask
  | .frame d => { s with stats := s.stats.recordFrame d }
  | .setCsiOutput => { s with outputChanged := true }
  | .sendStop => { s with stopSignal := true }
  | .pass us => { s with nowUs := s.nowUs + us }
  | .advance => s.advance
  | .relaunch =>
    if s.phase = .returned then
      { s with wakeUs := s.nowUs, lastRateUpdate := s.nowUs }.goto (.stampStart false)
    else s

def getPps (s : RateTask) (d : Direction) : ℕ :=
  if (s.nowUs - s.captureStartTime) / US_PER_SEC = 0 then (s.stats.count d).toNat
  else (s.stats.count d).toNat / ((s.nowUs - s.captureStartTime) / US_PER_SEC)

end RateTask

/-! ## What a rate says -/

/-- The rate is of a whole second at least. As it divides by whole seconds only, it is at most one
frame a second below what was received, and at most twice as much. -/
structure RateWindow.Rated (w : RateWindow) : Prop where
  secs : 1 ≤ w.secs
  below : w.frames < 2 ^ 32 →
    w.frames * US_PER_SEC < (w.hz.toNat + 1) * (w.readUs - w.fromUs)
  above : w.hz.toNat * (w.readUs - w.fromUs) ≤ 2 * (w.frames * US_PER_SEC)

theorem RateWindow.rated {w : RateWindow} (h : 1 ≤ w.secs) : w.Rated where
  secs := h
  below := by
    intro hframes
    have hrate : w.frames / w.secs < 2 ^ 32 := (Nat.div_le_self _ _).trans_lt hframes
    have hhz : w.hz.toNat = w.frames / w.secs := by
      rw [hz, UInt32.toNat_ofNat', Nat.mod_eq_of_lt hrate]
    have hfloor : w.frames < (w.frames / w.secs + 1) * w.secs :=
      Nat.lt_mul_of_div_lt (Nat.lt_succ_self _) h
    have hsecs : w.secs * US_PER_SEC ≤ w.readUs - w.fromUs := Nat.div_mul_le_self _ _
    calc w.frames * US_PER_SEC
        < (w.frames / w.secs + 1) * w.secs * US_PER_SEC :=
          Nat.mul_lt_mul_of_pos_right hfloor (by decide)
      _ ≤ (w.hz.toNat + 1) * (w.readUs - w.fromUs) := by
          rw [hhz, mul_assoc]
          exact Nat.mul_le_mul_left _ hsecs
  above := by
    have hhz : w.hz.toNat ≤ w.frames / w.secs := by
      rw [hz, UInt32.toNat_ofNat']
      exact Nat.mod_le _ _
    have hfloor : w.frames / w.secs * w.secs ≤ w.frames := Nat.div_mul_le_self _ _
    have hlate : w.readUs - w.fromUs ≤ 2 * (w.secs * US_PER_SEC) := by
      have hrest : w.readUs - w.fromUs < (w.secs + 1) * US_PER_SEC :=
        Nat.lt_mul_of_div_lt (Nat.lt_succ_self _) (by decide)
      have hsec : US_PER_SEC ≤ w.secs * US_PER_SEC := Nat.le_mul_of_pos_left _ h
      rw [Nat.succ_mul] at hrest
      omega
    calc w.hz.toNat * (w.readUs - w.fromUs)
        ≤ w.frames / w.secs * (2 * (w.secs * US_PER_SEC)) := Nat.mul_le_mul hhz hlate
      _ = 2 * (w.frames / w.secs * w.secs * US_PER_SEC) := by
          rw [Nat.mul_left_comm, mul_assoc (w.frames / w.secs)]
      _ ≤ 2 * (w.frames * US_PER_SEC) :=
          Nat.mul_le_mul_left _ (Nat.mul_le_mul_right _ hfloor)

/-! ## What is counted -/

namespace RatePhase

def loaded : RatePhase → Direction → Bool
  | .load .tx, .rx | .publish .rx, _ | .publish .tx, .tx => true
  | _, _ => false

def published : RatePhase → Direction → Bool
  | .publish .tx, .rx | .stampRated, _ => true
  | _, _ => false

def rating : RatePhase → Bool
  | .load _ | .publish _ | .stampRated => true
  | _ => false

theorem loaded_of_not_rating {p : RatePhase} (h : p.rating = false) (d : Direction) :
    p.loaded d = false := by
  cases p <;> first | rfl | cases h

theorem published_of_not_rating {p : RatePhase} (h : p.rating = false) (d : Direction) :
    p.published d = false := by
  cases p <;> first | rfl | cases h

end RatePhase

namespace RateTask

variable {s : RateTask} {d : Direction}

/-- Every frame counted was rated once, was cut, or is still to be rated; the rates are of windows
one after the other, and the one to be read is of the last. -/
structure Accounted (s : RateTask) : Prop where
  /-- Neither `elapsed` is of a time to come. -/
  started : s.captureStartTime ≤ s.nowUs
  updated : s.lastRateUpdate ≤ s.nowUs
  counted : ∀ d, ((s.windows d).map RateWindow.frames).sum + s.cut d = (s.lastCount d).toNat
  pending : ∀ d, s.lastCount d ≤ s.stats.count d
  rated : ∀ d, ∀ w ∈ s.windows d, w.Rated
  apart : ∀ d, (s.windows d).Pairwise fun w w' => w.readUs ≤ w'.fromUs
  rate : ∀ d, s.rateHz d = ((s.windows d).getLast?.map RateWindow.hz).getD 0

namespace Accounted

theorem mark (h : s.Accounted) (d : Direction) : (s.mark d).Accounted where
  started := h.started
  updated := h.updated
  counted := by
    intro d'
    by_cases hd : d' = d
    · subst hd
      have hcounted := h.counted d'
      have hle := UInt64.le_iff_toNat_le.mp (h.pending d')
      simp only [RateTask.mark, Function.update_self]
      omega
    · simpa [RateTask.mark, Function.update_of_ne hd] using h.counted d'
  pending := by
    intro d'
    by_cases hd : d' = d
    · subst hd
      simp [RateTask.mark]
    · simpa [RateTask.mark, Function.update_of_ne hd] using h.pending d'
  rated := h.rated
  apart := h.apart
  rate := h.rate

/-- A window is added to those of its direction. -/
theorem publish (h : s.Accounted) (hlast : s.lastCount d ≤ s.current d)
    (hcurrent : s.current d ≤ s.stats.count d) (hsecs : 1 ≤ (s.window d).secs)
    (hpast : ∀ w ∈ s.windows d, w.readUs ≤ s.lastRateUpdate) : (s.publish d).Accounted where
  started := h.started
  updated := h.updated
  counted := by
    intro d'
    by_cases hd : d' = d
    · subst hd
      have hcounted := h.counted d'
      have hle := UInt64.le_iff_toNat_le.mp hlast
      rw [windows_publish, List.map_append, List.sum_append, List.map_singleton, List.sum_singleton]
      simp only [RateTask.publish, Function.update_self, window]
      omega
    · rw [windows_publish_of_ne s hd]
      simpa [RateTask.publish, Function.update_of_ne hd] using h.counted d'
  pending := by
    intro d'
    by_cases hd : d' = d
    · subst hd
      simpa [RateTask.publish] using hcurrent
    · simpa [RateTask.publish, Function.update_of_ne hd] using h.pending d'
  rated := by
    intro d' w hw
    by_cases hd : d' = d
    · subst hd
      rw [windows_publish, List.mem_append, List.mem_singleton] at hw
      rcases hw with hw | rfl
      · exact h.rated d' w hw
      · exact RateWindow.rated hsecs
    · rw [windows_publish_of_ne s hd] at hw
      exact h.rated d' w hw
  apart := by
    intro d'
    by_cases hd : d' = d
    · subst hd
      rw [windows_publish, List.pairwise_append]
      refine ⟨h.apart d', List.pairwise_singleton _ _, fun w hw w' hw' => ?_⟩
      rw [List.mem_singleton.mp hw']
      exact hpast w hw
    · rw [windows_publish_of_ne s hd]
      exact h.apart d'
  rate := by
    intro d'
    by_cases hd : d' = d
    · subst hd
      simp [RateTask.publish]
    · rw [windows_publish_of_ne s hd]
      simpa [RateTask.publish, Function.update_of_ne hd] using h.rate d'

end Accounted

structure Inv (s : RateTask) : Prop extends Accounted s where
  loaded : ∀ d, s.phase.loaded d = true →
    s.lastCount d ≤ s.current d ∧ s.current d ≤ s.stats.count d
  rating : s.phase.rating = true →
    1 ≤ (s.readUs - s.lastRateUpdate) / US_PER_SEC ∧ s.readUs ≤ s.nowUs
  past : ∀ d, ∀ w ∈ s.windows d,
    w.readUs ≤ if s.phase.published d then s.nowUs else s.lastRateUpdate

theorem inv_begin (stats : Stats) (outputChanged stopSignal : Bool) (nowUs : ℕ) :
    (begin stats outputChanged stopSignal nowUs).Inv where
  started := le_rfl
  updated := le_rfl
  counted := by simp [begin]
  pending := by simp [begin]
  rated := by simp [begin]
  apart := by simp [begin]
  rate := by simp [begin]
  loaded := by simp [begin, RatePhase.loaded]
  rating := by simp [begin, RatePhase.rating]
  past := by simp [begin]

theorem Accounted.inv (h : s.Accounted) (hphase : s.phase.rating = false)
    (hpast : ∀ d, ∀ w ∈ s.windows d, w.readUs ≤ s.lastRateUpdate) : s.Inv where
  toAccounted := h
  loaded := by simp [RatePhase.loaded_of_not_rating hphase]
  rating := by simp [hphase]
  past := by simpa [RatePhase.published_of_not_rating hphase] using hpast

namespace Inv

theorem past_of_not_rating (h : s.Inv) (hphase : s.phase.rating = false) :
    ∀ d, ∀ w ∈ s.windows d, w.readUs ≤ s.lastRateUpdate := by
  intro d w hw
  simpa [RatePhase.published_of_not_rating hphase] using h.past d w hw

theorem past_now (h : s.Inv) : ∀ d, ∀ w ∈ s.windows d, w.readUs ≤ s.nowUs := by
  intro d w hw
  have hpast := h.past d w hw
  split_ifs at hpast
  · exact hpast
  · exact hpast.trans h.updated

theorem past_publish (h : s.Inv) (hphase : s.phase.rating = true) (d : Direction) :
    ∀ d', ∀ w ∈ (s.publish d).windows d', w.readUs ≤ s.nowUs := by
  intro d' w hw
  by_cases hd : d' = d
  · subst hd
    rw [windows_publish, List.mem_append, List.mem_singleton] at hw
    rcases hw with hw | rfl
    · exact h.past_now d' w hw
    · exact (h.rating hphase).2
  · rw [windows_publish_of_ne s hd] at hw
    exact h.past_now d' w hw

theorem loaded_load (h : s.Inv) (d : Direction) :
    (s.load d).lastCount d ≤ (s.load d).current d ∧
      (s.load d).current d ≤ (s.load d).stats.count d := by
  simpa [RateTask.load] using h.pending d

theorem load (h : s.Inv) (hphase : s.phase = .load d) : s.advance.Inv := by
  have hrating := h.rating (by rw [hphase]; rfl)
  have hpast := h.past
  have hloaded := h.loaded
  rw [hphase] at hpast hloaded
  simp only [RateTask.advance, hphase]
  cases d with
  | rx => exact {
      toAccounted := { h.toAccounted with }
      loaded := fun d hd => by
        cases d with
        | rx => exact h.loaded_load .rx
        | tx => cases hd
      rating := fun _ => hrating
      past := hpast }
  | tx => exact {
      toAccounted := { h.toAccounted with }
      loaded := fun d _ => by
        cases d with
        | rx => simpa [RateTask.load, goto] using hloaded .rx rfl
        | tx => exact h.loaded_load .tx
      rating := fun _ => hrating
      past := hpast }

theorem publish (h : s.Inv) (hphase : s.phase = .publish d) : s.advance.Inv := by
  have hphaseRating : s.phase.rating = true := by rw [hphase]; rfl
  have hrating := h.rating hphaseRating
  have hpast := h.past
  have hloaded := h.loaded
  rw [hphase] at hpast hloaded
  simp only [RateTask.advance, hphase]
  cases d with
  | rx =>
    have hrx := hloaded .rx rfl
    exact {
      toAccounted := { h.toAccounted.publish hrx.1 hrx.2 hrating.1 (hpast .rx) with }
      loaded := fun d hd => by
        cases d with
        | rx => cases hd
        | tx => simpa [RateTask.publish, goto] using hloaded .tx rfl
      rating := fun _ => hrating
      past := fun d => by
        cases d with
        | rx => exact h.past_publish hphaseRating .rx .rx
        | tx => exact hpast .tx }
  | tx =>
    have htx := hloaded .tx rfl
    exact {
      toAccounted := { h.toAccounted.publish htx.1 htx.2 hrating.1 (hpast .tx) with }
      loaded := fun d hd => by cases d <;> cases hd
      rating := fun _ => hrating
      past := h.past_publish hphaseRating .tx }

theorem advance (h : s.Inv) : s.advance.Inv := by
  cases hphase : s.phase with
  | stampStart toggled =>
    have hpast := h.past_of_not_rating (by rw [hphase]; rfl)
    simp only [RateTask.advance, hphase]
    exact Accounted.inv { h.toAccounted with started := le_rfl } rfl hpast
  | stampUpdate toggled =>
    simp only [RateTask.advance, hphase]
    exact Accounted.inv { h.toAccounted with updated := le_rfl } rfl h.past_now
  | mark d toggled =>
    have hpast := h.past_of_not_rating (by rw [hphase]; rfl)
    cases d with
    | rx =>
      simp only [RateTask.advance, hphase]
      exact Accounted.inv { h.toAccounted.mark .rx with } rfl hpast
    | tx =>
      simp only [RateTask.advance, hphase]
      cases toggled <;> exact Accounted.inv { h.toAccounted.mark .tx with } rfl hpast
  | resync =>
    have hpast := h.past_of_not_rating (by rw [hphase]; rfl)
    simp only [RateTask.advance, hphase]
    exact Accounted.inv { h.toAccounted with
      pending := fun d => by cases d <;> exact h.pending _ } rfl hpast
  | arm =>
    have hpast := h.past_of_not_rating (by rw [hphase]; rfl)
    simp only [RateTask.advance, hphase]
    exact Accounted.inv { h.toAccounted with } rfl hpast
  | select =>
    have hpast := h.past_of_not_rating (by rw [hphase]; rfl)
    simp only [RateTask.advance, hphase]
    split_ifs
    · exact Accounted.inv { h.toAccounted with } rfl hpast
    · exact Accounted.inv { h.toAccounted with } rfl hpast
    · exact Accounted.inv { h.toAccounted with } rfl hpast
    · exact h
  | acknowledge =>
    have hpast := h.past_of_not_rating (by rw [hphase]; rfl)
    simp only [RateTask.advance, hphase]
    exact Accounted.inv { h.toAccounted with } rfl hpast
  | elapsed =>
    have hpast := h.past_of_not_rating (by rw [hphase]; rfl)
    simp only [RateTask.advance, hphase]
    split_ifs with hsecs
    · exact {
        toAccounted := { h.toAccounted with }
        loaded := by simp [goto, RatePhase.loaded]
        rating := fun _ => ⟨hsecs, le_rfl⟩
        past := hpast }
    · exact Accounted.inv { h.toAccounted with } rfl hpast
  | load d => exact h.load hphase
  | publish d => exact h.publish hphase
  | stampRated =>
    simp only [RateTask.advance, hphase]
    exact Accounted.inv { h.toAccounted with updated := le_rfl } rfl h.past_now
  | returned =>
    simp only [RateTask.advance, hphase]
    exact h

end Inv

/-! ## Steps -/

theorem count_recordFrame (s : Stats) (d d' : Direction) :
    (s.recordFrame d).count d' = if d = d' then s.count d' + 1 else s.count d' := by
  cases d <;> cases d' <;> rfl

theorem advance_keeps (s : RateTask) :
    s.advance.nowUs = s.nowUs ∧ s.advance.stopSignal = s.stopSignal ∧
      (∀ d, s.advance.stats.count d = s.stats.count d) ∧
      ((∃ toggled, s.phase = .stampStart toggled) ∨
        s.advance.captureStartTime = s.captureStartTime) := by
  cases hphase : s.phase with
  | mark d toggled => cases d <;> simp [advance, hphase, goto, mark]
  | load d => cases d <;> simp [advance, hphase, goto, load]
  | publish d => cases d <;> simp [advance, hphase, goto, publish]
  | resync =>
    simp only [advance, hphase]
    exact ⟨rfl, rfl, fun d => by cases d <;> rfl, .inr rfl⟩
  | select =>
    simp only [advance, hphase]
    split_ifs <;> exact ⟨rfl, rfl, fun _ => rfl, .inr rfl⟩
  | elapsed =>
    simp only [advance, hphase]
    split_ifs <;> exact ⟨rfl, rfl, fun _ => rfl, .inr rfl⟩
  | _ => simp [advance, hphase, goto]

theorem toNat_count_step (hroom : (s.stats.count d).toNat + 1 < 2 ^ 64) (e : RateEvent) :
    ((s.step e).stats.count d).toNat =
      (s.stats.count d).toNat + if e = .frame d then 1 else 0 := by
  cases e with
  | frame d' =>
    simp only [step, count_recordFrame, RateEvent.frame.injEq]
    split_ifs
    · rw [UInt64.toNat_add, UInt64.toNat_one, Nat.mod_eq_of_lt hroom]
    · rfl
  | advance => simp [step, (s.advance_keeps).2.2.1 d]
  | relaunch => by_cases hreturned : s.phase = .returned <;> simp [step, hreturned, goto]
  | _ => rfl

theorem Inv.step (h : s.Inv) (hroom : ∀ d, (s.stats.count d).toNat + 1 < 2 ^ 64) (e : RateEvent) :
    (s.step e).Inv := by
  cases e with
  | frame d =>
    have hle (d' : Direction) : s.stats.count d' ≤ (s.stats.recordFrame d).count d' := by
      have hcount := toNat_count_step (hroom d') (.frame d)
      refine UInt64.le_iff_toNat_le.mpr ?_
      simp only [RateTask.step] at hcount
      omega
    exact {
      toAccounted := { h.toAccounted with
        pending := fun d' => UInt64.le_trans (h.pending d') (hle d') }
      loaded := fun d' hd' =>
        ⟨(h.loaded d' hd').1, UInt64.le_trans (h.loaded d' hd').2 (hle d')⟩
      rating := h.rating
      past := h.past }
  | setCsiOutput => exact { h with }
  | sendStop => exact { h with }
  | pass us =>
    have hlater : s.nowUs ≤ s.nowUs + us := Nat.le_add_right _ _
    exact {
      toAccounted := { h.toAccounted with
        started := h.started.trans hlater
        updated := h.updated.trans hlater }
      loaded := h.loaded
      rating := fun hphase => ⟨(h.rating hphase).1, (h.rating hphase).2.trans hlater⟩
      past := fun d w hw => (h.past d w hw).trans (by
        show (if s.phase.published d then s.nowUs else s.lastRateUpdate) ≤
          if s.phase.published d then s.nowUs + us else s.lastRateUpdate
        split_ifs
        · exact hlater
        · exact le_rfl) }
  | advance => exact h.advance
  | relaunch =>
    simp only [RateTask.step]
    split_ifs
    · exact Accounted.inv { h.toAccounted with updated := le_rfl } rfl h.past_now
    · exact h

/-! ## Runs -/

theorem inv_run (h : s.Inv) (es : List RateEvent)
    (hroom : ∀ d, (s.stats.count d).toNat + es.length < 2 ^ 64) :
    Always RateTask.step Inv s es ∧ ∀ d,
      ((run RateTask.step s es).stats.count d).toNat =
        (s.stats.count d).toNat + es.count (.frame d) := by
  induction es generalizing s with
  | nil => exact ⟨always_nil.mpr h, fun d => rfl⟩
  | cons e es ih =>
    have hone (d : Direction) : (s.stats.count d).toNat + 1 < 2 ^ 64 := by
      have hroom := hroom d
      rw [List.length_cons] at hroom
      omega
    have hcount (d : Direction) := toNat_count_step (hone d) e
    have hnext (d : Direction) : ((s.step e).stats.count d).toNat + es.length < 2 ^ 64 := by
      have hroom := hroom d
      have hcount := hcount d
      rw [List.length_cons] at hroom
      split_ifs at hcount <;> omega
    obtain ⟨halways, htail⟩ := ih (h.step hone e) hnext
    refine ⟨always_cons.mpr ⟨h, halways⟩, fun d => ?_⟩
    rw [run_cons, htail d, hcount d, List.count_cons]
    simp only [beq_iff_eq]
    omega

end RateTask

def RateEvent.us : RateEvent → ℕ
  | .pass us => us
  | _ => 0

def passedUs (es : List RateEvent) : ℕ := (es.map RateEvent.us).sum

namespace RateTask

variable {s : RateTask} {d : Direction} {es : List RateEvent} {e : RateEvent}

def Stamps (s : RateTask) (e : RateEvent) : Prop :=
  e = .advance ∧ ∃ toggled, s.phase = .stampStart toggled

theorem captureStartTime_of_stamps (h : s.Stamps e) :
    (s.step e).captureStartTime = s.nowUs := by
  obtain ⟨rfl, toggled, hphase⟩ := h
  simp [step, advance, hphase, goto]

theorem captureStartTime_of_not_stamps (h : ¬ s.Stamps e) :
    (s.step e).captureStartTime = s.captureStartTime := by
  cases e with
  | advance =>
    rcases s.advance_keeps.2.2.2 with hphase | hkeep
    · exact absurd ⟨rfl, hphase⟩ h
    · exact hkeep
  | relaunch => by_cases hreturned : s.phase = .returned <;> simp [step, hreturned, goto]
  | _ => rfl

theorem nowUs_step (s : RateTask) (e : RateEvent) : (s.step e).nowUs = s.nowUs + e.us := by
  cases e with
  | advance => exact s.advance_keeps.1
  | relaunch =>
    by_cases hreturned : s.phase = .returned <;> simp [step, hreturned, goto, RateEvent.us]
  | _ => rfl

theorem exists_stamp (hs : s.captureStartTime = s.nowUs) (es : List RateEvent) :
    ∃ before after, es = before ++ after ∧
      (before = [] ∨ ∃ init, before = init ++ [.advance] ∧ (run step s init).Stamps .advance) ∧
      Along step (fun s e => ¬ s.Stamps e) (run step s before) after ∧
      (run step s es).captureStartTime = (run step s before).nowUs ∧
      (run step s es).nowUs = (run step s before).nowUs + passedUs after := by
  induction es using List.reverseRecOn with
  | nil => exact ⟨[], [], rfl, .inl rfl, along_nil, hs, rfl⟩
  | append_singleton es e ih =>
    obtain ⟨before, after, rfl, hbefore, hafter, hstart, hnow⟩ := ih
    by_cases hstamps : (run step s (before ++ after)).Stamps e
    · have hclock := nowUs_step (run step s (before ++ after)) e
      obtain rfl : e = .advance := hstamps.1
      refine ⟨before ++ after ++ [.advance], [], by simp, .inr ⟨_, rfl, hstamps⟩, along_nil, ?_,
        rfl⟩
      rw [run_concat, captureStartTime_of_stamps hstamps]
      exact hclock.symm
    · refine ⟨before, after ++ [e], by simp, hbefore, along_concat.mpr ⟨hafter, ?_⟩, ?_, ?_⟩
      · rwa [← run_append]
      · rw [run_concat, captureStartTime_of_not_stamps hstamps, hstart]
      · rw [run_concat, nowUs_step, hnow]
        simp [passedUs, Nat.add_assoc]

end RateTask

def RatePhase.restarting : RatePhase → Bool
  | .stampStart _ | .stampUpdate _ | .mark _ _ | .acknowledge => true
  | _ => false

def RateEvent.restarts : RateEvent → Bool
  | .setCsiOutput | .relaunch => true
  | _ => false

namespace RateTask

variable {s : RateTask} {es : List RateEvent} {e : RateEvent}

def Underway (s : RateTask) : Prop := s.phase.restarting = false ∧ s.outputChanged = false

theorem cut_step (h : s.Underway) (he : e.restarts = false) :
    (s.step e).Underway ∧ (s.step e).cut = s.cut := by
  obtain ⟨hphase, houtput⟩ := h
  cases e with
  | advance =>
    simp only [step, Underway]
    cases hphase' : s.phase with
    | load d => cases d <;> simp [advance, hphase', goto, load, RatePhase.restarting, houtput]
    | publish d => cases d <;> simp [advance, hphase', goto, publish, RatePhase.restarting, houtput]
    | select =>
      simp only [advance, hphase', houtput]
      split_ifs <;> simp_all [goto, RatePhase.restarting]
    | elapsed =>
      simp only [advance, hphase']
      split_ifs <;> simp [goto, RatePhase.restarting, houtput]
    | _ => simp_all [advance, goto, RatePhase.restarting]
  | setCsiOutput => cases he
  | relaunch => cases he
  | _ => exact ⟨⟨hphase, houtput⟩, rfl⟩

theorem cut_run (h : s.Underway) (hes : ∀ e ∈ es, e.restarts = false) :
    (run step s es).cut = s.cut := by
  induction es generalizing s with
  | nil => rfl
  | cons e es ih =>
    obtain ⟨hnext, hcut⟩ := cut_step h (hes e List.mem_cons_self)
    rw [run_cons, ih hnext fun e he => hes e (List.mem_cons_of_mem _ he), hcut]

theorem stopped_step (h : s.phase = .returned → s.stopSignal = true) (e : RateEvent) :
    (s.step e).phase = .returned → (s.step e).stopSignal = true := by
  cases e with
  | advance =>
    simp only [step, s.advance_keeps.2.1]
    cases hphase : s.phase with
    | mark d toggled => cases d <;> cases toggled <;> simp [advance, hphase, goto]
    | load d => cases d <;> simp [advance, hphase, goto]
    | publish d => cases d <;> simp [advance, hphase, goto]
    | select =>
      simp only [advance, hphase]
      split_ifs with hstop
      · exact fun _ => hstop
      · simp [goto]
      · simp [goto]
      · simp [hphase]
    | elapsed =>
      simp only [advance, hphase]
      split_ifs <;> simp [goto]
    | returned => exact fun _ => h hphase
    | _ => simp [advance, hphase, goto]
  | sendStop => exact fun _ => rfl
  | relaunch => by_cases hreturned : s.phase = .returned <;> simp [step, hreturned, goto]
  | _ => exact h

/-- What the statistics of a run say of it. -/
structure Metered (s : RateTask) (es : List RateEvent) : Prop where
  accounted : Always step Accounted s es
  counted : ∀ d, ((run step s es).stats.count d).toNat = es.count (.frame d)
  /-- Frames go without a rate only where the task starts over. -/
  uncut : ∀ before after, es = before ++ after → (run step s before).Underway →
    (∀ e ∈ after, e.restarts = false) → (run step s es).cut = (run step s before).cut
  /-- The mean is of every frame of the run, over the whole seconds since the last stamp. -/
  pps : ∃ before after, es = before ++ after ∧
    (before = [] ∨ ∃ init, before = init ++ [.advance] ∧ (run step s init).Stamps .advance) ∧
    Along step (fun s e => ¬ s.Stamps e) (run step s before) after ∧
    ∀ d, (run step s es).getPps d = es.count (.frame d) / max 1 (passedUs after / US_PER_SEC)
  stopped : Always step (fun s => s.phase = .returned → s.stopSignal = true) s es

/-- Fewer than 2^64 frames are counted without wrapping. -/
theorem begin_run (stats : Stats) (outputChanged stopSignal : Bool) (nowUs : ℕ)
    (hlen : es.length < 2 ^ 64) :
    Always step Inv (begin stats outputChanged stopSignal nowUs) es ∧ ∀ d,
      ((run step (begin stats outputChanged stopSignal nowUs) es).stats.count d).toNat =
        es.count (.frame d) := by
  have hzero (d : Direction) :
      ((begin stats outputChanged stopSignal nowUs).stats.count d).toNat = 0 := by
    cases d <;> rfl
  obtain ⟨halways, hcount⟩ := inv_run (inv_begin stats outputChanged stopSignal nowUs) es
    fun d => by rw [hzero, Nat.zero_add]; exact hlen
  exact ⟨halways, fun d => by rw [hcount, hzero, Nat.zero_add]⟩

/-- Whatever comes between the task's accesses, every frame is in one window at most, and only a
toggle or a new task keeps a frame from its window. The mean goes on from a toggle with the frames
from before it. -/
theorem rates_metered (stats : Stats) (outputChanged stopSignal : Bool) (nowUs : ℕ)
    (es : List RateEvent) (hlen : es.length < 2 ^ 64) :
    Metered (begin stats outputChanged stopSignal nowUs) es := by
  obtain ⟨halways, hcount⟩ := begin_run stats outputChanged stopSignal nowUs hlen
  refine ⟨fun pre hpre => (halways pre hpre).toAccounted, hcount, ?_, ?_, ?_⟩
  · rintro before after rfl hunderway hafter
    rw [run_append]
    exact cut_run hunderway hafter
  · obtain ⟨before, after, hes, hbefore, hafter, hstart, hnow⟩ :=
      exists_stamp (s := begin stats outputChanged stopSignal nowUs) rfl es
    refine ⟨before, after, hes, hbefore, hafter, fun d => ?_⟩
    have helapsed : (run step (begin stats outputChanged stopSignal nowUs) es).nowUs -
        (run step (begin stats outputChanged stopSignal nowUs) es).captureStartTime =
          passedUs after := by
      rw [hstart, hnow, Nat.add_sub_cancel_left]
    rw [getPps, helapsed, hcount]
    split_ifs with hsecs
    · rw [hsecs, max_eq_left (Nat.zero_le 1), Nat.div_one]
    · rw [max_eq_right (Nat.one_le_iff_ne_zero.mpr hsecs)]
  · exact always_of_step (by simp [begin]) fun s e h => stopped_step h e

/-- Three frames in a second, then a toggle and one more frame: the rate is 3, and the mean 4. -/
def toggledRun : List RateEvent :=
  List.replicate 5 .advance ++ List.replicate 3 (.frame .rx) ++ [.pass 1000000] ++
    List.replicate 8 .advance ++ [.setCsiOutput] ++ List.replicate 3 .advance ++ [.frame .rx]

theorem toggledRun_metered :
    Metered (begin .boot false false 0) toggledRun ∧
      (run step (begin .boot false false 0) toggledRun).rateHz .rx = 3 ∧
      (run step (begin .boot false false 0) toggledRun).getPps .rx = 4 :=
  ⟨rates_metered .boot false false 0 toggledRun (by decide), by decide, by decide⟩

end RateTask

end EspCsi
