import EspCsi.EspNow.Lock
import EspCsi.EspNow.Pacing

/-!
# Transmit rates

How many frames the paced loops begin to send in a window of time. A deadline moves on only when its
frame is sent, so a loop that was idle or stalled owes a frame for every interval that went by, and
pays them back as fast as it can.
-/

namespace EspCsi.EspNow

open Wire Transition Pacing

/-! ## The interval never falls below that of the configured rate -/

theorem hzToIntervalUs_pos (hz : ℕ) : 0 < hzToIntervalUs hz := by
  unfold hzToIntervalUs
  omega

theorem hzToIntervalUs_le {hz hz' : ℕ} (h : hz ≤ hz') : hzToIntervalUs hz' ≤ hzToIntervalUs hz := by
  have hdiv : 1000000 / max hz' 1 ≤ 1000000 / max hz 1 := Nat.div_le_div_left (by omega) (by omega)
  unfold hzToIntervalUs
  omega

namespace Pacer

structure Respects (p : Pacer) (interval : ℕ) : Prop where
  shortest : interval ≤ p.intervalUs
  adaptive : p.adaptivePacingEnabled = true →
    interval ≤ hzToIntervalUs p.hzMax ∧ p.adaptiveHz ≤ p.hzMax ∧ p.hzMin ≤ p.hzMax

theorem respects_start (floor ceiling frequencyHz : ℕ) (io : IOTaskConfig) (now : ℕ) :
    (start floor ceiling frequencyHz io now).Respects
      (start floor ceiling frequencyHz io now).intervalUs where
  shortest := le_rfl
  adaptive := by
    intro h
    have hrx : io.rxEnabled = true := (Bool.and_eq_true_iff.mp h).1
    refine ⟨?_, le_rfl, Nat.min_le_right _ _⟩
    simp only [start, hrx]
    exact le_rfl

theorem start_intervalUs_pos (floor ceiling frequencyHz : ℕ) (io : IOTaskConfig) (now : ℕ) :
    0 < (start floor ceiling frequencyHz io now).intervalUs := by
  simp only [start]
  split_ifs <;> exact hzToIntervalUs_pos _

theorem Respects.setHz {p : Pacer} {interval : ℕ} (h : p.Respects interval)
    (hadaptive : p.adaptivePacingEnabled = true) {hz : ℕ} (hhz : hz ≤ p.hzMax) :
    (p.setHz hz).Respects interval where
  shortest := (h.adaptive hadaptive).1.trans (hzToIntervalUs_le hhz)
  adaptive := fun _ => ⟨(h.adaptive hadaptive).1, hhz, (h.adaptive hadaptive).2.2⟩

theorem Respects.count {p : Pacer} {interval : ℕ} (h : p.Respects interval) (ok : UInt16) :
    { p with consecutiveTxOk := ok }.Respects interval :=
  ⟨h.shortest, h.adaptive⟩

theorem Respects.adapt {p : Pacer} {interval : ℕ} (h : p.Respects interval)
    (outcome : SendOutcome) : (p.adapt outcome).Respects interval := by
  cases outcome with
  | ok =>
    simp only [Pacer.adapt, succeeded]
    split_ifs with hadaptive
    · exact (h.count 0).setHz hadaptive (Nat.min_le_right _ _)
    · exact h.count _
    · exact (h.count 0).setHz hadaptive (Nat.min_le_right _ _)
    · exact h.count _
    · exact h
  | noBuffer =>
    simp only [Pacer.adapt, backOff]
    split_ifs with hadaptive
    · obtain ⟨-, hmax, hmin⟩ := h.adaptive hadaptive
      apply (h.count 0).setHz hadaptive
      show max (p.adaptiveHz - _) p.hzMin ≤ p.hzMax
      omega
    · exact h.count 0
  | failed => exact h.count 0

theorem sent_nextTxUs (p : Pacer) (outcome : SendOutcome) :
    (p.sent outcome).nextTxUs = p.nextTxUs + (p.adapt outcome).intervalUs := by
  have hnext : (p.adapt outcome).nextTxUs = p.nextTxUs := by
    cases outcome with
    | ok =>
      simp only [Pacer.adapt, succeeded]
      split_ifs <;> rfl
    | noBuffer =>
      simp only [Pacer.adapt, backOff]
      split_ifs <;> rfl
    | failed => rfl
  rw [sent, ← hnext]

theorem Respects.sent {p : Pacer} {interval : ℕ} (h : p.Respects interval)
    (outcome : SendOutcome) : (p.sent outcome).Respects interval :=
  ⟨(h.adapt outcome).shortest, (h.adapt outcome).adaptive⟩

end Pacer

/-! ## What a beat can do -/

namespace Timed

variable {α : Type}

/-- A beat of a paced loop begins no send, or the one that is due. -/
inductive Beats (s : Timed α) : Bool → Beat → Timed α → Prop
  | idle (e : Beat) (driver : α) (clock : ℕ) : Beats s false e { s with driver, clock }
  | sends (driver : α) (clock : ℕ) (registers : Bool) (outcome : SendOutcome) (d : Delays)
      (hdue : s.due d = true) :
      Beats s true (.turn registers outcome d)
        { driver
          clock
          pacer := s.pacer.sent outcome
          sends := s.sends ++ [⟨s.pacer.nextTxUs, s.clock + d.look + d.hand⟩] }

theorem Beats.wait {s s' : Timed α} {sends : Bool} {e : Beat} (h : s.Beats sends e s') (driver : α)
    (clock : ℕ) : s.Beats sends e { s' with driver, clock } := by
  cases h with
  | idle => exact .idle e driver clock
  | sends _ _ registers outcome d hdue => exact .sends driver clock registers outcome d hdue

structure Kept (interval : ℕ) (s : Timed α) : Prop where
  respects : s.pacer.Respects interval
  paced : Paced interval s.pacer.nextTxUs s.sends

theorem Kept.beats {interval : ℕ} {s s' : Timed α} (h : s.Kept interval) {sends : Bool} {e : Beat}
    (hbeats : s.Beats sends e s') : s'.Kept interval := by
  cases hbeats with
  | idle driver clock => exact ⟨h.respects, h.paced⟩
  | sends driver clock registers outcome d hdue =>
    refine ⟨h.respects.sent outcome, ?_⟩
    have hnow : s.pacer.nextTxUs ≤ s.clock + d.look := by
      simpa using (Bool.and_eq_true_iff.mp hdue).2
    show Paced interval (s.pacer.sent outcome).nextTxUs _
    rw [Pacer.sent_nextTxUs]
    exact h.paced.take (hnow.trans (Nat.le_add_right _ _)) (h.respects.adapt outcome).shortest

/-- A send of this beat begins at most `late` after its deadline. -/
def Punctual (late : ℕ) (s : Timed α) : Beat → Prop
  | .turn _ _ d => s.clock + d.look + d.hand ≤ s.pacer.nextTxUs + late
  | .rcvCb _ => True

instance decidablePunctual (late : ℕ) (s : Timed α) : (e : Beat) → Decidable (s.Punctual late e)
  | .turn _ _ _ => Nat.decLe _ _
  | .rcvCb _ => .isTrue trivial

theorem late_beats {late : ℕ} {s s' : Timed α} (h : ∀ x ∈ s.sends, x.at_ ≤ x.due + late)
    {sends : Bool} {e : Beat} (hbeats : s.Beats sends e s')
    (hpunctual : sends = true → s.Punctual late e) : ∀ x ∈ s'.sends, x.at_ ≤ x.due + late := by
  cases hbeats with
  | idle driver clock => exact h
  | sends driver clock registers outcome d hdue =>
    intro x hx
    rcases List.mem_append.mp hx with hold | hnew
    · exact h x hold
    · rw [List.mem_singleton.mp hnew]
      exact hpunctual rfl

theorem rateBounded_run {beat : Timed α → Beat → Timed α} {sends : Timed α → Beat → Bool}
    (hbeats : ∀ (s : Timed α) e, s.Beats (sends s e) e (beat s e)) {interval late : ℕ} {s : Timed α}
    (hpos : 0 < interval) (hs : s.Kept interval) (hfirst : s.sends = []) {es : List Beat}
    (h : Along beat (fun s e => sends s e = true → s.Punctual late e) s es) :
    RateBounded interval (late / interval + 2) (run beat s es).sends := by
  have halways := h.always (Q := fun s => s.Kept interval ∧ ∀ x ∈ s.sends, x.at_ ≤ x.due + late)
    ⟨hs, by simp [hfirst]⟩ fun s e hq hpunctual =>
      ⟨hq.1.beats (hbeats s e), late_beats hq.2 (hbeats s e) hpunctual⟩
  exact rateBounded_of_late hpos halways.last.1.paced halways.last.2

end Timed

namespace Initiator

def sends (s : Timed Initiator) : Beat → Bool
  | .turn _ _ d => s.due d && (s.driver.receive s.pacer.io).controlFrame.isSome
  | .rcvCb _ => false

theorem beats (s : Timed Initiator) (e : Beat) : s.Beats (sends s e) e (beat s e) := by
  cases e with
  | rcvCb r => exact .idle _ _ _
  | turn registers outcome d =>
    cases hsends : s.due d && (s.driver.receive s.pacer.io).controlFrame.isSome with
    | true =>
      simp only [sends, beat, turn, hsends, if_true]
      exact .sends _ _ _ _ _ (Bool.and_eq_true_iff.mp hsends).1
    | false =>
      simp only [sends, beat, turn, hsends]
      exact .idle _ _ _

end Initiator

namespace Responder

def sends (s : Timed Responder) : Beat → Bool
  | .turn registers _ d =>
    s.due d && (s.driver.receive s.pacer.io registers).reply.1.isSome
  | .rcvCb _ => false

theorem beats_offer (s : Timed Responder) (registers : Bool) (outcome : SendOutcome)
    (d : Delays) : s.Beats (sends s (.turn registers outcome d)) (.turn registers outcome d)
      (offer s registers outcome d) := by
  simp only [sends, offer]
  cases hdue : s.due d with
  | false => exact .idle _ _ _
  | true =>
    cases hreply : (s.driver.receive s.pacer.io registers).reply with
    | mk frame driver =>
      cases frame with
      | none => exact .idle _ _ _
      | some out => exact .sends _ _ _ _ _ hdue

theorem beats (s : Timed Responder) (e : Beat) : s.Beats (sends s e) e (beat s e) := by
  cases e with
  | rcvCb r => exact .idle _ _ _
  | turn registers outcome d =>
    have hoffer := beats_offer s registers outcome d
    simp only [beat, wait]
    split_ifs <;> exact hoffer.wait _ _

end Responder

namespace TimedSource

def sendsFlood (s : TimedSource) : Beat → Bool
  | .turn .. => s.driver.floodFrame.isSome
  | .rcvCb _ => false

def Punctual (late : ℕ) (s : TimedSource) : Beat → Prop
  | .turn _ _ d => s.clock + d.look + d.hand ≤ s.nextTxUs + late
  | .rcvCb _ => True

instance decidablePunctual (late : ℕ) (s : TimedSource) : (e : Beat) → Decidable (s.Punctual late e)
  | .turn _ _ _ => Nat.decLe _ _
  | .rcvCb _ => .isTrue trivial

structure Kept (interval : ℕ) (s : TimedSource) : Prop where
  cap : s.capIntervalUs = some interval
  paced : Paced interval s.nextTxUs s.sends
  due : s.nextTxUs ≤ s.clock

theorem Kept.beat {interval : ℕ} {s : TimedSource} (h : s.Kept interval) (e : Beat) :
    (s.beat e).Kept interval := by
  cases e with
  | rcvCb r => exact ⟨h.cap, h.paced, h.due⟩
  | turn registers outcome d =>
    cases hframe : s.driver.floodFrame.isSome with
    | false =>
      simp only [TimedSource.beat, turn, hframe]
      exact h
    | true =>
      simp only [TimedSource.beat, turn, hframe, if_true, h.cap]
      -- the wait lasts to the next deadline at least, so a frame is never sent ahead of its own
      refine ⟨rfl, ?_, ?_⟩
      · apply h.paced.take _ le_rfl
        have := h.due
        omega
      · dsimp only
        split_ifs <;> omega

theorem late_beat {interval late : ℕ} {s : TimedSource} (hkept : s.Kept interval)
    (h : ∀ x ∈ s.sends, x.at_ ≤ x.due + late) (e : Beat)
    (hpunctual : s.sendsFlood e = true → s.Punctual late e) :
    ∀ x ∈ (s.beat e).sends, x.at_ ≤ x.due + late := by
  cases e with
  | rcvCb r => exact h
  | turn registers outcome d =>
    cases hframe : s.driver.floodFrame.isSome with
    | false =>
      simp only [TimedSource.beat, turn, hframe]
      exact h
    | true =>
      simp only [TimedSource.beat, turn, hframe, if_true, hkept.cap]
      intro x hx
      rcases List.mem_append.mp hx with hold | hnew
      · exact h x hold
      · rw [List.mem_singleton.mp hnew]
        exact hpunctual hframe

end TimedSource

/-! ## The rate -/

def capInterval (freqHz : UInt16) : ℕ := 1000000 / max freqHz.toNat 1

theorem capInterval_pos (freqHz : UInt16) : 0 < capInterval freqHz := by
  have := freqHz.toNat_lt
  apply Nat.div_pos
  · omega
  · omega

namespace Initiator

theorem rateBounded {late : ℕ} (config : EspNowConfig) (node : Csi.Node)
    (frequencyHz : Option UInt16) (io : IOTaskConfig) (now : ℕ) {es : List Beat}
    (h : Along beat (fun s e => sends s e = true → s.Punctual late e)
      (startTimed config node frequencyHz io now) es) :
    RateBounded (startTimed config node frequencyHz io now).pacer.intervalUs
      (late / (startTimed config node frequencyHz io now).pacer.intervalUs + 2)
      (run beat (startTimed config node frequencyHz io now) es).sends :=
  Timed.rateBounded_run beats (Pacer.start_intervalUs_pos _ _ _ _ _)
    ⟨Pacer.respects_start _ _ _ _ _, paced_nil _ _⟩ rfl h

end Initiator

namespace Responder

theorem rateBounded {late : ℕ} (mac : Mac) (chip : Chip) (config : EspNowConfig) (rawListen : Bool)
    (node : Csi.Node) (frequencyHz : Option UInt16) (io : IOTaskConfig) (now : ℕ) {es : List Beat}
    (h : Along beat (fun s e => sends s e = true → s.Punctual late e)
      (startTimed mac chip config rawListen node frequencyHz io now) es) :
    RateBounded (startTimed mac chip config rawListen node frequencyHz io now).pacer.intervalUs
      (late / (startTimed mac chip config rawListen node frequencyHz io now).pacer.intervalUs + 2)
      (run beat (startTimed mac chip config rawListen node frequencyHz io now) es).sends :=
  Timed.rateBounded_run beats (Pacer.start_intervalUs_pos _ _ _ _ _)
    ⟨Pacer.respects_start _ _ _ _ _, paced_nil _ _⟩ rfl h

end Responder

namespace TimedSource

theorem rateBounded {late : ℕ} (driver : SimplexSource) (freqHz : UInt16) (now : ℕ)
    {es : List Beat}
    (h : Along beat (fun s e => s.sendsFlood e = true → s.Punctual late e)
      (startFlood driver (some freqHz) now) es) :
    RateBounded (capInterval freqHz) (late / capInterval freqHz + 2)
      (run beat (startFlood driver (some freqHz) now) es).sends := by
  have hstart : (startFlood driver (some freqHz) now).Kept (capInterval freqHz) :=
    ⟨rfl, paced_nil _ _, le_rfl⟩
  have hlate := (h.always
    (Q := fun s => s.Kept (capInterval freqHz) ∧ ∀ x ∈ s.sends, x.at_ ≤ x.due + late)
    ⟨hstart, by simp [startFlood]⟩ fun s e hq hpunctual =>
      ⟨hq.1.beat e, late_beat hq.1 hq.2 e hpunctual⟩).last
  exact rateBounded_of_late (capInterval_pos freqHz) hlate.1.paced hlate.2

end TimedSource

/-- The three loops keep to their rates, but for a constant that depends on `late` alone, in every
run whose sends begin at most `late` after their deadlines. -/
theorem rateBounded_of_punctual (late : ℕ) :
    (∀ (config : EspNowConfig) (node : Csi.Node) (frequencyHz : Option UInt16) (io : IOTaskConfig)
        (now : ℕ) (es : List Beat),
        Along Initiator.beat (fun s e => Initiator.sends s e = true → s.Punctual late e)
            (Initiator.startTimed config node frequencyHz io now) es →
          RateBounded (Initiator.startTimed config node frequencyHz io now).pacer.intervalUs
            (late / (Initiator.startTimed config node frequencyHz io now).pacer.intervalUs + 2)
            (run Initiator.beat (Initiator.startTimed config node frequencyHz io now) es).sends) ∧
      (∀ (mac : Mac) (chip : Chip) (config : EspNowConfig) (rawListen : Bool) (node : Csi.Node)
        (frequencyHz : Option UInt16) (io : IOTaskConfig) (now : ℕ) (es : List Beat),
        Along Responder.beat (fun s e => Responder.sends s e = true → s.Punctual late e)
            (Responder.startTimed mac chip config rawListen node frequencyHz io now) es →
          RateBounded
            (Responder.startTimed mac chip config rawListen node frequencyHz io now).pacer.intervalUs
            (late / (Responder.startTimed mac chip config rawListen node frequencyHz io
              now).pacer.intervalUs + 2)
            (run Responder.beat
              (Responder.startTimed mac chip config rawListen node frequencyHz io now) es).sends) ∧
      (∀ (driver : SimplexSource) (freqHz : UInt16) (now : ℕ) (es : List Beat),
        Along TimedSource.beat (fun s e => s.sendsFlood e = true → s.Punctual late e)
            (TimedSource.startFlood driver (some freqHz) now) es →
          RateBounded (capInterval freqHz) (late / capInterval freqHz + 2)
            (run TimedSource.beat (TimedSource.startFlood driver (some freqHz) now) es).sends) := by
  refine ⟨?_, ?_, ?_⟩
  · intro config node frequencyHz io now es h
    exact Initiator.rateBounded config node frequencyHz io now h
  · intro mac chip config rawListen node frequencyHz io now es h
    exact Responder.rateBounded mac chip config rawListen node frequencyHz io now h
  · intro driver freqHz now es h
    exact TimedSource.rateBounded driver freqHz now h

/-- A turn that looks at the clock `look` after its wake-up, and whose send succeeds in half a
millisecond. -/
def lookTurn (look : ℕ) : Beat := .turn true .ok ⟨look, 0, 500, 0⟩

/-- Three sends of each loop, all late but the first one of the source, none by more than one and a
half intervals. -/
theorem rateBounded_of_punctual_late :
    let initiator := run Initiator.beat
      (Initiator.startTimed .default .boot (some 100) ⟨true, true⟩ 0)
      [lookTurn 22000, lookTurn 0, lookTurn 0, lookTurn 12000]
    let responder := run Responder.beat
      (Responder.startTimed .zero .esp32 .default false .boot (some 100) ⟨true, true⟩ 0)
      [.rcvCb (Paired.controlFrame .zero 0), lookTurn 22000, .rcvCb (Paired.controlFrame .zero 1),
        lookTurn 0, .rcvCb (Paired.controlFrame .zero 2), lookTurn 12000]
    let source := run TimedSource.beat (.startFlood (.start ⟨some .zero, none, false⟩) (some 100) 0)
      [lookTurn 0, lookTurn 14000, lookTurn 0]
    (RateBounded 10000 3 initiator.sends ∧ initiator.sends.length = 3) ∧
      (RateBounded 10000 3 responder.sends ∧ responder.sends.length = 3) ∧
      RateBounded 10000 3 source.sends ∧ source.sends.length = 3 :=
  ⟨⟨(rateBounded_of_punctual 15000).1 .default .boot (some 100) ⟨true, true⟩ 0 _
      (by decide +kernel), by decide +kernel⟩,
    ⟨(rateBounded_of_punctual 15000).2.1 .zero .esp32 .default false .boot (some 100) ⟨true, true⟩ 0
      _ (by decide +kernel), by decide +kernel⟩,
    (rateBounded_of_punctual 15000).2.2 (.start ⟨some .zero, none, false⟩) 100 0 _
      (by decide +kernel), by decide +kernel⟩

/-! ## Loops that catch up -/

namespace Pacer

/-- The pacing is at its maximum rate, and stays there while its sends succeed. -/
structure Full (p : Pacer) (interval : ℕ) : Prop where
  io : p.io = ⟨true, true⟩
  adaptiveHz : p.adaptiveHz = p.hzMax
  fastest : hzToIntervalUs p.hzMax = interval
  intervalUs : p.intervalUs = interval

theorem Full.adapt_ok {p : Pacer} {interval : ℕ} (h : p.Full interval) :
    (p.adapt .ok).Full interval := by
  -- a step up from the maximum rate ends at the maximum rate
  have hmin : min (p.adaptiveHz + max (p.adaptiveHz * ADAPT_UP_PERCENT / 100) 1) p.hzMax =
      p.hzMax := by
    rw [h.adaptiveHz]
    omega
  simp only [Pacer.adapt, succeeded]
  split_ifs
  · exact ⟨h.io, hmin, h.fastest, by simp only [setHz, hmin, h.fastest]⟩
  · exact ⟨h.io, h.adaptiveHz, h.fastest, h.intervalUs⟩
  · exact ⟨h.io, hmin, h.fastest, by simp only [setHz, hmin, h.fastest]⟩
  · exact ⟨h.io, h.adaptiveHz, h.fastest, h.intervalUs⟩
  · exact h

theorem Full.sent_ok {p : Pacer} {interval : ℕ} (h : p.Full interval) :
    (p.sent .ok).Full interval :=
  ⟨h.adapt_ok.io, h.adapt_ok.adaptiveHz, h.adapt_ok.fastest, h.adapt_ok.intervalUs⟩

theorem full_start (floor ceiling frequencyHz now : ℕ) :
    (start floor ceiling frequencyHz ⟨true, true⟩ now).Full
      (hzToIntervalUs (min (max frequencyHz 1) ceiling)) :=
  ⟨rfl, rfl, rfl, rfl⟩

theorem waitUs_le (p : Pacer) (now : ℕ) : p.waitUs now ≤ TX_WAIT_SLICE_US := by
  simp only [waitUs, TX_WAIT_SLICE_US]
  omega

end Pacer

/-- A ready loop sends in a round like this as soon as a frame is due, and is ready again. -/
def Sends {α : Type} (round : ℕ → Timed α → Timed α) (ready : α → Prop) (interval : ℕ) : Prop :=
  ∀ look s, ready s.driver → s.pacer.Full interval → s.pacer.nextTxUs ≤ s.clock + look →
    ∃ driver wait, ready driver ∧ wait ≤ 100 ∧ round look s =
      { driver
        pacer := s.pacer.sent .ok
        clock := s.clock + look + 500 + wait
        sends := s.sends ++ [⟨s.pacer.nextTxUs, s.clock + look⟩] }

namespace Sends

variable {α : Type} {round : ℕ → Timed α → Timed α} {ready : α → Prop} {interval : ℕ}

theorem catchesUp (h : Sends round ready interval) :
    CatchesUp (round 0) (fun s => s.pacer.nextTxUs) Timed.clock Timed.sends
      (fun s => ready s.driver ∧ s.pacer.Full interval) interval 600 where
  stays := by
    intro s hs hbehind
    obtain ⟨driver, wait, hdriver, -, heq⟩ := h 0 s hs.1 hs.2 (by omega)
    rw [heq]
    exact ⟨hdriver, hs.2.sent_ok⟩
  advances := by
    intro s hs hbehind
    obtain ⟨driver, wait, -, -, heq⟩ := h 0 s hs.1 hs.2 (by omega)
    rw [heq]
    show (s.pacer.sent .ok).nextTxUs = s.pacer.nextTxUs + interval
    rw [Pacer.sent_nextTxUs, hs.2.adapt_ok.intervalUs]
  ticks := by
    intro s hs hbehind
    obtain ⟨driver, wait, -, hwait, heq⟩ := h 0 s hs.1 hs.2 (by omega)
    rw [heq]
    show s.clock ≤ s.clock + 0 + 500 + wait ∧ s.clock + 0 + 500 + wait ≤ s.clock + 600
    omega
  takes := by
    intro s hs hbehind
    obtain ⟨driver, wait, -, -, heq⟩ := h 0 s hs.1 hs.2 (by omega)
    rw [heq]
    exact ⟨_, rfl, le_rfl, Nat.le_add_right _ _⟩

theorem exceeds (h : Sends round ready interval) (hcost : 1200 ≤ interval) {s : Timed α}
    (hready : ready s.driver) (hfull : s.pacer.Full interval) (c : ℕ) :
    ∃ look, ¬ RateBounded interval c ((round 0)^[2 * c + 2] (round look s)).sends := by
  obtain ⟨driver, wait, hdriver, -, heq⟩ :=
    h (s.pacer.nextTxUs + (2 * c + 3) * interval) s hready hfull (by omega)
  refine ⟨s.pacer.nextTxUs + (2 * c + 3) * interval, ?_⟩
  rw [heq]
  apply h.catchesUp.exceeds hcost ⟨hdriver, hfull.sent_ok⟩
  show (s.pacer.sent .ok).nextTxUs + (2 * c + 2) * interval ≤
    s.clock + (s.pacer.nextTxUs + (2 * c + 3) * interval) + 500 + wait
  rw [Pacer.sent_nextTxUs, hfull.adapt_ok.intervalUs]
  have hsplit : (2 * c + 3) * interval = (2 * c + 2) * interval + interval := by ring
  omega

end Sends

namespace Initiator

theorem sends_lookTurn (interval : ℕ) :
    Sends (fun look s => run beat s [lookTurn look]) (fun _ => True) interval := by
  intro look s _ hfull hdue
  have hsends : sends s (lookTurn look) = true := by
    simp [sends, lookTurn, Timed.due, hfull.io, hdue, controlFrame_eq]
  have hio : (s.pacer.sent .ok).io = ⟨true, true⟩ := hfull.sent_ok.io
  refine ⟨(s.driver.receive s.pacer.io).beginSend.endSend (SendOutcome.ok == .ok), _, trivial,
    Pacer.waitUs_le (s.pacer.sent .ok) (s.clock + look + 500), ?_⟩
  simp only [sends, lookTurn] at hsends
  simp only [run_cons, run_nil, lookTurn, beat, turn, hsends, if_true, Timed.send, Timed.sleep,
    Pacer.backoffUs, hio, Nat.add_zero]

end Initiator

namespace Responder

theorem ingest_pendingFlag (s : Responder) (r : PoolFrame) (packet : ControlPacket)
    (registers : Bool) : (s.ingest r packet true registers).shared.pendingFlag = true := by
  simp only [ingest, if_true, followReporting_eq_promotes, connect]
  split_ifs <;> rfl

theorem ingest_fixed (s : Responder) (r : PoolFrame) (packet : ControlPacket) :
    (s.ingest r packet true true).pool = s.pool ∧
      (s.ingest r packet true true).rawListen = s.rawListen ∧
      (s.ingest r packet true true).config = s.config := by
  simp only [ingest, if_true, followReporting_eq_promotes]
  obtain ⟨rx, shared, heq⟩ :=
    connect_eq ((s.sound packet r.nth).countSequence packet) r.srcAddress true
  rw [heq]
  exact ⟨rfl, rfl, rfl⟩

/-- The responder's queue is empty, and it takes in the frame `r` in auto pairing. -/
structure Awaits (r : PoolFrame) (s : Responder) : Prop where
  idle : s.pool = .empty false
  hears : s.rawListen = false
  same : s.shared.isConnected = true → s.shared.initiatorMac = r.srcAddress
  parses : (parseWithMagic controlPacketCodec r.data INITIATOR_MAGIC_NUMBER
    s.config.peerMac.isNone).isSome = true

theorem Awaits.accepts {r : PoolFrame} {s : Responder} (h : s.Awaits r) :
    (s.accepts r).isSome = true := by
  have hsame : ¬ (s.shared.isConnected ∧ s.shared.initiatorMac ≠ r.srcAddress) :=
    fun hother => hother.2 (h.same hother.1)
  rw [Responder.accepts, h.hears, if_neg Bool.false_ne_true, if_neg hsame]
  exact h.parses

theorem Awaits.answer {r : PoolFrame} {s : Responder} (h : s.Awaits r) (hdata : r.data ≠ [])
    (hshort : r.data.length ≤ ESP_NOW_MAX_DATA_LEN) :
    ∃ out driver, ({ s with pool := s.pool.rcvCb r }.ingestNext true).reply = (some out, driver) ∧
      driver.shared.pendingFlag = false ∧ driver.Awaits r := by
  obtain ⟨packet, haccepts⟩ := Option.isSome_iff_exists.mp h.accepts
  have hdrain : (s.pool.rcvCb r).drain RX_BURST_MAX_WITH_TX = ([r], s.pool) := by
    simp [h.idle, Pool.rcvCb, Pool.empty, POOL_CAPACITY, hdata, Pool.drain, RX_BURST_MAX_WITH_TX,
      List.take_of_length_le hshort]
  have hnext : { s with pool := s.pool.rcvCb r }.ingestNext true = s.ingest r packet true true := by
    simp only [ingestNext, hdrain, List.foldl_cons, List.foldl_nil]
    exact ingestControlPacket_of_accepts haccepts true true
  have hlocked := lockedOn_of_ingest haccepts
  rw [hnext]
  obtain ⟨data, hout⟩ : ∃ data, (s.ingest r packet true true).replyData = some data :=
    ⟨_, replyData_eq _⟩
  refine ⟨((s.ingest r packet true true).replyDestination, data),
    { s.ingest r packet true true with
      shared := { (s.ingest r packet true true).shared with pendingFlag := false } }, ?_, rfl, ?_⟩
  · rw [reply, if_pos ⟨hlocked.1, ingest_pendingFlag s r packet true⟩, hout]
    rfl
  · obtain ⟨hpool, hraw, hconfig⟩ := ingest_fixed s r packet
    refine ⟨hpool.trans h.idle, hraw.trans h.hears, fun _ => hlocked.2, ?_⟩
    show (parseWithMagic controlPacketCodec r.data INITIATOR_MAGIC_NUMBER
      (s.ingest r packet true true).config.peerMac.isNone).isSome = true
    rw [hconfig]
    exact h.parses

theorem sends_lookTurn (interval : ℕ) {r : PoolFrame} (hdata : r.data ≠ [])
    (hshort : r.data.length ≤ ESP_NOW_MAX_DATA_LEN) :
    Sends (fun look s => run beat s [.rcvCb r, lookTurn look]) (Awaits r) interval := by
  intro look s hawaits hfull hdue
  obtain ⟨out, driver, hanswer, hpending, hnext⟩ := hawaits.answer hdata hshort
  have hreceive : ({ s.driver with pool := s.driver.pool.rcvCb r }.receive s.pacer.io true).reply =
      (some out, driver) := by
    rw [receive, hfull.io]
    exact hanswer
  have hturn : Timed.due { s with driver := { s.driver with pool := s.driver.pool.rcvCb r } }
      ⟨look, 0, 500, 0⟩ = true := by
    simp [Timed.due, hfull.io, hdue]
  have hio : (s.pacer.sent .ok).io = ⟨true, true⟩ := hfull.sent_ok.io
  refine ⟨driver, 1, hnext, by decide, ?_⟩
  simp only [run_cons, run_nil, lookTurn, beat, offer, hturn, if_true, hreceive, wait, Timed.send,
    Timed.sleep, hio, hpending, Pacer.backoffUs, Nat.add_zero, Bool.not_true, Bool.false_and,
    Bool.and_false, Bool.false_eq_true, if_false]

end Responder

namespace TimedSource

structure Floods (interval : ℕ) (s : TimedSource) : Prop where
  cap : s.capIntervalUs = some interval
  found : s.driver.peerAddr.isSome = true
  greeted : s.driver.greeted = true

theorem Floods.floodFrame_isSome {interval : ℕ} {s : TimedSource} (h : s.Floods interval) :
    s.driver.floodFrame.isSome = true := by
  have hfits : 4 + controlPacketCodec.maxSize ≤ FLOOD_BUF_LEN := by decide
  obtain ⟨peer, hpeer⟩ := Option.isSome_iff_exists.mp h.found
  simp only [SimplexSource.floodFrame, hpeer, h.greeted]
  rw [serializeWithMagic_fits _ _ _ _ hfits]
  rfl

theorem Floods.beat_behind {interval : ℕ} {s : TimedSource} (h : s.Floods interval) {look : ℕ}
    (hbehind : s.nextTxUs + interval ≤ s.clock + look) : s.beat (lookTurn look) =
      { s with
        driver := s.driver.endFlood true
        nextTxUs := s.nextTxUs + interval
        clock := s.clock + look + 500
        sends := s.sends ++ [⟨s.nextTxUs, s.clock + look⟩] } := by
  have hlate : ¬ s.clock + look + 500 < s.nextTxUs + interval := by omega
  simp only [lookTurn, beat, turn, h.floodFrame_isSome, if_true, h.cap, Nat.add_zero, reduceCtorEq,
    if_false, if_neg hlate]
  rfl

theorem catchesUp (interval : ℕ) :
    CatchesUp (fun s => run beat s [lookTurn 0]) nextTxUs clock sends (Floods interval) interval
      500 where
  stays := by
    intro s hs hbehind
    rw [run_cons, run_nil, hs.beat_behind hbehind]
    exact ⟨hs.cap, hs.found, hs.greeted⟩
  advances := by
    intro s hs hbehind
    rw [run_cons, run_nil, hs.beat_behind hbehind]
  ticks := by
    intro s hs hbehind
    rw [run_cons, run_nil, hs.beat_behind hbehind]
    exact ⟨Nat.le_add_right _ _, le_rfl⟩
  takes := by
    intro s hs hbehind
    rw [run_cons, run_nil, hs.beat_behind hbehind]
    exact ⟨_, rfl, le_rfl, Nat.le_add_right _ _⟩

theorem Floods.exceeds {interval : ℕ} {s : TimedSource} (h : s.Floods interval)
    (hcost : 1000 ≤ interval) (c : ℕ) :
    ∃ look, ¬ RateBounded interval c
      ((fun s => run beat s [lookTurn 0])^[2 * c + 2] (s.beat (lookTurn look))).sends := by
  have hsplit : (2 * c + 3) * interval = (2 * c + 2) * interval + interval := by ring
  have hbehind : s.nextTxUs + interval ≤ s.clock + (s.nextTxUs + (2 * c + 3) * interval) := by omega
  have hready : (s.beat (lookTurn (s.nextTxUs + (2 * c + 3) * interval))).Floods interval := by
    rw [h.beat_behind hbehind]
    exact ⟨h.cap, h.found, h.greeted⟩
  refine ⟨s.nextTxUs + (2 * c + 3) * interval, ?_⟩
  apply (catchesUp interval).exceeds hcost hready
  rw [h.beat_behind hbehind]
  show s.nextTxUs + interval + (2 * c + 2) * interval ≤
    s.clock + (s.nextTxUs + (2 * c + 3) * interval) + 500
  omega

end TimedSource

/-- At 100 frames a second, each of the loops exceeds every constant when it catches up with a
stall. -/
theorem not_rateBounded :
    (∀ c, ∃ es, ¬ RateBounded 10000 c (run Initiator.beat
        (Initiator.startTimed .default .boot (some 100) ⟨true, true⟩ 0) es).sends) ∧
      (∀ c, ∃ es, ¬ RateBounded 10000 c (run Responder.beat
        (Responder.startTimed .zero .esp32 .default false .boot (some 100) ⟨true, true⟩ 0)
          es).sends) ∧
      (∀ c, ∃ es, ¬ RateBounded 10000 c (run TimedSource.beat
        (.startFlood (.start ⟨some .zero, none, false⟩) (some 100) 0) es).sends) := by
  have hinterval : hzToIntervalUs (min (max 100 1) 8000) = 10000 := by decide
  refine ⟨?_, ?_, ?_⟩
  · intro c
    obtain ⟨look, hexceeds⟩ := (Initiator.sends_lookTurn 10000).exceeds (by decide)
      (s := Initiator.startTimed .default .boot (some 100) ⟨true, true⟩ 0) trivial
      (hinterval ▸ Pacer.full_start _ _ _ _) c
    refine ⟨[lookTurn look] ++ (List.replicate (2 * c + 2) [lookTurn 0]).flatten, ?_⟩
    rw [run_append, run_flatten_replicate]
    exact hexceeds
  · intro c
    obtain ⟨look, hexceeds⟩ := (Responder.sends_lookTurn 10000 (r := Paired.controlFrame .zero 0)
      (by decide) (by decide)).exceeds (by decide)
      (s := Responder.startTimed .zero .esp32 .default false .boot (some 100) ⟨true, true⟩ 0)
      ⟨rfl, rfl, nofun, by decide⟩ (hinterval ▸ Pacer.full_start _ _ _ _) c
    refine ⟨[.rcvCb (Paired.controlFrame .zero 0), lookTurn look] ++
      (List.replicate (2 * c + 2) [.rcvCb (Paired.controlFrame .zero 0), lookTurn 0]).flatten, ?_⟩
    rw [run_append, run_flatten_replicate]
    exact hexceeds
  · intro c
    have hfloods : (TimedSource.startFlood (.start ⟨some .zero, none, false⟩) (some 100) 0).Floods
        10000 := ⟨rfl, rfl, rfl⟩
    obtain ⟨look, hexceeds⟩ := hfloods.exceeds (by decide) c
    refine ⟨[lookTurn look] ++ (List.replicate (2 * c + 2) [lookTurn 0]).flatten, ?_⟩
    rw [run_append, run_flatten_replicate]
    exact hexceeds

end EspCsi.EspNow
