import EspCsi.Stop

/-!
# The station's association

`run_sta_connect` and the `sta_connection` that it ends in: the first association with its settling
time, its timeout and its recovery, and the re-association after the link was lost. The task is
polled at the await it rests at; what follows that await is polled next, at once or later.
-/

namespace EspCsi.Wifi

open Transition

/-! ## The task -/

def SETTLE_US : ℕ := 2000000

def CONNECT_TIMEOUT_US : ℕ := 10000000

def FAILURES_BEFORE_RADIO_CYCLE : ℕ := 1

def RADIO_CYCLE_US : ℕ := 300000

def RETRY_US : ℕ := 1000000

/-- What the task asks of the radio, and what it learns about the link. -/
inductive StaAct where
  | connect
  | associated
  | failed
  | timedOut
  | disconnect
  | setCsi
  | lost
deriving DecidableEq, Repr

/-- The await that the task rests at. `asked` once the radio has been asked to connect. -/
inductive StaPhase where
  | settle (wakeUs : ℕ)
  | connect (timeoutUs : ℕ) (asked : Bool)
  | disconnect
  | radioCycle (wakeUs : ℕ)
  | connectRetry (wakeUs : ℕ)
  | staDisconnected
  | reconnect (asked : Bool)
  | reconnectRetry (wakeUs : ℕ)
  | returned
deriving DecidableEq, Repr

/-- The task, with the stop signal and what it did so far, each with its time. -/
structure StaTask where
  phase : StaPhase
  nowUs : ℕ
  consecutiveFailures : ℕ := 0
  signal : Bool := false
  acts : List (StaAct × ℕ) := []
deriving Repr

/-- A poll comes some time after the last one, and finds the radio's answer or none. -/
inductive StaEvent where
  | sendStop
  | poll (elapsedUs : ℕ) (radio : Option (Except Unit Unit))

namespace StaTask

def start (nowUs : ℕ) : StaTask where
  phase := .settle (nowUs + SETTLE_US)
  nowUs

def act (s : StaTask) (a : StaAct) : StaTask := { s with acts := s.acts ++ [(a, s.nowUs)] }

def goto (s : StaTask) (phase : StaPhase) : StaTask := { s with phase }

def sleep (s : StaTask) (wakeUs : ℕ) (next : StaPhase) : StaTask :=
  if s.signal then s.goto .returned else if wakeUs ≤ s.nowUs then s.goto next else s

def ask (s : StaTask) (asked : Bool) : StaTask := if asked then s else s.act .connect

/-- The link is up. The capture callback is registered again. -/
def arrive (s : StaTask) (rxEnabled : Bool) : StaTask :=
  let s := s.act .associated
  (if rxEnabled then s.act .setCsi else s).goto .staDisconnected

def fail (s : StaTask) (kind : StaAct) : StaTask :=
  (({ s with consecutiveFailures := min 255 (s.consecutiveFailures + 1) }.act kind).act
    .disconnect).goto .disconnect

def connectNext (s : StaTask) : StaPhase := .connect (s.nowUs + CONNECT_TIMEOUT_US) false

def connectRetryNext (s : StaTask) : StaPhase := .connectRetry (s.nowUs + RETRY_US)

def pollPhase (rxEnabled : Bool) (s : StaTask) (radio : Option (Except Unit Unit)) : StaTask :=
  match s.phase with
  | .settle wakeUs => s.sleep wakeUs s.connectNext
  | .connect timeoutUs asked =>
    if s.signal then s.goto .returned
    else
      let s := s.ask asked
      match radio with
      | some (.ok _) => s.arrive rxEnabled
      | some (.error _) => s.fail .failed
      | none => if timeoutUs ≤ s.nowUs then s.fail .timedOut else s.goto (.connect timeoutUs true)
  -- from here to the end of the radio cycle the signal is not looked at
  | .disconnect =>
    match radio with
    | none => s
    | some _ =>
      if FAILURES_BEFORE_RADIO_CYCLE ≤ s.consecutiveFailures then
        (s.act .setCsi).goto (.radioCycle (s.nowUs + RADIO_CYCLE_US))
      else s.goto s.connectRetryNext
  | .radioCycle wakeUs =>
    if wakeUs ≤ s.nowUs then { s with consecutiveFailures := 0 }.goto s.connectRetryNext else s
  | .connectRetry wakeUs => s.sleep wakeUs s.connectNext
  | .staDisconnected =>
    if s.signal then s.goto .returned
    else
      match radio with
      | none => s
      | some _ => (s.act .lost).goto (.reconnect false)
  | .reconnect asked =>
    if s.signal then s.goto .returned
    else
      let s := s.ask asked
      match radio with
      | some (.ok _) => s.arrive rxEnabled
      | some (.error _) => (s.act .failed).goto (.reconnectRetry (s.nowUs + RETRY_US))
      | none => s.goto (.reconnect true)
  | .reconnectRetry wakeUs => s.sleep wakeUs (.reconnect false)
  | .returned => s

def step (rxEnabled : Bool) (s : StaTask) : StaEvent → StaTask
  | .sendStop => { s with signal := true }
  | .poll elapsedUs radio => { s with nowUs := s.nowUs + elapsedUs }.pollPhase rxEnabled radio

end StaTask

/-! ## What the task did -/

variable {rxEnabled : Bool} {startUs : ℕ} {acts : List (StaAct × ℕ)} {x : StaAct × ℕ} {t : ℕ}

def wasAssociated (acts : List (StaAct × ℕ)) : Bool := acts.any fun x => x.1 == .associated

/-- The radio was asked to connect at `t`, and did not associate since. -/
def Waiting (acts : List (StaAct × ℕ)) (t : ℕ) : Prop :=
  ∃ before after, acts = before ++ (.connect, t) :: after ∧ ∀ x ∈ after, x.1 ≠ .associated

/-- Attempts at the first association are further apart: the radio is cycled between them. -/
def attemptGapUs (acts : List (StaAct × ℕ)) : ℕ :=
  if wasAssociated acts then RETRY_US else RADIO_CYCLE_US + RETRY_US

/-- A first attempt has just failed. -/
def FailedFirst (acts : List (StaAct × ℕ)) (t : ℕ) : Prop :=
  wasAssociated acts = false ∧
    (acts.getLast? = some (.failed, t) ∨ acts.getLast? = some (.timedOut, t))

/-- What may come after `acts`. -/
structure Allowed (rxEnabled : Bool) (startUs : ℕ) (acts : List (StaAct × ℕ))
    (x : StaAct × ℕ) : Prop where
  /-- An association is at once followed by a registration. -/
  armed : rxEnabled = true → ∀ t, acts.getLast? = some (.associated, t) → x = (.setCsi, t)
  settled : x.1 = .connect → startUs + SETTLE_US ≤ x.2
  spaced : x.1 = .connect → ∀ t, Waiting acts t → t + attemptGapUs acts ≤ x.2
  /-- A failed first attempt is at once followed by a disconnection. -/
  cleaned : ∀ t, FailedFirst acts t → x = (.disconnect, t)
  /-- The radio is not asked for more, after a failure, before it has been recovered. -/
  recovered : ∀ t, acts.getLast? = some (.disconnect, t) → x.1 = .setCsi
  /-- The callback is registered after an association, or to recover from a failed one. -/
  setCsi : x.1 = .setCsi → (∃ t, acts.getLast? = some (.disconnect, t)) ∨
    rxEnabled = true ∧ acts.getLast? = some (.associated, x.2)
  /-- Only attempts at the first association are recovered from. -/
  disconnect : x.1 = .disconnect → FailedFirst acts x.2

/-- Everything was done when it was allowed. -/
def Lawful (rxEnabled : Bool) (startUs : ℕ) (acts : List (StaAct × ℕ)) : Prop :=
  ∀ before x, before ++ [x] <+: acts → Allowed rxEnabled startUs before x

theorem waiting_concat :
    Waiting (acts ++ [x]) t ↔ x = (.connect, t) ∨ x.1 ≠ .associated ∧ Waiting acts t := by
  constructor
  · rintro ⟨before, after, heq, hafter⟩
    rcases List.eq_nil_or_concat' after with rfl | ⟨after, y, rfl⟩
    · left
      simpa using (List.append_inj' heq rfl).2
    · rw [← List.cons_append, ← List.append_assoc] at heq
      obtain ⟨hacts, hlast⟩ := List.append_inj' heq rfl
      obtain rfl : x = y := by simpa using hlast
      refine .inr ⟨hafter x (by simp), before, after, hacts, fun z hz => hafter z ?_⟩
      exact List.mem_append_left _ hz
  · rintro (rfl | ⟨hx, before, after, rfl, hafter⟩)
    · exact ⟨acts, [], rfl, by simp⟩
    · refine ⟨before, after ++ [x], by simp, fun z hz => ?_⟩
      rcases List.mem_append.mp hz with hz | hz
      · exact hafter z hz
      · rwa [List.mem_singleton.mp hz]

theorem wasAssociated_concat :
    wasAssociated (acts ++ [x]) = (wasAssociated acts || x.1 == .associated) := by
  simp [wasAssociated]

/-- The next attempt is far enough from the last one at `u`. -/
def Due (acts : List (StaAct × ℕ)) (u : ℕ) : Prop := ∀ t, Waiting acts t → t + attemptGapUs acts ≤ u

theorem Due.mono {u u' : ℕ} (h : Due acts u) (hle : u ≤ u') : Due acts u' :=
  fun t ht => (h t ht).trans hle

theorem attemptGapUs_concat (hx : x.1 ≠ .associated) :
    attemptGapUs (acts ++ [x]) = attemptGapUs acts := by
  rw [attemptGapUs, wasAssociated_concat, beq_false_of_ne hx, Bool.or_false]
  rfl

theorem Due.concat {u : ℕ} (h : Due acts u) (hconnect : x.1 ≠ .connect) (hx : x.1 ≠ .associated) :
    Due (acts ++ [x]) u := by
  intro t ht
  rw [attemptGapUs_concat hx]
  rcases waiting_concat.mp ht with rfl | ⟨-, ht⟩
  · exact absurd rfl hconnect
  · exact h t ht

theorem Due.connect (h : Due acts t) : Due (acts ++ [(.connect, t)]) (t + attemptGapUs acts) := by
  intro t' ht'
  rw [attemptGapUs_concat (by simp)]
  rcases waiting_concat.mp ht' with heq | ⟨-, ht'⟩
  · cases heq
    exact le_rfl
  · exact (h t' ht').trans (Nat.le_add_right t _)

theorem due_arrive (rxEnabled : Bool) (acts : List (StaAct × ℕ)) (t u : ℕ) :
    Due (acts ++ (.associated, t) :: if rxEnabled then [(.setCsi, t)] else []) u := by
  have hnone : ∀ t', ¬ Waiting (acts ++ [(.associated, t)]) t' := by
    intro t' ht'
    rcases waiting_concat.mp ht' with heq | ⟨hne, -⟩
    · cases heq
    · exact hne rfl
  intro t' ht'
  cases rxEnabled with
  | false => exact absurd ht' (hnone t')
  | true =>
    rw [if_pos rfl, ← List.singleton_append, ← List.append_assoc] at ht'
    rcases waiting_concat.mp ht' with heq | ⟨-, ht'⟩
    · cases heq
    · exact absurd ht' (hnone t')

theorem Lawful.concat (h : Lawful rxEnabled startUs acts) (hx : Allowed rxEnabled startUs acts x) :
    Lawful rxEnabled startUs (acts ++ [x]) := by
  intro before y hpre
  rcases List.prefix_concat_iff.mp hpre with heq | hpre
  · obtain ⟨rfl, hlast⟩ := List.append_inj' heq rfl
    obtain rfl : y = x := by simpa using hlast
    exact hx
  · exact h before y hpre

/-- What was done, when the task is polled: no association is left without its registration, and no
failed first attempt without its disconnection. -/
structure Recorded (rxEnabled : Bool) (startUs : ℕ) (acts : List (StaAct × ℕ)) : Prop where
  lawful : Lawful rxEnabled startUs acts
  armed : rxEnabled = true → ∀ t, acts.getLast? ≠ some (.associated, t)
  cleaned : ∀ t, ¬ FailedFirst acts t

/-- No disconnection is under way. -/
def Recovered (acts : List (StaAct × ℕ)) : Prop := ∀ t, acts.getLast? ≠ some (.disconnect, t)

theorem recovered_concat (h : x.1 ≠ .disconnect) : Recovered (acts ++ [x]) := by
  intro t hlast
  rw [List.getLast?_concat] at hlast
  exact h (congrArg Prod.fst (Option.some.inj hlast))

theorem not_failedFirst_concat (h : x.1 ≠ .failed) (h' : x.1 ≠ .timedOut) (t : ℕ) :
    ¬ FailedFirst (acts ++ [x]) t := by
  rintro ⟨-, hlast | hlast⟩
  · rw [List.getLast?_concat] at hlast
    exact h (congrArg Prod.fst (Option.some.inj hlast))
  · rw [List.getLast?_concat] at hlast
    exact h' (congrArg Prod.fst (Option.some.inj hlast))

theorem not_failedFirst_of_associated (h : wasAssociated acts = true) (t : ℕ) :
    ¬ FailedFirst acts t := by
  rintro ⟨hnone, -⟩
  rw [h] at hnone
  cases hnone

namespace Recorded

theorem concat (h : Recorded rxEnabled startUs acts) (hx : Allowed rxEnabled startUs acts x)
    (hne : x.1 ≠ .associated) (hcleaned : ∀ t, ¬ FailedFirst (acts ++ [x]) t) :
    Recorded rxEnabled startUs (acts ++ [x]) := by
  refine ⟨h.lawful.concat hx, fun _ t hlast => hne ?_, hcleaned⟩
  rw [List.getLast?_concat] at hlast
  rw [Option.some.inj hlast]

theorem connect (h : Recorded rxEnabled startUs acts) (hrecovered : Recovered acts)
    (hsettled : startUs + SETTLE_US ≤ t) (hdue : Due acts t) :
    Recorded rxEnabled startUs (acts ++ [(.connect, t)]) := by
  refine h.concat ?_ (by simp) (not_failedFirst_concat (by simp) (by simp))
  exact ⟨fun hrx t hlast => absurd hlast (h.armed hrx t), fun _ => hsettled, fun _ => hdue,
    fun t hfailed => absurd hfailed (h.cleaned t), fun t hlast => absurd hlast (hrecovered t),
    by simp, by simp⟩

theorem report (h : Recorded rxEnabled startUs acts) (hrecovered : Recovered acts)
    (hsome : wasAssociated acts = true) {a : StaAct} (ha : a = .failed ∨ a = .lost) :
    Recorded rxEnabled startUs (acts ++ [(a, t)]) := by
  have hne : a ≠ .connect ∧ a ≠ .setCsi ∧ a ≠ .disconnect ∧ a ≠ .associated := by
    rcases ha with rfl | rfl <;> simp
  have hstill : wasAssociated (acts ++ [(a, t)]) = true := by
    rw [wasAssociated_concat, hsome, Bool.true_or]
  refine h.concat ?_ hne.2.2.2 (not_failedFirst_of_associated hstill)
  exact ⟨fun hrx t hlast => absurd hlast (h.armed hrx t), fun hx => absurd hx hne.1,
    fun hx => absurd hx hne.1, fun t hfailed => absurd hfailed (h.cleaned t),
    fun t hlast => absurd hlast (hrecovered t), fun hx => absurd hx hne.2.1,
    fun hx => absurd hx hne.2.2.1⟩

theorem fail (h : Recorded rxEnabled startUs acts) (hrecovered : Recovered acts)
    (hnone : wasAssociated acts = false) {kind : StaAct}
    (hkind : kind = .failed ∨ kind = .timedOut) :
    Recorded rxEnabled startUs (acts ++ [(kind, t)] ++ [(.disconnect, t)]) := by
  have hne : kind ≠ .connect ∧ kind ≠ .setCsi ∧ kind ≠ .disconnect ∧ kind ≠ .associated := by
    rcases hkind with rfl | rfl <;> simp
  have hlast : (acts ++ [(kind, t)]).getLast? = some (kind, t) := List.getLast?_concat
  have hfailed : Lawful rxEnabled startUs (acts ++ [(kind, t)]) :=
    h.lawful.concat ⟨fun hrx t hlast => absurd hlast (h.armed hrx t), fun hx => absurd hx hne.1,
      fun hx => absurd hx hne.1, fun t hfailed => absurd hfailed (h.cleaned t),
      fun t hlast => absurd hlast (hrecovered t), fun hx => absurd hx hne.2.1,
      fun hx => absurd hx hne.2.2.1⟩
  have hfirst : FailedFirst (acts ++ [(kind, t)]) t := by
    refine ⟨?_, ?_⟩
    · rw [wasAssociated_concat, hnone, beq_false_of_ne hne.2.2.2]
      rfl
    · rw [hlast]
      rcases hkind with rfl | rfl
      · exact .inl rfl
      · exact .inr rfl
  have hdisconnect : Allowed rxEnabled startUs (acts ++ [(kind, t)]) (.disconnect, t) := by
    refine ⟨fun _ t' hother => ?_, by simp, by simp, fun t' hother => ?_, fun t' hother => ?_,
      by simp, fun _ => hfirst⟩
    · rw [hlast] at hother
      exact absurd (congrArg Prod.fst (Option.some.inj hother)) hne.2.2.2
    · obtain ⟨-, hother⟩ := hother
      rw [hlast] at hother
      rcases hother with hother | hother <;> rw [(Prod.mk.inj (Option.some.inj hother)).2]
    · rw [hlast] at hother
      exact absurd (congrArg Prod.fst (Option.some.inj hother)) hne.2.2.1
  refine ⟨hfailed.concat hdisconnect, fun _ t' hother => ?_,
    not_failedFirst_concat (by simp) (by simp)⟩
  simp at hother

/-- The registration that recovers from a failed attempt does not ask whether RX is enabled. -/
theorem recover (h : Recorded rxEnabled startUs acts) {t' : ℕ}
    (hlast : acts.getLast? = some (.disconnect, t')) :
    Recorded rxEnabled startUs (acts ++ [(.setCsi, t)]) := by
  refine h.concat ?_ (by simp) (not_failedFirst_concat (by simp) (by simp))
  exact ⟨fun hrx t hlast => absurd hlast (h.armed hrx t), by simp, by simp,
    fun t hfailed => absurd hfailed (h.cleaned t), fun _ _ => rfl, fun _ => .inl ⟨t', hlast⟩,
    by simp⟩

theorem arrive (h : Recorded rxEnabled startUs acts) (hrecovered : Recovered acts) :
    Recorded rxEnabled startUs
      (acts ++ (.associated, t) :: if rxEnabled then [(.setCsi, t)] else []) := by
  have hassociated : Lawful rxEnabled startUs (acts ++ [(.associated, t)]) :=
    h.lawful.concat ⟨fun hrx t hlast => absurd hlast (h.armed hrx t), by simp, by simp,
      fun t hfailed => absurd hfailed (h.cleaned t), fun t hlast => absurd hlast (hrecovered t),
      by simp, by simp⟩
  have hcleaned : ∀ t', ¬ FailedFirst (acts ++ [(.associated, t)]) t' :=
    not_failedFirst_concat (by simp) (by simp)
  cases hrx : rxEnabled with
  | false =>
    subst hrx
    exact ⟨hassociated, by simp, hcleaned⟩
  | true =>
    subst hrx
    have hsetCsi : Allowed true startUs (acts ++ [(.associated, t)]) (.setCsi, t) := by
      refine ⟨fun _ t' hlast => ?_, by simp, by simp, fun t' hfailed => absurd hfailed (hcleaned t'),
        fun _ _ => rfl, fun _ => .inr ⟨rfl, List.getLast?_concat⟩, by simp⟩
      rw [List.getLast?_concat] at hlast
      cases hlast
      rfl
    have hboth := hassociated.concat hsetCsi
    have hclean : ∀ t', ¬ FailedFirst (acts ++ [(.associated, t)] ++ [(.setCsi, t)]) t' :=
      not_failedFirst_concat (by simp) (by simp)
    rw [List.append_assoc] at hboth hclean
    refine ⟨hboth, fun _ t' hlast => ?_, hclean⟩
    simp at hlast

end Recorded

/-! ## Where the task rests -/

namespace StaTask

/-- The next attempt comes no earlier, should the one that is waited for fail now. -/
def notBefore (s : StaTask) : Option ℕ :=
  match s.phase with
  | .settle wakeUs | .connectRetry wakeUs | .reconnectRetry wakeUs => some wakeUs
  | .connect _ asked => some (if asked then s.nowUs + (RADIO_CYCLE_US + RETRY_US) else s.nowUs)
  | .disconnect => some (s.nowUs + (RADIO_CYCLE_US + RETRY_US))
  | .radioCycle wakeUs => some (wakeUs + RETRY_US)
  | .staDisconnected => some s.nowUs
  | .reconnect asked => some (if asked then s.nowUs + RETRY_US else s.nowUs)
  | .returned => none

/-- What brought the task to the await it rests at. -/
def Place (s : StaTask) : Prop :=
  match s.phase with
  | .settle _ | .radioCycle _ | .connectRetry _ => wasAssociated s.acts = false
  | .connect timeoutUs false =>
    wasAssociated s.acts = false ∧ timeoutUs ≤ s.nowUs + CONNECT_TIMEOUT_US
  | .connect timeoutUs true => wasAssociated s.acts = false ∧
      ∃ t, s.acts.getLast? = some (.connect, t) ∧ timeoutUs ≤ t + CONNECT_TIMEOUT_US
  | .disconnect => wasAssociated s.acts = false ∧
      FAILURES_BEFORE_RADIO_CYCLE ≤ s.consecutiveFailures ∧
        ∃ t, s.acts.getLast? = some (.disconnect, t)
  | .staDisconnected | .reconnect _ | .reconnectRetry _ => wasAssociated s.acts = true
  | .returned => True

/-- When the task was, or will be, past its settling time. -/
def settledUs (s : StaTask) : Option ℕ :=
  match s.phase with
  | .settle wakeUs => some wakeUs
  | .returned => none
  | _ => some s.nowUs

structure Inv (rxEnabled : Bool) (startUs : ℕ) (s : StaTask) : Prop where
  recorded : Recorded rxEnabled startUs s.acts
  settled : ∀ u ∈ s.settledUs, startUs + SETTLE_US ≤ u
  due : ∀ u ∈ s.notBefore, Due s.acts u
  recovered : s.phase ≠ .disconnect → Recovered s.acts
  place : s.Place

variable {s : StaTask}

theorem inv_start (rxEnabled : Bool) (startUs : ℕ) : Inv rxEnabled startUs (start startUs) where
  recorded := by
    refine ⟨fun before x hpre => ?_, by simp [start], by simp [start, FailedFirst]⟩
    simp [start] at hpre
  settled := by
    intro u hu
    obtain rfl : startUs + SETTLE_US = u := by simpa [settledUs, start] using hu
    exact le_rfl
  due := by
    rintro u - t ⟨before, after, heq, -⟩
    simp [start] at heq
  recovered := by
    intro _ t hlast
    simp [start] at hlast
  place := rfl

theorem Inv.advance (h : Inv rxEnabled startUs s) (elapsedUs : ℕ) :
    Inv rxEnabled startUs { s with nowUs := s.nowUs + elapsedUs } where
  recorded := h.recorded
  settled := by
    have hlater : ∀ u ∈ settledUs { s with nowUs := s.nowUs + elapsedUs },
        ∃ u' ∈ s.settledUs, u' ≤ u := by
      simp only [settledUs]
      cases s.phase <;> simp
    intro u hu
    obtain ⟨u', hu', hle⟩ := hlater u hu
    exact (h.settled u' hu').trans hle
  due := by
    have hlater : ∀ u ∈ notBefore { s with nowUs := s.nowUs + elapsedUs },
        ∃ u' ∈ s.notBefore, u' ≤ u := by
      simp only [notBefore]
      cases s.phase with
      | connect timeoutUs asked => cases asked <;> simp
      | reconnect asked => cases asked <;> simp
      | _ => simp
    intro u hu
    obtain ⟨u', hu', hle⟩ := hlater u hu
    exact (h.due u' hu').mono hle
  recovered := h.recovered
  place := by
    have hplace := h.place
    simp only [Place] at hplace ⊢
    cases hphase : s.phase with
    | connect timeoutUs asked =>
      rw [hphase] at hplace
      cases asked with
      | false => exact ⟨hplace.1, hplace.2.trans (by omega)⟩
      | true => exact hplace
    | _ =>
      rw [hphase] at hplace
      exact hplace

/-! ## Polling -/

theorem Inv.goto_returned (h : Inv rxEnabled startUs s) (hphase : s.phase ≠ .disconnect) :
    Inv rxEnabled startUs (s.goto .returned) :=
  ⟨h.recorded, by simp [settledUs, goto], by simp [notBefore, goto], fun _ => h.recovered hphase,
    trivial⟩

/-- The radio has been asked to connect, and its answer can be taken. -/
structure Asked (rxEnabled : Bool) (startUs : ℕ) (s : StaTask) : Prop where
  recorded : Recorded rxEnabled startUs s.acts
  settled : startUs + SETTLE_US ≤ s.nowUs
  due : Due s.acts (s.nowUs + attemptGapUs s.acts)
  recovered : Recovered s.acts

theorem asked_ask (asked : Bool) (hrecorded : Recorded rxEnabled startUs s.acts)
    (hrecovered : Recovered s.acts) (hsettled : startUs + SETTLE_US ≤ s.nowUs)
    (hdue : Due s.acts (if asked then s.nowUs + attemptGapUs s.acts else s.nowUs)) :
    Asked rxEnabled startUs (s.ask asked) := by
  cases asked with
  | true => exact ⟨hrecorded, hsettled, hdue, hrecovered⟩
  | false =>
    have hconnect := Due.connect hdue
    rw [← attemptGapUs_concat (x := (.connect, s.nowUs)) (by simp)] at hconnect
    exact ⟨hrecorded.connect hrecovered hsettled hdue, hsettled, hconnect,
      recovered_concat (by simp)⟩

namespace Asked

theorem arrive (h : Asked rxEnabled startUs s) : Inv rxEnabled startUs (s.arrive rxEnabled) := by
  have hacts : (s.arrive rxEnabled).acts =
      s.acts ++ (.associated, s.nowUs) :: if rxEnabled then [(.setCsi, s.nowUs)] else [] := by
    cases rxEnabled <;> simp [StaTask.arrive, act, goto]
  have hphase : (s.arrive rxEnabled).phase = .staDisconnected := rfl
  have hnow : (s.arrive rxEnabled).nowUs = s.nowUs := by
    cases rxEnabled <;> rfl
  refine ⟨?_, ?_, ?_, ?_, ?_⟩
  · rw [hacts]
    exact h.recorded.arrive h.recovered
  · simpa [settledUs, hphase, hnow] using h.settled
  · intro u _
    rw [hacts]
    exact due_arrive rxEnabled s.acts s.nowUs u
  · rw [hacts]
    intro _ t hlast
    cases rxEnabled <;> simp at hlast
  · rw [Place, hphase, hacts]
    simp [wasAssociated]

theorem fail (h : Asked rxEnabled startUs s) (hnone : wasAssociated s.acts = false) {kind : StaAct}
    (hkind : kind = .failed ∨ kind = .timedOut) : Inv rxEnabled startUs (s.fail kind) := by
  have hacts : (s.fail kind).acts = s.acts ++ [(kind, s.nowUs)] ++ [(.disconnect, s.nowUs)] := rfl
  have hne : kind ≠ .connect ∧ kind ≠ .associated := by rcases hkind with rfl | rfl <;> simp
  have hstill : wasAssociated (s.acts ++ [(kind, s.nowUs)]) = false := by
    rw [wasAssociated_concat, hnone, beq_false_of_ne hne.2]
    rfl
  refine ⟨?_, ?_, ?_, fun hphase => absurd rfl hphase, ?_⟩
  · rw [hacts]
    exact h.recorded.fail h.recovered hnone hkind
  · simpa [settledUs, StaTask.fail, goto, act] using h.settled
  · intro u hu
    obtain rfl : s.nowUs + (RADIO_CYCLE_US + RETRY_US) = u := by
      simpa [notBefore, StaTask.fail, goto, act] using hu
    have hdue := h.due
    rw [attemptGapUs, hnone] at hdue
    exact (hdue.concat hne.1 hne.2).concat (by simp) (by simp)
  · refine ⟨?_, ?_, s.nowUs, ?_⟩
    · rw [hacts, wasAssociated_concat, hstill]
      rfl
    · simp only [FAILURES_BEFORE_RADIO_CYCLE, StaTask.fail, goto, act]
      omega
    · rw [hacts, List.getLast?_concat]

theorem wait (h : Asked rxEnabled startUs s) (hnone : wasAssociated s.acts = false) {timeoutUs : ℕ}
    (hlast : ∃ t, s.acts.getLast? = some (.connect, t) ∧ timeoutUs ≤ t + CONNECT_TIMEOUT_US) :
    Inv rxEnabled startUs (s.goto (.connect timeoutUs true)) := by
  refine ⟨h.recorded, ?_, ?_, fun _ => h.recovered, hnone, hlast⟩
  · simpa [settledUs, goto] using h.settled
  · have hdue := h.due
    rw [attemptGapUs, hnone] at hdue
    simpa [notBefore, goto] using hdue

theorem fail_again (h : Asked rxEnabled startUs s) (hsome : wasAssociated s.acts = true) :
    Inv rxEnabled startUs ((s.act .failed).goto (.reconnectRetry (s.nowUs + RETRY_US))) := by
  refine ⟨h.recorded.report h.recovered hsome (.inl rfl), ?_, ?_,
    fun _ => recovered_concat (by simp), ?_⟩
  · simpa [settledUs, goto, act] using h.settled
  · intro u hu
    obtain rfl : s.nowUs + RETRY_US = u := by simpa [notBefore, goto, act] using hu
    have hdue := h.due
    rw [attemptGapUs, hsome] at hdue
    exact hdue.concat (by simp) (by simp)
  · change wasAssociated (s.acts ++ [(.failed, s.nowUs)]) = true
    rw [wasAssociated_concat, hsome]
    rfl

theorem wait_again (h : Asked rxEnabled startUs s) (hsome : wasAssociated s.acts = true) :
    Inv rxEnabled startUs (s.goto (.reconnect true)) := by
  refine ⟨h.recorded, ?_, ?_, fun _ => h.recovered, hsome⟩
  · simpa [settledUs, goto] using h.settled
  · have hdue := h.due
    rw [attemptGapUs, hsome] at hdue
    simpa [notBefore, goto] using hdue

end Asked

theorem wasAssociated_ask (s : StaTask) (asked : Bool) :
    wasAssociated (s.ask asked).acts = wasAssociated s.acts := by
  cases asked with
  | false => exact wasAssociated_concat.trans (Bool.or_false _)
  | true => rfl

theorem Inv.sleep (h : Inv rxEnabled startUs s) {wakeUs : ℕ} (hbefore : s.notBefore = some wakeUs)
    (hsettled : wakeUs ≤ s.nowUs → startUs + SETTLE_US ≤ s.nowUs) (hrecovered : Recovered s.acts)
    (hnone : wasAssociated s.acts = false) :
    Inv rxEnabled startUs (s.sleep wakeUs s.connectNext) := by
  unfold StaTask.sleep
  split_ifs with hsignal hwake
  · exact ⟨h.recorded, by simp [settledUs, goto], by simp [notBefore, goto], fun _ => hrecovered,
      trivial⟩
  · refine ⟨h.recorded, ?_, ?_, fun _ => hrecovered, hnone, le_rfl⟩
    · simpa [settledUs, goto, connectNext] using hsettled hwake
    · simpa [notBefore, goto, connectNext] using (h.due wakeUs hbefore).mono hwake
  · exact h

theorem Inv.pollPhase (h : Inv rxEnabled startUs s) (radio : Option (Except Unit Unit)) :
    Inv rxEnabled startUs (s.pollPhase rxEnabled radio) := by
  have hsettled := h.settled
  have hdue := h.due
  have hplace := h.place
  have hrecovered := h.recovered
  unfold settledUs at hsettled
  unfold notBefore at hdue
  unfold Place at hplace
  unfold StaTask.pollPhase
  cases hphase : s.phase with
  | settle wakeUs =>
    rw [hphase] at hsettled hplace
    exact h.sleep (by rw [notBefore, hphase]) (fun hwake => (hsettled _ rfl).trans hwake)
      (hrecovered (by simp [hphase])) hplace
  | connect timeoutUs asked =>
    rw [hphase] at hsettled hdue hplace
    dsimp only
    by_cases hsignal : s.signal = true
    · rw [if_pos hsignal]
      exact h.goto_returned (by simp [hphase])
    · rw [if_neg hsignal]
      -- until the first association the gap is that of the recovery
      have hnone : wasAssociated s.acts = false := by cases asked <;> exact hplace.1
      have hgap : attemptGapUs s.acts = RADIO_CYCLE_US + RETRY_US := by rw [attemptGapUs, hnone]; rfl
      have hask := asked_ask asked h.recorded (hrecovered (by simp [hphase])) (hsettled _ rfl) (by
        rw [hgap]
        exact hdue _ rfl)
      have hstill := (wasAssociated_ask s asked).trans hnone
      -- the answer counts even if it comes together with the timeout
      cases radio with
      | some answer =>
        cases answer with
        | ok _ => exact hask.arrive
        | error _ => exact hask.fail hstill (.inl rfl)
      | none =>
        by_cases htimeout : timeoutUs ≤ (s.ask asked).nowUs
        · rw [if_pos htimeout]
          exact hask.fail hstill (.inr rfl)
        · rw [if_neg htimeout]
          refine hask.wait hstill ?_
          cases asked with
          | false => exact ⟨s.nowUs, List.getLast?_concat, hplace.2⟩
          | true => exact hplace.2
  | disconnect =>
    rw [hphase] at hsettled hdue hplace
    obtain ⟨hnone, hfailures, t, hlast⟩ := hplace
    cases radio with
    | none => exact h
    | some answer =>
      dsimp only
      rw [if_pos hfailures]
      -- the callback is registered at once, before the radio is cycled
      refine ⟨h.recorded.recover hlast, ?_, ?_, fun _ => recovered_concat (by simp), ?_⟩
      · simpa [StaTask.settledUs, goto, act] using hsettled _ rfl
      · intro u hu
        obtain rfl : s.nowUs + RADIO_CYCLE_US + RETRY_US = u := by
          simpa [StaTask.notBefore, goto, act] using hu
        rw [Nat.add_assoc]
        exact (hdue _ rfl).concat (by simp) (by simp)
      · exact wasAssociated_concat.trans (by rw [hnone]; rfl)
  | radioCycle wakeUs =>
    rw [hphase] at hsettled hdue hplace
    dsimp only
    split_ifs with hwake
    · refine ⟨h.recorded, ?_, ?_, fun _ => hrecovered (by simp [hphase]), hplace⟩
      · simpa [StaTask.settledUs, goto, connectRetryNext] using hsettled _ rfl
      · intro u hu
        obtain rfl : s.nowUs + RETRY_US = u := by
          simpa [StaTask.notBefore, goto, connectRetryNext] using hu
        exact (hdue _ rfl).mono (by omega)
    · exact h
  | connectRetry wakeUs =>
    rw [hphase] at hsettled hplace
    exact h.sleep (by rw [notBefore, hphase]) (fun _ => hsettled _ rfl)
      (hrecovered (by simp [hphase])) hplace
  | staDisconnected =>
    rw [hphase] at hsettled hdue hplace
    dsimp only
    split_ifs with hsignal
    · exact h.goto_returned (by simp [hphase])
    · cases radio with
      | none => exact h
      | some answer =>
        refine ⟨h.recorded.report (hrecovered (by simp [hphase])) hplace (.inr rfl), ?_, ?_,
          fun _ => recovered_concat (by simp), ?_⟩
        · simpa [StaTask.settledUs, goto, act] using hsettled _ rfl
        · intro u hu
          obtain rfl : s.nowUs = u := by simpa [StaTask.notBefore, goto, act] using hu
          exact (hdue _ rfl).concat (by simp) (by simp)
        · exact wasAssociated_concat.trans (by rw [hplace]; rfl)
  | reconnect asked =>
    rw [hphase] at hsettled hdue hplace
    dsimp only
    split_ifs with hsignal
    · exact h.goto_returned (by simp [hphase])
    -- from the first association on only the retry time is kept
    · have hgap : attemptGapUs s.acts = RETRY_US := by rw [attemptGapUs, hplace]; rfl
      have hask := asked_ask asked h.recorded (hrecovered (by simp [hphase])) (hsettled _ rfl) (by
        rw [hgap]
        exact hdue _ rfl)
      have hstill := (wasAssociated_ask s asked).trans hplace
      cases radio with
      | some answer =>
        cases answer with
        | ok _ => exact hask.arrive
        | error _ => exact hask.fail_again hstill
      | none => exact hask.wait_again hstill
  | reconnectRetry wakeUs =>
    rw [hphase] at hsettled hdue hplace
    dsimp only
    unfold StaTask.sleep
    split_ifs with hsignal hwake
    · exact h.goto_returned (by simp [hphase])
    · refine ⟨h.recorded, ?_, ?_, fun _ => hrecovered (by simp [hphase]), hplace⟩
      · simpa [StaTask.settledUs, goto] using hsettled _ rfl
      · simpa [StaTask.notBefore, goto] using (hdue _ rfl).mono hwake
    · exact h
  | returned => exact h

/-- An attempt at the first association is waited for until its timeout. -/
theorem timely_pollPhase (radio : Option (Except Unit Unit)) {timeoutUs : ℕ}
    (h : (s.pollPhase rxEnabled radio).phase = .connect timeoutUs true) :
    (s.pollPhase rxEnabled radio).nowUs < timeoutUs := by
  unfold StaTask.pollPhase at h ⊢
  cases hphase : s.phase with
  | connect timeoutUs' asked =>
    rw [hphase] at h
    dsimp only at h ⊢
    by_cases hsignal : s.signal = true
    · rw [if_pos hsignal] at h
      cases h
    · rw [if_neg hsignal] at h ⊢
      cases radio with
      | some answer => cases answer <;> cases h
      | none =>
        by_cases htimeout : timeoutUs' ≤ (s.ask asked).nowUs
        · rw [if_pos htimeout] at h
          cases h
        · rw [if_neg htimeout] at h ⊢
          cases h
          exact not_le.mp htimeout
  | _ =>
    rw [hphase] at h
    simp only [StaTask.sleep, goto, connectNext, connectRetryNext, act] at h
    repeat' split at h
    all_goals simp_all [StaTask.arrive, goto]

/-- Once the stop signal is set, no attempt is made. A failed one that is being cleaned up after
still has the callback registered. -/
theorem acts_step_of_signal (rxEnabled : Bool) (h : s.signal = true) (e : StaEvent) :
    (s.step rxEnabled e).signal = true ∧
      ((s.step rxEnabled e).acts = s.acts ∧
          ((s.step rxEnabled e).phase = .disconnect → s.phase = .disconnect) ∨
        s.phase = .disconnect ∧ (s.step rxEnabled e).phase ≠ .disconnect ∧
          ∃ t, (s.step rxEnabled e).acts = s.acts ++ [(.setCsi, t)]) := by
  cases e with
  | sendStop => exact ⟨rfl, .inl ⟨rfl, id⟩⟩
  | poll elapsedUs radio =>
    simp only [step, StaTask.pollPhase]
    cases hphase : s.phase with
    | disconnect =>
      cases radio with
      | none => exact ⟨h, .inl ⟨rfl, fun _ => rfl⟩⟩
      | some answer =>
        dsimp only
        split_ifs with hfailures
        · exact ⟨h, .inr ⟨rfl, by simp [goto], _, rfl⟩⟩
        · exact ⟨h, .inl ⟨rfl, fun _ => rfl⟩⟩
    | radioCycle wakeUs =>
      dsimp only
      split_ifs <;> simp [h, goto, connectRetryNext]
    | returned => simp [h]
    | _ => simp [StaTask.sleep, h, goto]

theorem acts_run_of_signal (rxEnabled : Bool) (h : s.signal = true) (es : List StaEvent) :
    (run (step rxEnabled) s es).acts = s.acts ∨
      s.phase = .disconnect ∧ ∃ t, (run (step rxEnabled) s es).acts = s.acts ++ [(.setCsi, t)] := by
  induction es generalizing s with
  | nil => exact .inl rfl
  | cons e es ih =>
    obtain ⟨hsignal, hstep⟩ := acts_step_of_signal rxEnabled h e
    rw [run_cons]
    rcases hstep with ⟨hacts, hphase⟩ | ⟨hphase, hnext, t, hacts⟩
    · rcases ih hsignal with hsame | ⟨hdisconnect, t, hmore⟩
      · exact .inl (hsame.trans hacts)
      · exact .inr ⟨hphase hdisconnect, t, by rw [hmore, hacts]⟩
    · rcases ih hsignal with hsame | ⟨hdisconnect, -⟩
      · exact .inr ⟨hphase, t, hsame.trans hacts⟩
      · exact absurd hdisconnect hnext

/-! ## Among the tasks of a run -/

def await (s : StaTask) : Option Await :=
  match s.phase with
  | .settle _ => some .staSettle
  | .connect _ _ => some .connect
  | .disconnect => some .disconnect
  | .radioCycle _ => some .radioCycle
  | .connectRetry _ => some .connectRetry
  | .staDisconnected => some .staDisconnected
  | .reconnect _ => some .reconnect
  | .reconnectRetry _ => some .reconnectRetry
  | .returned => none

/-- The task stays at its await, is ended by the signal there, or goes on to an await that a run has
after it. -/
def Moves (r : NodeRun) (s s' : StaTask) : Prop :=
  s'.await = s.await ∨ ∃ a, s.await = some a ∧
    (s.signal = true ∧ a.guarded = true ∧ s'.await = none ∨
      ∃ as ∈ r.next a, ∃ a' ∈ as, s'.await = some a')

theorem moves_on (r : NodeRun) {s s' : StaTask} {a a' : Await} (as : List Await)
    (ha : s.await = some a) (ha' : s'.await = some a') (has : as ∈ r.next a) (hmem : a' ∈ as) :
    Moves r s s' :=
  .inr ⟨a, ha, .inr ⟨as, has, a', hmem, ha'⟩⟩

theorem moves_end (r : NodeRun) {a : Await} (ha : s.await = some a) (hsignal : s.signal = true)
    (hguarded : a.guarded = true) : Moves r s (s.goto .returned) :=
  .inr ⟨a, ha, .inl ⟨hsignal, hguarded, rfl⟩⟩

theorem moves_sleep (r : NodeRun) {wakeUs : ℕ} {next : StaPhase} {a a' : Await}
    (ha : s.await = some a) (hguarded : a.guarded = true)
    (hnext : (s.goto next).await = some a') (hmem : [a'] ∈ r.next a) :
    Moves r s (s.sleep wakeUs next) := by
  unfold StaTask.sleep
  split_ifs with hsignal hwake
  · exact moves_end r ha hsignal hguarded
  · exact moves_on r [a'] ha hnext hmem (List.mem_singleton_self a')
  · exact .inl rfl

theorem Inv.moves (h : Inv rxEnabled startUs s) (r : NodeRun)
    (radio : Option (Except Unit Unit)) : Moves r s (s.pollPhase rxEnabled radio) := by
  unfold StaTask.pollPhase
  cases hphase : s.phase with
  | settle wakeUs =>
    have hawait : s.await = some .staSettle := by rw [await, hphase]
    exact moves_sleep r hawait rfl rfl (by simp [NodeRun.next])
  | connectRetry wakeUs =>
    have hawait : s.await = some .connectRetry := by rw [await, hphase]
    exact moves_sleep r hawait rfl rfl (by simp [NodeRun.next])
  | reconnectRetry wakeUs =>
    have hawait : s.await = some .reconnectRetry := by rw [await, hphase]
    exact moves_sleep r hawait rfl rfl (by simp [NodeRun.next])
  | connect timeoutUs asked =>
    have hawait : s.await = some .connect := by rw [await, hphase]
    -- a failure and a timeout both go on to the disconnection
    have hfail (kind : StaAct) : Moves r s ((s.ask asked).fail kind) :=
      moves_on r [.disconnect] hawait rfl (by simp [NodeRun.next]) (by simp)
    dsimp only
    by_cases hsignal : s.signal = true
    · rw [if_pos hsignal]
      exact moves_end r hawait hsignal rfl
    · rw [if_neg hsignal]
      cases radio with
      | some answer =>
        cases answer with
        | ok _ =>
          exact moves_on r r.staTasks hawait rfl (by simp [NodeRun.next])
            (by simp [NodeRun.staTasks])
        | error _ => exact hfail .failed
      | none =>
        by_cases htimeout : timeoutUs ≤ (s.ask asked).nowUs
        · rw [if_pos htimeout]
          exact hfail .timedOut
        · rw [if_neg htimeout]
          exact .inl hawait.symm
  | disconnect =>
    have hawait : s.await = some .disconnect := by rw [await, hphase]
    cases radio with
    | none => exact .inl rfl
    | some answer =>
      have hplace := h.place
      rw [Place, hphase] at hplace
      dsimp only
      rw [if_pos hplace.2.1]
      exact moves_on r [.radioCycle] hawait rfl (by simp [NodeRun.next]) (by simp)
  | radioCycle wakeUs =>
    have hawait : s.await = some .radioCycle := by rw [await, hphase]
    dsimp only
    split_ifs
    · exact moves_on r [.connectRetry] hawait rfl (by simp [NodeRun.next]) (by simp)
    · exact .inl rfl
  | staDisconnected =>
    have hawait : s.await = some .staDisconnected := by rw [await, hphase]
    dsimp only
    by_cases hsignal : s.signal = true
    · rw [if_pos hsignal]
      exact moves_end r hawait hsignal rfl
    · rw [if_neg hsignal]
      cases radio with
      | none => exact .inl rfl
      | some answer =>
        exact moves_on r [.reconnect] hawait rfl (by simp [NodeRun.next]) (by simp)
  | reconnect asked =>
    have hawait : s.await = some .reconnect := by rw [await, hphase]
    dsimp only
    by_cases hsignal : s.signal = true
    · rw [if_pos hsignal]
      exact moves_end r hawait hsignal rfl
    · rw [if_neg hsignal]
      cases radio with
      | some answer =>
        cases answer with
        | ok _ =>
          exact moves_on r [.staDisconnected] hawait rfl (by simp [NodeRun.next]) (by simp)
        | error _ =>
          exact moves_on r [.reconnectRetry] hawait rfl (by simp [NodeRun.next]) (by simp)
      | none => exact .inl hawait.symm
  | returned => exact .inl rfl

/-! ## Whole runs -/

theorem inv_step (h : Inv rxEnabled startUs s) (e : StaEvent) :
    Inv rxEnabled startUs (s.step rxEnabled e) := by
  cases e with
  | sendStop => exact ⟨h.recorded, h.settled, h.due, h.recovered, h.place⟩
  | poll elapsedUs radio => exact (h.advance elapsedUs).pollPhase radio

theorem inv_run (rxEnabled : Bool) (startUs : ℕ) (es : List StaEvent) :
    Inv rxEnabled startUs (run (step rxEnabled) (start startUs) es) :=
  (always_of_step (inv_start rxEnabled startUs) fun _ e h => inv_step h e).last

theorem timely_run (rxEnabled : Bool) (startUs : ℕ) (es : List StaEvent) : ∀ timeoutUs,
    (run (step rxEnabled) (start startUs) es).phase = .connect timeoutUs true →
      (run (step rxEnabled) (start startUs) es).nowUs < timeoutUs := by
  refine (always_of_step (Q := fun s : StaTask =>
    ∀ timeoutUs, s.phase = .connect timeoutUs true → s.nowUs < timeoutUs) ?_ fun s e h => ?_).last
  · intro timeoutUs h
    cases h
  · cases e with
    | sendStop => exact h
    | poll elapsedUs radio => exact fun _ => timely_pollPhase radio

end StaTask

/-- Whatever the radio answers and whenever the task is polled: everything is done when it is
allowed, no association is left without its registration, nor a failed attempt at the first one
without its disconnection, such an attempt is waited for until its timeout, and once a stop is asked
for nothing is done but a registration that recovers from a failure. A step takes the task where a
run can go. -/
theorem association_run (rxEnabled : Bool) (startUs : ℕ) (r : NodeRun) (es es' : List StaEvent)
    (e : StaEvent) :
    Lawful rxEnabled startUs (run (StaTask.step rxEnabled) (.start startUs) es).acts ∧
    (rxEnabled = true → ∀ t, (run (StaTask.step rxEnabled) (.start startUs) es).acts.getLast? ≠
      some (.associated, t)) ∧
    (∀ t, ¬ FailedFirst (run (StaTask.step rxEnabled) (.start startUs) es).acts t) ∧
    (∀ timeoutUs, (run (StaTask.step rxEnabled) (.start startUs) es).phase =
        .connect timeoutUs true →
      ∃ t, (run (StaTask.step rxEnabled) (.start startUs) es).acts.getLast? = some (.connect, t) ∧
        (run (StaTask.step rxEnabled) (.start startUs) es).nowUs < t + CONNECT_TIMEOUT_US) ∧
    (∃ more, (run (StaTask.step rxEnabled) (.start startUs) (es ++ .sendStop :: es')).acts =
        (run (StaTask.step rxEnabled) (.start startUs) es).acts ++ more ∧
      (more = [] ∨ (run (StaTask.step rxEnabled) (.start startUs) es).phase = .disconnect ∧
        ∃ t, more = [(.setCsi, t)])) ∧
    StaTask.Moves r (run (StaTask.step rxEnabled) (.start startUs) es)
      (run (StaTask.step rxEnabled) (.start startUs) (es ++ [e])) := by
  have hinv := StaTask.inv_run rxEnabled startUs es
  refine ⟨hinv.recorded.lawful, hinv.recorded.armed, hinv.recorded.cleaned,
    fun timeoutUs hphase => ?_, ?_, ?_⟩
  · have htimely := StaTask.timely_run rxEnabled startUs es timeoutUs hphase
    have hplace := hinv.place
    rw [StaTask.Place, hphase] at hplace
    obtain ⟨-, t, hlast, htimeout⟩ := hplace
    exact ⟨t, hlast, htimely.trans_le htimeout⟩
  · rw [run_append, run_cons]
    rcases StaTask.acts_run_of_signal rxEnabled
      (s := StaTask.step rxEnabled (run (StaTask.step rxEnabled) (.start startUs) es) .sendStop) rfl
      es' with hsame | ⟨hphase, t, hmore⟩
    · exact ⟨[], by rw [hsame, List.append_nil]; rfl, .inl rfl⟩
    · exact ⟨[(.setCsi, t)], hmore, .inr ⟨hphase, t, rfl⟩⟩
  · rw [run_concat]
    cases e with
    | sendStop => exact .inl rfl
    | poll elapsedUs radio => exact (hinv.advance elapsedUs).moves r radio

end EspCsi.Wifi
