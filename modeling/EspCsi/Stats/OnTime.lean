import EspCsi.Stats.Rates

/-!
# Rates on time

How old the published rates get, and how long their windows are, by how late the task is polled.
-/

namespace EspCsi.RateTask

open Transition

variable {s : RateTask} {e : RateEvent} {late : ℕ}

/-- The task is back at its `select` no later than `late` after its timer. -/
def Prompt (late : ℕ) (s : RateTask) : RateEvent → Prop
  | .pass us => s.phase = .returned ∨ s.nowUs + us ≤ s.wakeUs + late
  | _ => True

instance (late : ℕ) (s : RateTask) : (e : RateEvent) → Decidable (s.Prompt late e)
  | .pass us => inferInstanceAs (Decidable (s.phase = .returned ∨ s.nowUs + us ≤ s.wakeUs + late))
  | .frame _ | .setCsiOutput | .sendStop | .advance | .relaunch => isTrue trivial

/-- How far the timer may be from the last update, by where the task stands. -/
def Due (late : ℕ) (s : RateTask) : Prop :=
  match s.phase with
  | .returned => True
  | .arm | .mark _ _ | .resync => s.wakeUs < s.lastRateUpdate + US_PER_SEC
  | .elapsed | .load _ | .publish _ | .stampRated =>
    s.wakeUs ≤ s.nowUs ∧ s.wakeUs < s.lastRateUpdate + (US_PER_SEC + RATE_TICK_US + late)
  | .select | .acknowledge | .stampStart _ | .stampUpdate _ =>
    s.wakeUs < s.lastRateUpdate + (US_PER_SEC + RATE_TICK_US + late)

theorem Due.pass (h : s.Due late) (us : ℕ) : Due late { s with nowUs := s.nowUs + us } := by
  unfold Due at h ⊢
  cases hphase : s.phase with
  | returned => trivial
  | elapsed | load d | publish d | stampRated =>
    simp only [hphase] at h ⊢
    exact ⟨Nat.le_add_right_of_le h.1, h.2⟩
  | _ =>
    simp only [hphase] at h ⊢
    exact h

/-- Two ticks less a little can go by before a second has, and each is late once. -/
def spanUs (late : ℕ) : ℕ := US_PER_SEC + RATE_TICK_US + 2 * late

structure Timely (late : ℕ) (s : RateTask) : Prop where
  within : s.phase ≠ .returned → s.nowUs ≤ s.wakeUs + late
  timer : s.phase ≠ .returned → s.wakeUs ≤ s.nowUs + RATE_TICK_US
  due : s.Due late
  read : s.phase.rating = true → s.readUs < s.lastRateUpdate + spanUs late
  windows : ∀ d, ∀ w ∈ s.windows d, w.readUs < w.fromUs + spanUs late

theorem timely_begin (stats : Stats) (outputChanged stopSignal : Bool) (nowUs late : ℕ) :
    (begin stats outputChanged stopSignal nowUs).Timely late where
  within := fun _ => Nat.le_add_right _ _
  timer := fun _ => Nat.le_add_right _ _
  due := Nat.lt_add_of_pos_right (Nat.lt_add_right _ (by decide))
  read := by simp [begin, RatePhase.rating]
  windows := by simp [begin]

namespace Timely

theorem fresh (h : s.Timely late) (hphase : s.phase ≠ .returned) :
    s.nowUs < s.lastRateUpdate + spanUs late := by
  have hwithin := h.within hphase
  have hdue := h.due
  unfold Due at hdue
  unfold spanUs
  split at hdue
  · contradiction
  all_goals omega

theorem windows_publish (h : s.Timely late) (hphase : s.phase.rating = true) (d : Direction) :
    ∀ d', ∀ w ∈ (s.publish d).windows d', w.readUs < w.fromUs + spanUs late := by
  intro d' w hw
  by_cases hd : d' = d
  · subst hd
    rw [RateTask.windows_publish, List.mem_append, List.mem_singleton] at hw
    rcases hw with hw | rfl
    · exact h.windows d' w hw
    · exact h.read hphase
  · rw [windows_publish_of_ne s hd] at hw
    exact h.windows d' w hw

theorem move (h : s.Timely late) (hphase : s.phase ≠ .returned) {s' : RateTask}
    (hnow : s'.nowUs = s.nowUs) (hwake : s'.wakeUs = s.wakeUs) (hwindows : s'.windows = s.windows)
    (hquiet : s'.phase.rating = false) (hdue : s'.Due late) : s'.Timely late where
  within := fun _ => by rw [hnow, hwake]; exact h.within hphase
  timer := fun _ => by rw [hnow, hwake]; exact h.timer hphase
  due := hdue
  read := by simp [hquiet]
  windows := by rw [hwindows]; exact h.windows

theorem advance (h : s.Timely late) : s.advance.Timely late := by
  have hwithin := h.within
  have htimer := h.timer
  have hdue := h.due
  have hread := h.read
  simp only [Due] at hdue
  cases hphase : s.phase with
  | stampStart toggled =>
    simp only [hphase] at hdue
    simp only [RateTask.advance, hphase]
    exact h.move (by simp [hphase]) rfl rfl rfl rfl hdue
  | stampUpdate toggled =>
    -- the timer was at most one tick ahead, and now it counts from here
    have htick : s.wakeUs ≤ s.nowUs + RATE_TICK_US := htimer (by simp [hphase])
    have hdue' : s.wakeUs < s.nowUs + US_PER_SEC :=
      htick.trans_lt (Nat.add_lt_add_left (by decide) _)
    simp only [RateTask.advance, hphase]
    exact h.move (by simp [hphase]) rfl rfl rfl rfl hdue'
  | mark d toggled =>
    simp only [hphase] at hdue
    cases d with
    | rx =>
      simp only [RateTask.advance, hphase]
      exact h.move (by simp [hphase]) rfl rfl rfl rfl hdue
    | tx =>
      simp only [RateTask.advance, hphase]
      cases toggled <;> exact h.move (by simp [hphase]) rfl rfl rfl rfl hdue
  | resync =>
    simp only [hphase] at hdue
    simp only [RateTask.advance, hphase]
    exact h.move (by simp [hphase]) rfl rfl rfl rfl hdue
  | arm =>
    simp only [hphase] at hwithin hdue
    simp only [RateTask.advance, hphase]
    have hnow := hwithin (by simp)
    refine ⟨fun _ => ?_, fun _ => le_rfl, ?_, by simp [goto, RatePhase.rating], h.windows⟩
    · simp only [goto]
      omega
    · simp only [Due, goto]
      omega
  | select =>
    simp only [hphase] at hdue
    simp only [RateTask.advance, hphase]
    split_ifs with hstop hchanged hwake
    · exact ⟨by simp [goto], by simp [goto], trivial, by simp [goto, RatePhase.rating], h.windows⟩
    · exact h.move (by simp [hphase]) rfl rfl rfl rfl hdue
    · exact h.move (by simp [hphase]) rfl rfl rfl rfl ⟨hwake, hdue⟩
    · exact h
  | acknowledge =>
    simp only [hphase] at hdue
    simp only [RateTask.advance, hphase]
    exact h.move (by simp [hphase]) rfl rfl rfl rfl hdue
  | elapsed =>
    have hfresh := h.fresh (by simp [hphase])
    simp only [hphase] at hwithin htimer hdue
    simp only [RateTask.advance, hphase]
    split_ifs with hsecs
    · exact ⟨fun _ => hwithin (by simp), fun _ => htimer (by simp), hdue, fun _ => hfresh,
        h.windows⟩
    -- the tick came before a second was full: the next one is less than a second from the stamp
    · have hearly : s.nowUs - s.lastRateUpdate < US_PER_SEC := by
        rw [not_le, Nat.lt_one_iff, Nat.div_eq_zero_iff] at hsecs
        exact hsecs.resolve_left (by decide)
      have hdue' : s.wakeUs < s.lastRateUpdate + US_PER_SEC := by omega
      exact h.move (by simp [hphase]) rfl rfl rfl rfl hdue'
  | load d =>
    simp only [hphase] at hwithin htimer hdue hread
    simp only [RateTask.advance, hphase]
    cases d <;> exact ⟨fun _ => hwithin (by simp), fun _ => htimer (by simp), hdue,
      fun _ => hread rfl, h.windows⟩
  | publish d =>
    have hwindows := h.windows_publish (by rw [hphase]; rfl) d
    simp only [hphase] at hwithin htimer hdue hread
    simp only [RateTask.advance, hphase]
    cases d <;> exact ⟨fun _ => hwithin (by simp), fun _ => htimer (by simp), hdue,
      fun _ => hread rfl, hwindows⟩
  | stampRated =>
    simp only [hphase] at hdue
    have hdue' : s.wakeUs < s.nowUs + US_PER_SEC :=
      hdue.1.trans_lt (Nat.lt_add_of_pos_right (by decide))
    simp only [RateTask.advance, hphase]
    exact h.move (by simp [hphase]) rfl rfl rfl rfl hdue'
  | returned =>
    simp only [RateTask.advance, hphase]
    exact h

theorem step (h : s.Timely late) (he : s.Prompt late e) : (s.step e).Timely late := by
  cases e with
  | frame d => exact ⟨h.within, h.timer, h.due, h.read, h.windows⟩
  | setCsiOutput => exact ⟨h.within, h.timer, h.due, h.read, h.windows⟩
  | sendStop => exact ⟨h.within, h.timer, h.due, h.read, h.windows⟩
  | pass us =>
    refine ⟨fun hphase => he.resolve_left hphase, fun hphase => ?_, ?_, h.read, h.windows⟩
    · exact (h.timer hphase).trans (Nat.add_le_add_right (Nat.le_add_right _ us) _)
    · exact h.due.pass us
  | advance => exact h.advance
  | relaunch =>
    simp only [RateTask.step]
    split_ifs
    · exact ⟨fun _ => Nat.le_add_right _ _, fun _ => Nat.le_add_right _ _,
        Nat.lt_add_of_pos_right (Nat.lt_add_right _ (by decide)), by simp [goto, RatePhase.rating],
        h.windows⟩
    · exact h

end Timely

/-- A task that is polled on time updates its rates, or starts over, at least every second and a
half, with what its polls are late added. Where that makes two seconds, a rate is the number of
frames in its window. -/
theorem rates_on_time (stats : Stats) (outputChanged stopSignal : Bool) (nowUs late : ℕ)
    (es : List RateEvent) (hlen : es.length < 2 ^ 64)
    (hprompt : Along step (Prompt late) (begin stats outputChanged stopSignal nowUs) es) :
    Always step
      (fun s => (s.phase ≠ .returned → s.nowUs < s.lastRateUpdate + spanUs late) ∧
        ∀ d, ∀ w ∈ s.windows d,
          w.fromUs + US_PER_SEC ≤ w.readUs ∧ w.readUs < w.fromUs + spanUs late ∧
            (spanUs late ≤ 2 * US_PER_SEC → w.hz = UInt32.ofNat w.frames))
      (begin stats outputChanged stopSignal nowUs) es := by
  have htimely : Always step (Timely late) (begin stats outputChanged stopSignal nowUs) es :=
    hprompt.always (timely_begin stats outputChanged stopSignal nowUs late)
      fun s e h he => h.step he
  have haccounted := (begin_run stats outputChanged stopSignal nowUs hlen).1
  intro pre hpre
  have hinv := htimely pre hpre
  refine ⟨fun hphase => hinv.fresh hphase, fun d w hw => ?_⟩
  have hwindow := hinv.windows d w hw
  have hrated := (haccounted pre hpre).rated d w hw
  have hsec : w.fromUs + US_PER_SEC ≤ w.readUs := by
    have hle : US_PER_SEC ≤ w.readUs - w.fromUs := (Nat.div_pos_iff.mp hrated.secs).2
    have hpos : 0 < US_PER_SEC := by decide
    omega
  refine ⟨hsec, hwindow, fun hspan => ?_⟩
  have hone : w.secs = 1 := by
    have hlt : w.secs < 2 := Nat.div_lt_of_lt_mul (by omega)
    have hpos := hrated.secs
    omega
  rw [RateWindow.hz, hone, Nat.div_one]

def secondTick : List RateEvent :=
  List.replicate 5 .advance ++ [.pass 500000] ++ List.replicate 4 .advance ++
    [.frame .tx, .frame .tx, .pass 500000] ++ List.replicate 7 .advance

theorem secondTick_on_time :
    (∀ w ∈ (run step (begin .boot false false 0) secondTick).windows .tx,
      w.hz = UInt32.ofNat w.frames) ∧
      (run step (begin .boot false false 0) secondTick).rateHz .tx = 2 := by
  have h := rates_on_time .boot false false 0 100 secondTick (by decide) (by decide)
  exact ⟨fun w hw => ((h.last.2 .tx w hw).2.2 (by decide)), by decide⟩

end EspCsi.RateTask
