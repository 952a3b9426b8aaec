import EspCsi.EspNow.Rate
import EspCsi.Lib.Checked

/-!
# Adaptive pacing

The rate of the initiator's and the responder's loop when they both send and receive. Want of buffers
takes a quarter off the rate and every 32 sends that go well in a row add a tenth to it, each at least
1 Hz, within limits that the configured frequency sets once.
-/

namespace EspCsi.EspNow

open Transition

namespace Pacer

/-! ## The checked arithmetic -/

/-- `succeeded` in 64-bit arithmetic that may not overflow. -/
def succeededChecked (p : Pacer) : Option Pacer :=
  if p.adaptivePacingEnabled then
    let ok := if p.consecutiveTxOk = 0xffff then 0xffff else p.consecutiveTxOk + 1
    if ok ≥ ADAPT_UP_EVERY_SUCCESSES then do
      let scaled ← Checked.mul 64 p.adaptiveHz ADAPT_UP_PERCENT
      let raised ← Checked.add 64 p.adaptiveHz (max (scaled / 100) 1)
      some ({ p with consecutiveTxOk := 0 }.setHz (min raised p.hzMax))
    else some { p with consecutiveTxOk := ok }
  else some p

def backOffChecked (p : Pacer) : Option Pacer :=
  let p := { p with consecutiveTxOk := 0 }
  if p.adaptivePacingEnabled then do
    let scaled ← Checked.mul 64 p.adaptiveHz ADAPT_DOWN_PERCENT
    some (p.setHz (max (p.adaptiveHz - max (scaled / 100) 1) p.hzMin))
  else some p

def adaptChecked (p : Pacer) : SendOutcome → Option Pacer
  | .ok => p.succeededChecked
  | .noBuffer => p.backOffChecked
  | .failed => some { p with consecutiveTxOk := 0 }

/-! ## What a send does to the rate -/

structure Within (lo hi : ℕ) (p : Pacer) : Prop where
  adaptive : p.adaptivePacingEnabled = true
  hzMin : p.hzMin = lo
  hzMax : p.hzMax = hi
  low : lo ≤ p.adaptiveHz
  high : p.adaptiveHz ≤ hi
  interval : p.intervalUs = hzToIntervalUs p.adaptiveHz
  counting : p.consecutiveTxOk.toNat < 32

theorem zero_counting : (0 : UInt16).toNat < 32 := by
  decide

theorem within_start (floor ceiling frequencyHz now : ℕ) :
    (start floor ceiling frequencyHz ⟨true, true⟩ now).Within
      (start floor ceiling frequencyHz ⟨true, true⟩ now).hzMin
      (start floor ceiling frequencyHz ⟨true, true⟩ now).hzMax where
  adaptive := rfl
  hzMin := rfl
  hzMax := rfl
  low := Nat.min_le_right _ _
  high := le_rfl
  interval := rfl
  counting := zero_counting

variable {lo hi : ℕ} {p : Pacer}

theorem Within.succeeded_eq (h : p.Within lo hi) :
    (p.consecutiveTxOk.toNat + 1 < 32 ∧
        p.succeeded = { p with consecutiveTxOk := p.consecutiveTxOk + 1 }) ∨
      p.succeeded = { p with consecutiveTxOk := 0 }.setHz
        (min (p.adaptiveHz + max (p.adaptiveHz * 10 / 100) 1) hi) := by
  have hcount := h.counting
  have hfull : p.consecutiveTxOk ≠ 0xffff := by
    intro heq
    rw [heq] at hcount
    exact absurd hcount (by decide)
  have hadd : (p.consecutiveTxOk + 1).toNat = p.consecutiveTxOk.toNat + 1 := by
    rw [UInt16.toNat_add]
    show (p.consecutiveTxOk.toNat + 1) % 2 ^ 16 = _
    omega
  have hrow : (p.consecutiveTxOk + 1 ≥ ADAPT_UP_EVERY_SUCCESSES) ↔
      ¬ p.consecutiveTxOk.toNat + 1 < 32 := by
    rw [ge_iff_le, UInt16.le_iff_toNat_le, hadd]
    exact not_lt.symm
  rw [succeeded, if_pos h.adaptive, if_neg hfull, ← h.hzMax]
  by_cases hlast : p.consecutiveTxOk.toNat + 1 < 32
  · exact .inl ⟨hlast, if_neg (by rw [hrow]; exact not_not.mpr hlast)⟩
  · exact .inr (if_pos (hrow.mpr hlast))

theorem Within.backOff_eq (h : p.Within lo hi) :
    p.backOff = { p with consecutiveTxOk := 0 }.setHz
      (max (p.adaptiveHz - max (p.adaptiveHz * 25 / 100) 1) lo) := by
  rw [← h.hzMin]
  exact if_pos h.adaptive

theorem Within.setHz (h : p.Within lo hi) {hz : ℕ} (hlow : lo ≤ hz) (hhigh : hz ≤ hi) :
    ({ p with consecutiveTxOk := 0 }.setHz hz).Within lo hi :=
  ⟨h.adaptive, h.hzMin, h.hzMax, hlow, hhigh, rfl, zero_counting⟩

theorem Within.adapt (h : p.Within lo hi) (outcome : SendOutcome) :
    (p.adapt outcome).Within lo hi := by
  have hlow := h.low
  have hhigh := h.high
  cases outcome with
  | ok =>
    show p.succeeded.Within lo hi
    rcases h.succeeded_eq with ⟨hcount, heq⟩ | heq
    · rw [heq]
      refine { h with counting := ?_ }
      show (p.consecutiveTxOk + 1).toNat < 32
      rw [UInt16.toNat_add]
      exact (Nat.mod_le _ _).trans_lt hcount
    · rw [heq]
      apply h.setHz <;> omega
  | noBuffer =>
    show p.backOff.Within lo hi
    rw [h.backOff_eq]
    apply h.setHz <;> omega
  | failed => exact { h with counting := zero_counting }

theorem Within.sent (h : p.Within lo hi) (outcome : SendOutcome) : (p.sent outcome).Within lo hi :=
  { h.adapt outcome with }

theorem sent_adaptiveHz (p : Pacer) (outcome : SendOutcome) :
    (p.sent outcome).adaptiveHz = (p.adapt outcome).adaptiveHz := rfl

theorem Within.adapt_le (h : p.Within lo hi) {outcome : SendOutcome} (hfail : outcome ≠ .ok) :
    (p.adapt outcome).adaptiveHz ≤ p.adaptiveHz := by
  have hlow := h.low
  cases outcome with
  | ok => exact absurd rfl hfail
  | noBuffer =>
    show p.backOff.adaptiveHz ≤ p.adaptiveHz
    rw [h.backOff_eq]
    show max (p.adaptiveHz - max (p.adaptiveHz * 25 / 100) 1) lo ≤ p.adaptiveHz
    omega
  | failed => exact le_rfl

theorem Within.adaptChecked_eq (h : p.Within lo hi) (hceiling : hi ≤ 8000) (outcome : SendOutcome) :
    p.adaptChecked outcome = some (p.adapt outcome) := by
  have hhz : p.adaptiveHz ≤ 8000 := h.high.trans hceiling
  have hup : Checked.mul 64 p.adaptiveHz ADAPT_UP_PERCENT =
      some (p.adaptiveHz * ADAPT_UP_PERCENT) := by
    apply Checked.mul_eq
    rw [ADAPT_UP_PERCENT]
    omega
  have hadd : Checked.add 64 p.adaptiveHz (max (p.adaptiveHz * ADAPT_UP_PERCENT / 100) 1) =
      some (p.adaptiveHz + max (p.adaptiveHz * ADAPT_UP_PERCENT / 100) 1) := by
    apply Checked.add_eq
    rw [ADAPT_UP_PERCENT]
    omega
  have hdown : Checked.mul 64 p.adaptiveHz ADAPT_DOWN_PERCENT =
      some (p.adaptiveHz * ADAPT_DOWN_PERCENT) := by
    apply Checked.mul_eq
    rw [ADAPT_DOWN_PERCENT]
    omega
  cases outcome with
  | ok =>
    simp only [adaptChecked, Pacer.adapt, succeededChecked, succeeded, h.adaptive, if_true, hup,
      Option.bind_eq_bind, Option.bind_some, hadd]
    split_ifs <;> rfl
  | noBuffer =>
    show p.backOffChecked = some p.backOff
    have hadaptive : { p with consecutiveTxOk := 0 }.adaptivePacingEnabled = true := h.adaptive
    simp only [backOffChecked, backOff, hadaptive, if_true, hdown, Option.bind_eq_bind,
      Option.bind_some]
  | failed => rfl

/-! ## Climbing back -/

/-- Since the rate was `hz`, it has risen, or the sends have all gone into one row that counts `n` at
least. -/
def Climbing (hi hz n : ℕ) (p : Pacer) : Prop :=
  (n ≤ p.consecutiveTxOk.toNat ∧ p.adaptiveHz = hz) ∨ min (hz + 1) hi ≤ p.adaptiveHz

theorem Climbing.succeeded {hz n : ℕ} (h : p.Within lo hi) (hclimb : p.Climbing hi hz n) :
    p.succeeded.Climbing hi hz (n + 1) := by
  have hhigh := h.high
  rcases h.succeeded_eq with ⟨hcount, heq⟩ | heq
  -- one more of the row, or the 32nd, which adds a hertz at least
  · rw [heq]
    refine hclimb.imp (fun hrow => ⟨?_, hrow.2⟩) id
    show n + 1 ≤ (p.consecutiveTxOk + 1).toNat
    rw [UInt16.toNat_add]
    show n + 1 ≤ (p.consecutiveTxOk.toNat + 1) % 2 ^ 16
    have hrow := hrow.1
    omega
  · right
    rw [heq]
    show min (hz + 1) hi ≤ min (p.adaptiveHz + max (p.adaptiveHz * 10 / 100) 1) hi
    rcases hclimb with ⟨-, hsame⟩ | hmore <;> omega

end Pacer

/-! ## The loops -/

def Beat.succeeds : Beat → Bool
  | .turn _ outcome _ => outcome == .ok
  | .rcvCb _ => true

namespace Timed

variable {α : Type}

/-- What the rate of a paced loop does in the state after `es` and in runs on from there. -/
structure Adapts (beat : Timed α → Beat → Timed α) (sends : Timed α → Beat → Bool) (s₀ : Timed α)
    (es : List Beat) : Prop where
  low : s₀.pacer.hzMin ≤ (run beat s₀ es).pacer.adaptiveHz
  high : (run beat s₀ es).pacer.adaptiveHz ≤ s₀.pacer.hzMax
  interval : (run beat s₀ es).pacer.intervalUs = hzToIntervalUs (run beat s₀ es).pacer.adaptiveHz
  interval_pos : 1 ≤ (run beat s₀ es).pacer.intervalUs
  falls : ∀ e, sends (run beat s₀ es) e = true → e.succeeds = false →
    (run beat s₀ (es ++ [e])).pacer.adaptiveHz ≤ (run beat s₀ es).pacer.adaptiveHz
  /-- After 32 more sends that all go well. -/
  climbs : ∀ fs, Along beat (fun s e => sends s e = true → e.succeeds = true) (run beat s₀ es) fs →
    (run beat s₀ (es ++ fs)).sends.length = (run beat s₀ es).sends.length + 32 →
      (run beat s₀ es).pacer.adaptiveHz < (run beat s₀ (es ++ fs)).pacer.adaptiveHz ∨
        (run beat s₀ (es ++ fs)).pacer.adaptiveHz = s₀.pacer.hzMax
  checked : ∀ outcome, (run beat s₀ es).pacer.adaptChecked outcome =
    some ((run beat s₀ es).pacer.adapt outcome)

variable {beat : Timed α → Beat → Timed α} {sends : Timed α → Beat → Bool}
  (hbeats : ∀ (s : Timed α) e, s.Beats (sends s e) e (beat s e)) {lo hi : ℕ}

include hbeats

theorem within_beat {s : Timed α} (h : s.pacer.Within lo hi) (e : Beat) :
    (beat s e).pacer.Within lo hi := by
  have hb := hbeats s e
  generalize beat s e = s', sends s e = sent at hb
  cases hb with
  | idle => exact h
  | sends driver clock registers outcome d hdue => exact h.sent outcome

theorem falls_of_beats {s : Timed α} (h : s.pacer.Within lo hi) {e : Beat} (hsends : sends s e = true)
    (hfail : e.succeeds = false) : (beat s e).pacer.adaptiveHz ≤ s.pacer.adaptiveHz := by
  have hb := hbeats s e
  rw [hsends] at hb
  generalize beat s e = s' at hb
  cases hb with
  | sends driver clock registers outcome d hdue =>
    show (s.pacer.sent outcome).adaptiveHz ≤ s.pacer.adaptiveHz
    rw [Pacer.sent_adaptiveHz]
    apply h.adapt_le
    simpa [Beat.succeeds] using hfail

/-- Sends that go well climb from the rate `hz` of the state with `n₀` sends. -/
theorem climbing_run (hz n₀ : ℕ) {s : Timed α} (h : s.pacer.Within lo hi)
    (hstart : s.pacer.Climbing hi hz (s.sends.length - n₀)) (hn : n₀ ≤ s.sends.length)
    {fs : List Beat}
    (hgood : Along beat (fun s e => sends s e = true → e.succeeds = true) s fs) :
    (run beat s fs).pacer.Within lo hi ∧
      (run beat s fs).pacer.Climbing hi hz ((run beat s fs).sends.length - n₀) := by
  have hstep (s : Timed α) (e : Beat) (hs : s.pacer.Within lo hi ∧
      s.pacer.Climbing hi hz (s.sends.length - n₀) ∧ n₀ ≤ s.sends.length)
      (hsucceeds : sends s e = true → e.succeeds = true) :
      (beat s e).pacer.Within lo hi ∧
        (beat s e).pacer.Climbing hi hz ((beat s e).sends.length - n₀) ∧
        n₀ ≤ (beat s e).sends.length := by
    obtain ⟨hwithin, hclimb, hle⟩ := hs
    refine ⟨within_beat hbeats hwithin e, ?_⟩
    have hb := hbeats s e
    generalize beat s e = s', sends s e = sent at hb hsucceeds
    cases hb with
    | idle => exact ⟨hclimb, hle⟩
    | sends driver clock registers outcome d hdue =>
      obtain rfl : outcome = .ok := by simpa [Beat.succeeds] using hsucceeds rfl
      have hlen (x : Pacing.Slot) : (s.sends ++ [x]).length - n₀ = s.sends.length - n₀ + 1 := by
        rw [List.length_append, List.length_singleton]
        omega
      constructor
      · rw [hlen]
        exact hclimb.succeeded hwithin
      · rw [List.length_append]
        omega
  have hlast := (hgood.always (Q := fun s : Timed α => s.pacer.Within lo hi ∧
    s.pacer.Climbing hi hz (s.sends.length - n₀) ∧ n₀ ≤ s.sends.length) ⟨h, hstart, hn⟩ hstep).last
  exact ⟨hlast.1, hlast.2.1⟩

theorem adapts {s₀ : Timed α} (h : s₀.pacer.Within s₀.pacer.hzMin s₀.pacer.hzMax)
    (hceiling : s₀.pacer.hzMax ≤ 8000) (es : List Beat) : Adapts beat sends s₀ es := by
  have hrun : (run beat s₀ es).pacer.Within s₀.pacer.hzMin s₀.pacer.hzMax :=
    (always_of_step (Q := fun s : Timed α => s.pacer.Within s₀.pacer.hzMin s₀.pacer.hzMax) h
      fun _ e hs => within_beat hbeats hs e).last
  refine ⟨hrun.low, hrun.high, hrun.interval, ?_, ?_, ?_, hrun.adaptChecked_eq hceiling⟩
  · rw [hrun.interval]
    exact hzToIntervalUs_pos _
  · intro e hsends hfail
    rw [run_concat]
    exact falls_of_beats hbeats hrun hsends hfail
  · intro fs hgood hlen
    rw [run_append] at hlen ⊢
    obtain ⟨hwithin, hclimb⟩ := climbing_run hbeats (run beat s₀ es).pacer.adaptiveHz
      (run beat s₀ es).sends.length hrun (.inl ⟨by omega, rfl⟩) le_rfl hgood
    have hhigh := hwithin.high
    have hcount := hwithin.counting
    rw [hlen, Nat.add_sub_cancel_left] at hclimb
    rcases hclimb with ⟨hrow, -⟩ | hmore
    -- no row counts to 32
    · omega
    · omega

end Timed

/-- Both loops keep their rate within its limits and climb back to the highest, at whatever frequency
they are configured and however their sends end. -/
theorem adaptive_pacing (frequencyHz : Option UInt16) (now : ℕ) (es : List Beat) :
    (∀ config node, Timed.Adapts Initiator.beat Initiator.sends
        (Initiator.startTimed config node frequencyHz ⟨true, true⟩ now) es) ∧
      ∀ mac chip config rawListen node, Timed.Adapts Responder.beat Responder.sends
        (Responder.startTimed mac chip config rawListen node frequencyHz ⟨true, true⟩ now) es := by
  constructor
  · intro config node
    apply Timed.adapts Initiator.beats
    · exact Pacer.within_start _ _ _ _
    · exact Nat.min_le_right _ _
  · intro mac chip config rawListen node
    apply Timed.adapts Responder.beats
    · exact Pacer.within_start _ _ _ _
    · exact Nat.min_le_right _ _

end EspCsi.EspNow
