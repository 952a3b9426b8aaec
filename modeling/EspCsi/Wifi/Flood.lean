import EspCsi.Lib.Pacing
import EspCsi.Lib.RoundRobin
import EspCsi.Wifi.Targets

/-!
# ICMP floods

The flood loops of `wifi/sta.rs`: to one address, to several in turn, and to all of them at each tick.
Times are microseconds of one clock, which does not overflow its 64 bits in any run. What the clock
reads, and how many datagrams the socket takes before its buffer is full, is left to the environment.
-/

namespace EspCsi.Wifi

open Transition Pacing

def ICMP_FLOOD_CATCH_UP_BURST : ℕ := 16

def ICMP_FLOOD_REPORT_INTERVAL_US : ℕ := 1000000

def targetHz (frequencyHz : Option UInt16) : ℕ := max ((frequencyHz.map UInt16.toNat).getD 100) 1

def txIntervalUs (frequencyHz : Option UInt16) : ℕ := 1000000 / targetHz frequencyHz

/-- A datagram that the socket takes: when it does, and what the clock reads after it. -/
structure Accepted where
  at_ : ℕ
  nowUs : ℕ
deriving DecidableEq, Repr

/-- What a pass's loop leaves: its clock and its deadline, and the datagrams it enqueued. -/
structure CatchUp where
  nowUs : ℕ
  nextTxUs : ℕ
  sent : List Slot
deriving DecidableEq, Repr

/-- `while now_us >= next_tx_us && burst_budget > 0`, over the datagrams that the socket would take
before it refuses one. -/
def catchUp (interval : ℕ) : ℕ → ℕ → ℕ → List Accepted → CatchUp
  | 0, nowUs, nextTxUs, _ => ⟨nowUs, nextTxUs, []⟩
  -- the buffer is full: the source leaves the loop, and the deadline stays where it is
  | _ + 1, nowUs, nextTxUs, [] => ⟨nowUs, nextTxUs, []⟩
  | burstBudget + 1, nowUs, nextTxUs, a :: accepted =>
    if nextTxUs ≤ nowUs then
      let rest := catchUp interval burstBudget a.nowUs (nextTxUs + interval) accepted
      { rest with sent := ⟨nextTxUs, a.at_⟩ :: rest.sent }
    else ⟨nowUs, nextTxUs, []⟩

/-- The deadline of a loop, the last reading of its clock, and what its passes enqueued. -/
structure Cadence where
  nextTxUs : ℕ
  nowUs : ℕ
  bursts : List Burst
deriving DecidableEq, Repr

namespace Cadence

def start (interval nowUs : ℕ) : Cadence := ⟨nowUs + interval, nowUs, []⟩

/-- The debt is clamped to one burst's worth of intervals. -/
def clamp (interval : ℕ) (c : Cadence) (nowUs : ℕ) : ℕ :=
  max c.nextTxUs (nowUs - interval * ICMP_FLOOD_CATCH_UP_BURST)

def catchUp (interval : ℕ) (c : Cadence) (nowUs : ℕ) (accepted : List Accepted) : CatchUp :=
  Wifi.catchUp interval ICMP_FLOOD_CATCH_UP_BURST nowUs (c.clamp interval nowUs) accepted

def pass (interval : ℕ) (c : Cadence) (nowUs : ℕ) (accepted : List Accepted) : Cadence where
  nextTxUs := (c.catchUp interval nowUs accepted).nextTxUs
  nowUs := (c.catchUp interval nowUs accepted).nowUs
  bursts := c.bursts ++ [⟨nowUs, (c.catchUp interval nowUs accepted).sent⟩]

def sent (c : Cadence) : List Slot := c.bursts.flatMap Burst.slots

end Cadence

/-! ## One address -/

structure IcmpFlood where
  interval : ℕ
  watchDhcp : Bool
  src : Ipv4Addr
  dst : Ipv4Addr
  cadence : Cadence
deriving DecidableEq, Repr

/-- A pass of the loop: its first reading, what the socket takes, and the configuration that the wait
brings, if any. -/
structure FloodPass where
  nowUs : ℕ
  accepted : List Accepted
  newIp : Option IpInfo
deriving DecidableEq, Repr

namespace IcmpFlood

def start (src dst : Ipv4Addr) (frequencyHz : Option UInt16) (watchDhcp : Bool) (nowUs : ℕ) :
    IcmpFlood where
  interval := txIntervalUs frequencyHz
  watchDhcp
  src
  dst
  cadence := .start (txIntervalUs frequencyHz) nowUs

def pass (s : IcmpFlood) (p : FloodPass) : IcmpFlood :=
  let s := { s with cadence := s.cadence.pass s.interval p.nowUs p.accepted }
  match p.newIp with
  | some ip =>
    if s.watchDhcp then { s with src := ip.localAddress, dst := ip.gatewayAddress } else s
  | none => s

end IcmpFlood

/-! ## Several addresses -/

/-- The addresses a flood serves, and the places in their list of the datagrams enqueued since it was
last replaced. `earlier` are the lengths of the lists before it, with their datagrams. -/
structure Served where
  dsts : List Ipv4Addr
  nonempty : dsts ≠ []
  frames : List ℕ
  earlier : List (ℕ × List ℕ)

namespace Served

def start (dsts : List Ipv4Addr) (h : dsts ≠ []) : Served := ⟨dsts, h, [], []⟩

def enqueue (s : Served) (places : List ℕ) : Served := { s with frames := s.frames ++ places }

/-- The refreshed list takes the place of another one, unless it is empty. -/
def Replaces (s : Served) (updated : List Ipv4Addr) : Prop := updated ≠ [] ∧ updated ≠ s.dsts

instance (s : Served) (updated : List Ipv4Addr) : Decidable (s.Replaces updated) :=
  inferInstanceAs (Decidable (_ ∧ _))

def replace (s : Served) (updated : List Ipv4Addr) (h : updated ≠ []) : Served where
  dsts := updated
  nonempty := h
  frames := []
  earlier := s.earlier ++ [(s.dsts.length, s.frames)]

end Served

/-- `run_icmp_flood_multi`. With one address and no refresh the source runs `run_icmp_flood`, which
sends as this loop does. `dstIdx` is a word of 32 bits. -/
structure IcmpFloodMulti where
  interval : ℕ
  served : Served
  dstIdx : UInt32
  lastReportUs : ℕ
  cadence : Cadence

/-- A pass of the loop: its first reading, what the socket takes, and what `refresh_targets` would
return, if there is one. -/
structure MultiPass where
  nowUs : ℕ
  accepted : List Accepted
  updated : Option (List Ipv4Addr)
deriving DecidableEq, Repr

namespace IcmpFloodMulti

def start (dsts : List Ipv4Addr) (h : dsts ≠ []) (frequencyHz : Option UInt16) (nowUs : ℕ) :
    IcmpFloodMulti where
  interval := txIntervalUs frequencyHz
  served := .start dsts h
  dstIdx := 0
  lastReportUs := nowUs
  cadence := .start (txIntervalUs frequencyHz) nowUs

/-- The deadline's burst goes to the place that the index names when the pass begins. -/
def burst (s : IcmpFloodMulti) (p : MultiPass) : IcmpFloodMulti :=
  let dst := s.dstIdx.toNat % s.served.dsts.length
  let sent := (s.cadence.catchUp s.interval p.nowUs p.accepted).sent
  { s with
    served := s.served.enqueue (List.replicate sent.length dst)
    dstIdx := s.dstIdx + UInt32.ofNat sent.length
    cadence := s.cadence.pass s.interval p.nowUs p.accepted }

def report (s : IcmpFloodMulti) (updated : Option (List Ipv4Addr)) : IcmpFloodMulti :=
  if s.cadence.nowUs - s.lastReportUs ≥ ICMP_FLOOD_REPORT_INTERVAL_US then
    let s := { s with lastReportUs := s.cadence.nowUs }
    match updated with
    | some updated =>
      if h : s.served.Replaces updated then
        { s with served := s.served.replace updated h.1, dstIdx := 0 }
      else s
    | none => s
  else s

def pass (s : IcmpFloodMulti) (p : MultiPass) : IcmpFloodMulti := (s.burst p).report p.updated

end IcmpFloodMulti

/-! ## The rate -/

/-- The clock never goes back, from one reading to the next, and a datagram is enqueued between two. -/
def Ticks : ℕ → List Accepted → Prop
  | _, [] => True
  | nowUs, a :: accepted => nowUs ≤ a.at_ ∧ a.at_ ≤ a.nowUs ∧ Ticks a.nowUs accepted

instance decidableTicks : (nowUs : ℕ) → (accepted : List Accepted) →
    Decidable (Ticks nowUs accepted)
  | _, [] => isTrue trivial
  | nowUs, a :: accepted =>
    have := decidableTicks a.nowUs accepted
    inferInstanceAs (Decidable (nowUs ≤ a.at_ ∧ a.at_ ≤ a.nowUs ∧ Ticks a.nowUs accepted))

theorem txIntervalUs_pos (frequencyHz : Option UInt16) : 0 < txIntervalUs frequencyHz := by
  have hhz : targetHz frequencyHz ≤ 1000000 := by
    unfold targetHz
    cases frequencyHz with
    | none => decide
    | some hz =>
      have hlt := hz.toNat_lt
      simp only [Option.map_some, Option.getD_some]
      omega
  exact Nat.div_pos hhz (Nat.le_max_right _ _)

/-- What the loop of a pass enqueues: each datagram after its deadline, the deadlines an interval
apart, no more than the budget. -/
theorem catchUp_paced (burstBudget : ℕ) {interval nowUs nextTxUs : ℕ} {accepted : List Accepted}
    {xs : List Slot} (h : Paced interval nextTxUs xs) (hticks : Ticks nowUs accepted) :
    let r := catchUp interval burstBudget nowUs nextTxUs accepted
    Paced interval r.nextTxUs (xs ++ r.sent) ∧ r.sent.length ≤ burstBudget ∧ nowUs ≤ r.nowUs ∧
      ∀ x ∈ r.sent, nextTxUs ≤ x.due ∧ x.at_ ≤ r.nowUs := by
  induction burstBudget generalizing nowUs nextTxUs accepted xs with
  | zero => simpa [catchUp] using h
  | succ burstBudget ih =>
    cases accepted with
    | nil => simpa [catchUp] using h
    | cons a accepted =>
      by_cases hdue : nextTxUs ≤ nowUs
      · obtain ⟨hat, hnow, hrest⟩ := hticks
        -- the datagram is due at or before the reading, and enqueued at or after it
        have htake := h.take (hdue.trans hat) (le_refl interval)
        obtain ⟨hpaced, hlen, hclock, hsent⟩ := ih htake hrest
        simp only [catchUp, if_pos hdue]
        refine ⟨?_, Nat.succ_le_succ hlen, by omega, ?_⟩
        · rwa [List.append_assoc, List.singleton_append] at hpaced
        · intro x hx
          rcases List.mem_cons.mp hx with rfl | hx
          · exact ⟨le_rfl, hnow.trans hclock⟩
          · have hafter := hsent x hx
            exact ⟨by omega, hafter.2⟩
      · simpa [catchUp, hdue] using h

namespace Cadence

/-- The bursts so far were clamped, and lie behind the clock. -/
structure Kept (interval : ℕ) (c : Cadence) : Prop where
  paced : Paced interval c.nextTxUs c.sent
  size_le : ∀ b ∈ c.bursts, b.slots.length ≤ ICMP_FLOOD_CATCH_UP_BURST
  debt : ∀ b ∈ c.bursts, ∀ x ∈ b.slots, b.began ≤ x.due + ICMP_FLOOD_CATCH_UP_BURST * interval
  order : c.bursts.Pairwise fun b b' => b.began ≤ b'.began ∧ ∀ x ∈ b.slots, x.at_ ≤ b'.began
  past : ∀ b ∈ c.bursts, b.began ≤ c.nowUs ∧ ∀ x ∈ b.slots, x.at_ ≤ c.nowUs

theorem kept_start (interval nowUs : ℕ) : (start interval nowUs).Kept interval where
  paced := paced_nil _ _
  size_le := by simp [start]
  debt := by simp [start]
  order := List.Pairwise.nil
  past := by simp [start]

theorem Kept.pass {interval : ℕ} {c : Cadence} (h : c.Kept interval) {nowUs : ℕ}
    {accepted : List Accepted} (hnow : c.nowUs ≤ nowUs) (hticks : Ticks nowUs accepted) :
    (c.pass interval nowUs accepted).Kept interval := by
  have hclamp : Paced interval (c.clamp interval nowUs) c.sent :=
    ⟨h.paced.spaced, h.paced.due, fun x hx => (h.paced.next x hx).trans (Nat.le_max_left _ _)⟩
  obtain ⟨hpaced, hlen, hclock, hsent⟩ :=
    catchUp_paced ICMP_FLOOD_CATCH_UP_BURST hclamp hticks
  refine ⟨?_, ?_, ?_, ?_, ?_⟩
  · have hall : (c.pass interval nowUs accepted).sent =
        c.sent ++ (c.catchUp interval nowUs accepted).sent := by
      simp [Cadence.pass, sent]
    rw [hall]
    exact hpaced
  · refine List.forall_mem_append.mpr ⟨h.size_le, ?_⟩
    exact List.forall_mem_singleton.mpr hlen
  -- the clamp: nothing the pass enqueues is overdue by more than a burst
  · refine List.forall_mem_append.mpr ⟨h.debt, List.forall_mem_singleton.mpr fun x hx => ?_⟩
    have hdue := (hsent x hx).1
    unfold clamp at hdue
    rw [Nat.mul_comm]
    show nowUs ≤ _
    omega
  · refine List.pairwise_append.mpr ⟨h.order, List.pairwise_singleton _ _, ?_⟩
    intro b hb b' hb'
    obtain rfl := List.mem_singleton.mp hb'
    obtain ⟨hbegan, hslots⟩ := h.past b hb
    exact ⟨hbegan.trans hnow, fun x hx => (hslots x hx).trans hnow⟩
  · refine List.forall_mem_append.mpr ⟨fun b hb => ?_, ?_⟩
    · obtain ⟨hbegan, hslots⟩ := h.past b hb
      have hlater : c.nowUs ≤ (c.pass interval nowUs accepted).nowUs := hnow.trans hclock
      exact ⟨hbegan.trans hlater, fun x hx => (hslots x hx).trans hlater⟩
    · exact List.forall_mem_singleton.mpr ⟨hclock, fun x hx => (hsent x hx).2⟩

theorem Kept.rateBounded {interval : ℕ} {c : Cadence} (hpos : 0 < interval) (h : c.Kept interval) :
    RateBounded interval 33 c.sent := by
  have hclamped : Clamped interval ICMP_FLOOD_CATCH_UP_BURST c.bursts :=
    ⟨h.paced.spaced, h.paced.due, h.size_le, h.debt, h.order⟩
  exact hclamped.rateBounded hpos

end Cadence

theorem IcmpFlood.pass_cadence (s : IcmpFlood) (p : FloodPass) :
    (s.pass p).interval = s.interval ∧
      (s.pass p).cadence = s.cadence.pass s.interval p.nowUs p.accepted := by
  unfold pass
  dsimp only
  cases p.newIp with
  | none => exact ⟨rfl, rfl⟩
  | some ip => split_ifs <;> exact ⟨rfl, rfl⟩

theorem IcmpFloodMulti.pass_cadence (s : IcmpFloodMulti) (p : MultiPass) :
    (s.pass p).interval = s.interval ∧
      (s.pass p).cadence = s.cadence.pass s.interval p.nowUs p.accepted := by
  unfold pass report
  cases p.updated with
  | none => split_ifs <;> exact ⟨rfl, rfl⟩
  | some updated =>
    dsimp only
    split_ifs <;> exact ⟨rfl, rfl⟩

theorem Cadence.Kept.along {σ π : Type} {pass : σ → π → σ} (interval : σ → ℕ)
    (cadence : σ → Cadence) {now : π → ℕ} {accepted : π → List Accepted}
    (hpass : ∀ s p, interval (pass s p) = interval s ∧
      cadence (pass s p) = (cadence s).pass (interval s) (now p) (accepted p))
    {s : σ} (h : (cadence s).Kept (interval s)) {ps : List π}
    (hticks : Along pass (fun s p => (cadence s).nowUs ≤ now p ∧ Ticks (now p) (accepted p)) s ps) :
    (cadence (run pass s ps)).Kept (interval s) := by
  have halways := hticks.always
    (Q := fun s' => interval s' = interval s ∧ (cadence s').Kept (interval s)) ⟨rfl, h⟩ (by
      rintro s' p ⟨hinterval, hkept⟩ ⟨hnow, hticks⟩
      obtain ⟨hsame, hcadence⟩ := hpass s' p
      rw [hcadence, hsame, hinterval]
      exact ⟨rfl, hkept.pass hnow hticks⟩)
  exact halways.last.2

/-- Both floods keep to their rate, but for a burst in progress, one burst of catching up and one
datagram more, on every clock that does not go back and however the socket takes their datagrams. -/
theorem flood_rateBounded (frequencyHz : Option UInt16) (nowUs : ℕ) :
    (∀ src dst watchDhcp (ps : List FloodPass),
        Along IcmpFlood.pass (fun s p => s.cadence.nowUs ≤ p.nowUs ∧ Ticks p.nowUs p.accepted)
          (.start src dst frequencyHz watchDhcp nowUs) ps →
        RateBounded (txIntervalUs frequencyHz) 33
          (run IcmpFlood.pass (.start src dst frequencyHz watchDhcp nowUs) ps).cadence.sent) ∧
      ∀ dsts (h : dsts ≠ []) (ps : List MultiPass),
        Along IcmpFloodMulti.pass (fun s p => s.cadence.nowUs ≤ p.nowUs ∧ Ticks p.nowUs p.accepted)
          (.start dsts h frequencyHz nowUs) ps →
        RateBounded (txIntervalUs frequencyHz) 33
          (run IcmpFloodMulti.pass (.start dsts h frequencyHz nowUs) ps).cadence.sent := by
  have hstart := Cadence.kept_start (txIntervalUs frequencyHz) nowUs
  have hpos := txIntervalUs_pos frequencyHz
  constructor
  · intro src dst watchDhcp ps hticks
    have hkept := Cadence.Kept.along IcmpFlood.interval IcmpFlood.cadence IcmpFlood.pass_cadence
      hstart hticks
    exact hkept.rateBounded hpos
  · intro dsts h ps hticks
    have hkept := Cadence.Kept.along IcmpFloodMulti.interval IcmpFloodMulti.cadence
      IcmpFloodMulti.pass_cadence hstart hticks
    exact hkept.rateBounded hpos

/-- Two readings of the clock a second late, and what the socket takes after each. -/
def stalledPasses : List (ℕ × List Accepted) :=
  [(1000000, List.replicate 16 ⟨1000000, 1000000⟩), (1000000, [⟨1000000, 1000000⟩])]

/-- Either flood, at 100 Hz, that has stood still for a second sends seventeen datagrams at once. -/
theorem flood_rateBounded_stalled :
    let single := run IcmpFlood.pass (.start .UNSPECIFIED .UNSPECIFIED (some 100) false 0)
      (stalledPasses.map fun p => ⟨p.1, p.2, none⟩)
    let multi := run IcmpFloodMulti.pass
      (.start [.UNSPECIFIED, ⟨192, 168, 13, 2⟩] (by simp) (some 100) 0)
      (stalledPasses.map fun p => ⟨p.1, p.2, none⟩)
    (RateBounded 10000 33 single.cadence.sent ∧ single.cadence.sent.length = 17) ∧
      RateBounded 10000 33 multi.cadence.sent ∧ multi.cadence.sent.length = 17 :=
  ⟨⟨(flood_rateBounded (some 100) 0).1 _ _ _ _ (by decide +kernel), by decide +kernel⟩,
    (flood_rateBounded (some 100) 0).2 _ _ _ (by decide +kernel), by decide +kernel⟩

end EspCsi.Wifi
