import EspCsi.Csi.Events

/-!
# Receive timestamps

When the widened receive times of the delivered frames share one time base with the radio's clock.
The widening state moves with the frames that are delivered, so what counts is the time from one
delivered frame to the next, however many captured frames lie between.
-/

namespace EspCsi.Csi

open Wire Transition

/-! ## Widening one timestamp -/

namespace Session

theorem stamp_toNat (wraps raw : UInt32) :
    (stamp wraps raw).toNat = wraps.toNat * 2 ^ 32 + raw.toNat := by
  have hw : wraps.toNat < 2 ^ 32 := wraps.toNat_lt
  have hr : raw.toNat < 2 ^ 32 := raw.toNat_lt
  have hshift : wraps.toNat <<< 32 = wraps.toNat * 2 ^ 32 := Nat.shiftLeft_eq _ _
  have hmod : wraps.toNat <<< 32 % 2 ^ 64 = wraps.toNat <<< 32 := by
    rw [hshift]
    omega
  rw [stamp, UInt64.toNat_or, UInt64.toNat_shiftLeft]
  simp only [UInt32.toNat_toUInt64]
  change wraps.toNat <<< 32 % 2 ^ 64 ||| raw.toNat = _
  rw [hmod, ← Nat.shiftLeft_add_eq_or_of_lt hr, hshift]

/-- The widening state after a frame received at `t`, the run's time base lying `base` wraps of the
radio's clock back. -/
structure Tracks (s : Session) (base t : ℕ) : Prop where
  last : s.tsLastRaw.toNat = t % 2 ^ 32
  wraps : s.tsWraps.toNat + base = t / 2 ^ 32

/-- The next frame is close enough to be told apart: less than half the clock's range later, or
exactly half of it and past a wrap, or the clock has not wrapped in this run yet. -/
def InReach (base t t' : ℕ) : Prop :=
  t' - t < 2 ^ 31 ∨ (t' - t = 2 ^ 31 ∧ t / 2 ^ 32 ≠ t' / 2 ^ 32) ∨
    (t' / 2 ^ 32 = t / 2 ^ 32 ∧ t / 2 ^ 32 = base)

theorem gt_HALF {a : UInt32} : a > HALF ↔ 2 ^ 31 ≤ a.toNat := by
  have hhalf : HALF.toNat = 2 ^ 31 - 1 := by decide
  rw [gt_iff_lt, UInt32.lt_iff_toNat_lt, hhalf]
  omega

/-- Far below the last one: the clock has wrapped. -/
theorem widenTimestamp_wrap {s : Session} {raw : UInt32}
    (h : raw.toNat + 2 ^ 31 ≤ s.tsLastRaw.toNat) :
    s.widenTimestamp raw =
      (stamp (s.tsWraps + 1) raw, { s with tsWraps := s.tsWraps + 1, tsLastRaw := raw }) := by
  have hless : raw < s.tsLastRaw := UInt32.lt_iff_toNat_lt.mpr (by omega)
  have hsub := UInt32.toNat_sub_of_le _ _ (UInt32.le_of_lt hless)
  have hgap : s.tsLastRaw - raw > HALF := gt_HALF.mpr (by omega)
  simp only [widenTimestamp, if_pos hless, if_pos hgap]

/-- A little below it: stamped in the current epoch. -/
theorem widenTimestamp_late {s : Session} {raw : UInt32} (h : raw.toNat < s.tsLastRaw.toNat)
    (hnear : s.tsLastRaw.toNat < raw.toNat + 2 ^ 31) :
    s.widenTimestamp raw = (stamp s.tsWraps raw, s) := by
  have hless : raw < s.tsLastRaw := UInt32.lt_iff_toNat_lt.mpr h
  have hsub := UInt32.toNat_sub_of_le _ _ (UInt32.le_of_lt hless)
  have hgap : ¬ s.tsLastRaw - raw > HALF := fun hgt => by
    have := gt_HALF.mp hgt
    omega
  simp only [widenTimestamp, if_pos hless, if_neg hgap]

/-- Far above it, once the clock has wrapped: taken for a frame from before the wrap. -/
theorem widenTimestamp_straggler {s : Session} {raw : UInt32}
    (h : s.tsLastRaw.toNat + 2 ^ 31 ≤ raw.toNat) (hwraps : 0 < s.tsWraps.toNat) :
    s.widenTimestamp raw = (stamp (s.tsWraps - 1) raw, s) := by
  have hless : ¬ raw < s.tsLastRaw := fun hlt => by
    have := UInt32.lt_iff_toNat_lt.mp hlt
    omega
  have hsub := UInt32.toNat_sub_of_le _ _ (UInt32.not_lt.mp hless)
  have hgap : raw - s.tsLastRaw > HALF ∧ s.tsWraps > 0 :=
    ⟨gt_HALF.mpr (by omega), UInt32.lt_iff_toNat_lt.mpr hwraps⟩
  simp only [widenTimestamp, if_neg hless, if_pos hgap]

/-- Otherwise it is the next frame of the current epoch. -/
theorem widenTimestamp_next {s : Session} {raw : UInt32} (h : s.tsLastRaw.toNat ≤ raw.toNat)
    (hnear : raw.toNat < s.tsLastRaw.toNat + 2 ^ 31 ∨ s.tsWraps.toNat = 0) :
    s.widenTimestamp raw = (stamp s.tsWraps raw, { s with tsLastRaw := raw }) := by
  have hless : ¬ raw < s.tsLastRaw := fun hlt => by
    have := UInt32.lt_iff_toNat_lt.mp hlt
    omega
  have hsub := UInt32.toNat_sub_of_le _ _ (UInt32.not_lt.mp hless)
  have hgap : ¬ (raw - s.tsLastRaw > HALF ∧ s.tsWraps > 0) := fun hgt => by
    have hfar := gt_HALF.mp hgt.1
    have hwraps : 0 < s.tsWraps.toNat := UInt32.lt_iff_toNat_lt.mp hgt.2
    omega
  simp only [widenTimestamp, if_neg hless, if_neg hgap]

/-- The time base is kept exactly when the next frame is in reach. -/
theorem Tracks.widenTimestamp_iff {s : Session} {base t t' : ℕ} {raw : UInt32}
    (h : s.Tracks base t) (hraw : raw.toNat = t' % 2 ^ 32) (hle : t ≤ t') (hlt : t' < 2 ^ 64) :
    (s.widenTimestamp raw).1.toNat + base * 2 ^ 32 = t' ↔ InReach base t t' := by
  obtain ⟨hlast, hwraps⟩ := h
  unfold InReach
  by_cases hless : raw.toNat < s.tsLastRaw.toNat
  · by_cases hwrap : raw.toNat + 2 ^ 31 ≤ s.tsLastRaw.toNat
    · have hadd : (s.tsWraps + 1).toNat = s.tsWraps.toNat + 1 := by
        rw [UInt32.toNat_add]
        simp only [UInt32.reduceToNat]
        omega
      rw [widenTimestamp_wrap hwrap, stamp_toNat, hadd]
      omega
    · rw [widenTimestamp_late hless (by omega), stamp_toNat]
      omega
  · by_cases hfar : s.tsLastRaw.toNat + 2 ^ 31 ≤ raw.toNat ∧ 0 < s.tsWraps.toNat
    · have hsub : (s.tsWraps - 1).toNat = s.tsWraps.toNat - 1 :=
        UInt32.toNat_sub_of_le _ _ (UInt32.le_iff_toNat_le.mpr hfar.2)
      rw [widenTimestamp_straggler hfar.1 hfar.2, stamp_toNat, hsub]
      omega
    · rw [widenTimestamp_next (by omega) (by omega), stamp_toNat]
      omega

theorem Tracks.widenTimestamp {s : Session} {base t t' : ℕ} {raw : UInt32}
    (h : s.Tracks base t) (hraw : raw.toNat = t' % 2 ^ 32) (hle : t ≤ t') (hlt : t' < 2 ^ 64)
    (hreach : InReach base t t') : (s.widenTimestamp raw).2.Tracks base t' := by
  obtain ⟨hlast, hwraps⟩ := h
  unfold InReach at hreach
  by_cases hwrap : raw.toNat + 2 ^ 31 ≤ s.tsLastRaw.toNat
  · have hadd : (s.tsWraps + 1).toNat = s.tsWraps.toNat + 1 := by
      rw [UInt32.toNat_add]
      simp only [UInt32.reduceToNat]
      omega
    rw [widenTimestamp_wrap hwrap]
    refine ⟨hraw, ?_⟩
    change (s.tsWraps + 1).toNat + base = t' / 2 ^ 32
    rw [hadd]
    omega
  · rw [widenTimestamp_next (by omega) (by omega)]
    refine ⟨hraw, ?_⟩
    change s.tsWraps.toNat + base = t' / 2 ^ 32
    omega

theorem widenTimestamp_first {s : Session} {t : ℕ} {raw : UInt32} (hlast : s.tsLastRaw.toNat = 0)
    (hwraps : s.tsWraps.toNat = 0) (hraw : raw.toNat = t % 2 ^ 32) :
    (s.widenTimestamp raw).1.toNat + t / 2 ^ 32 * 2 ^ 32 = t ∧
      (s.widenTimestamp raw).2.Tracks (t / 2 ^ 32) t := by
  rw [widenTimestamp_next (by omega) (.inr hwraps), stamp_toNat]
  refine ⟨by omega, hraw, ?_⟩
  change s.tsWraps.toNat + t / 2 ^ 32 = t / 2 ^ 32
  omega

end Session

/-! ## Stamped frames -/

theorem rxMeta_timestampUs (chip : Chip) (info : WifiCsiInfo) (timestampUs : UInt64) :
    (rxMeta chip info timestampUs).1.timestampUs = timestampUs := by
  unfold rxMeta
  split_ifs <;> rfl

theorem Node.packetOf_timestampUs {board : Board} {n : Node} {info : WifiCsiInfo} {now : UInt64}
    {p : CsiPacket} {session : Session} (h : n.packetOf board info now = some (p, session)) :
    let widened := n.session.widenTimestamp info.timestampUs.toUInt32
    p.frame.rxMeta.timestampUs = widened.1 ∧ session.tsLastRaw = widened.2.tsLastRaw ∧
      session.tsWraps = widened.2.tsWraps := by
  intro widened
  obtain ⟨frame, s, score, streamSeq, anchorPending, hframe, hreport, rfl⟩ :=
    Node.packetOf_eq_some h
  obtain ⟨hmeta, -, rfl⟩ := frameFromEsp_eq_some hframe
  rw [hreport, reportedAs_rxMeta, hmeta, rxMeta_timestampUs]
  exact ⟨rfl, rfl, rfl⟩

theorem step_capture_of_delivers {board : Board} {n : Node} {info : WifiCsiInfo} {now : UInt64}
    (h : n.Delivers board info now) :
    ∃ p, n.delivered board (.capture info now) = some p ∧
      let widened := n.session.widenTimestamp info.timestampUs.toUInt32
      let session := (step board n (.capture info now)).session
      p.frame.rxMeta.timestampUs = widened.1 ∧ session.tsLastRaw = widened.2.tsLastRaw ∧
        session.tsWraps = widened.2.tsWraps := by
  obtain ⟨p, session, rxCount, bbFormatHist, policy, hp, heq⟩ :=
    Node.acquireCapture_of_delivers h
  have hclock := Node.packetOf_timestampUs hp
  refine ⟨p, by simp [Node.delivered, acquire, heq], ?_⟩
  simpa [step, Node.captureCsiInfo, heq, Node.deliverAcquired] using hclock

theorem step_clock (board : Board) {n : Node} {e : Event}
    (hcapture : ∀ info now, e ≠ .capture info now) (hbegin : ∀ cfg, e ≠ .beginRun cfg) :
    (step board n e).session.tsLastRaw = n.session.tsLastRaw ∧
      (step board n e).session.tsWraps = n.session.tsWraps := by
  cases hdel : n.delivered board e with
  | none =>
    have hsame := step_session_of_undelivered hdel hbegin
    exact ⟨hsame.tsLastRaw, hsame.tsWraps⟩
  | some p =>
    cases e with
    | capture info now => exact absurd rfl (hcapture info now)
    | emit kind frame now =>
      by_cases hemits : n.Emits frame now
      · obtain ⟨-, streamSeq, anchorPending, hsession⟩ := CsiPacket.new_eq board n.session
          (policyAdmitsFrame n.gates n.policy frame now).2.1 kind now
        simp [step, Node.emit, Node.acquireEmit_of_emits hemits, Node.deliverAcquired,
          Node.emittedPacket, hsession]
      · obtain ⟨stats, policy, heq⟩ := Node.acquireEmit_of_not_emits board kind hemits
        simp [Node.delivered, acquire, heq] at hdel
    | _ => simp [Node.delivered, acquire] at hdel

/-! ## Runs -/

/-- An event with the time at which its frame was truly received, where it is a capture. -/
structure Timed where
  event : Event
  time : UInt64

/-- The node, the true time of the last captured frame, and the true and the reported time of every
delivered one, oldest first. -/
structure Clocked where
  node : Node
  captured : Option UInt64
  stamps : List (UInt64 × UInt64)

namespace Clocked

def start (n : Node) : Clocked := ⟨n, none, []⟩

def step (board : Board) (s : Clocked) (e : Timed) : Clocked where
  node := Csi.step board s.node e.event
  captured :=
    match e.event with
    | .capture _ _ => some e.time
    | _ => s.captured
  stamps :=
    match e.event with
    | .capture _ _ => s.stamps ++ (s.node.delivered board e.event).toList.map fun p =>
        (e.time, p.frame.rxMeta.timestampUs)
    | _ => s.stamps

/-- The radio stamps each frame with the low half of its receive time, and captured frames come in
order and less than half the clock's range apart. No other run begins. -/
def InOrder (s : Clocked) (e : Timed) : Prop :=
  match e.event with
  | .capture info _ => info.timestampUs.toUInt32 = e.time.toUInt32 ∧
      ∀ t ∈ s.captured, t.toNat ≤ e.time.toNat ∧ e.time.toNat < t.toNat + 2 ^ 31
  | .beginRun _ => False
  | _ => True

/-- All delivered frames' reported times differ from the true ones by one constant. -/
def OneTimeBase (s : Clocked) : Prop :=
  ∃ c : ℤ, ∀ x ∈ s.stamps, (x.1.toNat : ℤ) - x.2.toNat = c

/-- The wraps of the radio's clock before the first delivered frame. -/
def base (s : Clocked) : ℕ :=
  match s.stamps with
  | [] => 0
  | x :: _ => x.1.toNat / 2 ^ 32

/-- A delivered frame is in reach of the one delivered before it. -/
def Reaches (board : Board) (s : Clocked) (e : Timed) : Prop :=
  match e.event with
  | .capture info now => s.node.Delivers board info now → ∀ last ∈ s.stamps.getLast?,
      Session.InReach s.base last.1.toNat e.time.toNat
  | _ => True

instance (base t t' : ℕ) : Decidable (Session.InReach base t t') :=
  inferInstanceAs (Decidable (_ ∨ _ ∨ _))

-- not by going through all the values of a machine integer
local instance decidableForallMem {α : Type} (o : Option α) (P : α → Prop) [DecidablePred P] :
    Decidable (∀ a ∈ o, P a) :=
  o.decidableForallMem

instance (s : Clocked) (e : Timed) : Decidable (s.InOrder e) := by
  unfold InOrder
  split <;> infer_instance

instance (board : Board) (s : Clocked) (e : Timed) : Decidable (s.Reaches board e) := by
  unfold Reaches
  split <;> infer_instance

/-- The widening state tracks the last delivered frame, and the first one was stamped with no wrap
counted. -/
structure Synced (s : Clocked) : Prop where
  fresh : s.stamps = [] →
    s.node.session.tsLastRaw.toNat = 0 ∧ s.node.session.tsWraps.toNat = 0
  tracks : ∀ last ∈ s.stamps.getLast?, s.node.session.Tracks s.base last.1.toNat
  first : ∀ x ∈ s.stamps.head?, x.2.toNat + s.base * 2 ^ 32 = x.1.toNat
  behind : ∀ last ∈ s.stamps.getLast?, ∃ t ∈ s.captured, last.1.toNat ≤ t.toNat

theorem Synced.oneTimeBase_iff {s : Clocked} (h : s.Synced) :
    s.OneTimeBase ↔ ∀ x ∈ s.stamps, x.2.toNat + s.base * 2 ^ 32 = x.1.toNat := by
  constructor
  · rintro ⟨c, hc⟩ x hx
    cases hstamps : s.stamps with
    | nil => simp [hstamps] at hx
    | cons y ys =>
      have hy := h.first y (by simp [hstamps])
      have hcy := hc y (by simp [hstamps])
      have hcx := hc x hx
      omega
  · intro hall
    refine ⟨s.base * 2 ^ 32, fun x hx => ?_⟩
    have := hall x hx
    omega

theorem Synced.of_same {s s' : Clocked} (h : s.Synced) (hstamps : s'.stamps = s.stamps)
    (hlast : s'.node.session.tsLastRaw = s.node.session.tsLastRaw)
    (hwraps : s'.node.session.tsWraps = s.node.session.tsWraps)
    (hcaptured : ∀ t ∈ s.captured, ∃ t' ∈ s'.captured, t.toNat ≤ t'.toNat) : s'.Synced := by
  have hbase : s'.base = s.base := by rw [base, base, hstamps]
  constructor
  · intro hnil
    rw [hlast, hwraps]
    exact h.fresh (hstamps ▸ hnil)
  · intro last hmem
    obtain ⟨htrack, hepoch⟩ := h.tracks last (hstamps ▸ hmem)
    exact ⟨hlast ▸ htrack, hwraps ▸ hbase ▸ hepoch⟩
  · intro x hx
    rw [hbase]
    exact h.first x (hstamps ▸ hx)
  · intro last hmem
    obtain ⟨t, ht, hle⟩ := h.behind last (hstamps ▸ hmem)
    obtain ⟨t', ht', hle'⟩ := hcaptured t ht
    exact ⟨t', ht', hle.trans hle'⟩

theorem step_of_not_delivers {board : Board} {s : Clocked} {info : WifiCsiInfo} {now time : UInt64}
    (h : ¬ s.node.Delivers board info now) :
    s.step board ⟨.capture info now, time⟩ =
      { node := Csi.step board s.node (.capture info now), captured := some time
        stamps := s.stamps } := by
  obtain ⟨stats, policy, out, heq, -⟩ := Node.acquireCapture_of_not_delivers h
  simp [step, Node.delivered, acquire, heq]

theorem Synced.of_concat {s : Clocked} {stamps : List (UInt64 × UInt64)} {time stamp : UInt64}
    (hstamps : s.stamps = stamps ++ [(time, stamp)]) (hcaptured : s.captured = some time)
    (htracks : s.node.session.Tracks s.base time.toNat)
    (hfirst : ∀ x ∈ s.stamps.head?, x.2.toNat + s.base * 2 ^ 32 = x.1.toNat) : s.Synced := by
  have hlast : s.stamps.getLast? = some (time, stamp) := by simp [hstamps]
  constructor
  · intro hnil
    simp [hnil] at hlast
  · intro last hmem
    obtain rfl : (time, stamp) = last := by simpa [hlast] using hmem
    exact htracks
  · exact hfirst
  · intro last hmem
    obtain rfl : (time, stamp) = last := by simpa [hlast] using hmem
    exact ⟨time, hcaptured, le_rfl⟩

theorem delivered_step {board : Board} {s : Clocked} {info : WifiCsiInfo} {now time : UInt64}
    (hdel : s.node.Delivers board info now) (hs : s.Synced) (hbase : s.OneTimeBase)
    (horder : s.InOrder ⟨.capture info now, time⟩) :
    ((s.step board ⟨.capture info now, time⟩).OneTimeBase ↔
        s.Reaches board ⟨.capture info now, time⟩) ∧
      (s.Reaches board ⟨.capture info now, time⟩ →
        (s.step board ⟨.capture info now, time⟩).Synced) := by
  obtain ⟨p, hp, hstamp, hlast, hwraps⟩ := step_capture_of_delivers hdel
  obtain ⟨hraw, hgap⟩ := horder
  have hmod : info.timestampUs.toUInt32.toNat = time.toNat % 2 ^ 32 := by
    rw [hraw]
    exact UInt64.toNat_toUInt32 time
  generalize hnext : s.step board ⟨.capture info now, time⟩ = s'
  have hstamps : s'.stamps = s.stamps ++ [(time, p.frame.rxMeta.timestampUs)] := by
    simp [← hnext, step, hp]
  have hcaptured : s'.captured = some time := by simp [← hnext, step]
  have htracks {base t : ℕ}
      (h : (s.node.session.widenTimestamp info.timestampUs.toUInt32).2.Tracks base t) :
      s'.node.session.Tracks base t := by
    rw [← hnext]
    exact ⟨hlast ▸ h.last, hwraps ▸ h.wraps⟩
  have hreaches : s.Reaches board ⟨.capture info now, time⟩ ↔
      ∀ last ∈ s.stamps.getLast?, Session.InReach s.base last.1.toNat time.toNat :=
    ⟨fun h => h hdel, fun h _ => h⟩
  rw [hreaches]
  cases hold : s.stamps with
  | nil =>
    -- the run's first delivered frame
    obtain ⟨hzero, hunwrapped⟩ := hs.fresh hold
    obtain ⟨hvalue, htrack⟩ := Session.widenTimestamp_first hzero hunwrapped hmod
    have hone : s'.stamps = [(time, p.frame.rxMeta.timestampUs)] := by simp [hstamps, hold]
    have hepoch : s'.base = time.toNat / 2 ^ 32 := by rw [base, hone]
    refine ⟨iff_of_true ?_ (by simp), fun _ => ?_⟩
    · exact ⟨time.toNat - p.frame.rxMeta.timestampUs.toNat, by simp [hone]⟩
    · refine .of_concat hstamps hcaptured (hepoch ▸ htracks htrack) ?_
      intro x hx
      obtain rfl : (time, p.frame.rxMeta.timestampUs) = x := by simpa [hone] using hx
      rw [hepoch, hstamp]
      exact hvalue
  | cons first rest =>
    obtain ⟨last, hmem⟩ : ∃ last, s.stamps.getLast? = some last :=
      Option.isSome_iff_exists.mp (by simp [hold])
    obtain ⟨t, ht, hlate⟩ := hs.behind last hmem
    have hle : last.1.toNat ≤ time.toNat := hlate.trans (hgap t ht).1
    have hepoch : s'.base = s.base := by simp [base, hstamps, hold]
    have hall := hs.oneTimeBase_iff.mp hbase
    have hfirst (x : UInt64 × UInt64) (hx : x ∈ s'.stamps.head?) :
        x.2.toNat + s'.base * 2 ^ 32 = x.1.toNat := by
      rw [hepoch]
      exact hs.first x (by simpa [hstamps, hold] using hx)
    have hiff := (hs.tracks last hmem).widenTimestamp_iff hmod hle time.toNat_lt
    have honly : (∀ x ∈ (first :: rest).getLast?, Session.InReach s.base x.1.toNat time.toNat) ↔
        Session.InReach s.base last.1.toNat time.toNat := by
      rw [← hold, hmem]
      simp
    rw [honly, ← hiff, ← hstamp]
    constructor
    · constructor
      · rintro ⟨c, hc⟩
        have hx := hc first (by simp [hstamps, hold])
        have hnew := hc (time, p.frame.rxMeta.timestampUs) (by simp [hstamps])
        have hbegin := hall first (by simp [hold])
        simp only at hnew
        omega
      · intro hvalue
        refine ⟨s.base * 2 ^ 32, fun x hx => ?_⟩
        rw [hstamps] at hx
        rcases List.mem_append.mp hx with hx | hx
        · have := hall x hx
          omega
        · obtain rfl : x = (time, p.frame.rxMeta.timestampUs) := by simpa using hx
          simp only
          omega
    · intro hvalue
      have hreach := hiff.mp (hstamp ▸ hvalue)
      have htrack := (hs.tracks last hmem).widenTimestamp hmod hle time.toNat_lt hreach
      exact .of_concat hstamps hcaptured (hepoch ▸ htracks htrack) hfirst

theorem oneTimeBase_step {board : Board} {s : Clocked} {e : Timed} (hs : s.Synced)
    (hbase : s.OneTimeBase) (horder : s.InOrder e) :
    ((s.step board e).OneTimeBase ↔ s.Reaches board e) ∧
      (s.Reaches board e → (s.step board e).Synced) := by
  obtain ⟨event, time⟩ := e
  by_cases hcapture : ∃ info now, event = .capture info now
  · obtain ⟨info, now, rfl⟩ := hcapture
    by_cases hdel : s.node.Delivers board info now
    · exact delivered_step hdel hs hbase horder
    · rw [step_of_not_delivers hdel]
      have hclock : (Csi.step board s.node (.capture info now)).session = s.node.session := by
        obtain ⟨stats, policy, out, heq, -⟩ := Node.captureCsiInfo_of_not_delivers hdel
        rw [Csi.step, heq]
      refine ⟨iff_of_true hbase fun h => absurd h hdel, fun _ => ?_⟩
      refine hs.of_same rfl (by rw [hclock]) (by rw [hclock]) fun t ht => ?_
      exact ⟨time, rfl, (horder.2 t ht).1⟩
  · have hnot (info : WifiCsiInfo) (now : UInt64) : event ≠ .capture info now :=
      fun h => hcapture ⟨info, now, h⟩
    have hbegin (cfg : Node.RunConfig) : event ≠ .beginRun cfg := by
      rintro rfl
      exact horder
    obtain ⟨hlast, hwraps⟩ := step_clock board (n := s.node) hnot hbegin
    have hstep : s.step board ⟨event, time⟩ =
        ⟨Csi.step board s.node event, s.captured, s.stamps⟩ := by
      cases event with
      | capture info now => exact absurd rfl (hnot info now)
      | _ => rfl
    have hreaches : s.Reaches board ⟨event, time⟩ := by
      cases event with
      | capture info now => exact absurd rfl (hnot info now)
      | _ => trivial
    rw [hstep]
    exact ⟨iff_of_true hbase hreaches,
      fun _ => hs.of_same rfl hlast hwraps fun t ht => ⟨t, ht, le_rfl⟩⟩

/-- Over a run of in-order captures, every state has one time base exactly when every delivered
frame is in reach of the one delivered before it. -/
theorem oneTimeBase_iff_reaches (board : Board) (n : Node) (cfg : Node.RunConfig)
    (evs : List Timed) (h : Along (step board) InOrder (start (n.beginRun cfg)) evs) :
    Always (step board) OneTimeBase (start (n.beginRun cfg)) evs ↔
      Along (step board) (Reaches board) (start (n.beginRun cfg)) evs := by
  have hsynced : (start (n.beginRun cfg)).Synced :=
    ⟨fun _ => ⟨rfl, rfl⟩, by simp [start], by simp [start], by simp [start]⟩
  have hbase : (start (n.beginRun cfg)).OneTimeBase := ⟨0, by simp [start]⟩
  exact always_iff_along h hsynced hbase (fun s e hs hb ho => (oneTimeBase_step hs hb ho).1)
    fun s e hs hb ho hr => (oneTimeBase_step hs hb ho).2 hr

def quietAt (mac : Mac) (time : UInt64) : Timed := ⟨.capture (.quiet mac 0 time) time, time⟩

theorem oneTimeBase_across_wrap :
    Always (step .esp32) OneTimeBase (start (Node.boot.beginRun .monitor))
      [⟨.setCsiCallback 0, 0⟩, quietAt .zero 3000000000, quietAt .zero 4000000000,
        quietAt .zero 5000000000] :=
  (oneTimeBase_iff_reaches .esp32 .boot .monitor _ (by decide +kernel)).mpr (by decide +kernel)

/-- A peer filter that withholds an hour and a half of frames, half an hour apart, loses a wrap. -/
theorem oneTimeBase_lost :
    let evs := [⟨.setCsiCallback 0, 0⟩, quietAt .zero 1000, ⟨.setCsiPeerFilter .broadcast, 0⟩,
      quietAt .zero 2000000000, quietAt .zero 4000000000, ⟨.setCsiPeerFilter .zero, 0⟩,
      quietAt .zero 6000000000]
    Along (step .esp32) InOrder (start (Node.boot.beginRun .monitor)) evs ∧
      ¬ (run (step .esp32) (start (Node.boot.beginRun .monitor)) evs).OneTimeBase := by
  intro evs
  have hstamps : (run (step .esp32) (start (Node.boot.beginRun .monitor)) evs).stamps =
      [(1000, 1000), (6000000000, 1705032704)] := by
    decide +kernel
  refine ⟨by decide +kernel, ?_⟩
  rintro ⟨c, hc⟩
  rw [hstamps] at hc
  have hbefore := hc (1000, 1000) (by simp)
  have hafter := hc (6000000000, 1705032704) (by simp)
  simp at hbefore hafter
  omega

end Clocked

end EspCsi.Csi
