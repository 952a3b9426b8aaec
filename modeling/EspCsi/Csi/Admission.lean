import EspCsi.Csi.Runs
import EspCsi.Csi.Scoring

/-!
# Reporting policies over runs

Which captured frames a reporting policy admits. The policy's state is started over by a flag that a
change of reporting raises and the next judged frame takes, so every policy is to judge as if it had
never seen a frame from before the change.
-/

namespace EspCsi.Csi

open Wire Transition

/-- A captured frame as a policy sees it. -/
structure Reading where
  buf : List Int8
  now : UInt64

/-! ## The policies on their own -/

namespace Reading

/-- The average that the readings `rs` build, from nothing. -/
def averageOf (rs : List Reading) : ThresholdState := rs.foldl (fun t r => (t.score r.buf).2) .new

def scoreAfter (rs : List Reading) (r : Reading) : UInt16 := ((averageOf rs).score r.buf).1

/-- `r` comes within the window that the last reading to reach `level` opened. -/
def Held (level holdMs : UInt16) (rs : List Reading) (r : Reading) : Prop :=
  ∃ pre g post, rs = pre ++ g :: post ∧ scoreAfter pre g ≥ level ∧
    (∀ mid h rest, post = mid ++ h :: rest → ¬ scoreAfter (pre ++ g :: mid) h ≥ level) ∧
    r.now.toNat < g.now.toNat + holdMs.toNat * 1000

/-- Whether a policy started fresh admits `r` after the readings `rs`. -/
def Admits (policy : Reporting) (rs : List Reading) (r : Reading) : Prop :=
  match policy with
  | .report _ => True
  | .none => False
  | .decimate n => rs.length % max n.toNat 1 = 0
  | .thresholdBased t => scoreAfter rs r ≥ t.level ∨ Held t.level t.holdMs rs r

theorem averageOf_concat (rs : List Reading) (r : Reading) :
    averageOf (rs ++ [r]) = ((averageOf rs).score r.buf).2 := by
  simp [averageOf]

theorem not_held_nil (level holdMs : UInt16) (r : Reading) : ¬ Held level holdMs [] r := by
  rintro ⟨pre, g, post, h, -⟩
  simp at h

/-- A reading that reaches the level opens the window anew; another leaves it as it is. -/
theorem held_concat {level holdMs : UInt16} {rs : List Reading} {last r : Reading} :
    Held level holdMs (rs ++ [last]) r ↔
      if scoreAfter rs last ≥ level then r.now.toNat < last.now.toNat + holdMs.toNat * 1000
      else Held level holdMs rs r := by
  split_ifs with hlast
  · constructor
    · rintro ⟨pre, g, post, hsplit, hg, hnone, hnow⟩
      rcases concat_eq_split hsplit with ⟨rfl, rfl, rfl⟩ | ⟨post, rfl, rfl⟩
      · exact hnow
      · exact absurd hlast (by simpa using hnone post last [] (by simp))
    · intro hnow
      exact ⟨rs, last, [], rfl, hlast, by simp, hnow⟩
  · constructor
    · rintro ⟨pre, g, post, hsplit, hg, hnone, hnow⟩
      rcases concat_eq_split hsplit with ⟨rfl, rfl, rfl⟩ | ⟨post, rfl, rfl⟩
      · exact absurd hg hlast
      · refine ⟨pre, g, post, rfl, hg, fun mid h rest hpost => ?_, hnow⟩
        exact hnone mid h (rest ++ [last]) (by simp [hpost])
    · rintro ⟨pre, g, post, rfl, hg, hnone, hnow⟩
      refine ⟨pre, g, post ++ [last], by simp, hg, fun mid h rest hpost => ?_, hnow⟩
      rcases concat_eq_split hpost with ⟨rfl, rfl, rfl⟩ | ⟨rest, rfl, rfl⟩
      · exact hlast
      · exact hnone mid h rest rfl

/-! ## The state behind them -/

def thresholdAfter (level holdMs : UInt16) (rs : List Reading) : ThresholdState :=
  rs.foldl (fun t r =>
    let scored := t.score r.buf
    (scored.2.decide scored.1 level holdMs r.now).2) .new

end Reading

namespace ThresholdState

theorem score_holdUntilUs (t : ThresholdState) (buf : List Int8) (holdUntilUs : UInt64) :
    { t with holdUntilUs }.score buf = ((t.score buf).1, { (t.score buf).2 with holdUntilUs }) := by
  by_cases hp : pairs buf = 0
  · rw [score_of_empty hp, score_of_empty hp]
  · apply Prod.ext
    · change ({ t with holdUntilUs }.score buf).1 = (t.score buf).1
      rw [score_fst_eq hp, score_fst_eq hp]
      rfl
    · change ({ t with holdUntilUs }.score buf).2 = { (t.score buf).2 with holdUntilUs }
      rw [score_snd hp, score_snd hp]

theorem decide_fst (t : ThresholdState) (score level holdMs : UInt16) (nowUs : UInt64) :
    (t.decide score level holdMs nowUs).1 = true ↔ score ≥ level ∨ nowUs < t.holdUntilUs := by
  unfold decide
  by_cases h : score ≥ level
  · simp [h]
  · simp [h]

end ThresholdState

namespace Reading

variable {level holdMs : UInt16} {rs : List Reading} {r : Reading}

/-- The clock does not come within a window of its end. -/
def Timely (r : Reading) : Prop := r.now.toNat + 65535 * 1000 < 2 ^ 64

theorem window_toNat (h : r.Timely) (holdMs : UInt16) :
    (r.now + holdMs.toUInt64 * 1000).toNat = r.now.toNat + holdMs.toNat * 1000 := by
  have hhold := holdMs.toNat_lt
  have hthousand : (1000 : UInt64).toNat = 1000 := rfl
  unfold Timely at h
  rw [UInt64.toNat_add, UInt64.toNat_mul, UInt16.toNat_toUInt64, hthousand]
  omega

theorem thresholdAfter_concat (level holdMs : UInt16) (rs : List Reading) (r : Reading) :
    thresholdAfter level holdMs (rs ++ [r]) =
      (((thresholdAfter level holdMs rs).score r.buf).2.decide
        ((thresholdAfter level holdMs rs).score r.buf).1 level holdMs r.now).2 := by
  simp [thresholdAfter]

theorem thresholdAfter_spec (level holdMs : UInt16) {rs : List Reading}
    (htimely : ∀ r ∈ rs, r.Timely) :
    ∃ holdUntilUs,
      thresholdAfter level holdMs rs = { averageOf rs with holdUntilUs } ∧
        ∀ r : Reading, r.now < holdUntilUs ↔ Held level holdMs rs r := by
  induction rs using List.reverseRecOn with
  | nil =>
    refine ⟨0, rfl, fun r => ?_⟩
    simp [not_held_nil]
  | append_singleton rs last ih =>
    obtain ⟨holdUntilUs, hstate, hopen⟩ := ih fun r hr => htimely r (List.mem_append_left _ hr)
    have hscored : scoreAfter rs last = ((averageOf rs).score last.buf).1 := rfl
    rw [thresholdAfter_concat, hstate, ThresholdState.score_holdUntilUs, ← averageOf_concat,
      ← hscored]
    unfold ThresholdState.decide
    by_cases hreach : scoreAfter rs last ≥ level
    · refine ⟨last.now + holdMs.toUInt64 * 1000, by rw [if_pos hreach], fun r => ?_⟩
      rw [held_concat, if_pos hreach, UInt64.lt_iff_toNat_lt,
        window_toNat (htimely last (by simp))]
    · refine ⟨holdUntilUs, by rw [if_neg hreach], fun r => ?_⟩
      rw [held_concat, if_neg hreach, hopen r]

theorem thresholdAfter_admits (level holdMs : UInt16) {rs : List Reading}
    (htimely : ∀ r ∈ rs, r.Timely) (r : Reading) :
    let scored := (thresholdAfter level holdMs rs).score r.buf
    (scored.2.decide scored.1 level holdMs r.now).1 = true ↔
      scoreAfter rs r ≥ level ∨ Held level holdMs rs r := by
  obtain ⟨holdUntilUs, hstate, hopen⟩ := thresholdAfter_spec level holdMs htimely
  intro scored
  have hscored : scored = (scoreAfter rs r, { averageOf (rs ++ [r]) with holdUntilUs }) := by
    change (thresholdAfter level holdMs rs).score r.buf = _
    rw [hstate, ThresholdState.score_holdUntilUs, averageOf_concat]
    rfl
  rw [ThresholdState.decide_fst, hscored, ← hopen r]

def decimatorAfter (n : UInt16) (k : ℕ) : Decimator := (fun d => (d.tick n).2)^[k] .new

theorem max_one_toNat (n : UInt16) : (max n 1).toNat = max n.toNat 1 := by
  have hone : (1 : UInt16).toNat = 1 := rfl
  by_cases h : n ≤ 1
  · have hle := UInt16.le_iff_toNat_le.mp h
    have hmax : max n 1 = 1 := if_pos h
    rw [hmax]
    omega
  · have hlt : 1 < n.toNat := UInt16.lt_iff_toNat_lt.mp (UInt16.not_le.mp h)
    have hmax : max n 1 = n := if_neg h
    rw [hmax]
    omega

theorem succ_mod (k : ℕ) {m : ℕ} (hm : 0 < m) :
    (k + 1) % m = if m ≤ k % m + 1 then 0 else k % m + 1 := by
  have hsplit := Nat.div_add_mod k m
  have hlt := Nat.mod_lt k hm
  split_ifs with hround
  · have hwhole : k + 1 = m * (k / m + 1) := by
      rw [Nat.mul_succ]
      omega
    rw [hwhole, Nat.mul_mod_right]
  · have hpart : k + 1 = m * (k / m) + (k % m + 1) := by omega
    rw [hpart, Nat.mul_add_mod, Nat.mod_eq_of_lt (by omega)]

theorem decimatorAfter_count (n : UInt16) (k : ℕ) :
    (decimatorAfter n k).count.toNat = k % max n.toNat 1 := by
  have hn := n.toNat_lt
  have hone : (1 : UInt16).toNat = 1 := rfl
  induction k with
  | zero => simp [decimatorAfter, Decimator.new]
  | succ k ih =>
    have hlt := Nat.mod_lt k (by omega : 0 < max n.toNat 1)
    have hadd : ((decimatorAfter n k).count + 1).toNat = k % max n.toNat 1 + 1 := by
      rw [UInt16.toNat_add, ih, hone]
      omega
    have hiff : (decimatorAfter n k).count + 1 ≥ max n 1 ↔ max n.toNat 1 ≤ k % max n.toNat 1 + 1 := by
      rw [ge_iff_le, UInt16.le_iff_toNat_le, max_one_toNat, hadd]
    have hnext : (decimatorAfter n (k + 1)).count =
        if (decimatorAfter n k).count + 1 ≥ max n 1 then 0 else (decimatorAfter n k).count + 1 := by
      rw [decimatorAfter, Function.iterate_succ_apply']
      rfl
    rw [hnext, apply_ite UInt16.toNat, hadd, succ_mod k (by omega : 0 < max n.toNat 1)]
    simp only [hiff]
    rfl

theorem decimatorAfter_admits (n : UInt16) (k : ℕ) :
    ((decimatorAfter n k).tick n).1 = true ↔ k % max n.toNat 1 = 0 := by
  rw [← decimatorAfter_count, Decimator.tick, beq_iff_eq, ← UInt16.toNat_inj]
  rfl

end Reading

/-! ## The node -/

namespace Node

@[simp] theorem dispatch_policy (n : Node) (p : CsiPacket) : (n.dispatch p).policy = n.policy := by
  unfold dispatch
  cases n.gates.csiDeliveryMode with
  | callback => cases n.gates.csiCallback <;> rfl
  | async =>
    simp only [enqueueCsi, enqueue, overflow, wake]
    split_ifs <;> cases hwaker : n.csiWaker <;> simp [chargeLoss, observe, hwaker]
  | off =>
    simp only
    split_ifs <;> rfl

@[simp] theorem deliver_policy (n : Node) (chip : Chip) (p : CsiPacket) :
    (n.deliver chip p).policy = n.policy := by
  obtain ⟨stats, h⟩ := recordTx_eq n chip p
  rw [deliver, dispatch_policy, h]

/-- A captured frame gets as far as the reporting policy: past the raw callback, the publish gate and
the filter. -/
def Reaches (board : Board) (n : Node) (info : WifiCsiInfo) : Prop :=
  n.gates.csiRawCallback = none ∧ n.gates.csiPublishEnabled = true ∧
    n.gates.csiPassesFilter board.chip info = true

instance (board : Board) (n : Node) (info : WifiCsiInfo) : Decidable (n.Reaches board info) :=
  inferInstanceAs (Decidable (_ ∧ _))

@[simp] theorem deliverAcquired_policy (chip : Chip) (acquired : Node × Option CsiPacket) :
    (deliverAcquired chip acquired).policy = acquired.1.policy := by
  obtain ⟨n, packet⟩ := acquired
  cases packet with
  | none => rfl
  | some p => exact n.deliver_policy chip p

theorem buildCapture_policy (board : Board) (n : Node) (info : WifiCsiInfo) (now : UInt64)
    (score : UInt16) : (n.buildCapture board info now score).1.policy = n.policy := by
  unfold buildCapture
  cases CsiPacket.fromWifiCsiInfo board n.session info now <;> rfl

theorem captureCsiInfo_policy (board : Board) (n : Node) (info : WifiCsiInfo) (now : UInt64) :
    (n.captureCsiInfo board info now).policy =
      if n.Reaches board info then (admitCapture n.gates n.policy info now).2.2 else n.policy := by
  obtain ⟨rxCount, bbFormatHist, hcount⟩ := countCapture_eq n board.chip info
  by_cases hreach : n.Reaches board info
  · rw [if_pos hreach, captureCsiInfo, deliverAcquired_policy, acquireCapture, hcount]
    obtain ⟨hraw, hpub, hfilter⟩ := hreach
    by_cases hadmit : (admitCapture n.gates n.policy info now).1 = true
    · simp [hraw, hpub, hfilter, hadmit, buildCapture_policy]
    · simp [hraw, hpub, hfilter, hadmit, countSuppressed]
  · rw [if_neg hreach, captureCsiInfo, deliverAcquired_policy, acquireCapture, hcount]
    cases hraw : n.gates.csiRawCallback with
    | some cb => simp [observe]
    | none =>
      by_cases hpub : n.gates.csiPublishEnabled = true
      · have hfilter : ¬ n.gates.csiPassesFilter board.chip info = true :=
          fun hfilter => hreach ⟨hraw, hpub, hfilter⟩
        simp [hpub, hfilter, countFiltered]
      · simp [hpub]

end Node

theorem step_policy (board : Board) (n : Node) {e : Event} (hmeasure : e.measures = false)
    (hkeep : e.keepsReporting = true) : (step board n e).policy = n.policy := by
  cases e with
  | capture | emit => exact absurd hmeasure (by simp [Event.measures])
  | setReporting | beginRun => exact absurd hkeep (by simp [Event.keepsReporting])
  | nextCsiPacket t | pollCsiPacket t =>
    simp only [step, Node.pollCsiPacket, Node.takeCsi, Node.enterAsync]
    cases n.csiQueue <;> rfl
  | printCsi t | pollPrintCsi t =>
    simp only [step, Node.pollPrintCsi, Node.takeCsi, Node.enterAsync]
    cases n.csiQueue <;> rfl
  | loggerBackend =>
    simp only [step, Node.loggerBackend]
    cases n.logger.receive <;> rfl
  | processOutputChanged =>
    simp only [step, Node.processOutputChanged]
    split_ifs <;> rfl
  | _ => rfl

/-! ## Judging from the start -/

namespace PolicyState

theorem takeReset_reset (s : PolicyState) : s.takeReset.reset = false := by
  unfold takeReset
  split_ifs with h
  · rfl
  · simpa using h

theorem takeReset_judged (s : PolicyState) (threshold : ThresholdState) (decimator : Decimator) :
    (mk s.takeReset.reset threshold decimator).takeReset =
      mk s.takeReset.reset threshold decimator := by
  rw [takeReset_reset]
  rfl

end PolicyState

theorem Decimator.tick_max (d : Decimator) (n : UInt16) : d.tick (max n 1) = d.tick n := by
  have hmax : max (max n 1) 1 = max n 1 := by
    apply UInt16.toNat_inj.mp
    rw [Reading.max_one_toNat, Reading.max_one_toNat]
    omega
  simp only [Decimator.tick, hmax]

namespace Gates

variable {g : Gates}

theorem kind_of_report {dest : ReportTo} (h : g.runtimeReporting = .report dest) :
    g.policyKind = .report := by
  unfold runtimeReporting at h
  cases hkind : g.policyKind <;> simp_all

theorem kind_of_threshold {t : Threshold} (h : g.runtimeReporting = .thresholdBased t) :
    g.policyKind = .threshold ∧ g.policyA = t.level ∧ g.policyB = t.holdMs := by
  unfold runtimeReporting at h
  cases hkind : g.policyKind with
  | threshold =>
    rw [hkind] at h
    obtain rfl := Reporting.thresholdBased.inj h
    exact ⟨rfl, rfl, rfl⟩
  | _ => simp [hkind] at h

theorem kind_of_decimate {n : UInt16} (h : g.runtimeReporting = .decimate n) :
    g.policyKind = .decimate ∧ g.policyA = n := by
  unfold runtimeReporting at h
  cases hkind : g.policyKind with
  | decimate =>
    rw [hkind] at h
    exact ⟨rfl, Reporting.decimate.inj h⟩
  | _ => simp [hkind] at h

end Gates

/-- A node, the reporting last asked for, and the frames that got as far as the policy since, with
whether each was admitted. -/
structure Reported where
  node : Node
  policy : Reporting
  judged : List (Reading × Bool)

namespace Reported

def start (n : Node) : Reported := ⟨n, .none, []⟩

def step (board : Board) (s : Reported) (e : Event) : Reported where
  node := Csi.step board s.node e
  policy :=
    match e with
    | .setReporting policy => policy
    | .beginRun cfg => cfg.reporting
    | _ => s.policy
  judged :=
    match e with
    | .setReporting _ | .beginRun _ => []
    | .capture info now =>
      if s.node.Reaches board info then
        s.judged ++ [(⟨info.buf, now⟩, decide (s.node.PolicyAdmits info now))]
      else s.judged
    | _ => s.judged

def readings (s : Reported) : List Reading := s.judged.map Prod.fst

/-- The policy state, its flag taken, is what the frames since the change alone make of a fresh
one. -/
def StateFresh (s : Reported) : Prop :=
  match s.policy with
  | .thresholdBased t =>
    s.node.policy.takeReset.threshold = Reading.thresholdAfter t.level t.holdMs s.readings
  | .decimate n => s.node.policy.takeReset.decimator = Reading.decimatorAfter n s.readings.length
  | _ => True

/-- The reporting last asked for is in force, and has judged each frame as if started fresh. -/
structure Fresh (s : Reported) : Prop where
  cached : s.node.gates.Cached
  inForce : s.node.gates.runtimeReporting =
    match s.policy with
    | .decimate n => .decimate (max n 1)
    | policy => policy
  reports : s.node.gates.reports = s.policy.reports
  timely : ∀ r ∈ s.readings, r.Timely
  state : s.StateFresh
  admits : ∀ pre r x post, s.judged = pre ++ (r, x) :: post →
    (x = true ↔ Reading.Admits s.policy (pre.map Prod.fst) r)

structure Judges (s : Reported) (r : Reading) (admitted : Bool) (policy : PolicyState) : Prop where
  admits : admitted = true ↔ Reading.Admits s.policy s.readings r
  state : StateFresh { s with
    node := { s.node with policy }
    judged := s.judged ++ [(r, admitted)] }

variable {board : Board} {s : Reported} {info : WifiCsiInfo} {now : UInt64}

theorem Fresh.judges (h : s.Fresh) (hreach : s.node.Reaches board info) (now : UInt64) :
    let judged := admitCapture s.node.gates s.node.policy info now
    s.Judges ⟨info.buf, now⟩ judged.1 judged.2.2 := by
  intro judged
  have hforce := h.inForce
  have hstate := h.state
  cases hpolicy : s.policy with
  | report dest =>
    rw [hpolicy] at hforce
    have hjudged : judged = (true, 0, s.node.policy) := if_pos (Gates.kind_of_report hforce)
    rw [hjudged]
    exact ⟨by simp [Reading.Admits, hpolicy], by simp [StateFresh, hpolicy]⟩
  | none =>
    -- nothing gets as far while the node does not report
    have hclosed := h.cached.publish
    rw [h.reports, hpolicy, hreach.2.1] at hclosed
    simp [Reporting.reports] at hclosed
  | thresholdBased t =>
    rw [hpolicy] at hforce
    obtain ⟨hkind, hlevel, hhold⟩ := Gates.kind_of_threshold hforce
    simp only [StateFresh, hpolicy] at hstate
    have hjudged : judged = s.node.policy.takeReset.judge s.node.gates info.buf now :=
      if_neg (by simp [hkind])
    simp only [PolicyState.judge, hkind, hlevel, hhold, hstate] at hjudged
    rw [hjudged]
    refine ⟨?_, ?_⟩
    · simp only [Reading.Admits, hpolicy]
      exact Reading.thresholdAfter_admits t.level t.holdMs h.timely ⟨info.buf, now⟩
    · simp only [StateFresh, hpolicy, readings, List.map_append, List.map_cons, List.map_nil]
      rw [PolicyState.takeReset_judged,
        Reading.thresholdAfter_concat]
  | decimate n =>
    rw [hpolicy] at hforce
    obtain ⟨hkind, hfactor⟩ := Gates.kind_of_decimate hforce
    simp only [StateFresh, hpolicy] at hstate
    have hjudged : judged = s.node.policy.takeReset.judge s.node.gates info.buf now :=
      if_neg (by simp [hkind])
    simp only [PolicyState.judge, hkind, hfactor, hstate, Decimator.tick_max] at hjudged
    rw [hjudged]
    refine ⟨?_, ?_⟩
    · simp only [Reading.Admits, hpolicy]
      exact Reading.decimatorAfter_admits n s.readings.length
    · simp only [StateFresh, hpolicy, readings, List.map_append, List.map_cons, List.map_nil]
      rw [PolicyState.takeReset_judged, List.length_append,
        Reading.decimatorAfter, Reading.decimatorAfter, List.length_singleton,
        Function.iterate_succ_apply']

/-- The calls that a policy judges by: whole calls that emit nothing, with captures timed well
before the end of the clock. -/
def Vendor : Event → Prop
  | .emit .. => False
  | .capture info now => Reading.Timely ⟨info.buf, now⟩
  | _ => True

theorem fresh_boot : (start .boot).Fresh where
  cached := Gates.cached_boot
  inForce := rfl
  reports := rfl
  timely := by simp [readings, start]
  state := trivial
  admits := by simp [start]

theorem fresh_of_reporting {n : Node} {g : Gates} (hgates : g.Cached) (policy : Reporting)
    (hnode : n.gates = g.setRuntimeReporting policy) (hstate : n.policy.takeReset = .boot) :
    Fresh ⟨n, policy, []⟩ where
  cached := by
    rw [hnode]
    exact .applyPublishGate hgates.filter
  inForce := by
    rw [hnode]
    exact g.runtimeReporting_setRuntimeReporting policy
  reports := by
    rw [hnode]
    rfl
  timely := by simp [readings]
  state := by
    cases policy with
    | thresholdBased t => simp [StateFresh, hstate, readings, Reading.thresholdAfter, PolicyState.boot]
    | decimate n => simp [StateFresh, hstate, readings, Reading.decimatorAfter, PolicyState.boot]
    | _ => trivial
  admits := by simp

theorem Fresh.of_kept (h : s.Fresh) {n : Node} (hcached : n.gates.Cached)
    (hforce : n.gates.runtimeReporting = s.node.gates.runtimeReporting)
    (hreports : n.gates.reports = s.node.gates.reports) (hpolicy : n.policy = s.node.policy) :
    Fresh { s with node := n } where
  cached := hcached
  inForce := hforce.trans h.inForce
  reports := hreports.trans h.reports
  timely := h.timely
  state := by
    have hstate := h.state
    simp only [StateFresh] at hstate ⊢
    rw [hpolicy]
    exact hstate
  admits := h.admits

theorem Fresh.capture (h : s.Fresh) (hreach : s.node.Reaches board info)
    (htimely : Reading.Timely ⟨info.buf, now⟩) : (s.step board (.capture info now)).Fresh := by
  have hjudges := h.judges hreach now
  have hgates : (s.step board (.capture info now)).node.gates = s.node.gates :=
    Node.captureCsiInfo_gates board s.node info now
  have hpolicy : (s.step board (.capture info now)).node.policy =
      (admitCapture s.node.gates s.node.policy info now).2.2 := by
    change (s.node.captureCsiInfo board info now).policy = _
    rw [Node.captureCsiInfo_policy, if_pos hreach]
  have hjudged : (s.step board (.capture info now)).judged =
      s.judged ++ [(⟨info.buf, now⟩, (admitCapture s.node.gates s.node.policy info now).1)] := by
    have hadmits : decide (s.node.PolicyAdmits info now) =
        (admitCapture s.node.gates s.node.policy info now).1 := by
      rw [Bool.eq_iff_iff, decide_eq_true_iff]
      rfl
    simp [step, hreach, hadmits]
  have hreadings : (s.step board (.capture info now)).readings = s.readings ++ [⟨info.buf, now⟩] := by
    rw [readings, hjudged, List.map_append]
    rfl
  constructor
  case cached | inForce | reports =>
    rw [hgates]
    first | exact h.cached | exact h.inForce | exact h.reports
  case timely =>
    rw [hreadings]
    intro r hr
    rcases List.mem_append.mp hr with hold | hnew
    · exact h.timely r hold
    · rw [List.mem_singleton.mp hnew]
      exact htimely
  -- the flag is taken by the first frame after a change, so `judges` starts over there
  case state =>
    have hstate := hjudges.state
    simp only [StateFresh, readings] at hstate ⊢
    rw [hpolicy, hjudged]
    exact hstate
  case admits =>
    intro pre r x post hsplit
    rw [hjudged] at hsplit
    -- the new frame is the last one judged; the ones before it were judged as they were
    rcases concat_eq_split hsplit with ⟨rfl, hlast, -⟩ | ⟨post, -, hold⟩
    · obtain ⟨rfl, rfl⟩ := Prod.mk.inj hlast
      exact hjudges.admits
    · exact h.admits pre r x post hold

theorem Fresh.other (h : s.Fresh) {e : Event} (hmeasure : e.measures = false)
    (hkeep : e.keepsReporting = true) : Fresh { s with node := Csi.step board s.node e } := by
  obtain ⟨hforce, hreports⟩ := Gates.step_reporting hkeep s.node.gates
  have hgates := step_gates board s.node e
  apply h.of_kept
  · rw [hgates]
    exact h.cached.step e
  · rw [hgates, hforce]
  · rw [hgates, hreports]
  · exact step_policy board s.node hmeasure hkeep

theorem Fresh.step (h : s.Fresh) {e : Event} (hvendor : Vendor e) :
    (s.step board e).Fresh := by
  cases e with
  | capture info now =>
    by_cases hreach : s.node.Reaches board info
    · exact h.capture hreach hvendor
    · have hgates := Node.captureCsiInfo_gates board s.node info now
      have hpolicy : (s.node.captureCsiInfo board info now).policy = s.node.policy := by
        rw [Node.captureCsiInfo_policy, if_neg hreach]
      have hkept : Fresh { s with node := s.node.captureCsiInfo board info now } := by
        apply h.of_kept
        · rw [hgates]
          exact h.cached
        · rw [hgates]
        · rw [hgates]
        · exact hpolicy
      simpa [Reported.step, Csi.step, hreach] using hkept
  | emit kind frame now => exact hvendor.elim
  | setReporting policy => exact fresh_of_reporting h.cached policy rfl rfl
  | beginRun cfg => exact fresh_of_reporting h.cached cfg.reporting rfl rfl
  | _ => exact h.other rfl rfl

/-- After any calls, of the frames that reached the policy since the reporting was last changed, just
those were admitted that the new policy admits of these frames alone. -/
theorem admitted_iff (board : Board) (es : List Event) (hvendor : ∀ e ∈ es, Vendor e) :
    let s := run (step board) (start .boot) es
    ∀ pre r admitted post, s.judged = pre ++ (r, admitted) :: post →
      (admitted = true ↔ Reading.Admits s.policy (pre.map Prod.fst) r) := by
  have halong : Along (step board) (fun _ e => Vendor e) (start .boot) es :=
    fun pre e hpre => hvendor e (hpre.subset (by simp))
  have hfresh : Always (step board) Fresh (start .boot) es :=
    halong.always fresh_boot fun s e hs he => hs.step he
  exact hfresh.last.admits

def redecimated : List Event :=
  let frame := fun now => Event.capture (.quiet .zero 0 0) now
  [.setCsiCallback 0, .setReporting (.decimate 3), frame 10, frame 20, .setReporting (.decimate 2),
    frame 30, frame 40, frame 50]

theorem admitted_iff_redecimated :
    let s := run (step .esp32) (start .boot) redecimated
    s.judged.map Prod.snd = [true, false, true] ∧
      ∀ pre r admitted post, s.judged = pre ++ (r, admitted) :: post →
        (admitted = true ↔ Reading.Admits s.policy (pre.map Prod.fst) r) := by
  refine ⟨by decide +kernel, admitted_iff .esp32 redecimated ?_⟩
  simp [redecimated, Vendor, Reading.Timely]

end Reported

end EspCsi.Csi
