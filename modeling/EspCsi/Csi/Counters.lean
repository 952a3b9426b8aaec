import EspCsi.Csi.Runs

/-!
# Receive counters

What the receive counters say about the measurements of a run. A captured frame is counted before
anything is decided about it; a measurement from another source is counted once the policy has
admitted it.
-/

namespace EspCsi

open Wire

/-! ## What is charged where -/

/-- The counters that a measurement is charged to on its way to `deliver`. -/
structure Tally where
  rxCount : UInt64
  rxFiltered : UInt32
  rxPolicySuppressed : UInt32
  rxOversize : UInt32
deriving DecidableEq, Repr

namespace Tally

def receive (t : Tally) : Tally := { t with rxCount := t.rxCount + 1 }

def filter (t : Tally) : Tally := { t with rxFiltered := t.rxFiltered + 1 }

def suppress (t : Tally) : Tally := { t with rxPolicySuppressed := t.rxPolicySuppressed + 1 }

def oversize (t : Tally) : Tally := { t with rxOversize := t.rxOversize + 1 }

/-- The received measurements are those withheld, for whatever cause, and the `handed` ones. -/
def Balances (t : Tally) (handed : ℕ) : Prop :=
  t.rxCount.toNat =
    t.rxFiltered.toNat + t.rxPolicySuppressed.toNat + t.rxOversize.toNat + handed

instance (t : Tally) (handed : ℕ) : Decidable (t.Balances handed) :=
  inferInstanceAs (Decidable (_ = _))

/-- No counter is taken past its end. -/
def NoneWraps (t t' : Tally) : Prop :=
  t.rxCount ≤ t'.rxCount ∧ t.rxFiltered ≤ t'.rxFiltered ∧
    t.rxPolicySuppressed ≤ t'.rxPolicySuppressed ∧ t.rxOversize ≤ t'.rxOversize

instance (t t' : Tally) : Decidable (t.NoneWraps t') := inferInstanceAs (Decidable (_ ∧ _))

theorem toNat_succ64 {x : UInt64} (h : x ≤ x + 1) : (x + 1).toNat = x.toNat + 1 := by
  have hlt := x.toNat_lt
  rw [UInt64.le_iff_toNat_le, UInt64.toNat_add] at h
  rw [UInt64.toNat_add]
  have h1 : (1 : UInt64).toNat = 1 := rfl
  omega

theorem toNat_succ32 {x : UInt32} (h : x ≤ x + 1) : (x + 1).toNat = x.toNat + 1 := by
  have hlt := x.toNat_lt
  rw [UInt32.le_iff_toNat_le, UInt32.toNat_add] at h
  rw [UInt32.toNat_add]
  have h1 : (1 : UInt32).toNat = 1 := rfl
  omega

variable {t : Tally} {handed : ℕ}

theorem Balances.handedOn (h : t.Balances handed) (hwrap : t.NoneWraps t.receive) :
    t.receive.Balances (handed + 1) := by
  have hcount := toNat_succ64 hwrap.1
  simp only [Balances, receive] at h ⊢
  omega

theorem Balances.filtered (h : t.Balances handed) (hwrap : t.NoneWraps t.receive.filter) :
    t.receive.filter.Balances handed := by
  have hcount := toNat_succ64 hwrap.1
  have hfiltered := toNat_succ32 hwrap.2.1
  simp only [Balances, receive, filter] at h ⊢
  omega

theorem Balances.suppressed (h : t.Balances handed) (hwrap : t.NoneWraps t.receive.suppress) :
    t.receive.suppress.Balances handed := by
  have hcount := toNat_succ64 hwrap.1
  have hsuppressed := toNat_succ32 hwrap.2.2.1
  simp only [Balances, receive, suppress] at h ⊢
  omega

theorem Balances.oversized (h : t.Balances handed) (hwrap : t.NoneWraps t.receive.oversize) :
    t.receive.oversize.Balances handed := by
  have hcount := toNat_succ64 hwrap.1
  have hoversize := toNat_succ32 hwrap.2.2.2
  simp only [Balances, receive, oversize] at h ⊢
  omega

/-- A withheld measurement that was not counted is one too many. -/
theorem Balances.not_suppress (h : t.Balances handed) (hwrap : t.NoneWraps t.suppress) :
    ¬ t.suppress.Balances handed := by
  have hsuppressed := toNat_succ32 hwrap.2.2.1
  simp only [Balances, suppress] at h ⊢
  omega

end Tally

def Stats.tally (s : Stats) : Tally :=
  ⟨s.rxCount, s.rxFiltered, s.rxPolicySuppressed, s.rxOversize⟩

theorem Stats.tally_recordTxFrame (s : Stats) (mac : Mac) (seq : Option UInt16)
    (retry : Option Bool) : (s.recordTxFrame mac seq retry).tally = s.tally := by
  simp only [Stats.recordTxFrame]
  split_ifs <;> rfl

namespace Csi

open Logging Transition

namespace Node

theorem tally_recordTx (n : Node) (chip : Chip) (p : CsiPacket) :
    (n.recordTx chip p).stats.tally = n.stats.tally := by
  unfold recordTx
  by_cases hdetect : n.stats.seqDropDetection = true
  · rw [if_pos hdetect]
    exact n.stats.tally_recordTxFrame _ _ _
  · rw [if_neg hdetect]

theorem tally_advance (chip : Chip) (n : Node) (p : CsiPacket) (stage : Stage) :
    (stage.advance chip n p).1.stats.tally = n.stats.tally := by
  cases stage with
  | account => exact n.tally_recordTx chip p
  | dispatch | call =>
    simp only [Stage.advance]
    split <;> rfl
  | store =>
    simp only [Stage.advance]
    split_ifs
    · simp [enqueue]
    · rfl
  | retry =>
    simp only [Stage.advance]
    split_ifs
    · simp [enqueue]
    · rfl
  | overflow | log =>
    simp only [Stage.advance]
    split_ifs <;> rfl
  | evict => rfl

/-- What a captured frame is charged to, with the gate open and no raw callback: it is counted, and
it is withheld for one cause or handed to `deliver`. -/
theorem tally_acquireCapture (board : Board) {n : Node} (info : WifiCsiInfo) (now : UInt64)
    (hpub : n.gates.csiPublishEnabled = true) (hraw : n.gates.csiRawCallback = none) :
    let acquired := n.acquireCapture board info now
    let counted := n.stats.tally.receive
    acquired.2.isSome = true ∧ acquired.1.stats.tally = counted ∨
      acquired.2 = none ∧
        (acquired.1.stats.tally = counted.filter ∨ acquired.1.stats.tally = counted.suppress ∨
          acquired.1.stats.tally = counted.oversize) := by
  have hcount : ∃ bbFormatHist, n.countCapture board.chip info =
      { n with stats := { n.stats with rxCount := n.stats.rxCount + 1, bbFormatHist } } := by
    unfold countCapture
    split_ifs <;> exact ⟨_, rfl⟩
  obtain ⟨bbFormatHist, hcount⟩ := hcount
  simp only [acquireCapture, hcount, hraw, hpub]
  by_cases hfilter : n.gates.csiPassesFilter board.chip info = true
  · by_cases hadmit : (admitCapture n.gates n.policy info now).1 = true
    · cases hbuilt : CsiPacket.fromWifiCsiInfo board n.session info now with
      | some built =>
        refine .inl ⟨?_, ?_⟩ <;>
          simp [hfilter, hadmit, buildCapture, hbuilt, Stats.tally, Tally.receive]
      | none =>
        refine .inr ⟨?_, .inr (.inr ?_)⟩ <;>
          simp [hfilter, hadmit, buildCapture, hbuilt, chargeLoss, Stats.recordLoss, Stats.tally,
            Tally.receive, Tally.oversize]
    · refine .inr ⟨?_, .inr (.inl ?_)⟩ <;>
        simp [hfilter, hadmit, countSuppressed, Stats.tally, Tally.receive, Tally.suppress]
  · refine .inr ⟨?_, .inl ?_⟩ <;>
      simp [hfilter, countFiltered, Stats.tally, Tally.receive, Tally.filter]

/-- What a measurement from another source is charged to, with the gate open: a withheld one is
charged to the policy without having been counted. -/
theorem tally_acquireEmit (board : Board) {n : Node} (kind : SourceKind) (frame : CsiFrame)
    (now : UInt64) (hpub : n.gates.csiPublishEnabled = true) :
    let acquired := n.acquireEmit board kind frame now
    if (policyAdmitsFrame n.gates n.policy frame now).1 then
      acquired.2.isSome = true ∧ acquired.1.stats.tally = n.stats.tally.receive
    else acquired.2 = none ∧ acquired.1.stats.tally = n.stats.tally.suppress := by
  by_cases hadmit : (policyAdmitsFrame n.gates n.policy frame now).1 = true <;>
    simp [acquireEmit, hpub, hadmit, buildEmitted, countSuppressed, Stats.recordCollectorRx,
      Stats.tally, Tally.receive, Tally.suppress]

end Node

theorem tally_step {board : Board} {n : Node} {e : Event} (h : e.measures = false)
    (hbegin : ∀ cfg, e ≠ .beginRun cfg) : (step board n e).stats.tally = n.stats.tally := by
  cases e with
  | capture | emit => simp [Event.measures] at h
  | beginRun cfg => exact absurd rfl (hbegin cfg)
  | nextCsiPacket t | pollCsiPacket t =>
    simp only [step, Node.pollCsiPacket, Node.takeCsi, Node.enterAsync]
    cases n.csiQueue <;> rfl
  | printCsi t | pollPrintCsi t =>
    simp only [step, Node.pollPrintCsi, Node.takeCsi, Node.enterAsync]
    cases n.csiQueue <;> rfl
  | loggerBackend =>
    simp only [step, Node.loggerBackend]
    split <;> rfl
  | processOutputChanged =>
    simp only [step, Node.processOutputChanged]
    split_ifs <;> rfl
  | _ => rfl

/-! ## The balance -/

/-- The interleaved machine, with the number of packets handed to `deliver` since the run began.
Nothing of the crate reads the latter. -/
structure Counted where
  system : Interleaved
  handed : ℕ

namespace Counted

open Interleaved (Action)

def start (board : Board) (s : Interleaved) (cfg : Node.RunConfig) : Counted :=
  ⟨s.step board (.call (.beginRun cfg)), 0⟩

def hands (board : Board) (s : Interleaved) : Action → ℕ
  | .call e => (s.node.delivered board e).toList.length
  | .advance _ => 0

def step (board : Board) (s : Counted) (a : Action) : Counted :=
  ⟨s.system.step board a, s.handed + hands board s.system a⟩

def tally (s : Counted) : Tally := s.system.node.stats.tally

/-- The received measurements are those withheld, for whatever cause, and those handed on. -/
def Balanced (s : Counted) : Prop := s.tally.Balances s.handed

instance (s : Counted) : Decidable s.Balanced := inferInstanceAs (Decidable (Tally.Balances _ _))

def beginsRun : Action → Bool
  | .call (.beginRun _) => true
  | _ => false

def measures : Action → Bool
  | .call e => e.measures
  | .advance _ => false

/-- The run goes on, measurements find the gate open and no raw callback, and no counter wraps. -/
structure Steady (board : Board) (s : Counted) (a : Action) : Prop where
  sameRun : beginsRun a = false
  opened : measures a = true →
    s.system.node.gates.csiPublishEnabled = true ∧ s.system.node.gates.csiRawCallback = none
  noneWraps : s.tally.NoneWraps (s.step board a).tally

instance (board : Board) (s : Counted) (a : Action) : Decidable (s.Steady board a) :=
  decidable_of_iff
    (beginsRun a = false ∧
      (measures a = true →
        s.system.node.gates.csiPublishEnabled = true ∧
          s.system.node.gates.csiRawCallback = none) ∧
      s.tally.NoneWraps (s.step board a).tally)
    ⟨fun h => ⟨h.1, h.2.1, h.2.2⟩, fun h => ⟨h.1, h.2, h.3⟩⟩

/-- The action does not have the policy withhold a measurement from another source. -/
def Admits (s : Counted) (a : Action) : Prop :=
  (match a with
  | .call (.emit _ frame now) =>
    (policyAdmitsFrame s.system.node.gates s.system.node.policy frame now).1
  | _ => true) = true

instance (s : Counted) (a : Action) : Decidable (s.Admits a) := inferInstanceAs (Decidable (_ = _))

theorem step_of_not_measures {board : Board} {s : Counted} {a : Action} (h : s.Steady board a)
    (ha : measures a = false) :
    (s.step board a).tally = s.tally ∧ (s.step board a).handed = s.handed := by
  cases a with
  | call e =>
    have hdel := delivered_of_not_measures board s.system.node ha
    have hbegin : ∀ cfg, e ≠ .beginRun cfg := by
      rintro cfg rfl
      exact absurd h.sameRun (by simp [beginsRun])
    constructor
    · simp only [tally, step, Interleaved.step, Interleaved.begin,
        Interleaved.acquire_of_not_delivered hdel]
      exact tally_step ha hbegin
    · simp [step, hands, hdel]
  | advance i =>
    refine ⟨?_, rfl⟩
    simp only [tally, step, Interleaved.step, Interleaved.advance]
    cases s.system.underway[i]? with
    | none => rfl
    | some held =>
      have hadvance := Node.tally_advance board.chip s.system.node held.2 held.1
      dsimp only
      cases hnext : held.1.advance board.chip s.system.node held.2 with
      | mk node next =>
        rw [hnext] at hadvance
        cases next <;> exact hadvance

theorem balanced_capture {board : Board} {s : Counted} {info : WifiCsiInfo} {now : UInt64}
    (hs : s.Balanced) (h : s.Steady board (.call (.capture info now))) :
    (s.step board (.call (.capture info now))).Balanced := by
  obtain ⟨hpub, hraw⟩ := h.opened rfl
  have hwrap := h.noneWraps
  have htally : (s.step board (.call (.capture info now))).tally =
      (s.system.node.acquireCapture board info now).1.stats.tally := rfl
  have hhanded : (s.step board (.call (.capture info now))).handed =
      s.handed + (s.system.node.acquireCapture board info now).2.toList.length := rfl
  rw [htally] at hwrap
  rw [Balanced, htally, hhanded]
  rcases s.system.node.tally_acquireCapture board info now hpub hraw with
    ⟨hsome, heq⟩ | ⟨hnone, heq | heq | heq⟩
  · obtain ⟨p, hp⟩ := Option.isSome_iff_exists.mp hsome
    rw [heq] at hwrap ⊢
    rw [hp]
    exact hs.handedOn hwrap
  · rw [heq] at hwrap ⊢
    rw [hnone]
    exact hs.filtered hwrap
  · rw [heq] at hwrap ⊢
    rw [hnone]
    exact hs.suppressed hwrap
  · rw [heq] at hwrap ⊢
    rw [hnone]
    exact hs.oversized hwrap

theorem balanced_emit {board : Board} {s : Counted} {kind : SourceKind} {frame : CsiFrame}
    {now : UInt64} (hs : s.Balanced) (h : s.Steady board (.call (.emit kind frame now))) :
    (s.step board (.call (.emit kind frame now))).Balanced ↔
      s.Admits (.call (.emit kind frame now)) := by
  obtain ⟨hpub, -⟩ := h.opened rfl
  have hwrap := h.noneWraps
  have htally : (s.step board (.call (.emit kind frame now))).tally =
      (s.system.node.acquireEmit board kind frame now).1.stats.tally := rfl
  have hhanded : (s.step board (.call (.emit kind frame now))).handed =
      s.handed + (s.system.node.acquireEmit board kind frame now).2.toList.length := rfl
  rw [htally] at hwrap
  rw [Balanced, htally, hhanded, Admits]
  have hacquire := s.system.node.tally_acquireEmit board kind frame now hpub
  dsimp only at hacquire
  split_ifs at hacquire with hadmit
  · obtain ⟨hsome, heq⟩ := hacquire
    obtain ⟨p, hp⟩ := Option.isSome_iff_exists.mp hsome
    rw [heq] at hwrap ⊢
    rw [hp]
    exact iff_of_true (hs.handedOn hwrap) hadmit
  · obtain ⟨hnone, heq⟩ := hacquire
    rw [heq] at hwrap ⊢
    rw [hnone]
    exact iff_of_false (hs.not_suppress hwrap) hadmit

theorem balanced_step {board : Board} {s : Counted} {a : Action} (hs : s.Balanced)
    (h : s.Steady board a) : (s.step board a).Balanced ↔ s.Admits a := by
  cases hmeasures : measures a with
  | false =>
    obtain ⟨htally, hhanded⟩ := step_of_not_measures h hmeasures
    rw [Balanced, htally, hhanded]
    refine iff_of_true hs ?_
    unfold Admits
    split
    · simp [measures, Event.measures] at hmeasures
    · rfl
  | true =>
    cases a with
    | advance i => simp [measures] at hmeasures
    | call e =>
      cases e with
      | capture info now => exact iff_of_true (balanced_capture hs h) rfl
      | emit kind frame now => exact balanced_emit hs h
      | _ => simp [measures, Event.measures] at hmeasures

/-- From the start of a run on, the counters balance exactly when the policy withholds no measurement
that is pushed through `emit`. -/
theorem balanced_iff_admits (board : Board) (s : Interleaved) (cfg : Node.RunConfig)
    (as : List Action) (h : Along (step board) (Steady board) (start board s cfg) as) :
    Always (step board) Balanced (start board s cfg) as ↔
      Along (step board) Admits (start board s cfg) as := by
  apply always_iff_along (I := fun _ => True) h trivial
  · rfl
  · exact fun s a _ hs ha => balanced_step hs ha
  · exact fun _ _ _ _ _ _ => trivial

def syntheticFrame : CsiFrame where
  rxMeta := (rxMeta .esp32 (.quiet .zero 0 0) 0).1
  stimulus := .ambient .zero
  header := none
  payload := .variation 0

theorem balanced_iff_admits_report :
    Always (step .esp32) Balanced (start .esp32 .boot .monitor)
      [.call (.setCsiCallback 0), .call (.capture (.quiet .zero 0 0) 0), .advance 0,
        .call (.emit .synthetic syntheticFrame 0), .advance 0] :=
  (balanced_iff_admits .esp32 .boot .monitor
    [.call (.setCsiCallback 0), .call (.capture (.quiet .zero 0 0) 0), .advance 0,
      .call (.emit .synthetic syntheticFrame 0), .advance 0] (by decide +kernel)).mpr
    (by decide +kernel)

/-- Under a decimation by 2 the second emitted measurement is suppressed, and was never counted. -/
theorem not_balanced :
    let run₀ : Node.RunConfig := { Node.RunConfig.monitor with reporting := .decimate 2 }
    let as : List Action :=
      [.call (.setCsiCallback 0), .call (.emit .synthetic syntheticFrame 0),
        .call (.emit .synthetic syntheticFrame 0)]
    Along (step .esp32) (Steady .esp32) (start .esp32 .boot run₀) as ∧
      ¬ Always (step .esp32) Balanced (start .esp32 .boot run₀) as :=
  ⟨by decide +kernel, fun h => absurd h.last (by decide +kernel)⟩

end Counted

end Csi

end EspCsi
