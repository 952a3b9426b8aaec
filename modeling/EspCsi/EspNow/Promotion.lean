import EspCsi.EspNow.Responder
import EspCsi.Lib.Streak

/-!
# Responder promotion

When a responder configured not to report takes over the reporting. The driver keeps a streak and
the last flag it was told; together they say how many control packets in a row, up to the last one
taken in, came from an initiator that does not report.
-/

namespace EspCsi.EspNow

open Wire Transition Streak

namespace Responder

/-! ## The turns of a responder -/

/-- What happens at a responder while its driver runs: a received frame is ingested, a due reply goes
out, or another call comes into the crate. -/
inductive Turn where
  | ingest (r : PoolFrame) (registers : Bool)
  | reply
  | call (e : Csi.Event)

def turn (board : Csi.Board) (txEnabled : Bool) (s : Responder) : Turn → Responder
  | .ingest r registers => s.ingestControlPacket r txEnabled registers
  | .reply => if txEnabled then s.reply.2 else s
  | .call e => { s with node := Csi.step board s.node e }

/-- The control packet a frame is ingested as, unless it is refused. -/
def accepts (s : Responder) (r : PoolFrame) : Option ControlPacket :=
  if s.rawListen then none
  else if s.shared.isConnected ∧ s.shared.initiatorMac ≠ r.srcAddress then none
  else parseWithMagic controlPacketCodec r.data INITIATOR_MAGIC_NUMBER s.config.peerMac.isNone

def sound (s : Responder) (packet : ControlPacket) (nth : ℕ) : Responder :=
  { s with
    node := { s.node with session := s.node.session.setSoundingInstance packet.sequenceNumber }
    answering := some (packet.sequenceNumber, nth) }

/-- What an accepted packet does. -/
def ingest (s : Responder) (r : PoolFrame) (packet : ControlPacket) (txEnabled registers : Bool) :
    Responder :=
  let s := (s.sound packet r.nth).countSequence packet
  let s := if txEnabled then s.connect r.srcAddress registers else s
  s.followReporting packet.initiatorReports

theorem ingestControlPacket_of_accepts {s : Responder} {r : PoolFrame} {packet : ControlPacket}
    (h : s.accepts r = some packet) (txEnabled registers : Bool) :
    s.ingestControlPacket r txEnabled registers = s.ingest r packet txEnabled registers := by
  unfold accepts at h
  split_ifs at h with hraw hother
  unfold ingestControlPacket
  rw [if_neg hraw, if_neg hother]
  simp only [h]
  rfl

theorem parse_of_accepts {s : Responder} {r : PoolFrame} {packet : ControlPacket}
    (h : s.accepts r = some packet) :
    parseWithMagic controlPacketCodec r.data INITIATOR_MAGIC_NUMBER s.config.peerMac.isNone =
      some packet := by
  unfold accepts at h
  split_ifs at h
  exact h

theorem ingestControlPacket_of_refused {s : Responder} {r : PoolFrame} (h : s.accepts r = none)
    (txEnabled registers : Bool) :
    ∃ parseFail magicDrop sourceFilterDrop, s.ingestControlPacket r txEnabled registers =
      { s with rx := { s.rx with parseFail, magicDrop, sourceFilterDrop } } := by
  unfold ingestControlPacket
  by_cases hraw : s.rawListen = true
  · exact ⟨s.rx.parseFail, s.rx.magicDrop, s.rx.sourceFilterDrop, if_pos hraw⟩
  · rw [if_neg hraw]
    by_cases hother : s.shared.isConnected ∧ s.shared.initiatorMac ≠ r.srcAddress
    · exact ⟨s.rx.parseFail, s.rx.magicDrop, s.rx.sourceFilterDrop + 1, if_pos hother⟩
    · rw [if_neg hother]
      rw [accepts, if_neg hraw, if_neg hother] at h
      simp only [h]
      by_cases hmagic : s.config.peerMac.isNone = true
      · exact ⟨s.rx.parseFail, s.rx.magicDrop + 1, s.rx.sourceFilterDrop, by rw [if_pos hmagic]⟩
      · exact ⟨s.rx.parseFail + 1, s.rx.magicDrop, s.rx.sourceFilterDrop, by rw [if_neg hmagic]⟩

@[simp] theorem turn_config (board : Csi.Board) (txEnabled : Bool) (s : Responder) (t : Turn) :
    (s.turn board txEnabled t).config = s.config := by
  cases t with
  | ingest r registers =>
    rcases s.ingestControlPacket_cases r txEnabled registers with
      ⟨rx, heq⟩ | ⟨packet, node, shared, rx, -, heq⟩ <;> rw [turn, heq]
  | reply =>
    simp only [turn, reply]
    split_ifs <;> rfl
  | call e => rfl

/-! ## The reporting follows the packets -/

def streakAfter (s : Responder) (initiatorReports : Bool) : UInt8 :=
  if (!initiatorReports) ≠ s.shared.lastInitiatorSilent then 1
  else if s.shared.modeStreak = 255 then 255
  else s.shared.modeStreak + 1

/-- The packet has a responder that does not report take over. -/
def promotes (s : Responder) (initiatorReports : Bool) : Bool :=
  !initiatorReports && s.shared.lastInitiatorSilent && !s.shared.reports &&
    s.streakAfter initiatorReports == MODE_SWITCH_HYSTERESIS

theorem followReporting_eq_promotes (s : Responder) (initiatorReports : Bool) :
    s.followReporting initiatorReports =
      { s with
        node :=
          if s.promotes initiatorReports then s.node.setRuntimeReporting .HOST else s.node
        shared := { s.shared with
          lastInitiatorSilent := !initiatorReports
          modeStreak := s.streakAfter initiatorReports
          reports := s.shared.reports || s.promotes initiatorReports } } := by
  obtain ⟨mac, chip, config, rawListen, node, pool, ⟨isConnected, reports, initiatorMac, counter,
    lastControlSequence, sequenceInitialized, pendingFlag, lastInitiatorSilent, modeStreak⟩, rx,
    answering⟩ := s
  cases initiatorReports <;> cases lastInitiatorSilent <;> cases reports <;>
    simp [followReporting, promotes, streakAfter]
  split_ifs <;> simp_all

/-- The part of a responder that decides its reporting. -/
structure Following where
  reports : Bool
  lastInitiatorSilent : Bool
  modeStreak : UInt8
  gates : Csi.Gates
deriving DecidableEq

def following (s : Responder) : Following :=
  ⟨s.shared.reports, s.shared.lastInitiatorSilent, s.shared.modeStreak, s.node.gates⟩

theorem connect_following (s : Responder) (src : Mac) (registers : Bool) :
    (s.connect src registers).following = s.following := by
  unfold connect
  split_ifs <;> rfl

theorem ingest_following (s : Responder) (r : PoolFrame) (packet : ControlPacket)
    (txEnabled registers : Bool) :
    (s.ingest r packet txEnabled registers).following =
      (s.followReporting packet.initiatorReports).following := by
  have hbefore : (if txEnabled then
      ((s.sound packet r.nth).countSequence packet).connect r.srcAddress registers
      else (s.sound packet r.nth).countSequence packet).following = s.following := by
    split_ifs
    · rw [connect_following]
      rfl
    · rfl
  -- what follows reads these parts only
  have hfollow (s s' : Responder) (h : s.following = s'.following) :
      (s.followReporting packet.initiatorReports).following =
        (s'.followReporting packet.initiatorReports).following := by
    simp only [following, Following.mk.injEq] at h
    obtain ⟨hreports, hlast, hstreak, hgates⟩ := h
    unfold followReporting
    simp only [hlast, hstreak, hreports]
    split_ifs <;> simp [following, hgates, Csi.Node.setRuntimeReporting]
  exact hfollow _ _ hbefore

theorem followReporting_reporting (s : Responder) :
    ∃ modeStreak, (s.followReporting true).following =
      { s.following with lastInitiatorSilent := false, modeStreak } := by
  unfold followReporting
  by_cases hlast : s.shared.lastInitiatorSilent = true
  · exact ⟨1, by simp [hlast, following]⟩
  · refine ⟨if s.shared.modeStreak = 255 then 255 else s.shared.modeStreak + 1, ?_⟩
    simp [hlast, following]

theorem followReporting_silent_first {s : Responder} (h : s.shared.lastInitiatorSilent = false) :
    (s.followReporting false).following =
      { s.following with lastInitiatorSilent := true, modeStreak := 1 } := by
  simp [followReporting, h, following]

theorem followReporting_silent_again {s : Responder} (h : s.shared.lastInitiatorSilent = true) :
    (s.followReporting false).following =
      let modeStreak := if s.shared.modeStreak = 255 then 255 else s.shared.modeStreak + 1
      if modeStreak = MODE_SWITCH_HYSTERESIS ∧ s.shared.reports = false then
        ⟨true, true, modeStreak, s.node.gates.setRuntimeReporting .HOST⟩
      else { s.following with modeStreak } := by
  unfold followReporting
  simp only [h, Bool.not_false, ne_eq, not_true_eq_false, if_false]
  split_ifs <;> simp_all [following, Csi.Node.setRuntimeReporting]

end Responder

/-! ## The packets taken in -/

/-- A responder with the control packets it has ingested, oldest first. Nothing of the crate reads
the latter. -/
structure Listening where
  responder : Responder
  heard : List ControlPacket

namespace Listening

open Responder (Turn)

def ingested (s : Responder) : Turn → Option ControlPacket
  | .ingest r _ => s.accepts r
  | _ => none

def step (board : Csi.Board) (txEnabled : Bool) (l : Listening) (t : Turn) : Listening where
  responder := l.responder.turn board txEnabled t
  heard := l.heard ++ (ingested l.responder t).toList

def start (mac : Mac) (chip : Chip) (config : EspNowConfig) (rawListen : Bool) (node : Csi.Node)
    (cfg : Csi.Node.RunConfig) : Listening where
  responder := .start mac chip config rawListen (node.beginRun cfg)
  heard := []

def Silent (packet : ControlPacket) : Prop := packet.initiatorReports = false

instance : DecidablePred Silent := fun _ => inferInstanceAs (Decidable (_ = _))

/-- The reporting that a configured policy puts in force: a decimation by 0 is one by 1. -/
def inForce : Reporting → Reporting
  | .decimate n => .decimate (max n 1)
  | policy => policy

/-- The reporting in force is `Report` to the host once three silent packets in a row were ingested
by a node configured `None`, and the configured one otherwise. -/
def Exact (policy : Reporting) (l : Listening) : Prop :=
  (policy = .none ∧ HasStreak Silent 3 l.heard →
      l.responder.node.gates.runtimeReporting = .HOST) ∧
    (¬ (policy = .none ∧ HasStreak Silent 3 l.heard) →
      l.responder.node.gates.runtimeReporting = inForce policy)

/-- The driver's streak is that of the silent packets heard, and its `reports` says whether the node
was configured to report or has been promoted. -/
structure Follows (policy : Reporting) (f : Responder.Following) (heard : List ControlPacket) :
    Prop where
  silent : f.lastInitiatorSilent = true → f.modeStreak.toNat = min 255 (streak Silent heard)
  reporting : f.lastInitiatorSilent = false → streak Silent heard = 0
  reports : f.reports = true ↔ policy.reports = true ∨ HasStreak Silent 3 heard
  inForce : f.gates.runtimeReporting = .HOST ∧ policy = .none ∧ HasStreak Silent 3 heard ∨
    f.gates.runtimeReporting = inForce policy ∧ ¬ (policy = .none ∧ HasStreak Silent 3 heard)

theorem Follows.exact {policy : Reporting} {l : Listening}
    (h : Follows policy l.responder.following l.heard) : Exact policy l := by
  rcases h.inForce with ⟨hhost, hpromoted⟩ | ⟨hkept, hnot⟩
  · exact ⟨fun _ => hhost, fun hnot => absurd hpromoted hnot⟩
  · exact ⟨fun hpromoted => absurd hpromoted hnot, fun _ => hkept⟩

theorem follows_start (mac : Mac) (chip : Chip) (config : EspNowConfig) (rawListen : Bool)
    (node : Csi.Node) (cfg : Csi.Node.RunConfig) :
    Follows cfg.reporting (start mac chip config rawListen node cfg).responder.following [] where
  silent := by simp [start, Responder.start, Responder.following]
  reporting := by simp
  reports := by
    have hnone : ¬ HasStreak Silent 3 [] := not_hasStreak_nil 2
    have hreports : (start mac chip config rawListen node cfg).responder.following.reports =
      cfg.reporting.reports := rfl
    rw [hreports]
    simp [hnone]
  inForce := by
    refine .inr ⟨?_, fun h => not_hasStreak_nil 2 h.2⟩
    have hset := node.gates.runtimeReporting_setRuntimeReporting cfg.reporting
    simp only [start, Responder.start, Responder.following, Csi.Node.beginRun,
      Csi.Node.setRuntimeReporting, hset]
    cases cfg.reporting <;> rfl

theorem reports_of_ne_none {policy : Reporting} (h : policy ≠ .none) : policy.reports = true := by
  cases policy with
  | none => exact absurd rfl h
  | _ => rfl

theorem Follows.keep {policy : Reporting} {f : Responder.Following} {heard : List ControlPacket}
    {packet : ControlPacket} (h : Follows policy f heard) (lastInitiatorSilent : Bool)
    (modeStreak : UInt8)
    (hsame : policy = .none →
      (HasStreak Silent 3 (heard ++ [packet]) ↔ HasStreak Silent 3 heard))
    (hsilent : lastInitiatorSilent = true →
      modeStreak.toNat = min 255 (streak Silent (heard ++ [packet])))
    (hreporting : lastInitiatorSilent = false → streak Silent (heard ++ [packet]) = 0) :
    Follows policy { f with lastInitiatorSilent, modeStreak } (heard ++ [packet]) where
  silent := hsilent
  reporting := hreporting
  reports := by
    by_cases hnone : policy = .none
    · rw [hsame hnone]
      exact h.reports
    · have hreports := reports_of_ne_none hnone
      simpa [hreports] using h.reports
  inForce := by
    by_cases hnone : policy = .none
    · rw [hsame hnone]
      exact h.inForce
    · simpa [hnone] using h.inForce

theorem toNat_saturating {x : UInt8} {k : ℕ} (h : x.toNat = min 255 k) :
    (if x = 255 then 255 else x + 1).toNat = min 255 (k + 1) := by
  have hlt := x.toNat_lt
  split_ifs with hfull
  · have : x.toNat = 255 := by rw [hfull]; rfl
    have h255 : (255 : UInt8).toNat = 255 := rfl
    omega
  · have hne : x.toNat ≠ 255 := fun heq => hfull (UInt8.toNat_inj.mp heq)
    rw [UInt8.toNat_add]
    have h1 : (1 : UInt8).toNat = 1 := rfl
    omega

theorem eq_threshold_iff {x : UInt8} {k : ℕ} (h : x.toNat = min 255 k) :
    x = MODE_SWITCH_HYSTERESIS ↔ k = 3 := by
  rw [← UInt8.toNat_inj, h]
  have h3 : MODE_SWITCH_HYSTERESIS.toNat = 3 := rfl
  omega

theorem Follows.ingest {policy : Reporting} {s : Responder} {heard : List ControlPacket}
    (h : Follows policy s.following heard) (packet : ControlPacket) :
    Follows policy (s.followReporting packet.initiatorReports).following (heard ++ [packet]) := by
  by_cases hsilent : Silent packet
  · have hstreak : streak Silent (heard ++ [packet]) = streak Silent heard + 1 := by
      rw [streak_concat, if_pos hsilent]
    rw [show packet.initiatorReports = false from hsilent]
    cases hlast : s.shared.lastInitiatorSilent with
    -- the first silent packet of a streak: the counter starts at 1
    | false =>
      have hzero : streak Silent heard = 0 := h.reporting hlast
      rw [Responder.followReporting_silent_first hlast]
      apply h.keep
      · simp [hasStreak_concat, endsIn_iff, hzero]
      · simp [hstreak, hzero]
      · simp
    | true =>
      -- the counter saturates at 255, far past the third packet
      have hmode := h.silent hlast
      have hnext : (if s.shared.modeStreak = 255 then 255 else s.shared.modeStreak + 1 :
          UInt8).toNat = min 255 (streak Silent (heard ++ [packet])) := by
        rw [hstreak]
        exact toNat_saturating hmode
      have hthird := eq_threshold_iff hnext
      rw [Responder.followReporting_silent_again hlast]
      by_cases hpromotes : policy = .none ∧ ¬ HasStreak Silent 3 heard ∧ streak Silent heard = 2
      · obtain ⟨rfl, hnot, htwo⟩ := hpromotes
        have hthree : HasStreak Silent 3 (heard ++ [packet]) :=
          (hasStreak_concat_iff_streak hnot).mpr ⟨hsilent, htwo⟩
        have hreports : s.shared.reports = false := by
          have := h.reports
          simpa [Responder.following, Reporting.reports, hnot] using this
        rw [if_pos ⟨hthird.mpr (by omega), hreports⟩]
        exact ⟨fun _ => hnext, by simp, by simp [hthree],
          .inl ⟨s.node.gates.runtimeReporting_setRuntimeReporting .HOST, rfl, hthree⟩⟩
      -- no promotion: the count is not at three, or the node reports already
      · have hcond : ¬ ((if s.shared.modeStreak = 255 then 255 else s.shared.modeStreak + 1) =
            MODE_SWITCH_HYSTERESIS ∧ s.shared.reports = false) := by
          rintro ⟨hcount, hreports⟩
          have hquiet : ¬ (policy.reports = true ∨ HasStreak Silent 3 heard) := fun hor =>
            absurd (h.reports.mpr hor) (by simp [Responder.following, hreports])
          obtain ⟨hpolicy, hnot⟩ := not_or.mp hquiet
          refine hpromotes ⟨by_contra fun hne => hpolicy (reports_of_ne_none hne), hnot, ?_⟩
          have := hthird.mp hcount
          omega
        rw [if_neg hcond]
        have hsame : policy = .none →
            (HasStreak Silent 3 (heard ++ [packet]) ↔ HasStreak Silent 3 heard) := by
          intro hnone
          by_cases hthree : HasStreak Silent 3 heard
          · simp [hasStreak_concat, hthree]
          · have hcount : streak Silent heard ≠ 2 := fun htwo => hpromotes ⟨hnone, hthree, htwo⟩
            simp [hasStreak_concat_iff_streak hthree, hthree, hcount]
        have hkept := h.keep true _ hsame (fun _ => hnext) (by simp)
        simpa [Responder.following, hlast] using hkept
  -- a packet of a reporting initiator ends the streak, and demotes nobody
  · have hreports : packet.initiatorReports = true := by simpa [Silent] using hsilent
    obtain ⟨modeStreak, heq⟩ := s.followReporting_reporting
    rw [hreports, heq]
    apply h.keep
    · simp [hasStreak_concat, hsilent]
    · simp
    · intro _
      rw [streak_concat, if_neg hsilent]

theorem Follows.call {policy : Reporting} {f : Responder.Following} {heard : List ControlPacket}
    (h : Follows policy f heard) {e : Csi.Event} (he : e.keepsReporting = true) :
    Follows policy { f with gates := f.gates.step e } heard where
  silent := h.silent
  reporting := h.reporting
  reports := h.reports
  inForce := by
    rw [(Csi.Gates.step_reporting he f.gates).1]
    exact h.inForce

/-- Nothing but the responder's driver changes the reporting in this turn. -/
def OnlyDriver (_ : Listening) : Turn → Prop
  | .call e => e.keepsReporting = true
  | _ => True

instance (l : Listening) : (t : Turn) → Decidable (l.OnlyDriver t)
  | .call e => inferInstanceAs (Decidable (e.keepsReporting = true))
  | .ingest .. | .reply => isTrue trivial

theorem Follows.step {policy : Reporting} {l : Listening} (board : Csi.Board) (txEnabled : Bool)
    (h : Follows policy l.responder.following l.heard) {t : Turn} (ht : l.OnlyDriver t) :
    Follows policy (l.step board txEnabled t).responder.following
      (l.step board txEnabled t).heard := by
  cases t with
  | ingest r registers =>
    cases haccepts : l.responder.accepts r with
    | none =>
      obtain ⟨_, _, _, heq⟩ :=
        Responder.ingestControlPacket_of_refused haccepts txEnabled registers
      simp only [Listening.step, Responder.turn, heq, ingested, haccepts, Option.toList_none,
        List.append_nil]
      exact h
    | some packet =>
      simp only [Listening.step, Responder.turn, ingested, haccepts, Option.toList_some,
        Responder.ingestControlPacket_of_accepts haccepts, Responder.ingest_following]
      exact h.ingest packet
  | reply =>
    have hsame : (l.step board txEnabled .reply).responder.following = l.responder.following := by
      simp only [Listening.step, Responder.turn, Responder.reply]
      split_ifs <;> rfl
    rw [hsame]
    simpa [Listening.step, ingested] using h
  | call e =>
    have hgates : (l.step board txEnabled (.call e)).responder.following =
        { l.responder.following with gates := l.responder.following.gates.step e } := by
      simp [Listening.step, Responder.turn, Responder.following, Csi.step_gates]
    rw [hgates]
    simpa [Listening.step, ingested] using h.call ht

/-- Whatever a responder ingests, the reporting in force is exact in every state of its run. -/
theorem promotion_exact (board : Csi.Board) (txEnabled : Bool) (mac : Mac) (chip : Chip)
    (config : EspNowConfig) (rawListen : Bool) (node : Csi.Node) (cfg : Csi.Node.RunConfig)
    (ts : List Turn)
    (h : Along (step board txEnabled) OnlyDriver (start mac chip config rawListen node cfg) ts) :
    Always (step board txEnabled) (Exact cfg.reporting)
      (start mac chip config rawListen node cfg) ts := by
  have hfollows : Always (step board txEnabled)
      (fun l => Follows cfg.reporting l.responder.following l.heard)
      (start mac chip config rawListen node cfg) ts :=
    h.always (follows_start mac chip config rawListen node cfg) fun _ _ hf ht => hf.step board txEnabled ht
  intro pre hpre
  exact (hfollows pre hpre).exact

def silentFrame (n : UInt32) : PoolFrame where
  srcAddress := .zero
  data := tagged controlPacketCodec ⟨false, n⟩ INITIATOR_MAGIC_NUMBER true
  nth := n.toNat

theorem promotion_exact_third :
    (run (step .esp32 true)
      (start .zero .esp32 .default false .boot { Csi.Node.RunConfig.monitor with reporting := .none })
      [.ingest (silentFrame 0) true, .ingest (silentFrame 1) true, .reply,
        .ingest (silentFrame 3) true]).responder.node.gates.runtimeReporting = .HOST :=
  (promotion_exact .esp32 true .zero .esp32 .default false .boot
    { Csi.Node.RunConfig.monitor with reporting := .none }
    [.ingest (silentFrame 0) true, .ingest (silentFrame 1) true, .reply,
      .ingest (silentFrame 3) true] (by decide)).last.1
    ⟨rfl, [⟨false, 0⟩, ⟨false, 1⟩, ⟨false, 3⟩], rfl, by decide +kernel, by decide⟩

end Listening

end EspCsi.EspNow
