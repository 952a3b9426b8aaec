import Mathlib.Data.List.Perm.Subperm
import EspCsi.Csi.Events

/-!
# Loss accounting

When frames withheld on purpose stay out of the loss counters. The gap count runs in `deliver`, past
the filter and the policy, so a transmitter's table entry keeps the number of its last delivered
frame, and what counts is how many of its frames were captured since.
-/

namespace EspCsi.Csi

open Wire Transition

namespace Session

def digestOf (s : Session) (info : WifiCsiInfo) : Option HeaderDigest :=
  if s.headerDigest then HeaderDigest.parse info.header else none

def attributed (s : Session) (info : WifiCsiInfo) : Mac :=
  match s.digestOf info with
  | some digest => digest.addr2
  | none => info.mac

def retryOf (s : Session) (info : WifiCsiInfo) : Option Bool :=
  (s.digestOf info).map HeaderDigest.isRetry

theorem stimulus_ta (s : Session) (ta : Mac) (instanceNo : Option UInt32) :
    (s.stimulus ta instanceNo).ta = ta := by
  unfold stimulus
  split_ifs <;> rfl

end Session

theorem rxMeta_frameSeq (chip : Chip) (info : WifiCsiInfo) (timestampUs : UInt64) :
    (rxMeta chip info timestampUs).1.frameSeq = some info.rxSequence := by
  unfold rxMeta
  split_ifs <;> rfl

theorem frameFromEsp_numbered {board : Board} {s s' : Session} {info : WifiCsiInfo}
    {frame : CsiFrame} (h : frameFromEsp board s info = some (frame, s')) :
    frame.transmitter = some (s.attributed info) ∧ frame.rxMeta.frameSeq = some info.rxSequence ∧
      frame.header = s.digestOf info := by
  by_cases hlen : info.buf.length ≤ MAX_CSI_BYTES
  · simp only [frameFromEsp, hlen, dite_true] at h
    obtain ⟨rfl, -⟩ := Prod.mk.inj (Option.some_inj.mp h)
    refine ⟨?_, rxMeta_frameSeq board.chip info _, rfl⟩
    change CsiFrame.transmitter { header := s.digestOf info, .. } = _
    unfold CsiFrame.transmitter Session.attributed
    cases s.digestOf info with
    | some digest => rfl
    | none => exact congrArg some (s.stimulus_ta info.mac _)
  · simp [frameFromEsp, hlen] at h

namespace Node

theorem packetOf_numbered {board : Board} {n : Node} {info : WifiCsiInfo} {now : UInt64}
    {p : CsiPacket} {session : Session} (h : n.packetOf board info now = some (p, session)) :
    p.mac = n.session.attributed info ∧ p.frame.rxMeta.frameSeq = some info.rxSequence ∧
      p.frame.header.map HeaderDigest.isRetry = n.session.retryOf info := by
  obtain ⟨frame, s, score, streamSeq, anchorPending, hframe, hreport, -⟩ := packetOf_eq_some h
  obtain ⟨hta, hseq, hheader⟩ := frameFromEsp_numbered hframe
  simp [CsiPacket.mac, hreport, hta, hseq, hheader, Session.retryOf]

theorem captureCsiInfo_stats {board : Board} {n : Node} {info : WifiCsiInfo} {now : UInt64}
    (h : n.Delivers board info now) (hchip : board.chip ≠ .esp32C5)
    (hdetect : n.stats.seqDropDetection = true) :
    ∃ rxCount bbFormatHist,
      let recorded := { n.stats with rxCount, bbFormatHist }.recordTxFrame
        (n.session.attributed info) (some info.rxSequence) (n.session.retryOf info)
      let after := (n.captureCsiInfo board info now).stats
      after = recorded ∨ after = recorded.recordLoss .queueFull 1 := by
  obtain ⟨p, session, rxCount, bbFormatHist, policy, hp, heq⟩ := captureCsiInfo_of_delivers h
  obtain ⟨hmac, hseq, hretry⟩ := packetOf_numbered hp
  refine ⟨rxCount, bbFormatHist, ?_⟩
  generalize hn : ({ n with session, stats := { n.stats with rxCount, bbFormatHist }, policy } :
    Node) = n' at heq
  have hrecord : (n'.recordTx board.chip p).stats =
      { n.stats with rxCount, bbFormatHist }.recordTxFrame (n.session.attributed info)
        (some info.rxSequence) (n.session.retryOf info) := by
    rw [← hmac, ← hseq, ← hretry]
    simp [← hn, recordTx, hdetect, hchip]
  rw [heq, deliver, ← hrecord]
  exact dispatch_stats _ p

end Node

end EspCsi.Csi

namespace EspCsi

open Wire

/-! ## The counters -/

namespace Stats

/-- No gap was counted, and every loss is an oversize frame or a full queue. -/
structure LossesOnly (s : Stats) : Prop where
  rxSeqGap : s.rxSeqGap = 0
  seqGaps : ∀ e ∈ s.perTx, e.seqGaps = 0
  rxDropCount : s.rxDropCount = s.rxOversize + s.rxQueueFull

theorem lossesOnly_recordLoss_queueFull {s : Stats} (n : UInt32) :
    (s.recordLoss .queueFull n).LossesOnly ↔ s.LossesOnly := by
  constructor
  · rintro ⟨hgap, hentries, hdrop⟩
    change s.rxDropCount + n = s.rxOversize + (s.rxQueueFull + n) at hdrop
    rw [← UInt32.add_assoc] at hdrop
    exact ⟨hgap, hentries, (UInt32.add_left_inj n).mp hdrop⟩
  · rintro ⟨hgap, hentries, hdrop⟩
    refine ⟨hgap, hentries, ?_⟩
    change s.rxDropCount + n = s.rxOversize + (s.rxQueueFull + n)
    rw [hdrop, UInt32.add_assoc]

theorem LossesOnly.recordLoss_oversize {s : Stats} (h : s.LossesOnly) (n : UInt32) :
    (s.recordLoss .oversize n).LossesOnly := by
  refine ⟨h.rxSeqGap, h.seqGaps, ?_⟩
  change s.rxDropCount + n = s.rxOversize + n + s.rxQueueFull
  rw [h.rxDropCount, UInt32.add_assoc, UInt32.add_assoc, UInt32.add_comm n]

theorem LossesOnly.recordTxFrame_iff {s : Stats} (h : s.LossesOnly) {mac : Mac}
    {seq : Option UInt16} (retry : Option Bool) {before after : List TxStats} {e : TxStats}
    (hslot : slotFor s.marked mac seq = (before.length, before ++ e :: after))
    (hentries : ∀ x ∈ before ++ e :: after, x.seqGaps = 0) :
    (s.recordTxFrame mac seq retry).LossesOnly ↔ (e.record seq retry s.perTxClock).1 = 0 := by
  rw [recordTxFrame_eq retry hslot]
  constructor
  · rintro ⟨hgap, -, -⟩
    change s.rxSeqGap + _ = 0 at hgap
    rwa [h.rxSeqGap, UInt32.zero_add] at hgap
  · intro hgap
    rw [hgap, UInt32.add_zero, UInt32.add_zero]
    refine ⟨h.rxSeqGap, fun x hx => ?_, h.rxDropCount⟩
    rcases List.mem_append.mp hx with hx | hx
    · exact hentries x (List.mem_append_left _ hx)
    · rcases List.mem_cons.mp hx with rfl | hx
      · rw [TxStats.record_seqGaps, hgap, hentries e (by simp), UInt32.add_zero]
      · exact hentries x (by simp [hx])

end Stats

end EspCsi

namespace EspCsi.Csi

open Wire Transition

/-! ## The air -/

/-- What passed on the air: the transmitters heard, each one's last sequence number, and how many of
its frames were captured after the one its table entry keeps the number of. -/
structure Air where
  heard : List Mac
  latest : Mac → UInt16
  since : Mac → ℕ

namespace Air

def silent : Air := ⟨[], fun _ => 0, fun _ => 0⟩

/-- A captured frame from `m`, numbered `seq`. `kept` says whether the table keeps its number. -/
def hear (a : Air) (m : Mac) (seq : UInt16) (kept : Bool) : Air where
  heard := a.heard.insert m
  latest := fun m' => if m' = m then seq else a.latest m'
  since := fun m' => if m' = m then (if kept then 0 else a.since m + 1) else a.since m'

/-- The entries are of transmitters heard, one each, and each keeps the number of the frame that
`since` counts from. -/
structure Tracks (a : Air) (t : List TxStats) : Prop where
  nodup : (t.map TxStats.mac).Nodup
  heard : ∀ e ∈ t, e.mac ∈ a.heard
  latest : ∀ e ∈ t,
    (e.lastSeq.toNat + a.since e.mac) % 4096 = (a.latest e.mac).toNat % 4096

theorem Tracks.marked {a : Air} {s : Stats} (h : a.Tracks s.perTx) : a.Tracks s.marked := by
  constructor
  · rw [s.map_mac_marked]
    exact h.nodup
  · intro e he
    obtain ⟨e', he', resync, rfl⟩ := Stats.exists_of_mem_marked he
    exact h.heard e' he'
  · intro e he
    obtain ⟨e', he', resync, rfl⟩ := Stats.exists_of_mem_marked he
    exact h.latest e' he'

theorem Tracks.room {a : Air} {t : List TxStats} (h : a.Tracks t) {m : Mac}
    (hfew : (a.heard.insert m).length ≤ MAX_TRACKED_TX) :
    m ∈ t.map TxStats.mac ∨ t.length < MAX_TRACKED_TX := by
  by_cases hmem : m ∈ t.map TxStats.mac
  · exact .inl hmem
  · right
    have hsub : m :: t.map TxStats.mac ⊆ a.heard.insert m := by
      intro m' hm'
      rcases List.mem_cons.mp hm' with rfl | hm'
      · exact List.mem_insert_self
      · obtain ⟨e, he, rfl⟩ := List.mem_map.mp hm'
        exact List.mem_insert_of_mem (h.heard e he)
    have hle := (List.subperm_of_subset (List.nodup_cons.mpr ⟨hmem, h.nodup⟩) hsub).length_le
    rw [List.length_cons, List.length_map] at hle
    omega

variable {a : Air} {t : List TxStats} {m : Mac} {seq : UInt16}

theorem Tracks.next (h : a.Tracks t)
    (hnext : m ∈ a.heard → seq.toNat = ((a.latest m).toNat + 1) % 4096) {e : TxStats}
    (he : e ∈ t) (hm : e.mac = m) :
    (e.lastSeq.toNat + (a.since m + 1)) % 4096 = seq.toNat % 4096 := by
  subst hm
  have hseq := hnext (h.heard e he)
  have hlatest := h.latest e he
  omega

theorem Tracks.hear_latest (h : a.Tracks t) (kept : Bool) {e : TxStats} (he : e ∈ t)
    (hm : e.mac ≠ m) :
    (e.lastSeq.toNat + (a.hear m seq kept).since e.mac) % 4096 =
      ((a.hear m seq kept).latest e.mac).toNat % 4096 := by
  simp only [hear, if_neg hm]
  exact h.latest e he

theorem Tracks.withheld (h : a.Tracks t)
    (hnext : m ∈ a.heard → seq.toNat = ((a.latest m).toNat + 1) % 4096) :
    (a.hear m seq false).Tracks t := by
  refine ⟨h.nodup, fun e he => List.mem_insert_of_mem (h.heard e he), fun e he => ?_⟩
  by_cases hm : e.mac = m
  · simpa [hear, hm] using h.next hnext he hm
  · exact h.hear_latest false he hm

theorem Tracks.record (h : a.Tracks t)
    (hnext : m ∈ a.heard → seq.toNat = ((a.latest m).toNat + 1) % 4096)
    {before after : List TxStats} {e : TxStats} (hm : e.mac = m)
    (hothers : m ∉ (before ++ after).map TxStats.mac)
    (hslot : t = before ++ e :: after ∨
      t = before ++ after ∧ e = TxStats.fresh m (some seq)) {kept : Bool} {retry : Option Bool}
    (hkept : kept = true ↔ m ∉ t.map TxStats.mac ∨ retry ≠ some true) (now : UInt32) :
    (a.hear m seq kept).Tracks (before ++ (e.record (some seq) retry now).2 :: after) := by
  have hmac : (e.record (some seq) retry now).2.mac = m := by rw [TxStats.record_mac, hm]
  have hrest : ∀ x ∈ before ++ after, x ∈ t := by
    intro x hx
    rcases hslot with rfl | ⟨rfl, -⟩
    · rcases List.mem_append.mp hx with hx | hx <;> simp [hx]
    · exact hx
  -- each entry is the one recorded into, or another transmitter's from before
  have hsplit (x : TxStats) (hx : x ∈ before ++ (e.record (some seq) retry now).2 :: after) :
      x = (e.record (some seq) retry now).2 ∨ x ∈ t ∧ x.mac ≠ m := by
    have hcases : x = (e.record (some seq) retry now).2 ∨ x ∈ before ++ after := by
      simpa [or_left_comm] using hx
    refine hcases.imp_right fun hx => ⟨hrest x hx, ?_⟩
    rintro rfl
    exact hothers (List.mem_map_of_mem hx)
  have hnodup : ((before ++ after).map TxStats.mac).Nodup := by
    rcases hslot with rfl | ⟨rfl, -⟩
    · have hall := h.nodup
      rw [List.map_append, List.map_cons, List.nodup_middle, ← List.map_append] at hall
      exact (List.nodup_cons.mp hall).2
    · exact h.nodup
  constructor
  · rw [List.map_append, List.map_cons, List.nodup_middle, ← List.map_append, hmac]
    exact List.nodup_cons.mpr ⟨hothers, hnodup⟩
  · intro x hx
    rcases hsplit x hx with rfl | ⟨hx, -⟩
    · rw [hmac]
      exact List.mem_insert_self
    · exact List.mem_insert_of_mem (h.heard x hx)
  · intro x hx
    rcases hsplit x hx with rfl | ⟨hx, hne⟩
    · rw [hmac, TxStats.record_lastSeq]
      by_cases hretry : retry = some true
      -- a retry leaves the number of an old entry, but a new one is made with it
      · rcases hslot with rfl | ⟨rfl, rfl⟩
        · have hold : kept = false := by
            simpa [hm, hretry] using hkept
          have hnew := h.next hnext (e := e) (by simp) hm
          simpa [hear, hold, hretry] using hnew
        · have hnew : kept = true := hkept.mpr (.inl hothers)
          simp [hear, hnew, TxStats.fresh]
      · have hnew : kept = true := hkept.mpr (.inr hretry)
        simp [hear, hnew, hretry]
    · exact h.hear_latest kept hx hne

end Air

structure Listening where
  node : Node
  air : Air

namespace Listening

def start (n : Node) : Listening := ⟨n, .silent⟩

/-- Delivery writes the frame's number into its transmitter's entry: it is not a retry, or there is
no entry yet. -/
def Renumbers (board : Board) (n : Node) (info : WifiCsiInfo) (now : UInt64) : Prop :=
  n.Delivers board info now ∧
    (n.session.attributed info ∉ n.stats.perTx.map TxStats.mac ∨
      n.session.retryOf info ≠ some true)

instance (board : Board) (n : Node) (info : WifiCsiInfo) (now : UInt64) :
    Decidable (Renumbers board n info now) :=
  inferInstanceAs (Decidable (_ ∧ _))

def step (board : Board) (s : Listening) (e : Event) : Listening where
  node := Csi.step board s.node e
  air :=
    match e with
    | .capture info now => s.air.hear (s.node.session.attributed info) info.rxSequence
        (Renumbers board s.node info now)
    | _ => s.air

/-- Each of at most 16 transmitters' captured frames carry consecutive 12-bit sequence numbers. No
other run begins, and no other source emits. -/
def Consecutive (s : Listening) : Event → Prop
  | .capture info _ =>
    let m := s.node.session.attributed info
    info.rxSequence.toNat < 4096 ∧ (s.air.heard.insert m).length ≤ MAX_TRACKED_TX ∧
      (m ∈ s.air.heard → info.rxSequence.toNat = ((s.air.latest m).toNat + 1) % 4096)
  | .emit .. | .beginRun _ => False
  | _ => True

def LossesOnly (s : Listening) : Prop := s.node.stats.LossesOnly

structure Watching (s : Listening) : Prop where
  seqDropDetection : s.node.stats.seqDropDetection = true
  tracks : s.air.Tracks s.node.stats.perTx

/-- A delivered frame whose number is compared with its transmitter's last delivered one follows it,
or follows it after so many withheld ones that the gap count takes it for a restart. -/
def Unbroken (board : Board) (s : Listening) : Event → Prop
  | .capture info now =>
    let m := s.node.session.attributed info
    s.node.Delivers board info now →
      ∀ e ∈ s.node.stats.marked, e.mac = m → e.Compares (s.node.session.retryOf info) →
        ¬ (1 < (s.air.since m + 1) % 4096 ∧ (s.air.since m + 1) % 4096 < 500)
  | _ => True

instance (s : Listening) (e : Event) : Decidable (s.Consecutive e) := by
  cases e <;> simp only [Consecutive] <;> infer_instance

instance (board : Board) (s : Listening) (e : Event) : Decidable (s.Unbroken board e) := by
  cases e <;> simp only [Unbroken] <;> infer_instance

theorem stats_of_other (board : Board) {n : Node} {e : Event} (s : Listening)
    (hcapture : ∀ info now, e ≠ .capture info now) (he : s.Consecutive e) :
    ∃ resetSeqTracker, (Csi.step board n e).stats = { n.stats with resetSeqTracker } := by
  cases e with
  | capture info now => exact absurd rfl (hcapture info now)
  | emit | beginRun => exact he.elim
  | nextCsiPacket t | pollCsiPacket t =>
    simp only [Csi.step, Node.pollCsiPacket, Node.takeCsi, Node.enterAsync]
    cases n.csiQueue <;> exact ⟨_, rfl⟩
  | printCsi t | pollPrintCsi t =>
    simp only [Csi.step, Node.pollPrintCsi, Node.takeCsi, Node.enterAsync]
    cases n.csiQueue <;> exact ⟨_, rfl⟩
  | loggerBackend =>
    simp only [Csi.step, Node.loggerBackend]
    split <;> exact ⟨_, rfl⟩
  | processOutputChanged =>
    simp only [Csi.step, Node.processOutputChanged]
    split_ifs <;> exact ⟨_, rfl⟩
  | _ => exact ⟨n.stats.resetSeqTracker, rfl⟩

theorem withheld_step {board : Board} {s : Listening} {info : WifiCsiInfo} {now : UInt64}
    (hdel : ¬ s.node.Delivers board info now) (hs : s.Watching) (hclean : s.LossesOnly)
    (hnext : s.Consecutive (.capture info now)) :
    (s.step board (.capture info now)).LossesOnly ∧ (s.step board (.capture info now)).Watching := by
  obtain ⟨stats, policy, out, heq, hcounts, -⟩ := Node.captureCsiInfo_of_not_delivers hdel
  obtain ⟨-, -, hconsecutive⟩ := hnext
  have hkept : (Renumbers board s.node info now : Bool) = false :=
    decide_eq_false fun h => hdel h.1
  have hair := hs.tracks.withheld hconsecutive
  obtain ⟨rxCount, bbFormatHist, rxFiltered, rxPolicySuppressed, hcount⟩ := hcounts
  have hcounted : ({ s.node.stats with
      rxCount, bbFormatHist, rxFiltered, rxPolicySuppressed } : Stats).LossesOnly :=
    ⟨hclean.rxSeqGap, hclean.seqGaps, hclean.rxDropCount⟩
  simp only [step, Csi.step, heq, hkept, LossesOnly]
  rcases hcount with rfl | rfl
  · exact ⟨hcounted, hs.seqDropDetection, hair⟩
  · exact ⟨hcounted.recordLoss_oversize 1, hs.seqDropDetection, hair⟩

theorem record_gap_iff {a : Air} {t : List TxStats} (h : a.Tracks t) {m : Mac} {seq : UInt16}
    (hnext : m ∈ a.heard → seq.toNat = ((a.latest m).toNat + 1) % 4096)
    {before after : List TxStats} {e : TxStats} (hm : e.mac = m)
    (hothers : m ∉ (before ++ after).map TxStats.mac)
    (hslot : t = before ++ e :: after ∨ t = before ++ after ∧ e = TxStats.fresh m (some seq))
    (retry : Option Bool) (now : UInt32) :
    (e.record (some seq) retry now).1 = 0 ↔
      ∀ x ∈ t, x.mac = m → x.Compares retry →
        ¬ (1 < (a.since m + 1) % 4096 ∧ (a.since m + 1) % 4096 < 500) := by
  rw [TxStats.record_gap]
  rcases hslot with rfl | ⟨rfl, rfl⟩
  · have honly (x : TxStats) (hx : x ∈ before ++ e :: after) (hxm : x.mac = m) : x = e := by
      have hcases : x = e ∨ x ∈ before ++ after := by simpa [or_left_comm] using hx
      refine hcases.resolve_right fun hx => hothers ?_
      rw [← hxm]
      exact List.mem_map_of_mem hx
    have hgap := TxStats.gapBefore_eq_zero_iff (h.next hnext (e := e) (by simp) hm)
    split_ifs with hcompares
    · rw [hgap]
      exact ⟨fun hnone _ _ _ _ => hnone, fun hall => hall e (by simp) hm hcompares⟩
    · refine iff_of_true rfl fun x hx hxm hx' => absurd ?_ hcompares
      rwa [honly x hx hxm] at hx'
  · have hfirst : ¬ (TxStats.fresh m (some seq)).Compares retry := fun hcompares =>
      hcompares.2.1 rfl
    rw [if_neg hfirst]
    refine iff_of_true rfl fun x hx hxm => absurd ?_ hothers
    rw [← hxm]
    exact List.mem_map_of_mem hx

theorem delivered_step {board : Board} (hchip : board.chip ≠ .esp32C5) {s : Listening}
    {info : WifiCsiInfo} {now : UInt64} (hdel : s.node.Delivers board info now) (hs : s.Watching)
    (hclean : s.LossesOnly) (hnext : s.Consecutive (.capture info now)) :
    ((s.step board (.capture info now)).LossesOnly ↔ s.Unbroken board (.capture info now)) ∧
      (s.step board (.capture info now)).Watching := by
  obtain ⟨rxCount, bbFormatHist, hafter⟩ :=
    Node.captureCsiInfo_stats hdel hchip hs.seqDropDetection
  obtain ⟨-, hfew, hconsecutive⟩ := hnext
  have hmarked := hs.tracks.marked
  obtain ⟨before, e, after, hslot, hm, hothers, hsplit⟩ :=
    slotFor_spec (some info.rxSequence) hmarked.nodup (hmarked.room hfew)
  generalize hcount : ({ s.node.stats with rxCount, bbFormatHist } : Stats) = stats at hafter
  have hslot' : slotFor stats.marked (s.node.session.attributed info) (some info.rxSequence) =
      (before.length, before ++ e :: after) := hcount ▸ hslot
  have hcounted : stats.LossesOnly := hcount ▸
    ⟨hclean.rxSeqGap, hclean.seqGaps, hclean.rxDropCount⟩
  -- no entry has counted a gap yet, whether it is old or made for this frame
  have hentries (x : TxStats) (hx : x ∈ before ++ e :: after) : x.seqGaps = 0 := by
    have hmem (hx : x ∈ s.node.stats.marked) : x.seqGaps = 0 := by
      obtain ⟨x', hx', resync, rfl⟩ := Stats.exists_of_mem_marked hx
      exact hclean.seqGaps x' hx'
    rcases hsplit with hall | ⟨hold, hfresh⟩
    · exact hmem (hall ▸ hx)
    · have hcases : x = e ∨ x ∈ before ++ after := by simpa [or_left_comm] using hx
      rcases hcases with rfl | hx
      · rw [hfresh, TxStats.fresh]
      · exact hmem (hold ▸ hx)
  have hgap := hcounted.recordTxFrame_iff (s.node.session.retryOf info) hslot' hentries
  rw [record_gap_iff hmarked hconsecutive hm hothers hsplit] at hgap
  have hkept : (Renumbers board s.node info now : Bool) = true ↔
      s.node.session.attributed info ∉ s.node.stats.marked.map TxStats.mac ∨
        s.node.session.retryOf info ≠ some true := by
    rw [decide_eq_true_iff, Renumbers, Stats.map_mac_marked]
    exact and_iff_right hdel
  have hair := hmarked.record hconsecutive hm hothers hsplit hkept stats.perTxClock
  have hunbroken : s.Unbroken board (.capture info now) ↔
      ∀ x ∈ s.node.stats.marked, x.mac = s.node.session.attributed info →
        x.Compares (s.node.session.retryOf info) →
        ¬ (1 < (s.air.since (s.node.session.attributed info) + 1) % 4096 ∧
          (s.air.since (s.node.session.attributed info) + 1) % 4096 < 500) :=
    ⟨fun h => h hdel, fun h _ => h⟩
  have hdetect : stats.seqDropDetection = true := hcount ▸ hs.seqDropDetection
  rw [hunbroken, ← hgap]
  have heq := Stats.recordTxFrame_eq (s.node.session.retryOf info) hslot'
  -- the packet finds room, or the queue is full: that loss is allowed and leaves the table alone
  rcases hafter with hafter | hafter
  · refine ⟨iff_of_eq (by rw [LossesOnly, step, Csi.step, hafter]), ?_, ?_⟩
    · rw [step, Csi.step, hafter, heq]
      exact hdetect
    · rw [step, Csi.step, hafter, heq]
      exact hair
  · refine ⟨?_, ?_, ?_⟩
    · rw [LossesOnly, step, Csi.step, hafter, Stats.lossesOnly_recordLoss_queueFull]
    · rw [step, Csi.step, hafter, heq]
      exact hdetect
    · rw [step, Csi.step, hafter, heq]
      exact hair

theorem lossesOnly_step {board : Board} (hchip : board.chip ≠ .esp32C5) {s : Listening} {e : Event}
    (hs : s.Watching) (hclean : s.LossesOnly) (hnext : s.Consecutive e) :
    ((s.step board e).LossesOnly ↔ s.Unbroken board e) ∧ (s.step board e).Watching := by
  by_cases hcapture : ∃ info now, e = .capture info now
  · obtain ⟨info, now, rfl⟩ := hcapture
    by_cases hdel : s.node.Delivers board info now
    · exact delivered_step hchip hdel hs hclean hnext
    · obtain ⟨hkeep, hwatch⟩ := withheld_step hdel hs hclean hnext
      exact ⟨iff_of_true hkeep fun h => absurd h hdel, hwatch⟩
  · have hnot (info : WifiCsiInfo) (now : UInt64) : e ≠ .capture info now :=
      fun h => hcapture ⟨info, now, h⟩
    obtain ⟨resetSeqTracker, hstats⟩ := stats_of_other board (n := s.node) s hnot hnext
    have hair : (s.step board e).air = s.air := by
      cases e with
      | capture info now => exact absurd rfl (hnot info now)
      | _ => rfl
    have hunbroken : s.Unbroken board e := by
      cases e with
      | capture info now => exact absurd rfl (hnot info now)
      | _ => trivial
    have hnode : (s.step board e).node.stats = { s.node.stats with resetSeqTracker } := hstats
    refine ⟨iff_of_true ?_ hunbroken, ?_, ?_⟩
    · rw [LossesOnly, hnode]
      exact ⟨hclean.rxSeqGap, hclean.seqGaps, hclean.rxDropCount⟩
    · rw [hnode]
      exact hs.seqDropDetection
    · rw [hair, hnode]
      exact hs.tracks

/-- Over a run in which nothing is lost on the air, only losses are counted exactly when every
delivered frame is unbroken. -/
theorem lossesOnly_iff_unbroken {board : Board} (hchip : board.chip ≠ .esp32C5) (n : Node)
    {cfg : Node.RunConfig} (hdetect : cfg.isEmitter = false) {evs : List Event}
    (h : Along (step board) Consecutive (start (n.beginRun cfg)) evs) :
    Always (step board) LossesOnly (start (n.beginRun cfg)) evs ↔
      Along (step board) (Unbroken board) (start (n.beginRun cfg)) evs := by
  have hwatch : (start (n.beginRun cfg)).Watching := by
    refine ⟨?_, .nil, ?_, ?_⟩
    · change (!cfg.isEmitter) = true
      rw [hdetect]
      rfl
    · intro e he
      exact absurd he List.not_mem_nil
    · intro e he
      exact absurd he List.not_mem_nil
  have hclean : (start (n.beginRun cfg)).LossesOnly :=
    ⟨rfl, fun e he => absurd he List.not_mem_nil, rfl⟩
  exact always_iff_along h hwatch hclean
    (fun s e hs hc hn => (lossesOnly_step hchip hs hc hn).1)
    fun s e hs hc hn _ => (lossesOnly_step hchip hs hc hn).2

def quiet (seq : UInt16) : Event := .capture (.quiet .zero seq 0) 0

theorem lossesOnly_across_filter :
    Always (step .esp32) LossesOnly (start (Node.boot.beginRun .monitor))
      [.setCsiCallback 0, quiet 4095, .setCsiPeerFilter .broadcast, quiet 0,
        .setCsiPeerFilter .zero, .setCsiOutputEnabled true, .processOutputChanged, quiet 1,
        quiet 2] :=
  (lossesOnly_iff_unbroken (by decide) .boot rfl (by decide +kernel)).mpr (by decide +kernel)

/-- Decimation by three counts the two frames it withheld as missing on the air. -/
theorem decimated_counted :
    let evs := [.setCsiCallback 0, .setReporting (.decimate 3), quiet 0, quiet 1, quiet 2, quiet 3]
    let s := run (step .esp32) (start (Node.boot.beginRun .monitor)) evs
    Along (step .esp32) Consecutive (start (Node.boot.beginRun .monitor)) evs ∧
      s.node.stats.rxPolicySuppressed = 2 ∧ s.node.stats.rxSeqGap = 2 ∧ ¬ s.LossesOnly := by
  intro evs s
  have hgap : s.node.stats.rxSeqGap = 2 := by decide +kernel
  refine ⟨by decide +kernel, by decide +kernel, hgap, fun h => ?_⟩
  exact absurd (hgap.symm.trans h.rxSeqGap) (by decide)

end Listening

end EspCsi.Csi
