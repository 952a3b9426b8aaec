import Mathlib.Data.List.Nodup
import EspCsi.Wire.Types

/-!
# Statistics

The counters of `stats.rs` and the per-transmitter table, as a build with the `statistics` feature
has them.
-/

namespace EspCsi

open Wire

inductive LossCause where
  | oversize
  | queueFull
  | seqGap
deriving DecidableEq, Repr

structure TxStats where
  mac : Mac
  frames : UInt32
  seqGaps : UInt32
  retries : UInt32
  lastSeq : UInt16
  lastUsed : UInt32
  resync : Bool
deriving DecidableEq, Repr

def MAX_TRACKED_TX : ℕ := 16

namespace TxStats

def fresh (mac : Mac) (seq : Option UInt16) : TxStats where
  mac
  frames := 0
  seqGaps := 0
  retries := 0
  lastSeq := seq.getD 0
  lastUsed := 0
  resync := false

/-- Sequence numbers are 12 bits wide. -/
def seqDiff (seq last : UInt16) : UInt16 := (seq - last) &&& 0x0FFF

/-- The frames missing before one numbered `seq`, a gap of 500 or more being a restart. -/
def gapBefore (seq last : UInt16) : UInt32 :=
  if seqDiff seq last > 1 ∧ seqDiff seq last < 500 then (seqDiff seq last - 1).toUInt32 else 0

/-- Fold one frame into its transmitter's entry. Returns the gap it shows. -/
def record (e : TxStats) (seq : Option UInt16) (retry : Option Bool) (now : UInt32) :
    UInt32 × TxStats :=
  let first := e.frames == 0 || e.resync
  -- the resync mark is only taken when the frame is not the entry's first
  let e := { e with
    resync := if e.frames = 0 then e.resync else false
    frames := e.frames + 1
    lastUsed := now }
  if retry = some true then (0, { e with retries := e.retries + 1 })
  else
    match seq with
    | none => (0, e)
    | some seq =>
      let gap := if first then 0 else gapBefore seq e.lastSeq
      (gap, { e with seqGaps := e.seqGaps + gap, lastSeq := seq })

theorem record_mac (e : TxStats) (seq : Option UInt16) (retry : Option Bool) (now : UInt32) :
    (e.record seq retry now).2.mac = e.mac := by
  by_cases hretry : retry = some true
  · simp [record, hretry]
  · cases seq <;> simp [record, hretry]

theorem record_seqGaps (e : TxStats) (seq : Option UInt16) (retry : Option Bool) (now : UInt32) :
    (e.record seq retry now).2.seqGaps = e.seqGaps + (e.record seq retry now).1 := by
  by_cases hretry : retry = some true
  · simp [record, hretry]
  · cases seq <;> simp [record, hretry]

theorem record_frames (e : TxStats) (seq : Option UInt16) (retry : Option Bool) (now : UInt32) :
    (e.record seq retry now).2.frames = e.frames + 1 := by
  by_cases hretry : retry = some true
  · simp [record, hretry]
  · cases seq <;> simp [record, hretry]

theorem record_retries (e : TxStats) (seq : Option UInt16) (retry : Option Bool) (now : UInt32) :
    (e.record seq retry now).2.retries = if retry = some true then e.retries + 1 else e.retries := by
  by_cases hretry : retry = some true
  · simp [record, hretry]
  · cases seq <;> simp [record, hretry]

theorem record_lastUsed (e : TxStats) (seq : Option UInt16) (retry : Option Bool) (now : UInt32) :
    (e.record seq retry now).2.lastUsed = now := by
  by_cases hretry : retry = some true
  · simp [record, hretry]
  · cases seq <;> simp [record, hretry]

theorem record_resync (e : TxStats) (seq : Option UInt16) (retry : Option Bool) (now : UInt32) :
    (e.record seq retry now).2.resync = if e.frames = 0 then e.resync else false := by
  by_cases hretry : retry = some true
  · simp [record, hretry]
  · cases seq <;> simp [record, hretry]

theorem record_lastSeq (e : TxStats) (seq : UInt16) (retry : Option Bool) (now : UInt32) :
    (e.record (some seq) retry now).2.lastSeq = if retry = some true then e.lastSeq else seq := by
  by_cases hretry : retry = some true <;> simp [record, hretry]

/-- The frame is one whose number is compared with the entry's last one. -/
def Compares (e : TxStats) (retry : Option Bool) : Prop :=
  retry ≠ some true ∧ e.frames ≠ 0 ∧ e.resync = false

instance (e : TxStats) (retry : Option Bool) : Decidable (e.Compares retry) :=
  inferInstanceAs (Decidable (_ ∧ _))

theorem record_gap (e : TxStats) (seq : UInt16) (retry : Option Bool) (now : UInt32) :
    (e.record (some seq) retry now).1 = if e.Compares retry then gapBefore seq e.lastSeq else 0 := by
  by_cases hretry : retry = some true
  · simp [record, Compares, hretry]
  · by_cases hframes : e.frames = 0
    · simp [record, Compares, hretry, hframes]
    · by_cases hresync : e.resync = true <;> simp [record, Compares, hretry, hframes, hresync]

theorem record_unnumbered (e : TxStats) (retry : Option Bool) (now : UInt32) :
    (e.record none retry now).1 = 0 := by
  by_cases hretry : retry = some true <;> simp [record, hretry]

theorem seqDiff_toNat (seq last : UInt16) :
    (last.toNat + (seqDiff seq last).toNat) % 4096 = seq.toNat % 4096 := by
  have hseq := seq.toNat_lt
  have hlast := last.toNat_lt
  have hmask : (seqDiff seq last).toNat = (seq - last).toNat % 4096 := by
    rw [seqDiff, UInt16.toNat_and]
    exact Nat.and_two_pow_sub_one_eq_mod _ 12
  rw [hmask, UInt16.toNat_sub]
  omega

/-- A gap is charged for more than one and fewer than 500 frames since the last one. -/
theorem gapBefore_toNat {seq last : UInt16} {k : ℕ}
    (h : (last.toNat + k) % 4096 = seq.toNat % 4096) :
    (gapBefore seq last).toNat = if 1 < k % 4096 ∧ k % 4096 < 500 then k % 4096 - 1 else 0 := by
  have hdiff : (seqDiff seq last).toNat = k % 4096 := by
    have hsame := seqDiff_toNat seq last
    have hlt : (seqDiff seq last).toNat < 4096 := by
      rw [seqDiff, UInt16.toNat_and]
      exact Nat.and_lt_two_pow _ (n := 12) (by decide)
    omega
  have hone : (1 : UInt16).toNat = 1 := rfl
  have hrestart : (500 : UInt16).toNat = 500 := rfl
  have hgap : (seqDiff seq last > 1 ∧ seqDiff seq last < 500) ↔ 1 < k % 4096 ∧ k % 4096 < 500 := by
    rw [gt_iff_lt, UInt16.lt_iff_toNat_lt, UInt16.lt_iff_toNat_lt, hdiff, hone, hrestart]
  unfold gapBefore
  by_cases hcharged : 1 < k % 4096 ∧ k % 4096 < 500
  · have hle : (1 : UInt16) ≤ seqDiff seq last := UInt16.le_iff_toNat_le.mpr (by omega)
    rw [if_pos (hgap.mpr hcharged), if_pos hcharged, UInt16.toNat_toUInt32,
      UInt16.toNat_sub_of_le _ _ hle, hdiff, hone]
  · rw [if_neg (mt hgap.mp hcharged), if_neg hcharged]
    rfl

theorem gapBefore_eq_zero_iff {seq last : UInt16} {k : ℕ}
    (h : (last.toNat + k) % 4096 = seq.toNat % 4096) :
    gapBefore seq last = 0 ↔ ¬ (1 < k % 4096 ∧ k % 4096 < 500) := by
  have hzero : gapBefore seq last = 0 ↔ (gapBefore seq last).toNat = 0 := UInt32.toNat_inj.symm
  rw [hzero, gapBefore_toNat h]
  split_ifs with hcharged
  · exact iff_of_false (by omega) (fun hnot => hnot hcharged)
  · exact iff_of_true rfl hcharged

end TxStats

/-- The least recently heard entry: the first one of the smallest `lastUsed`. -/
def lruIndex (t : List TxStats) : ℕ :=
  t.findIdx fun e => t.all fun e' => e.lastUsed ≤ e'.lastUsed

/-- Where `mac`'s entry is, made if it has none; a full table gives up its least recently heard
entry. -/
def slotFor (t : List TxStats) (mac : Mac) (seq : Option UInt16) : ℕ × List TxStats :=
  match t.findIdx? fun e => e.mac = mac with
  | some i => (i, t)
  | none =>
    if t.length < MAX_TRACKED_TX then (t.length, t ++ [TxStats.fresh mac seq])
    else (lruIndex t, t.set (lruIndex t) (.fresh mac seq))

theorem slotFor_spec {t : List TxStats} {mac : Mac} (seq : Option UInt16)
    (hnodup : (t.map TxStats.mac).Nodup)
    (hroom : mac ∈ t.map TxStats.mac ∨ t.length < MAX_TRACKED_TX) :
    ∃ before e after, slotFor t mac seq = (before.length, before ++ e :: after) ∧ e.mac = mac ∧
      mac ∉ (before ++ after).map TxStats.mac ∧
      (t = before ++ e :: after ∨
        t = before ++ after ∧ e = TxStats.fresh mac seq) := by
  cases hfind : t.findIdx? fun e => e.mac = mac with
  | some i =>
    obtain ⟨hi, hmac, -⟩ := List.findIdx?_eq_some_iff_getElem.mp hfind
    have hsplit : t = t.take i ++ t[i] :: t.drop (i + 1) := by simp
    have hentry : t[i].mac = mac := by simpa using hmac
    refine ⟨t.take i, t[i], t.drop (i + 1), ?_, hentry, ?_, .inl hsplit⟩
    · have hlen : (t.take i).length = i := by
        rw [List.length_take]
        omega
      rw [slotFor, hfind, hlen, ← hsplit]
    · rw [hsplit, List.map_append, List.map_cons, List.nodup_middle, hentry,
        ← List.map_append] at hnodup
      exact (List.nodup_cons.mp hnodup).1
  | none =>
    have hnone : mac ∉ t.map TxStats.mac := by
      intro hmem
      obtain ⟨e, he, hmac⟩ := List.mem_map.mp hmem
      exact absurd hmac (by simpa using List.findIdx?_eq_none_iff.mp hfind e he)
    have hlen : t.length < MAX_TRACKED_TX := hroom.resolve_left hnone
    refine ⟨t, .fresh mac seq, [], ?_, rfl, by simpa using hnone, .inr ⟨by simp, rfl⟩⟩
    rw [slotFor, hfind]
    exact if_pos hlen

structure Stats where
  txCount : UInt64
  rxCount : UInt64
  rxDropCount : UInt32
  rxFiltered : UInt32
  rxOversize : UInt32
  rxQueueFull : UInt32
  rxSeqGap : UInt32
  rxPolicySuppressed : UInt32
  bbFormatHist : List UInt32
  perTx : List TxStats
  perTxClock : UInt32
  resetSeqTracker : Bool
  seqDropDetection : Bool
deriving DecidableEq, Repr

namespace Stats

def boot : Stats where
  txCount := 0
  rxCount := 0
  rxDropCount := 0
  rxFiltered := 0
  rxOversize := 0
  rxQueueFull := 0
  rxSeqGap := 0
  rxPolicySuppressed := 0
  bbFormatHist := List.replicate 8 0
  perTx := []
  perTxClock := 0
  resetSeqTracker := false
  seqDropDetection := false

def setSeqDropDetection (s : Stats) (enabled : Bool) : Stats :=
  { s with seqDropDetection := enabled }

/-- Reset the counters, at the start of a run. The clock and the two flags are not among them. -/
def reset (s : Stats) : Stats :=
  { boot with
    perTxClock := s.perTxClock
    resetSeqTracker := s.resetSeqTracker
    seqDropDetection := s.seqDropDetection }

/-- Record a loss of `n` frames under one cause, keeping the total their sum. -/
def recordLoss (s : Stats) (cause : LossCause) (n : UInt32) : Stats :=
  let s := { s with rxDropCount := s.rxDropCount + n }
  match cause with
  | .oversize => { s with rxOversize := s.rxOversize + n }
  | .queueFull => { s with rxQueueFull := s.rxQueueFull + n }
  | .seqGap => { s with rxSeqGap := s.rxSeqGap + n }

def recordCollectorRx (s : Stats) : Stats := { s with rxCount := s.rxCount + 1 }

def recordCurBbFormat (s : Stats) (fmt : UInt8) : Stats :=
  { s with bbFormatHist := s.bbFormatHist.modify fmt.toNat (· + 1) }

def recordTxFrame (s : Stats) (mac : Mac) (seq : Option UInt16) (retry : Option Bool) : Stats :=
  let now := s.perTxClock
  let t := if s.resetSeqTracker then s.perTx.map fun e => { e with resync := true } else s.perTx
  let (i, t) := slotFor t mac seq
  let (gap, e) := (t.getD i (.fresh mac seq)).record seq retry now
  let s := { s with perTxClock := now + 1, resetSeqTracker := false, perTx := t.set i e }
  if gap > 0 then s.recordLoss .seqGap gap else s

/-- The per-transmitter table the next frame is recorded in: a pending reset marks every entry. -/
def marked (s : Stats) : List TxStats :=
  if s.resetSeqTracker then s.perTx.map fun e => { e with resync := true } else s.perTx

theorem exists_of_mem_marked {s : Stats} {e : TxStats} (h : e ∈ s.marked) :
    ∃ e' ∈ s.perTx, ∃ resync, e = { e' with resync } := by
  unfold marked at h
  split_ifs at h
  · obtain ⟨e', he', rfl⟩ := List.mem_map.mp h
    exact ⟨e', he', true, rfl⟩
  · exact ⟨e, h, e.resync, rfl⟩

theorem map_mac_marked (s : Stats) : s.marked.map TxStats.mac = s.perTx.map TxStats.mac := by
  unfold marked
  split_ifs
  · simp [Function.comp_def]
  · rfl

theorem recordTxFrame_eq {s : Stats} {mac : Mac} {seq : Option UInt16} (retry : Option Bool)
    {before after : List TxStats} {e : TxStats}
    (h : slotFor s.marked mac seq = (before.length, before ++ e :: after)) :
    s.recordTxFrame mac seq retry =
      { s with
        perTxClock := s.perTxClock + 1
        resetSeqTracker := false
        perTx := before ++ (e.record seq retry s.perTxClock).2 :: after
        rxDropCount := s.rxDropCount + (e.record seq retry s.perTxClock).1
        rxSeqGap := s.rxSeqGap + (e.record seq retry s.perTxClock).1 } := by
  have hentry : (before ++ e :: after).getD before.length (.fresh mac seq) = e := by simp
  have hset (e' : TxStats) : (before ++ e :: after).set before.length e' = before ++ e' :: after := by
    simp
  change slotFor (if s.resetSeqTracker then _ else _) mac seq = _ at h
  simp only [recordTxFrame, h, hentry, hset]
  split_ifs with hgap
  · rfl
  · have hzero : (e.record seq retry s.perTxClock).1 = 0 := by
      simpa [UInt32.pos_iff_ne_zero] using hgap
    simp [hzero]

end Stats

end EspCsi
