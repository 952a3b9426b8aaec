import EspCsi.Host.Losses

/-!
# The whole report

What every line of the report says: the loop keeps in each field a count, a list or a bound of the
frames decoded so far, so a report is a function of the frames of its capture.
-/

namespace EspCsi.Host

open Wire Logging Neighbours

/-! ## The frames of a capture -/

def measurementOf (chunk : List UInt8) : Option Measurement :=
  match decodeCobs chunk with
  | .ok (env, .csi f) => some (env, f)
  | _ => none

def announcementOf (chunk : List UInt8) : Option (Envelope × SessionInfo) :=
  match decodeCobs chunk with
  | .ok (env, .session info) => some (env, info)
  | _ => none

def envelopeOf (chunk : List UInt8) : Option Envelope :=
  match decodeCobs chunk with
  | .ok (env, _) => some env
  | _ => none

def isOtherVersion (chunk : List UInt8) : Bool :=
  match decodeCobs chunk with
  | .error (.unsupportedVersion _) => true
  | _ => false

def isGarbage (chunk : List UInt8) : Bool :=
  match decodeCobs chunk with
  | .error (.malformed _) => !chunk.isEmpty && !printable chunk
  | _ => false

namespace Measurement

def time (m : Measurement) : UInt64 := m.2.rxMeta.timestampUs

def layout (m : Measurement) : Option (LayoutId × ℕ) :=
  match m.2.payload with
  | .espRaw _ layout _ bytes => some (layout, bytes.val.length)
  | _ => none

def score (m : Measurement) : Option UInt16 :=
  match m.2.payload with
  | .variation value => some value
  | _ => none

def setup (m : Measurement) : Option (UInt8 × UInt16) :=
  match m.2.stimulus with
  | .controlled setupId instanceId _ => some (setupId, instanceId)
  | _ => none

def stimulusTag (m : Measurement) : StimulusTag :=
  match m.2.stimulus with
  | .controlled _ _ _ => .controlled
  | .ambient _ => .ambient
  | .observed _ _ => .observed

def payloadTag (m : Measurement) : PayloadTag :=
  match m.2.payload with
  | .espRaw _ _ _ _ => .espRaw
  | .grouped _ _ _ _ _ _ _ => .grouped
  | .variation _ => .variation

def isRetry (m : Measurement) : Bool := m.2.header.any HeaderDigest.isRetry

end Measurement

/-- The number steps over others of its session. -/
def gaps (p q : Mark) : ℕ := if p.1 = q.1 ∧ p.2.toNat + 1 < q.2.toNat then 1 else 0

/-- The clock goes back. -/
def backwards (t t' : UInt64) : ℕ := if t' < t then 1 else 0

attribute [ext] Summary

def counts {κ : Type} [DecidableEq κ] (keys : List κ) : Counts κ := fun k => keys.count k

/-- What the measurement frames `ms` come to. -/
def Summary.ofMeasurements (ms : List Measurement) : Summary where
  csi := ms.length
  sessions := []
  decodeErrors := 0
  versionErrors := 0
  text := []
  seqGaps := total gaps (ms.map fun m => mark m.1)
  seqLost := total passed (ms.map fun m => mark m.1)
  seqResets := total resets (ms.map fun m => mark m.1)
  tsBackwards := total backwards (ms.map Measurement.time)
  tsFirst := (ms.map Measurement.time).head?
  tsLast := (ms.map Measurement.time).getLast?.getD 0
  tsMax := (ms.map Measurement.time).foldl max 0
  sources := counts (ms.map fun m => m.1.source)
  ppdu := counts (ms.map fun m => m.2.rxMeta.ppdu)
  layout := counts (ms.filterMap fun m => m.layout.map Prod.fst)
  lens := counts (ms.filterMap fun m => m.layout.map Prod.snd)
  payload := counts (ms.map Measurement.payloadTag)
  stimulus := counts (ms.map Measurement.stimulusTag)
  tx := counts (ms.filterMap fun m => m.2.transmitter)
  setupIds := counts (ms.filterMap fun m => m.setup.map Prod.fst)
  instances := (ms.filterMap fun m => m.setup.map Prod.snd).toFinset
  header := ms.countP fun m => m.2.header.isSome
  retries := ms.countP Measurement.isRetry
  nodeIds := fun _ => 0
  sessionIds := fun _ => 0
  variation := ms.filterMap Measurement.score
  bandwidth := counts (ms.map fun m => m.2.rxMeta.bandwidth)

def Summary.of (chunks : List (List UInt8)) : Summary :=
  { Summary.ofMeasurements (chunks.filterMap measurementOf) with
    sessions := chunks.filterMap announcementOf
    decodeErrors := chunks.countP isGarbage
    versionErrors := chunks.countP isOtherVersion
    text := chunks.filterMap textOf
    nodeIds := counts ((chunks.filterMap envelopeOf).map Envelope.nodeId)
    sessionIds := counts ((chunks.filterMap envelopeOf).map Envelope.sessionId) }

/-! ## One frame -/

theorem increment_eq_some {n n' : ℕ} (h : increment n = some n') : n' = n + 1 :=
  Checked.add_eq_some h

theorem incrementIf_eq_some {p : Prop} [Decidable p] {n n' : ℕ} (h : incrementIf p n = some n') :
    n' = n + if p then 1 else 0 := by
  unfold incrementIf at h
  split_ifs at h ⊢
  · exact increment_eq_some h
  · exact (Option.some_inj.mp h).symm

theorem entry_eq_some {κ : Type} [DecidableEq κ] {c c' : Counts κ} {key : κ}
    (h : entry c key = some c') : c' = fun k => c k + counts [key] k :=
  funext (Checked.tally_eq_some h)

theorem entry_elim_eq_some {κ : Type} [DecidableEq κ] {c c' : Counts κ} {key : Option κ}
    (h : key.elim (some c) (entry c) = some c') : c' = fun k => c k + counts key.toList k := by
  cases key with
  | none => exact (Option.some_inj.mp h).symm
  | some key => exact entry_eq_some h

namespace Summary

variable {s s' : Summary}

theorem checkSeq_eq_some {lastSeq : Option Mark} {env : Envelope}
    (h : checkSeq lastSeq env s = some s') :
    s' = { s with
      seqGaps := s.seqGaps + total gaps (lastSeq.toList ++ [mark env])
      seqLost := s.seqLost + total passed (lastSeq.toList ++ [mark env])
      seqResets := s.seqResets + total resets (lastSeq.toList ++ [mark env]) } := by
  cases lastSeq with
  | none => exact (Option.some_inj.mp h).symm
  | some p =>
    obtain ⟨sess, seq⟩ := p
    simp only [Option.toList_some, List.singleton_append, total_cons_cons, total_singleton,
      Nat.add_zero]
    by_cases hreset : sess ≠ env.sessionId ∨ env.streamSeq < seq
    · have hpassed : passed (sess, seq) (mark env) = 0 := passed_of_reset hreset
      have hone : resets (sess, seq) (mark env) = 1 := if_pos hreset
      -- a reset passes no number over and is no gap
      have hgap : gaps (sess, seq) (mark env) = 0 := by
        apply if_neg
        rintro ⟨hsame, hlt⟩
        have hback := UInt32.lt_iff_toNat_lt.mp (hreset.resolve_left (not_not.mpr hsame))
        exact absurd hback (Nat.lt_asymm (Nat.lt_of_succ_lt hlt))
      rw [checkSeq, if_pos hreset] at h
      obtain ⟨seqResets, hadd, h⟩ := Option.bind_eq_some_iff.mp h
      rw [hpassed, hone, hgap, ← increment_eq_some hadd]
      exact (Option.some_inj.mp h).symm
    · have hnone : resets (sess, seq) (mark env) = 0 := if_neg hreset
      obtain ⟨hsame, -⟩ := not_or.mp hreset
      have hsame : sess = env.sessionId := not_not.mp hsame
      have hpassed : passed (sess, seq) (mark env) = env.streamSeq.toNat - seq.toNat - 1 :=
        if_pos hsame
      rw [checkSeq, if_neg hreset] at h
      obtain ⟨next, hnext, h⟩ := Option.bind_eq_some_iff.mp h
      obtain rfl := Checked.add_eq_some hnext
      rw [hnone, hpassed]
      by_cases hforward : env.streamSeq.toNat > seq.toNat + 1
      · have hgap : gaps (sess, seq) (mark env) = 1 := if_pos ⟨hsame, hforward⟩
        rw [if_pos hforward] at h
        obtain ⟨seqGaps, hadd, h⟩ := Option.bind_eq_some_iff.mp h
        obtain ⟨ahead, hahead, h⟩ := Option.bind_eq_some_iff.mp h
        obtain ⟨lost, hbetween, h⟩ := Option.bind_eq_some_iff.mp h
        obtain ⟨seqLost, hsum, h⟩ := Option.bind_eq_some_iff.mp h
        obtain ⟨-, rfl⟩ := Checked.sub_eq_some.mp hahead
        obtain ⟨-, rfl⟩ := Checked.sub_eq_some.mp hbetween
        obtain rfl := Checked.add_eq_some hsum
        rw [hgap, ← increment_eq_some hadd]
        exact (Option.some_inj.mp h).symm
      · have hgap : gaps (sess, seq) (mark env) = 0 := if_neg fun hgap => hforward hgap.2
        have hzero : env.streamSeq.toNat - seq.toNat - 1 = 0 := by omega
        rw [if_neg hforward] at h
        rw [hgap, hzero]
        exact (Option.some_inj.mp h).symm

theorem checkTime_eq_some {ts : UInt64} (h : s.checkTime ts = some s') :
    s' = { s with
      tsBackwards := s.tsBackwards + if s.tsFirst.isSome ∧ ts < s.tsLast then 1 else 0
      tsFirst := s.tsFirst.or (some ts)
      tsLast := ts
      tsMax := max s.tsMax ts } := by
  obtain ⟨tsBackwards, hback, h⟩ := Option.bind_eq_some_iff.mp h
  rw [← incrementIf_eq_some hback]
  exact (Option.some_inj.mp h).symm

theorem countHeader_eq_some {f : CsiFrame} (h : countHeader f s = some s') :
    s' = { s with
      tx := fun k => s.tx k + counts f.transmitter.toList k
      header := s.header + if f.header.isSome then 1 else 0
      retries := s.retries + if f.header.any HeaderDigest.isRetry then 1 else 0 } := by
  unfold countHeader at h
  obtain ⟨tx, htx, h⟩ := Option.bind_eq_some_iff.mp h
  rw [← entry_elim_eq_some htx]
  cases hheader : f.header with
  | none =>
    rw [hheader] at h
    exact (Option.some_inj.mp h).symm
  | some digest =>
    rw [hheader] at h
    obtain ⟨header, hadd, h⟩ := Option.bind_eq_some_iff.mp h
    obtain ⟨retries, hretry, h⟩ := Option.bind_eq_some_iff.mp h
    obtain rfl := increment_eq_some hadd
    obtain rfl := incrementIf_eq_some hretry
    exact (Option.some_inj.mp h).symm

theorem countStimulus_eq_some (env : Envelope) {f : CsiFrame} (h : countStimulus f s = some s') :
    let m : Measurement := (env, f)
    s' = { s with
      setupIds := fun k => s.setupIds k + counts (m.setup.map Prod.fst).toList k
      instances := s.instances ∪ (m.setup.map Prod.snd).toList.toFinset
      stimulus := fun k => s.stimulus k + counts [m.stimulusTag] k } := by
  intro m
  unfold countStimulus at h
  cases hstimulus : f.stimulus with
  | controlled setupId instanceId ta =>
    have hsetup : m.setup = some (setupId, instanceId) := by
      simp only [m, Measurement.setup, hstimulus]
    have htag : m.stimulusTag = .controlled := by simp only [m, Measurement.stimulusTag, hstimulus]
    rw [hstimulus] at h
    obtain ⟨setupIds, hadd, h⟩ := Option.bind_eq_some_iff.mp h
    obtain ⟨stimulus, hadd', h⟩ := Option.bind_eq_some_iff.mp h
    obtain rfl := entry_eq_some hadd
    obtain rfl := entry_eq_some hadd'
    rw [hsetup, htag, Finset.union_comm]
    exact (Option.some_inj.mp h).symm
  | ambient ta =>
    have hsetup : m.setup = none := by simp only [m, Measurement.setup, hstimulus]
    have htag : m.stimulusTag = .ambient := by simp only [m, Measurement.stimulusTag, hstimulus]
    rw [hstimulus] at h
    obtain ⟨stimulus, hadd, h⟩ := Option.bind_eq_some_iff.mp h
    obtain rfl := entry_eq_some hadd
    simp only [hsetup, htag, Option.map_none, Option.toList_none, List.toFinset_nil,
      Finset.union_empty]
    exact (Option.some_inj.mp h).symm
  | observed ta dialogToken =>
    have hsetup : m.setup = none := by simp only [m, Measurement.setup, hstimulus]
    have htag : m.stimulusTag = .observed := by simp only [m, Measurement.stimulusTag, hstimulus]
    rw [hstimulus] at h
    obtain ⟨stimulus, hadd, h⟩ := Option.bind_eq_some_iff.mp h
    obtain rfl := entry_eq_some hadd
    simp only [hsetup, htag, Option.map_none, Option.toList_none, List.toFinset_nil,
      Finset.union_empty]
    exact (Option.some_inj.mp h).symm

theorem countPayload_eq_some (env : Envelope) {f : CsiFrame} (h : countPayload f s = some s') :
    let m : Measurement := (env, f)
    s' = { s with
      layout := fun k => s.layout k + counts (m.layout.map Prod.fst).toList k
      lens := fun k => s.lens k + counts (m.layout.map Prod.snd).toList k
      payload := fun k => s.payload k + counts [m.payloadTag] k
      variation := s.variation ++ m.score.toList } := by
  intro m
  unfold countPayload at h
  cases hpayload : f.payload with
  | espRaw chip layout firstWordInvalid bytes =>
    have hlayout : m.layout = some (layout, bytes.val.length) := by
      simp only [m, Measurement.layout, hpayload]
    have hscore : m.score = none := by simp only [m, Measurement.score, hpayload]
    have htag : m.payloadTag = .espRaw := by simp only [m, Measurement.payloadTag, hpayload]
    rw [hpayload] at h
    obtain ⟨layout', hadd, h⟩ := Option.bind_eq_some_iff.mp h
    obtain ⟨lens, hadd', h⟩ := Option.bind_eq_some_iff.mp h
    obtain ⟨payload, hadd'', h⟩ := Option.bind_eq_some_iff.mp h
    obtain rfl := entry_eq_some hadd
    obtain rfl := entry_eq_some hadd'
    obtain rfl := entry_eq_some hadd''
    simp only [hlayout, hscore, htag, Option.map_some, Option.toList_some, Option.toList_none,
      List.append_nil]
    exact (Option.some_inj.mp h).symm
  | grouped ng nb scStart nSc nRx nTx data =>
    have hlayout : m.layout = none := by simp only [m, Measurement.layout, hpayload]
    have hscore : m.score = none := by simp only [m, Measurement.score, hpayload]
    have htag : m.payloadTag = .grouped := by simp only [m, Measurement.payloadTag, hpayload]
    rw [hpayload] at h
    obtain ⟨payload, hadd, h⟩ := Option.bind_eq_some_iff.mp h
    obtain rfl := entry_eq_some hadd
    simp only [hlayout, hscore, htag, Option.map_none, Option.toList_none, List.append_nil]
    exact (Option.some_inj.mp h).symm
  | variation value =>
    have hlayout : m.layout = none := by simp only [m, Measurement.layout, hpayload]
    have hscore : m.score = some value := by simp only [m, Measurement.score, hpayload]
    have htag : m.payloadTag = .variation := by simp only [m, Measurement.payloadTag, hpayload]
    rw [hpayload] at h
    obtain ⟨payload, hadd, h⟩ := Option.bind_eq_some_iff.mp h
    obtain rfl := entry_eq_some hadd
    simp only [hlayout, hscore, htag, Option.map_none, Option.toList_none, Option.toList_some]
    exact (Option.some_inj.mp h).symm

end Summary

/-! ## One frame more -/

section

variable {α κ : Type} (as : List α) (a : α)

theorem filterMap_concat (g : α → Option κ) :
    (as ++ [a]).filterMap g = as.filterMap g ++ (g a).toList := by
  rw [List.filterMap_append, Loop.filterMap_cons, List.filterMap_nil, List.append_nil]

theorem total_map_concat (f : κ → κ → ℕ) (g : α → κ) :
    total f ((as ++ [a]).map g) =
      total f (as.map g) + total f ((as.map g).getLast?.toList ++ [g a]) := by
  rw [List.map_append, total_append]
  rfl

variable [DecidableEq κ]

theorem counts_append (keys more : List κ) :
    counts (keys ++ more) = fun k => counts keys k + counts more k :=
  funext fun _ => List.count_append

theorem counts_map_concat (g : α → κ) :
    counts ((as ++ [a]).map g) = fun k => counts (as.map g) k + counts [g a] k := by
  rw [List.map_append, counts_append]
  rfl

theorem counts_filterMap_concat (g : α → Option κ) :
    counts ((as ++ [a]).filterMap g) = fun k => counts (as.filterMap g) k + counts (g a).toList k := by
  rw [filterMap_concat, counts_append]

theorem countP_concat (p : α → Bool) :
    (as ++ [a]).countP p = as.countP p + if p a then 1 else 0 := by
  rw [List.countP_append, List.countP_singleton]

end

theorem total_backwards_last (ts : List UInt64) (t : UInt64) :
    total backwards (ts.getLast?.toList ++ [t]) =
      if ts.head?.isSome ∧ t < ts.getLast?.getD 0 then 1 else 0 := by
  rcases List.eq_nil_or_concat ts with rfl | ⟨ts, last, rfl⟩
  · rfl
  · rw [List.concat_eq_append, List.getLast?_concat, List.head?_append]
    have hsome : (ts.head?.or [last].head?).isSome = true := by cases ts <;> rfl
    simp only [hsome, true_and, Option.getD_some]
    exact Nat.add_zero _

theorem Summary.ofMeasurements_concat (ms : List Measurement) (m : Measurement) :
    let s := ofMeasurements ms
    let last := (ms.map fun m => mark m.1).getLast?.toList ++ [mark m.1]
    ofMeasurements (ms ++ [m]) = { s with
      csi := s.csi + 1
      seqGaps := s.seqGaps + total gaps last
      seqLost := s.seqLost + total passed last
      seqResets := s.seqResets + total resets last
      tsBackwards := s.tsBackwards + if s.tsFirst.isSome ∧ m.time < s.tsLast then 1 else 0
      tsFirst := s.tsFirst.or (some m.time)
      tsLast := m.time
      tsMax := max s.tsMax m.time
      sources := fun k => s.sources k + counts [m.1.source] k
      ppdu := fun k => s.ppdu k + counts [m.2.rxMeta.ppdu] k
      layout := fun k => s.layout k + counts (m.layout.map Prod.fst).toList k
      lens := fun k => s.lens k + counts (m.layout.map Prod.snd).toList k
      payload := fun k => s.payload k + counts [m.payloadTag] k
      stimulus := fun k => s.stimulus k + counts [m.stimulusTag] k
      tx := fun k => s.tx k + counts m.2.transmitter.toList k
      setupIds := fun k => s.setupIds k + counts (m.setup.map Prod.fst).toList k
      instances := s.instances ∪ (m.setup.map Prod.snd).toList.toFinset
      header := s.header + if m.2.header.isSome then 1 else 0
      retries := s.retries + if m.isRetry then 1 else 0
      variation := s.variation ++ m.score.toList
      bandwidth := fun k => s.bandwidth k + counts [m.2.rxMeta.bandwidth] k } := by
  intro s last
  ext : 1
  case csi => exact List.length_append
  case seqGaps | seqLost | seqResets => exact total_map_concat ms m _ _
  -- the last time is that of the measurement before, where there is one
  case tsBackwards =>
    exact (total_map_concat ms m backwards _).trans
      (congrArg _ (total_backwards_last (ms.map Measurement.time) m.time))
  case tsFirst =>
    simp only [s, ofMeasurements]
    rw [List.map_append, List.head?_append]
    rfl
  case tsLast =>
    simp only [ofMeasurements]
    rw [List.map_append]
    exact congrArg (Option.getD · 0) List.getLast?_concat
  case tsMax =>
    simp only [s, ofMeasurements]
    rw [List.map_append, List.foldl_append]
    rfl
  case sources | ppdu | payload | stimulus | bandwidth => exact counts_map_concat ms m _
  case layout | lens | tx | setupIds => exact counts_filterMap_concat ms m _
  case instances =>
    simp only [s, ofMeasurements]
    rw [filterMap_concat, List.toFinset_append]
  case header | retries => exact countP_concat ms m _
  case variation => exact filterMap_concat ms m _
  all_goals rfl

def Loop.of (chunks : List (List UInt8)) : Loop :=
  ⟨.of chunks, (chunks.filterMap measurementOf |>.map fun m => mark m.1).getLast?⟩

theorem Summary.measure_eq_some {chunks : List (List UInt8)} {env : Envelope} {f : CsiFrame}
    {nodeIds : Counts Mac} {sessionIds : Counts UInt32} {s' : Summary}
    (h : measure (Loop.of chunks).lastSeq env f { of chunks with nodeIds, sessionIds } = some s') :
    s' = { ofMeasurements (chunks.filterMap measurementOf ++ [(env, f)]) with
      sessions := (of chunks).sessions
      decodeErrors := (of chunks).decodeErrors
      versionErrors := (of chunks).versionErrors
      text := (of chunks).text
      nodeIds
      sessionIds } := by
  obtain ⟨csi, hcsi, h⟩ := Option.bind_eq_some_iff.mp h
  obtain ⟨sources, hsources, h⟩ := Option.bind_eq_some_iff.mp h
  obtain ⟨s₁, hseq, h⟩ := Option.bind_eq_some_iff.mp h
  obtain ⟨s₂, htime, h⟩ := Option.bind_eq_some_iff.mp h
  obtain ⟨ppdu, hppdu, h⟩ := Option.bind_eq_some_iff.mp h
  obtain ⟨bandwidth, hbandwidth, h⟩ := Option.bind_eq_some_iff.mp h
  obtain ⟨s₃, hheader, h⟩ := Option.bind_eq_some_iff.mp h
  obtain ⟨s₄, hstimulus, hpayload⟩ := Option.bind_eq_some_iff.mp h
  obtain rfl := increment_eq_some hcsi
  obtain rfl := entry_eq_some hsources
  obtain rfl := checkSeq_eq_some hseq
  obtain rfl := checkTime_eq_some htime
  obtain rfl := entry_eq_some hppdu
  obtain rfl := entry_eq_some hbandwidth
  obtain rfl := countHeader_eq_some hheader
  obtain rfl := countStimulus_eq_some env hstimulus
  rw [ofMeasurements_concat]
  exact countPayload_eq_some env hpayload

theorem Summary.of_concat (chunks : List (List UInt8)) (chunk : List UInt8) :
    of (chunks ++ [chunk]) =
      { ofMeasurements (chunks.filterMap measurementOf ++ (measurementOf chunk).toList) with
        sessions := (of chunks).sessions ++ (announcementOf chunk).toList
        decodeErrors := (of chunks).decodeErrors + if isGarbage chunk then 1 else 0
        versionErrors := (of chunks).versionErrors + if isOtherVersion chunk then 1 else 0
        text := (of chunks).text ++ (textOf chunk).toList
        nodeIds := fun k =>
          (of chunks).nodeIds k + counts ((envelopeOf chunk).toList.map Envelope.nodeId) k
        sessionIds := fun k =>
          (of chunks).sessionIds k + counts ((envelopeOf chunk).toList.map Envelope.sessionId) k } := by
  simp only [of, filterMap_concat, List.map_append, countP_concat, counts_append]

theorem Loop.of_concat_of_unmeasured {chunks : List (List UInt8)} {chunk : List UInt8}
    (h : measurementOf chunk = none) :
    Loop.of (chunks ++ [chunk]) =
      { Loop.of chunks with
        s := { Summary.of chunks with
          sessions := (Summary.of chunks).sessions ++ (announcementOf chunk).toList
          decodeErrors := (Summary.of chunks).decodeErrors + if isGarbage chunk then 1 else 0
          versionErrors := (Summary.of chunks).versionErrors + if isOtherVersion chunk then 1 else 0
          text := (Summary.of chunks).text ++ (textOf chunk).toList
          nodeIds := fun k => (Summary.of chunks).nodeIds k +
            counts ((envelopeOf chunk).toList.map Envelope.nodeId) k
          sessionIds := fun k => (Summary.of chunks).sessionIds k +
            counts ((envelopeOf chunk).toList.map Envelope.sessionId) k } } := by
  simp only [of, Summary.of_concat, filterMap_concat, h, Option.toList_none, List.append_nil]
  rfl

theorem Loop.of_concat_of_measured {chunks : List (List UInt8)} {chunk : List UInt8}
    {m : Measurement} (h : measurementOf chunk = some m) :
    Loop.of (chunks ++ [chunk]) = ⟨.of (chunks ++ [chunk]), some (mark m.1)⟩ := by
  rw [of, filterMap_concat, h, Option.toList_some, List.map_append, List.map_singleton,
    List.getLast?_concat]

theorem Loop.step_of {chunks : List (List UInt8)} {chunk : List UInt8} {l : Loop}
    (h : (Loop.of chunks).step chunk = some l) : l = Loop.of (chunks ++ [chunk]) := by
  by_cases hempty : chunk.isEmpty = true
  · obtain rfl := List.isEmpty_iff.mp hempty
    -- between two delimiters there may be nothing: it is no frame and no line
    have hnone : measurementOf [] = none ∧ announcementOf [] = none ∧ textOf [] = none ∧
        envelopeOf [] = none ∧ isGarbage [] = false ∧ isOtherVersion [] = false := by
      decide +kernel
    obtain ⟨hmeasured, hannounced, htext, henvelope, hgarbage, hversion⟩ := hnone
    obtain rfl := Option.some_inj.mp h
    rw [of_concat_of_unmeasured hmeasured, hannounced, htext, henvelope, hgarbage, hversion]
    simp only [Option.toList_none, List.append_nil, List.map_nil]
    rfl
  · rw [step, if_neg hempty] at h
    cases hdecode : decodeCobs chunk with
    | ok x =>
      obtain ⟨env, body⟩ := x
      have htext : textOf chunk = none :=
        textOf_of_not_malformed fun e heq => by rw [hdecode] at heq; cases heq
      have hgarbage : isGarbage chunk = false := by rw [isGarbage, hdecode]
      have hversion : isOtherVersion chunk = false := by rw [isOtherVersion, hdecode]
      have henvelope : envelopeOf chunk = some env := by rw [envelopeOf, hdecode]
      rw [hdecode] at h
      obtain ⟨nodeIds, hnode, h⟩ := Option.bind_eq_some_iff.mp h
      obtain ⟨sessionIds, hsession, h⟩ := Option.bind_eq_some_iff.mp h
      obtain rfl := entry_eq_some hnode
      obtain rfl := entry_eq_some hsession
      cases body with
      | session info =>
        have hmeasured : measurementOf chunk = none := by rw [measurementOf, hdecode]
        have hannounced : announcementOf chunk = some (env, info) := by
          rw [announcementOf, hdecode]
        rw [of_concat_of_unmeasured hmeasured, hannounced, htext, henvelope, hgarbage, hversion]
        simp only [Option.toList_none, List.append_nil]
        exact (Option.some_inj.mp h).symm
      | csi f =>
        have hmeasured : measurementOf chunk = some (env, f) := by rw [measurementOf, hdecode]
        have hannounced : announcementOf chunk = none := by rw [announcementOf, hdecode]
        obtain ⟨s', hmeasure, h⟩ := Option.bind_eq_some_iff.mp h
        obtain rfl := Summary.measure_eq_some hmeasure
        obtain rfl := Option.some_inj.mp h
        rw [of_concat_of_measured hmeasured, Summary.of_concat, hmeasured, hannounced, htext,
          henvelope, hgarbage, hversion]
        simp only [Option.toList_none, List.append_nil]
        rfl
    | error e =>
      have hmeasured : measurementOf chunk = none := by rw [measurementOf, hdecode]
      have hannounced : announcementOf chunk = none := by rw [announcementOf, hdecode]
      have henvelope : envelopeOf chunk = none := by rw [envelopeOf, hdecode]
      rw [hdecode] at h
      rw [of_concat_of_unmeasured hmeasured, hannounced, henvelope]
      cases e with
      | unsupportedVersion version =>
        have htext : textOf chunk = none :=
          textOf_of_not_malformed fun e heq => by rw [hdecode] at heq; cases heq
        have hgarbage : isGarbage chunk = false := by rw [isGarbage, hdecode]
        have hversion : isOtherVersion chunk = true := by rw [isOtherVersion, hdecode]
        obtain ⟨versionErrors, hadd, h⟩ := Option.bind_eq_some_iff.mp h
        obtain rfl := increment_eq_some hadd
        rw [htext, hgarbage, hversion]
        simp only [Option.toList_none, List.append_nil, List.map_nil]
        exact (Option.some_inj.mp h).symm
      | malformed e =>
        have htext := textOf_of_malformed hdecode
        have hgarbage : isGarbage chunk = !printable chunk := by
          simp only [isGarbage, hdecode, Bool.not_eq_true] at hempty ⊢
          rw [hempty, Bool.not_false, Bool.true_and]
        have hversion : isOtherVersion chunk = false := by rw [isOtherVersion, hdecode]
        rw [htext, hgarbage, hversion]
        by_cases hprint : printable chunk = true
        · simp only [hprint, if_true, Option.toList_none, Option.toList_some, List.append_nil,
            List.map_nil] at h ⊢
          exact (Option.some_inj.mp h).symm
        · simp only [Bool.not_eq_true] at hprint
          simp only [hprint, Bool.false_eq_true, if_false, Option.toList_none, List.append_nil,
            List.map_nil] at h ⊢
          obtain ⟨decodeErrors, hadd, h⟩ := Option.bind_eq_some_iff.mp h
          obtain rfl := increment_eq_some hadd
          exact (Option.some_inj.mp h).symm

theorem Loop.run_of (done : List (List UInt8)) {chunks : List (List UInt8)} {l : Loop}
    (h : chunks.foldlM step (Loop.of done) = some l) : l = Loop.of (done ++ chunks) := by
  induction chunks generalizing done with
  | nil =>
    rw [List.append_nil]
    exact (Option.some_inj.mp h).symm
  | cons chunk chunks ih =>
    obtain ⟨l', hstep, hrun⟩ := Option.bind_eq_some_iff.mp h
    obtain rfl := Loop.step_of hstep
    rw [ih _ hrun, List.append_assoc, List.singleton_append]

/-! ## Every chunk is reported -/

def reports (chunk : List UInt8) : ℕ :=
  (measurementOf chunk).toList.length + (announcementOf chunk).toList.length +
    (textOf chunk).toList.length + (if isGarbage chunk then 1 else 0) +
    if isOtherVersion chunk then 1 else 0

theorem reports_eq (chunk : List UInt8) : reports chunk = if chunk = [] then 0 else 1 := by
  by_cases hempty : chunk = []
  · rw [hempty]
    decide +kernel
  have hfilled : chunk.isEmpty = false := by rwa [List.isEmpty_eq_false_iff]
  rw [if_neg hempty]
  cases hdecode : decodeCobs chunk with
  | ok x =>
    obtain ⟨env, body⟩ := x
    have htext : textOf chunk = none :=
      textOf_of_not_malformed fun e heq => by rw [hdecode] at heq; cases heq
    cases body <;>
      simp only [reports, measurementOf, announcementOf, isGarbage, isOtherVersion, htext,
        hdecode] <;>
      rfl
  | error e =>
    cases e with
    | unsupportedVersion version =>
      have htext : textOf chunk = none :=
        textOf_of_not_malformed fun e heq => by rw [hdecode] at heq; cases heq
      simp only [reports, measurementOf, announcementOf, isGarbage, isOtherVersion, htext, hdecode]
      rfl
    | malformed e =>
      have htext := textOf_of_malformed hdecode
      simp only [reports, measurementOf, announcementOf, isGarbage, isOtherVersion, htext, hdecode,
        hfilled]
      cases printable chunk <;> rfl

theorem Summary.sum_reports (chunks : List (List UInt8)) :
    (of chunks).csi + (of chunks).sessions.length + (of chunks).text.length +
        (of chunks).decodeErrors + (of chunks).versionErrors = (chunks.map reports).sum := by
  induction chunks with
  | nil => rfl
  | cons chunk chunks ih =>
    simp only [of, ofMeasurements, reports, Loop.filterMap_cons, List.length_append,
      List.countP_cons, List.map_cons, List.sum_cons] at ih ⊢
    omega

theorem sum_map_reports (chunks : List (List UInt8)) :
    (chunks.map reports).sum = (chunks.filter (· ≠ [])).length := by
  induction chunks with
  | nil => rfl
  | cons chunk chunks ih =>
    rw [List.map_cons, List.sum_cons, reports_eq, ih, List.filter_cons]
    by_cases hempty : chunk = []
    · rw [if_pos hempty, if_neg (by simpa using hempty), Nat.zero_add]
    · rw [if_neg hempty, if_pos (by simpa using hempty), List.length_cons, Nat.add_comm]

theorem eq_of_wireDecode {c : Capture} {s : Summary} (h : wireDecode c = some s) :
    s = .of c.chunks := by
  obtain ⟨l, hrun, rfl⟩ := Option.map_eq_some_iff.mp h
  exact congrArg Loop.s (Loop.run_of [] hrun)

theorem wireDecode_of_fits {c : Capture} (h : c.Fits) : wireDecode c = some (.of c.chunks) := by
  obtain ⟨s, hs⟩ := Option.isSome_iff_exists.mp ((isSome_wireDecode_iff c).mpr h)
  rw [hs, eq_of_wireDecode hs]

/-- A capture whose numbers fit is reported as what its chunks come to, and every chunk with a byte in
it is reported once. -/
theorem wireDecode_eq (c : Capture) :
    wireDecode c = (if c.Fits then some (.of c.chunks) else none) ∧
      ∀ s, wireDecode c = some s → s.csi + s.sessions.length + s.text.length + s.decodeErrors +
        s.versionErrors = (c.chunks.filter (· ≠ [])).length := by
  constructor
  · split_ifs with hfits
    · exact wireDecode_of_fits hfits
    · exact Option.not_isSome_iff_eq_none.mp (mt (isSome_wireDecode_iff c).mp hfits)
  · intro s hs
    rw [eq_of_wireDecode hs, Summary.sum_reports, sum_map_reports]

end EspCsi.Host
