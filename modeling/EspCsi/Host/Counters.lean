import EspCsi.Host.WireDecode
import EspCsi.Lib.Neighbours

/-!
# What the capture decoder counts

Chunk by chunk: no counter of events stands above the number of chunks, so only the arithmetic on the
numbers of measurement frames can stop the loop. Where it does not, the lost frames are those the
numbers pass over.
-/

namespace EspCsi.Host

open Wire Logging Neighbours

/-! ## The counters of events -/

namespace Summary

structure Bounded (n : ℕ) (s : Summary) : Prop where
  csi : s.csi ≤ n
  decodeErrors : s.decodeErrors ≤ n
  versionErrors : s.versionErrors ≤ n
  seqGaps : s.seqGaps ≤ n
  seqResets : s.seqResets ≤ n
  tsBackwards : s.tsBackwards ≤ n
  sources : ∀ k, s.sources k ≤ n
  ppdu : ∀ k, s.ppdu k ≤ n
  layout : ∀ k, s.layout k ≤ n
  lens : ∀ k, s.lens k ≤ n
  payload : ∀ k, s.payload k ≤ n
  stimulus : ∀ k, s.stimulus k ≤ n
  tx : ∀ k, s.tx k ≤ n
  setupIds : ∀ k, s.setupIds k ≤ n
  header : s.header ≤ n
  retries : s.retries ≤ n
  nodeIds : ∀ k, s.nodeIds k ≤ n
  sessionIds : ∀ k, s.sessionIds k ≤ n
  bandwidth : ∀ k, s.bandwidth k ≤ n

theorem bounded_default : Summary.default.Bounded 0 := by
  constructor <;> first | exact Nat.le_refl 0 | exact fun _ => Nat.le_refl 0

theorem Bounded.mono {n m : ℕ} {s : Summary} (h : s.Bounded n) (hle : n ≤ m) : s.Bounded m where
  csi := h.csi.trans hle
  decodeErrors := h.decodeErrors.trans hle
  versionErrors := h.versionErrors.trans hle
  seqGaps := h.seqGaps.trans hle
  seqResets := h.seqResets.trans hle
  tsBackwards := h.tsBackwards.trans hle
  sources k := (h.sources k).trans hle
  ppdu k := (h.ppdu k).trans hle
  layout k := (h.layout k).trans hle
  lens k := (h.lens k).trans hle
  payload k := (h.payload k).trans hle
  stimulus k := (h.stimulus k).trans hle
  tx k := (h.tx k).trans hle
  setupIds k := (h.setupIds k).trans hle
  header := h.header.trans hle
  retries := h.retries.trans hle
  nodeIds k := (h.nodeIds k).trans hle
  sessionIds k := (h.sessionIds k).trans hle
  bandwidth k := (h.bandwidth k).trans hle

variable {n : ℕ} (hn : n + 1 < 2 ^ 64)

include hn

theorem exists_incrementIf {k : ℕ} (h : k ≤ n) (p : Prop) [Decidable p] :
    ∃ k', incrementIf p k = some k' ∧ k' ≤ n + 1 := by
  unfold incrementIf
  split_ifs
  · exact Checked.exists_add_one h hn
  · exact ⟨k, rfl, h.trans (Nat.le_succ n)⟩

theorem exists_checkTime {tsBackwards : ℕ} (h : tsBackwards ≤ n) (tsFirst : Option UInt64)
    (tsLast ts : UInt64) :
    ∃ tsBackwards', tsBackwards' ≤ n + 1 ∧ ∀ s : Summary, s.tsBackwards = tsBackwards →
      s.tsFirst = tsFirst → s.tsLast = tsLast →
      s.checkTime ts = some { s with
        tsBackwards := tsBackwards'
        tsFirst := s.tsFirst.or (some ts)
        tsLast := ts
        tsMax := max s.tsMax ts } := by
  obtain ⟨tsBackwards', hadd, hle⟩ := exists_incrementIf hn h (tsFirst.isSome ∧ ts < tsLast)
  refine ⟨tsBackwards', hle, ?_⟩
  rintro s rfl rfl rfl
  exact Checked.bind_eq hadd rfl

theorem exists_countHeader {tx : Counts Mac} {header retries : ℕ} (htx : ∀ k, tx k ≤ n)
    (hheader : header ≤ n) (hretries : retries ≤ n) (f : CsiFrame) :
    ∃ tx' header' retries', (∀ k, tx' k ≤ n + 1) ∧ header' ≤ n + 1 ∧ retries' ≤ n + 1 ∧
      ∀ s : Summary, s.tx = tx → s.header = header → s.retries = retries →
        countHeader f s = some { s with tx := tx', header := header', retries := retries' } := by
  obtain ⟨tx', hcount, htx'⟩ : ∃ tx', f.transmitter.elim (some tx) (entry tx) = some tx' ∧
      ∀ k, tx' k ≤ n + 1 := by
    cases f.transmitter with
    | none => exact ⟨tx, rfl, fun k => (htx k).trans (Nat.le_succ n)⟩
    | some t => exact Checked.exists_tally htx hn t
  unfold countHeader
  cases f.header with
  | none =>
    refine ⟨tx', header, retries, htx', hheader.trans (Nat.le_succ n),
      hretries.trans (Nat.le_succ n), ?_⟩
    rintro s rfl rfl rfl
    exact Checked.bind_eq hcount rfl
  | some h =>
    obtain ⟨header', hadd, hle⟩ := Checked.exists_add_one hheader hn
    obtain ⟨retries', hretry, hle'⟩ := exists_incrementIf hn hretries (h.isRetry = true)
    refine ⟨tx', header', retries', htx', hle, hle', ?_⟩
    rintro s rfl rfl rfl
    exact Checked.bind_eq hcount <| Checked.bind_eq hadd <| Checked.bind_eq hretry rfl

theorem exists_countStimulus {setupIds : Counts UInt8} {stimulus : Counts StimulusTag}
    (hsetup : ∀ k, setupIds k ≤ n) (hstimulus : ∀ k, stimulus k ≤ n) (instances : Finset UInt16)
    (f : CsiFrame) :
    ∃ setupIds' stimulus' instances', (∀ k, setupIds' k ≤ n + 1) ∧ (∀ k, stimulus' k ≤ n + 1) ∧
      ∀ s : Summary, s.setupIds = setupIds → s.stimulus = stimulus → s.instances = instances →
        countStimulus f s =
          some { s with setupIds := setupIds', instances := instances', stimulus := stimulus' } := by
  have hsame : ∀ k, setupIds k ≤ n + 1 := fun k => (hsetup k).trans (Nat.le_succ n)
  unfold countStimulus
  cases f.stimulus with
  | controlled setupId instanceId ta =>
    obtain ⟨setupIds', hadd, hle⟩ := Checked.exists_tally hsetup hn setupId
    obtain ⟨stimulus', hadd', hle'⟩ := Checked.exists_tally hstimulus hn .controlled
    refine ⟨setupIds', stimulus', insert instanceId instances, hle, hle', ?_⟩
    rintro s rfl rfl rfl
    exact Checked.bind_eq hadd <| Checked.bind_eq hadd' rfl
  | ambient ta =>
    obtain ⟨stimulus', hadd, hle⟩ := Checked.exists_tally hstimulus hn .ambient
    refine ⟨setupIds, stimulus', instances, hsame, hle, ?_⟩
    rintro s rfl rfl rfl
    exact Checked.bind_eq hadd rfl
  | observed ta dialogToken =>
    obtain ⟨stimulus', hadd, hle⟩ := Checked.exists_tally hstimulus hn .observed
    refine ⟨setupIds, stimulus', instances, hsame, hle, ?_⟩
    rintro s rfl rfl rfl
    exact Checked.bind_eq hadd rfl

theorem exists_countPayload {layout : Counts LayoutId} {lens : Counts ℕ}
    {payload : Counts PayloadTag} (hlayout : ∀ k, layout k ≤ n) (hlens : ∀ k, lens k ≤ n)
    (hpayload : ∀ k, payload k ≤ n) (variation : List UInt16) (f : CsiFrame) :
    ∃ layout' lens' payload' variation', (∀ k, layout' k ≤ n + 1) ∧ (∀ k, lens' k ≤ n + 1) ∧
      (∀ k, payload' k ≤ n + 1) ∧
      ∀ s : Summary, s.layout = layout → s.lens = lens → s.payload = payload →
        s.variation = variation → countPayload f s = some { s with
          layout := layout'
          lens := lens'
          payload := payload'
          variation := variation' } := by
  have hlayout' : ∀ k, layout k ≤ n + 1 := fun k => (hlayout k).trans (Nat.le_succ n)
  have hlens' : ∀ k, lens k ≤ n + 1 := fun k => (hlens k).trans (Nat.le_succ n)
  unfold countPayload
  cases f.payload with
  | espRaw chip layoutId firstWordInvalid bytes =>
    obtain ⟨layout', hadd, hle⟩ := Checked.exists_tally hlayout hn layoutId
    obtain ⟨lens', hadd', hle'⟩ := Checked.exists_tally hlens hn bytes.val.length
    obtain ⟨payload', hadd'', hle''⟩ := Checked.exists_tally hpayload hn .espRaw
    refine ⟨layout', lens', payload', variation, hle, hle', hle'', ?_⟩
    rintro s rfl rfl rfl rfl
    exact Checked.bind_eq hadd <| Checked.bind_eq hadd' <| Checked.bind_eq hadd'' rfl
  | grouped ng nb scStart nSc nRx nTx data =>
    obtain ⟨payload', hadd, hle⟩ := Checked.exists_tally hpayload hn .grouped
    refine ⟨layout, lens, payload', variation, hlayout', hlens', hle, ?_⟩
    rintro s rfl rfl rfl rfl
    exact Checked.bind_eq hadd rfl
  | variation value =>
    obtain ⟨payload', hadd, hle⟩ := Checked.exists_tally hpayload hn .variation
    refine ⟨layout, lens, payload', variation ++ [value], hlayout', hlens', hle, ?_⟩
    rintro s rfl rfl rfl rfl
    exact Checked.bind_eq hadd rfl

end Summary

/-! ## The numbers of the measurement frames -/

/-- How many numbers a session's next measurement frame passes over. -/
def passed (p q : Mark) : ℕ := if p.1 = q.1 then q.2.toNat - p.2.toNat - 1 else 0

/-- Another session begins, or the numbers go back. -/
def resets (p q : Mark) : ℕ := if p.1 ≠ q.1 ∨ q.2 < p.2 then 1 else 0

/-- Both frames have the last number there is: the one behind the first of them does not fit. -/
def AtEnd (p q : Mark) : Prop := p.1 = q.1 ∧ p.2 = 0xffffffff ∧ q.2 = 0xffffffff

instance (p q : Mark) : Decidable (AtEnd p q) := inferInstanceAs (Decidable (_ ∧ _ ∧ _))

/-- The arithmetic on the numbers of measurement frames fits, with `lost` counted before. -/
def Fits (lost : ℕ) (marks : List Mark) : Prop :=
  (marks.IsChain fun p q => ¬ AtEnd p q) ∧ lost + total passed marks < 2 ^ 64

instance (lost : ℕ) (marks : List Mark) : Decidable (Fits lost marks) :=
  inferInstanceAs (Decidable (_ ∧ _))

def mark (env : Envelope) : Mark := (env.sessionId, env.streamSeq)

theorem passed_le (p q : Mark) : passed p q ≤ 2 ^ 32 - 1 := by
  have hq := q.2.toNat_lt
  unfold passed
  split_ifs <;> omega

theorem total_resets_le (lastSeq : Option Mark) (q : Mark) :
    total resets (lastSeq.toList ++ [q]) ≤ 1 := by
  cases lastSeq with
  | none => exact Nat.zero_le 1
  | some p =>
    show resets p q + 0 ≤ 1
    unfold resets
    split_ifs <;> decide

theorem passed_of_reset {p q : Mark} (h : p.1 ≠ q.1 ∨ q.2 < p.2) : passed p q = 0 := by
  unfold passed
  split_ifs with hsame
  · have hlt := UInt32.lt_iff_toNat_lt.mp (h.resolve_left (not_not.mpr hsame))
    omega
  · rfl

theorem not_atEnd_of_reset {p q : Mark} (h : p.1 ≠ q.1 ∨ q.2 < p.2) : ¬ AtEnd p q := by
  rintro ⟨hsame, hp, hq⟩
  rcases h with hother | hback
  · exact hother hsame
  · rw [hp, hq] at hback
    exact absurd hback (by decide)

theorem atEnd_of_last {sess : UInt32} {seq : UInt32} {env : Envelope} (hsame : sess = env.sessionId)
    (hle : seq.toNat ≤ env.streamSeq.toNat) (hlast : 2 ^ 32 ≤ seq.toNat + 1) :
    AtEnd (sess, seq) (mark env) := by
  have hlt := env.streamSeq.toNat_lt
  refine ⟨hsame, UInt32.toNat_inj.mp ?_, UInt32.toNat_inj.mp ?_⟩
  · show seq.toNat = 2 ^ 32 - 1
    omega
  · show env.streamSeq.toNat = 2 ^ 32 - 1
    omega

namespace Summary

theorem exists_checkSeq {n : ℕ} (hn : n + 1 < 2 ^ 64) {s : Summary} (hgaps : s.seqGaps ≤ n)
    (hresets : s.seqResets ≤ n) {lastSeq : Option Mark} {env : Envelope}
    (hfits : Fits s.seqLost (lastSeq.toList ++ [mark env])) :
    ∃ seqGaps, checkSeq lastSeq env s = some { s with
        seqGaps
        seqLost := s.seqLost + total passed (lastSeq.toList ++ [mark env])
        seqResets := s.seqResets + total resets (lastSeq.toList ++ [mark env]) } ∧
      seqGaps ≤ n + 1 := by
  cases lastSeq with
  -- the first measurement frame is compared with nothing
  | none => exact ⟨s.seqGaps, rfl, hgaps.trans (Nat.le_succ n)⟩
  | some p =>
    obtain ⟨sess, seq⟩ := p
    obtain ⟨hchain, hlost⟩ := hfits
    have hnot : ¬ AtEnd (sess, seq) (mark env) := (List.isChain_cons_cons.mp hchain).1
    simp only [Option.toList_some, List.singleton_append, total_cons_cons, total_singleton,
      Nat.add_zero] at hlost ⊢
    by_cases hreset : sess ≠ env.sessionId ∨ env.streamSeq < seq
    · have hpassed : passed (sess, seq) (mark env) = 0 := passed_of_reset hreset
      have hone : resets (sess, seq) (mark env) = 1 := if_pos hreset
      have hadd : increment s.seqResets = some (s.seqResets + 1) := Checked.add_eq (by omega)
      refine ⟨s.seqGaps, ?_, hgaps.trans (Nat.le_succ n)⟩
      rw [checkSeq, if_pos hreset, hpassed, hone]
      exact Checked.bind_eq hadd rfl
    · have hnone : resets (sess, seq) (mark env) = 0 := if_neg hreset
      obtain ⟨hsame, hnotless⟩ := not_or.mp hreset
      have hsame : sess = env.sessionId := not_not.mp hsame
      have hle := UInt32.le_iff_toNat_le.mp (UInt32.not_lt.mp hnotless)
      -- the number behind the last one is taken before the two are compared, so it has to fit
      have hend : seq.toNat + 1 < 2 ^ 32 := by
        by_contra hlast
        exact hnot (atEnd_of_last hsame hle (Nat.le_of_not_lt hlast))
      have hpassed : passed (sess, seq) (mark env) = env.streamSeq.toNat - seq.toNat - 1 :=
        if_pos hsame
      have hnext : Checked.add 32 seq.toNat 1 = some (seq.toNat + 1) := Checked.add_eq hend
      rw [checkSeq, if_neg hreset, hpassed, hnone]
      rw [hpassed] at hlost
      by_cases hforward : env.streamSeq.toNat > seq.toNat + 1
      · have hadd : increment s.seqGaps = some (s.seqGaps + 1) := Checked.add_eq (by omega)
        have hahead : Checked.sub env.streamSeq.toNat seq.toNat =
            some (env.streamSeq.toNat - seq.toNat) := Checked.sub_eq hle
        have hbetween : Checked.sub (env.streamSeq.toNat - seq.toNat) 1 =
            some (env.streamSeq.toNat - seq.toNat - 1) := Checked.sub_eq (by omega)
        have hsum : Checked.add 64 s.seqLost (env.streamSeq.toNat - seq.toNat - 1) =
            some (s.seqLost + (env.streamSeq.toNat - seq.toNat - 1)) := Checked.add_eq hlost
        exact ⟨s.seqGaps + 1, Checked.bind_eq hnext <| (if_pos hforward).trans <|
          Checked.bind_eq hadd <| Checked.bind_eq hahead <| Checked.bind_eq hbetween <|
          Checked.bind_eq hsum rfl, by omega⟩
      · have hzero : env.streamSeq.toNat - seq.toNat - 1 = 0 := by omega
        rw [hzero]
        exact ⟨s.seqGaps, Checked.bind_eq hnext (if_neg hforward), hgaps.trans (Nat.le_succ n)⟩

theorem fits_of_checkSeq {s s' : Summary} (hlost : s.seqLost < 2 ^ 64) {lastSeq : Option Mark}
    {env : Envelope} (h : checkSeq lastSeq env s = some s') :
    Fits s.seqLost (lastSeq.toList ++ [mark env]) := by
  cases lastSeq with
  | none => exact ⟨List.isChain_singleton _, hlost⟩
  | some p =>
    obtain ⟨sess, seq⟩ := p
    have hfits (hnot : ¬ AtEnd (sess, seq) (mark env))
        (hsum : s.seqLost + passed (sess, seq) (mark env) < 2 ^ 64) :
        Fits s.seqLost ((some (sess, seq)).toList ++ [mark env]) :=
      ⟨List.isChain_pair.mpr hnot, hsum⟩
    by_cases hreset : sess ≠ env.sessionId ∨ env.streamSeq < seq
    · apply hfits (not_atEnd_of_reset hreset)
      rw [passed_of_reset hreset]
      exact hlost
    · obtain ⟨hsame, -⟩ := not_or.mp hreset
      have hpassed : passed (sess, seq) (mark env) = env.streamSeq.toNat - seq.toNat - 1 :=
        if_pos (not_not.mp hsame)
      rw [checkSeq, if_neg hreset] at h
      obtain ⟨next, hnext, h⟩ := Option.bind_eq_some_iff.mp h
      obtain ⟨rfl, hend⟩ := Checked.fits_eq_some.mp hnext
      have hnot : ¬ AtEnd (sess, seq) (mark env) := by
        rintro ⟨-, rfl, -⟩
        exact absurd hend (by decide)
      apply hfits hnot
      rw [hpassed]
      split_ifs at h with hforward
      · obtain ⟨seqGaps, -, h⟩ := Option.bind_eq_some_iff.mp h
        obtain ⟨ahead, hahead, h⟩ := Option.bind_eq_some_iff.mp h
        obtain ⟨lost, hbetween, h⟩ := Option.bind_eq_some_iff.mp h
        obtain ⟨seqLost, hsum, -⟩ := Option.bind_eq_some_iff.mp h
        obtain ⟨-, rfl⟩ := Checked.sub_eq_some.mp hahead
        obtain ⟨-, rfl⟩ := Checked.sub_eq_some.mp hbetween
        exact (Checked.fits_eq_some.mp hsum).2
      · omega

theorem exists_measure {n : ℕ} (hn : n + 1 < 2 ^ 64) {s : Summary} (h : s.Bounded n)
    {nodeIds : Counts Mac} {sessionIds : Counts UInt32} (hnode : ∀ k, nodeIds k ≤ n + 1)
    (hsession : ∀ k, sessionIds k ≤ n + 1) {lastSeq : Option Mark} {env : Envelope}
    (hfits : Fits s.seqLost (lastSeq.toList ++ [mark env])) (f : CsiFrame) :
    ∃ s', measure lastSeq env f { s with nodeIds, sessionIds } = some s' ∧ s'.Bounded (n + 1) ∧
      s'.seqLost = s.seqLost + total passed (lastSeq.toList ++ [mark env]) ∧
      s'.seqResets = s.seqResets + total resets (lastSeq.toList ++ [mark env]) ∧
      s'.text = s.text := by
  have hmore := h.mono (Nat.le_succ n)
  obtain ⟨csi, hcsi, hcsi'⟩ := Checked.exists_add_one h.csi hn
  obtain ⟨sources, hsources, hsources'⟩ := Checked.exists_tally h.sources hn env.source
  obtain ⟨seqGaps, hseq, hgaps⟩ := exists_checkSeq hn
    (s := { s with nodeIds, sessionIds, csi, sources }) h.seqGaps h.seqResets hfits
  obtain ⟨tsBackwards, hback, htime⟩ :=
    exists_checkTime hn h.tsBackwards s.tsFirst s.tsLast f.rxMeta.timestampUs
  obtain ⟨ppdu, hppdu, hppdu'⟩ := Checked.exists_tally h.ppdu hn f.rxMeta.ppdu
  obtain ⟨bandwidth, hbandwidth, hbandwidth'⟩ :=
    Checked.exists_tally h.bandwidth hn f.rxMeta.bandwidth
  obtain ⟨tx, header, retries, htx, hheader, hretries, hcount⟩ :=
    exists_countHeader hn h.tx h.header h.retries f
  obtain ⟨setupIds, stimulus, instances, hsetup, hstimulus, hexcited⟩ :=
    exists_countStimulus hn h.setupIds h.stimulus s.instances f
  obtain ⟨layout, lens, payload, variation, hlayout, hlens, hpayload, hcarried⟩ :=
    exists_countPayload hn h.layout h.lens h.payload s.variation f
  have hresets : s.seqResets + total resets (lastSeq.toList ++ [mark env]) ≤ n + 1 :=
    Nat.add_le_add h.seqResets (total_resets_le lastSeq (mark env))
  refine ⟨_, Checked.bind_eq hcsi <| Checked.bind_eq hsources <| Checked.bind_eq hseq <|
    Checked.bind_eq (htime _ rfl rfl rfl) <| Checked.bind_eq hppdu <|
    Checked.bind_eq hbandwidth <| Checked.bind_eq (hcount _ rfl rfl rfl) <|
    Checked.bind_eq (hexcited _ rfl rfl rfl) (hcarried _ rfl rfl rfl rfl), ?_, rfl, rfl, rfl⟩
  exact
    { hmore with
      csi := hcsi'
      seqGaps := hgaps
      seqResets := hresets
      tsBackwards := hback
      sources := hsources'
      ppdu := hppdu'
      layout := hlayout
      lens := hlens
      payload := hpayload
      stimulus := hstimulus
      tx := htx
      setupIds := hsetup
      header := hheader
      retries := hretries
      nodeIds := hnode
      sessionIds := hsession
      bandwidth := hbandwidth' }

end Summary

/-! ## The loop -/

theorem fits_toList {lost : ℕ} (h : lost < 2 ^ 64) (m : Option Mark) : Fits lost m.toList := by
  cases m with
  | none => exact ⟨List.isChain_nil, h⟩
  | some p => exact ⟨List.isChain_singleton p, h⟩

theorem fits_append {lost : ℕ} {marks marks' : List Mark} :
    Fits lost (marks ++ marks') ↔
      Fits lost marks ∧ Fits (lost + total passed marks) (marks.getLast?.toList ++ marks') := by
  unfold Fits
  rw [isChain_append_iff, total_append]
  constructor
  · rintro ⟨⟨hfirst, hrest⟩, hsum⟩
    exact ⟨⟨hfirst, by omega⟩, hrest, by omega⟩
  · rintro ⟨⟨hfirst, -⟩, hrest, hsum⟩
    exact ⟨⟨hfirst, hrest⟩, by omega⟩

def markOf (chunk : List UInt8) : Option Mark :=
  match decodeCobs chunk with
  | .ok (env, .csi _) => some (mark env)
  | _ => none

def isText (chunk : List UInt8) : Bool :=
  printable chunk &&
    match decodeCobs chunk with
    | .error (.malformed _) => true
    | _ => false

def textOf (chunk : List UInt8) : Option (List UInt8) :=
  if isText chunk then some (trim chunk) else none

theorem textOf_of_not_malformed {chunk : List UInt8}
    (h : ∀ e, decodeCobs chunk ≠ .error (.malformed e)) : textOf chunk = none := by
  rw [textOf, isText]
  cases hdecode : decodeCobs chunk with
  | ok x => rw [Bool.and_false]; rfl
  | error e =>
    cases e with
    | unsupportedVersion version => rw [Bool.and_false]; rfl
    | malformed e => exact absurd hdecode (h e)

theorem textOf_of_malformed {chunk : List UInt8} {e : Postcard.Error}
    (h : decodeCobs chunk = .error (.malformed e)) :
    textOf chunk = if printable chunk then some (trim chunk) else none := by
  rw [textOf, isText, h, Bool.and_true]

theorem markOf_of_csi {chunk : List UInt8} {env : Envelope} {f : CsiFrame}
    (h : decodeCobs chunk = .ok (env, .csi f)) : markOf chunk = some (mark env) := by
  rw [markOf, h]

theorem markOf_of_session {chunk : List UInt8} {env : Envelope} {info : SessionInfo}
    (h : decodeCobs chunk = .ok (env, .session info)) : markOf chunk = none := by
  rw [markOf, h]

theorem markOf_of_error {chunk : List UInt8} {e : DecodeError} (h : decodeCobs chunk = .error e) :
    markOf chunk = none := by
  rw [markOf, h]

namespace Loop

theorem filterMap_cons {α β : Type} (f : α → Option β) (a : α) (as : List α) :
    (a :: as).filterMap f = (f a).toList ++ as.filterMap f := by
  rw [List.filterMap_eq_flatMap_toList, List.filterMap_eq_flatMap_toList, List.flatMap_cons]

structure Bounded (n : ℕ) (l : Loop) : Prop where
  counters : l.s.Bounded n
  seqLost : l.s.seqLost < 2 ^ 64

/-- What chunks with these marks and these lines of text make of the loop. -/
structure Adds (l : Loop) (marks : List Mark) (texts : List (List UInt8)) (l' : Loop) : Prop where
  seqLost : l'.s.seqLost = l.s.seqLost + total passed (l.lastSeq.toList ++ marks)
  seqResets : l'.s.seqResets = l.s.seqResets + total resets (l.lastSeq.toList ++ marks)
  lastSeq : l'.lastSeq = (l.lastSeq.toList ++ marks).getLast?
  text : l'.s.text = l.s.text ++ texts

theorem Adds.trans {l l' l'' : Loop} {marks marks' : List Mark} {texts texts' : List (List UInt8)}
    (h : l.Adds marks texts l') (h' : l'.Adds marks' texts' l'') :
    l.Adds (marks ++ marks') (texts ++ texts') l'' where
  seqLost := by
    rw [h'.seqLost, h.seqLost, h.lastSeq, ← List.append_assoc,
      total_append (l.lastSeq.toList ++ marks), Nat.add_assoc]
  seqResets := by
    rw [h'.seqResets, h.seqResets, h.lastSeq, ← List.append_assoc,
      total_append (l.lastSeq.toList ++ marks), Nat.add_assoc]
  lastSeq := by rw [h'.lastSeq, h.lastSeq, getLast?_append, List.append_assoc]
  text := by rw [h'.text, h.text, List.append_assoc]

theorem bounded_start : start.Bounded 0 := ⟨Summary.bounded_default, by decide⟩

theorem adds_nil {l : Loop} {s : Summary} {texts : List (List UInt8)}
    (hlost : s.seqLost = l.s.seqLost) (hresets : s.seqResets = l.s.seqResets)
    (htext : s.text = l.s.text ++ texts) : l.Adds [] texts { l with s } where
  seqLost := by
    rw [List.append_nil, hlost]
    cases l.lastSeq <;> rfl
  seqResets := by
    rw [List.append_nil, hresets]
    cases l.lastSeq <;> rfl
  lastSeq := by
    rw [List.append_nil]
    cases l.lastSeq <;> rfl
  text := htext

theorem exists_step {n : ℕ} (hn : n + 1 < 2 ^ 64) {l : Loop} (h : l.Bounded n)
    {chunk : List UInt8}
    (hfits : Fits l.s.seqLost (l.lastSeq.toList ++ (markOf chunk).toList)) :
    ∃ l', l.step chunk = some l' ∧ l'.Bounded (n + 1) ∧
      l.Adds (markOf chunk).toList (textOf chunk).toList l' := by
  have hmore := h.counters.mono (Nat.le_succ n)
  by_cases hempty : chunk.isEmpty = true
  · obtain rfl := List.isEmpty_iff.mp hempty
    exact ⟨l, rfl, ⟨hmore, h.seqLost⟩, adds_nil rfl rfl (List.append_nil _).symm⟩
  · rw [step, if_neg hempty]
    cases hdecode : decodeCobs chunk with
    | ok x =>
      obtain ⟨env, body⟩ := x
      have htext : textOf chunk = none :=
        textOf_of_not_malformed fun e heq => by rw [hdecode] at heq; cases heq
      obtain ⟨nodeIds, hnode, hnode'⟩ := Checked.exists_tally h.counters.nodeIds hn env.nodeId
      obtain ⟨sessionIds, hsession, hsession'⟩ :=
        Checked.exists_tally h.counters.sessionIds hn env.sessionId
      rw [htext]
      cases body with
      -- an announcement leaves the numbers alone
      | session info =>
        rw [markOf_of_session hdecode]
        refine ⟨_, Checked.bind_eq hnode (Checked.bind_eq hsession rfl),
          ⟨{ hmore with nodeIds := hnode', sessionIds := hsession' }, h.seqLost⟩,
          adds_nil rfl rfl (List.append_nil _).symm⟩
      | csi f =>
        rw [markOf_of_csi hdecode] at hfits ⊢
        obtain ⟨s', hmeasure, hbounded, hlost, hresets, htext'⟩ :=
          Summary.exists_measure hn h.counters hnode' hsession' hfits f
        refine ⟨⟨s', some (mark env)⟩,
          Checked.bind_eq hnode (Checked.bind_eq hsession (Checked.bind_eq hmeasure rfl)),
          ⟨hbounded, hlost ▸ hfits.2⟩, hlost, hresets, List.getLast?_concat.symm, ?_⟩
        rw [htext']
        exact (List.append_nil _).symm
    | error e =>
      rw [markOf_of_error hdecode]
      cases e with
      | unsupportedVersion version =>
        have htext : textOf chunk = none :=
          textOf_of_not_malformed fun e heq => by rw [hdecode] at heq; cases heq
        obtain ⟨versionErrors, hadd, hle⟩ := Checked.exists_add_one h.counters.versionErrors hn
        rw [htext]
        exact ⟨_, Checked.bind_eq hadd rfl, ⟨{ hmore with versionErrors := hle }, h.seqLost⟩,
          adds_nil rfl rfl (List.append_nil _).symm⟩
      | malformed e =>
        rw [textOf_of_malformed hdecode]
        by_cases hprint : printable chunk = true
        -- a line of text is collected; the rest is counted as garbage
        · rw [if_pos hprint, if_pos hprint]
          exact ⟨_, rfl, ⟨{ hmore with }, h.seqLost⟩, adds_nil rfl rfl rfl⟩
        · obtain ⟨decodeErrors, hadd, hle⟩ := Checked.exists_add_one h.counters.decodeErrors hn
          rw [if_neg hprint, if_neg hprint]
          exact ⟨_, Checked.bind_eq hadd rfl, ⟨{ hmore with decodeErrors := hle }, h.seqLost⟩,
            adds_nil rfl rfl (List.append_nil _).symm⟩

theorem fits_of_step {l l' : Loop} (hlost : l.s.seqLost < 2 ^ 64) {chunk : List UInt8}
    (h : l.step chunk = some l') :
    Fits l.s.seqLost (l.lastSeq.toList ++ (markOf chunk).toList) := by
  have hunmarked (hmark : markOf chunk = none) :
      Fits l.s.seqLost (l.lastSeq.toList ++ (markOf chunk).toList) := by
    rw [hmark]
    exact (List.append_nil l.lastSeq.toList).symm ▸ fits_toList hlost l.lastSeq
  cases hdecode : decodeCobs chunk with
  | error e => exact hunmarked (markOf_of_error hdecode)
  | ok x =>
    obtain ⟨env, body⟩ := x
    cases body with
    | session info => exact hunmarked (markOf_of_session hdecode)
    | csi f =>
      have hempty : ¬ chunk.isEmpty = true := by
        intro hempty
        rw [List.isEmpty_iff.mp hempty] at hdecode
        cases hdecode
      rw [step, if_neg hempty, hdecode] at h
      obtain ⟨nodeIds, -, h⟩ := Option.bind_eq_some_iff.mp h
      obtain ⟨sessionIds, -, h⟩ := Option.bind_eq_some_iff.mp h
      obtain ⟨s', hmeasure, -⟩ := Option.bind_eq_some_iff.mp h
      obtain ⟨csi, -, hmeasure⟩ := Option.bind_eq_some_iff.mp hmeasure
      obtain ⟨sources, -, hmeasure⟩ := Option.bind_eq_some_iff.mp hmeasure
      obtain ⟨s'', hseq, -⟩ := Option.bind_eq_some_iff.mp hmeasure
      have hfits := Summary.fits_of_checkSeq (h := hseq)
      rw [markOf_of_csi hdecode]
      exact hfits hlost

theorem exists_run {n : ℕ} {l : Loop} (h : l.Bounded n) {chunks : List (List UInt8)}
    (hn : n + chunks.length < 2 ^ 64)
    (hfits : Fits l.s.seqLost (l.lastSeq.toList ++ chunks.filterMap markOf)) :
    ∃ l', chunks.foldlM step l = some l' ∧
      l.Adds (chunks.filterMap markOf) (chunks.filterMap textOf) l' := by
  induction chunks generalizing n l with
  | nil => exact ⟨l, rfl, adds_nil rfl rfl (List.append_nil _).symm⟩
  | cons chunk chunks ih =>
    rw [List.length_cons] at hn
    rw [filterMap_cons, ← List.append_assoc, fits_append] at hfits
    obtain ⟨hfirst, hrest⟩ := hfits
    obtain ⟨l', hstep, hbounded, hadds⟩ := exists_step (by omega) h hfirst
    rw [← hadds.seqLost, ← hadds.lastSeq] at hrest
    obtain ⟨l'', hrun, hadds'⟩ := ih hbounded (by omega) hrest
    refine ⟨l'', ?_, ?_⟩
    · rw [List.foldlM_cons]
      exact Checked.bind_eq hstep hrun
    · rw [filterMap_cons, filterMap_cons]
      exact hadds.trans hadds'

theorem fits_of_run {n : ℕ} {l l' : Loop} (h : l.Bounded n) {chunks : List (List UInt8)}
    (hn : n + chunks.length < 2 ^ 64) (hrun : chunks.foldlM step l = some l') :
    Fits l.s.seqLost (l.lastSeq.toList ++ chunks.filterMap markOf) := by
  induction chunks generalizing n l with
  | nil =>
    rw [List.filterMap_nil, List.append_nil]
    exact fits_toList h.seqLost l.lastSeq
  | cons chunk chunks ih =>
    rw [List.length_cons] at hn
    obtain ⟨l₁, hstep, hrun⟩ := Option.bind_eq_some_iff.mp hrun
    have hfirst := fits_of_step h.seqLost hstep
    obtain ⟨l₂, hstep', hbounded, hadds⟩ := exists_step (by omega) h hfirst
    obtain rfl : l₁ = l₂ := Option.some_inj.mp (hstep.symm.trans hstep')
    have hrest := ih hbounded (by omega) hrun
    rw [hadds.seqLost, hadds.lastSeq] at hrest
    rw [filterMap_cons, ← List.append_assoc, fits_append]
    exact ⟨hfirst, hrest⟩

end Loop

/-! ## A whole capture -/

namespace Capture

def marks (c : Capture) : List Mark := c.chunks.filterMap markOf

/-- No two measurement frames of a session that follow each other both have the last number, and the
numbers passed over have a sum of 64 bits. -/
def Fits (c : Capture) : Prop := Host.Fits 0 c.marks

instance (c : Capture) : Decidable c.Fits := inferInstanceAs (Decidable (Host.Fits _ _))

theorem length_chunks_lt (c : Capture) : 0 + c.chunks.length < 2 ^ 64 := by
  have hle : c.chunks.length ≤ c.bytes.length + 1 := Cobs.length_splitOn_le c.bytes
  have hbytes := c.length_lt
  omega

/-- The sum takes care of itself unless there are more measurement frames than numbers. -/
theorem fits_iff_of_length_le {c : Capture} (h : c.marks.length ≤ 2 ^ 32) :
    c.Fits ↔ c.marks.IsChain fun p q => ¬ AtEnd p q := by
  refine ⟨And.left, fun hchain => ⟨hchain, ?_⟩⟩
  have htotal := total_le passed_le c.marks
  have hmul : c.marks.length * (2 ^ 32 - 1) ≤ 2 ^ 32 * (2 ^ 32 - 1) := Nat.mul_le_mul_right _ h
  omega

end Capture

theorem exists_wireDecode {c : Capture} (h : c.Fits) :
    ∃ s, wireDecode c = some s ∧ s.seqLost = total passed c.marks ∧
      s.seqResets = total resets c.marks ∧ s.text = c.chunks.filterMap textOf := by
  obtain ⟨l, hrun, hadds⟩ := Loop.exists_run Loop.bounded_start c.length_chunks_lt h
  refine ⟨l.s, ?_, ?_, ?_, hadds.text⟩
  · rw [wireDecode, hrun]
    rfl
  · exact hadds.seqLost.trans (Nat.zero_add _)
  · exact hadds.seqResets.trans (Nat.zero_add _)

/-- A capture has a summary exactly when its numbers fit. -/
theorem isSome_wireDecode_iff (c : Capture) : (wireDecode c).isSome = true ↔ c.Fits := by
  constructor
  · intro hsome
    rw [wireDecode, Option.isSome_map] at hsome
    obtain ⟨l, hrun⟩ := Option.isSome_iff_exists.mp hsome
    exact Loop.fits_of_run Loop.bounded_start c.length_chunks_lt hrun
  · intro h
    obtain ⟨s, hs, -⟩ := exists_wireDecode h
    rw [hs]
    rfl

end EspCsi.Host
