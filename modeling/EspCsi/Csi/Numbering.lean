import EspCsi.Csi.Counters

/-!
# Stream numbers

How the packets of a run are numbered. One counter numbers the packets of every source, in the order
in which they are handed to `deliver`, so that a source's own numbers have a gap wherever another
source delivered in between.
-/

namespace EspCsi.Csi

open Wire Logging Transition

/-! ## The counter -/

theorem CsiPacket.new_streamSeq (board : Board) (s : Session) (frame : CsiFrame)
    (source : SourceKind) (now : UInt64) :
    (new board s frame source now).2.streamSeq = s.streamSeq + 1 := by
  cases h : s.anchorPending <;>
    simp [new, Session.takeAnnouncement, Session.nextEnvelope, h]

theorem acquire_streamSeq {board : Board} {n : Node} {e : Event} {p : CsiPacket}
    (h : n.delivered board e = some p) :
    (acquire board n e).1.session.streamSeq = n.session.streamSeq + 1 := by
  cases e with
  | capture info now =>
    by_cases hdel : n.Delivers board info now
    · obtain ⟨q, session, rxCount, bbFormatHist, policy, hq, heq⟩ :=
        Node.acquireCapture_of_delivers hdel
      obtain ⟨tsLastRaw, tsWraps, hwiden⟩ :=
        n.session.widenTimestamp_snd info.timestampUs.toUInt32
      simp only [Node.packetOf, CsiPacket.fromWifiCsiInfo, frameFromEsp, hdel.2.2.2.2, dite_true,
        Option.map_some, hwiden] at hq
      obtain ⟨-, rfl⟩ := Prod.mk.inj (Option.some_inj.mp hq)
      rw [acquire, heq]
      simp only [CsiPacket.new_streamSeq]
    · obtain ⟨stats, policy, out, heq, -⟩ := Node.acquireCapture_of_not_delivers hdel
      simp [Node.delivered, acquire, heq] at h
  | emit kind frame now =>
    by_cases hemits : n.Emits frame now
    · rw [acquire, Node.acquireEmit_of_emits hemits]
      exact CsiPacket.new_streamSeq board n.session _ kind now
    · obtain ⟨stats, policy, heq⟩ := Node.acquireEmit_of_not_emits board kind hemits
      simp [Node.delivered, acquire, heq] at h
  | _ => simp [Node.delivered, acquire] at h

theorem step_streamSeq_of_delivered {board : Board} {n : Node} {e : Event} {p : CsiPacket}
    (h : n.delivered board e = some p) :
    (step board n e).session.streamSeq = n.session.streamSeq + 1 := by
  have hsnd : (acquire board n e).2 = some p := h
  have hnum := acquire_streamSeq h
  rw [step_eq_deliverAcquired]
  generalize acquire board n e = acquired at hsnd hnum ⊢
  obtain ⟨n', packet⟩ := acquired
  obtain rfl : packet = some p := hsnd
  rw [Node.deliverAcquired, Node.deliver_session]
  exact hnum

theorem step_streamSeq_of_undelivered {board : Board} {n : Node} {e : Event}
    (hdel : n.delivered board e = none) (hbegin : ∀ cfg, e ≠ .beginRun cfg) :
    (step board n e).session.streamSeq = n.session.streamSeq := by
  cases e with
  | capture info now =>
    obtain ⟨stats, policy, out, heq, -⟩ :=
      Node.captureCsiInfo_of_not_delivers (not_delivers_of_undelivered hdel)
    rw [step, heq]
  | emit kind frame now =>
    obtain ⟨stats, policy, heq⟩ :=
      Node.acquireEmit_of_not_emits board kind (not_emits_of_undelivered hdel)
    rw [step, Node.emit, heq]
    rfl
  | beginRun cfg => exact absurd rfl (hbegin cfg)
  | nextCsiPacket t | pollCsiPacket t =>
    simp only [step, Node.pollCsiPacket, Node.takeCsi, Node.enterAsync]
    cases n.csiQueue <;> rfl
  | printCsi t | pollPrintCsi t =>
    simp only [step, Node.pollPrintCsi, Node.takeCsi, Node.enterAsync]
    cases n.csiQueue <;> rfl
  | loggerBackend =>
    simp only [step, Node.loggerBackend]
    split <;> rfl
  | processOutputChanged =>
    simp only [step, Node.processOutputChanged]
    split_ifs <;> rfl
  | setSession sessionId epochUnixUs now =>
    simp only [step, Session.setSession]
    cases epochUnixUs <;> rfl
  | _ => rfl

/-! ## The packets of a run -/

def Node.packets (board : Board) : Node → List Event → List CsiPacket
  | _, [] => []
  | n, e :: es => (n.delivered board e).toList ++ packets board (step board n e) es

/-- The `i`-th packet of a run carries the number `i`, whatever source it is from. -/
theorem streamSeq_of_packets {board : Board} {n : Node} {es : List Event}
    (hbegin : ∀ cfg, Event.beginRun cfg ∉ es) {pre post : List CsiPacket} {p : CsiPacket}
    (h : n.packets board es = pre ++ p :: post) :
    p.envelope.streamSeq = n.session.streamSeq + UInt32.ofNat pre.length := by
  induction es generalizing n pre with
  | nil => simp [Node.packets] at h
  | cons e es ih =>
    have hrest : ∀ cfg, Event.beginRun cfg ∉ es :=
      fun cfg hcfg => hbegin cfg (List.mem_cons_of_mem e hcfg)
    rw [Node.packets] at h
    cases hdel : n.delivered board e with
    | none =>
      have hhead : ∀ cfg, e ≠ .beginRun cfg := by
        rintro cfg rfl
        exact hbegin cfg List.mem_cons_self
      rw [hdel] at h
      rw [ih hrest h, step_streamSeq_of_undelivered hdel hhead]
    | some q =>
      rw [hdel] at h
      cases pre with
      | nil =>
        obtain ⟨rfl, -⟩ := List.cons_eq_cons.mp h
        rw [(delivered_envelope hdel).2]
        simp
      | cons r pre =>
        obtain ⟨rfl, htail⟩ := List.cons_eq_cons.mp h
        have hlen : UInt32.ofNat (q :: pre).length = 1 + UInt32.ofNat pre.length := by
          rw [List.length_cons, Nat.add_comm, UInt32.ofNat_add]
          rfl
        rw [ih hrest htail, step_streamSeq_of_delivered hdel, hlen, UInt32.add_assoc]

/-! ## The sources of a run -/

/-- The source that an event delivers from, if its frame is let through. -/
def Node.admits (board : Board) (n : Node) : Event → Option SourceKind
  | .capture info now => if n.Delivers board info now then some .espVendor else none
  | .emit kind frame now => if n.Emits frame now then some kind else none
  | _ => none

def Node.sources (board : Board) : Node → List Event → List SourceKind
  | _, [] => []
  | n, e :: es => (n.admits board e).toList ++ sources board (step board n e) es

theorem delivered_source (board : Board) (n : Node) (e : Event) :
    (n.delivered board e).map (fun p => p.envelope.source) = n.admits board e := by
  cases e with
  | capture info now =>
    by_cases hdel : n.Delivers board info now
    · obtain ⟨q, session, rxCount, bbFormatHist, policy, hq, heq⟩ :=
        Node.acquireCapture_of_delivers hdel
      obtain ⟨tsLastRaw, tsWraps, hwiden⟩ :=
        n.session.widenTimestamp_snd info.timestampUs.toUInt32
      simp only [Node.packetOf, CsiPacket.fromWifiCsiInfo, frameFromEsp, hdel.2.2.2.2, dite_true,
        Option.map_some, hwiden] at hq
      obtain ⟨rfl, -⟩ := Prod.mk.inj (Option.some_inj.mp hq)
      simp only [Node.delivered, acquire, heq, Option.map_some, CsiPacket.new_envelope, Node.admits,
        if_pos hdel]
      rfl
    · obtain ⟨stats, policy, out, heq, -⟩ := Node.acquireCapture_of_not_delivers hdel
      simp only [Node.delivered, acquire, heq, Option.map_none, Node.admits, if_neg hdel]
  | emit kind frame now =>
    by_cases hemits : n.Emits frame now
    · simp only [Node.delivered, acquire, Node.acquireEmit_of_emits hemits, Option.map_some,
        Node.emittedPacket, CsiPacket.new_envelope, Node.admits, if_pos hemits]
      rfl
    · obtain ⟨stats, policy, heq⟩ := Node.acquireEmit_of_not_emits board kind hemits
      simp only [Node.delivered, acquire, heq, Option.map_none, Node.admits, if_neg hemits]
  | _ => rfl

theorem packets_source (board : Board) (n : Node) (es : List Event) :
    (n.packets board es).map (fun p => p.envelope.source) = n.sources board es := by
  induction es generalizing n with
  | nil => rfl
  | cons e es ih =>
    rw [Node.packets, Node.sources, List.map_append, ih, ← delivered_source, Option.toList_map]

/-! ## Numbers of one source -/

/-- Each packet carries the count of the packets of its own source before it: every source's packets
are numbered 0, 1, 2 and so on. -/
def Numbered (ps : List CsiPacket) : Prop :=
  ∀ pre p post, ps = pre ++ p :: post → p.envelope.streamSeq =
    UInt32.ofNat (pre.countP fun q => q.envelope.source == p.envelope.source)

/-- Two packets of a source with none of that source in between carry consecutive numbers: a host
that is missing none of them sees no gap. -/
def Gapless (ps : List CsiPacket) : Prop :=
  ∀ pre p mid q post, ps = pre ++ p :: mid ++ q :: post →
    q.envelope.source = p.envelope.source →
    (∀ r ∈ mid, r.envelope.source ≠ p.envelope.source) →
    q.envelope.streamSeq = p.envelope.streamSeq + 1

/-- Ahead of each frame that is let through, those of other sources are a multiple of the counter's
range: none at all, in a run of fewer than 2^32. -/
def Unmixed (ss : List SourceKind) : Prop :=
  ∀ pre s post, ss = pre ++ s :: post → (pre.countP fun t => t != s) % 2 ^ 32 = 0

theorem unmixed_map_iff {ps : List CsiPacket} :
    Unmixed (ps.map fun p => p.envelope.source) ↔ ∀ pre p post, ps = pre ++ p :: post →
      (pre.countP fun q => q.envelope.source != p.envelope.source) % 2 ^ 32 = 0 := by
  constructor
  · rintro h pre p post rfl
    have hpre := h (pre.map fun p => p.envelope.source) p.envelope.source
      (post.map fun p => p.envelope.source) (by simp)
    rw [List.countP_map] at hpre
    exact hpre
  · intro h pre s post hss
    obtain ⟨front, back, rfl, rfl, hback⟩ := List.map_eq_append_iff.mp hss
    obtain ⟨p, rest, rfl, rfl, -⟩ := List.map_eq_cons_iff.mp hback
    rw [List.countP_map]
    exact h front p rest rfl

theorem Numbered.gapless {ps : List CsiPacket} (h : Numbered ps) : Gapless ps := by
  intro pre p mid q post hps hsource hmid
  have hp := h pre p (mid ++ q :: post) (by simpa using hps)
  have hq := h (pre ++ p :: mid) q post hps
  have hnone : mid.countP (fun r => r.envelope.source == p.envelope.source) = 0 := by
    rw [List.countP_eq_zero]
    intro r hr
    simpa using hmid r hr
  rw [hq, hp, hsource, List.countP_append, List.countP_cons, hnone]
  simp [UInt32.ofNat_add]

theorem numbered_iff_unmixed {ps : List CsiPacket}
    (hcounter : ∀ pre p post, ps = pre ++ p :: post →
      p.envelope.streamSeq = UInt32.ofNat pre.length) :
    Numbered ps ↔ Unmixed (ps.map fun p => p.envelope.source) := by
  have hsplit (pre : List CsiPacket) (p : CsiPacket) :
      pre.length = (pre.countP fun q => q.envelope.source == p.envelope.source) +
        pre.countP fun q => q.envelope.source != p.envelope.source := by
    rw [List.length_eq_countP_add_countP fun q => q.envelope.source == p.envelope.source]
    exact congrArg _ (List.countP_congr fun q _ => by simp)
  have hone (pre : List CsiPacket) (p : CsiPacket) :
      UInt32.ofNat pre.length =
          UInt32.ofNat (pre.countP fun q => q.envelope.source == p.envelope.source) ↔
        (pre.countP fun q => q.envelope.source != p.envelope.source) % 2 ^ 32 = 0 := by
    rw [← UInt32.toNat_inj, UInt32.toNat_ofNat', UInt32.toNat_ofNat', hsplit pre p]
    omega
  rw [unmixed_map_iff]
  constructor
  · intro h pre p post hps
    rw [← hone, ← hcounter pre p post hps]
    exact h pre p post hps
  · intro h pre p post hps
    rw [hcounter pre p post hps, hone]
    exact h pre p post hps

/-! ## A run -/

def Node.runPackets (board : Board) (n : Node) (cfg : Node.RunConfig) (es : List Event) :
    List CsiPacket :=
  (n.beginRun cfg).packets board es

def Node.runSources (board : Board) (n : Node) (cfg : Node.RunConfig) (es : List Event) :
    List SourceKind :=
  (n.beginRun cfg).sources board es

/-- In a run, each source's packets are numbered 0, 1, 2 and so on, and a host sees a gap for a lost
packet of the source only, exactly when the sources are not mixed. -/
theorem runPackets_numbered_iff (board : Board) (n : Node) (cfg : Node.RunConfig)
    (es : List Event) (hrun : ∀ cfg', Event.beginRun cfg' ∉ es) :
    (Numbered (n.runPackets board cfg es) ∧ Gapless (n.runPackets board cfg es)) ↔
      Unmixed (n.runSources board cfg es) := by
  have hiff : Numbered (n.runPackets board cfg es) ↔ Unmixed (n.runSources board cfg es) := by
    rw [Node.runSources, ← packets_source]
    apply numbered_iff_unmixed
    intro pre p post hps
    have hstart : (n.beginRun cfg).session.streamSeq = 0 := rfl
    rw [streamSeq_of_packets hrun hps, hstart, UInt32.zero_add]
  rw [← hiff]
  exact ⟨fun h => h.1, fun h => ⟨h, h.gapless⟩⟩

theorem unmixed_of_source {ss : List SourceKind} (source : SourceKind)
    (h : ∀ s ∈ ss, s = source) : Unmixed ss := by
  intro pre s post hss
  have hnone : pre.countP (fun t => t != s) = 0 := by
    rw [List.countP_eq_zero]
    intro t ht
    have hts : t = source := h t (by simp [hss, ht])
    have hs : s = source := h s (by simp [hss])
    simp [hts, hs]
  rw [hnone, Nat.zero_mod]

theorem runPackets_numbered_iff_captures :
    Numbered (Node.boot.runPackets .esp32 .monitor
      [.setCsiCallback 0, .capture (.quiet .zero 0 0) 0, .capture (.quiet .zero 1 9) 9]) ∧
    Gapless (Node.boot.runPackets .esp32 .monitor
      [.setCsiCallback 0, .capture (.quiet .zero 0 0) 0, .capture (.quiet .zero 1 9) 9]) :=
  (runPackets_numbered_iff .esp32 .boot .monitor
    [.setCsiCallback 0, .capture (.quiet .zero 0 0) 0, .capture (.quiet .zero 1 9) 9]
    (by simp)).mpr (unmixed_of_source .espVendor (by decide +kernel))

/-- The first measurement emitted after one capture is numbered 1. -/
theorem not_numbered :
    ¬ Numbered (Node.boot.runPackets .esp32 .monitor
      [.setCsiCallback 0, .capture (.quiet .zero 0 0) 0,
        .emit .synthetic Counted.syntheticFrame 0]) := by
  intro h
  have hmap : (Node.boot.runPackets .esp32 .monitor
      [.setCsiCallback 0, .capture (.quiet .zero 0 0) 0,
        .emit .synthetic Counted.syntheticFrame 0]).map
          (fun p => (p.envelope.source, p.envelope.streamSeq)) =
      [(.espVendor, 0), (.synthetic, 1)] := by decide +kernel
  obtain ⟨p, rest, hps, hp, hrest⟩ := List.map_eq_cons_iff.mp hmap
  obtain ⟨q, rest, rfl, hq, hnil⟩ := List.map_eq_cons_iff.mp hrest
  obtain rfl := List.map_eq_nil_iff.mp hnil
  obtain ⟨hsource, hseq⟩ := Prod.mk.inj hq
  have hzero := h [p] q [] hps
  rw [hseq] at hzero
  simp [(Prod.mk.inj hp).1, hsource] at hzero

end EspCsi.Csi
