import EspCsi.Csi.Consumers
import EspCsi.Csi.Runs

/-!
# The gates over whole histories

What the callback may rely on after any calls. It reads two cached gates in place of the settings
they stand for, and it stays registered after a run, when only closed gates keep it quiet.
-/

namespace EspCsi.Csi

open Wire Logging Transition

/-! ## Packed addresses -/

namespace Gates

theorem toNat_shift_or (v : UInt64) (b : UInt8) (h : v.toNat < 2 ^ 56) :
    ((v <<< 8) ||| b.toUInt64).toNat = 256 * v.toNat + b.toNat := by
  have hb := b.toNat_lt
  have hv : v.toNat <<< 8 = 256 * v.toNat := by
    rw [Nat.shiftLeft_eq]
    omega
  rw [UInt64.toNat_or, UInt64.toNat_shiftLeft, UInt8.toNat_toUInt64]
  have h8 : (8 : UInt64).toNat % 64 = 8 := rfl
  rw [h8, Nat.mod_eq_of_lt (by omega), ← Nat.shiftLeft_add_eq_or_of_lt hb, hv]

theorem packMac_toNat (m : Mac) : (packMac m).toNat =
    256 * (256 * (256 * (256 * (256 * m.b0.toNat + m.b1.toNat) + m.b2.toNat) + m.b3.toNat) +
      m.b4.toNat) + m.b5.toNat := by
  have h0 := m.b0.toNat_lt
  have h1 := m.b1.toNat_lt
  have h2 := m.b2.toNat_lt
  have h3 := m.b3.toNat_lt
  have h4 := m.b4.toNat_lt
  have e0 := toNat_shift_or 0 m.b0 (by simp)
  have e1 := toNat_shift_or _ m.b1 (by rw [e0]; simp; omega)
  have e2 := toNat_shift_or _ m.b2 (by rw [e1, e0]; simp; omega)
  have e3 := toNat_shift_or _ m.b3 (by rw [e2, e1, e0]; simp; omega)
  have e4 := toNat_shift_or _ m.b4 (by rw [e3, e2, e1, e0]; simp; omega)
  have e5 := toNat_shift_or _ m.b5 (by rw [e4, e3, e2, e1, e0]; simp; omega)
  simp only [packMac, Mac.bytes, List.foldl]
  rw [e5, e4, e3, e2, e1, e0]
  simp

theorem packMac_injective : Function.Injective packMac := by
  have hdigit {x y : ℕ} {a b : UInt8} (h : 256 * x + a.toNat = 256 * y + b.toNat) :
      x = y ∧ a = b := by
    have ha := a.toNat_lt
    have hb := b.toNat_lt
    have heq : a.toNat = b.toNat := by omega
    exact ⟨by omega, UInt8.toNat_inj.mp heq⟩
  intro m m' h
  have hpack := congrArg UInt64.toNat h
  rw [packMac_toNat, packMac_toNat] at hpack
  obtain ⟨hpack, h5⟩ := hdigit hpack
  obtain ⟨hpack, h4⟩ := hdigit hpack
  obtain ⟨hpack, h3⟩ := hdigit hpack
  obtain ⟨hpack, h2⟩ := hdigit hpack
  obtain ⟨hpack, h1⟩ := hdigit hpack
  have h0 : m.b0 = m'.b0 := UInt8.toNat_inj.mp hpack
  cases m
  cases m'
  simp only [Mac.mk.injEq]
  exact ⟨h0, h1, h2, h3, h4, h5⟩

theorem packMac_eq_zero_iff {m : Mac} : packMac m = 0 ↔ m = .zero := by
  have hzero : packMac .zero = 0 := rfl
  rw [← hzero, packMac_injective.eq_iff]

/-! ## The gates without their caches -/

def publishes (g : Gates) : Bool := g.userPublishIntent && g.reports && g.csiOutputEnabled

/-- The address last given to `set_csi_peer_filter`, zero before any. -/
def peerAsked (evs : List Event) : Mac :=
  evs.foldl (fun peer e => match e with
    | .setCsiPeerFilter mac => mac
    | _ => peer) .zero

/-- No address is asked for, or the frame is from the one that is. -/
def macAdmits (peer : Mac) (info : WifiCsiInfo) : Bool := peer == .zero || info.mac == peer

/-- No minimum is set, or the frame's `sig_mode` reaches it. The newer MACs have no such field. -/
def sigModeAdmits (g : Gates) (chip : Chip) (info : WifiCsiInfo) : Bool :=
  isHe chip || g.csiMinSigMode == 0 || g.csiMinSigMode ≤ info.packetMode

theorem csiPeerFilter_eq (evs : List Event) :
    (run Gates.step boot evs).csiPeerFilter = packMac (peerAsked evs) := by
  induction evs using List.reverseRecOn with
  | nil => rfl
  | append_singleton evs e ih =>
    rw [run_concat, peerAsked, List.foldl_append]
    cases e with
    | setCsiPeerFilter mac => rfl
    | nextCsiPacket t | printCsi t =>
      simp only [Gates.step, Gates.enterAsync]
      split_ifs <;> exact ih
    | _ => exact ih

theorem Cached.csiPassesFilter_eq {g : Gates} (h : g.Cached) {peer : Mac}
    (hpeer : g.csiPeerFilter = packMac peer) (chip : Chip) (info : WifiCsiInfo) :
    g.csiPassesFilter chip info = (macAdmits peer info && g.sigModeAdmits chip info) := by
  rw [Bool.eq_iff_iff, h.csiPassesFilter_iff, hpeer, packMac_eq_zero_iff, packMac_injective.eq_iff]
  simp [macAdmits, sigModeAdmits, or_assoc]

end Gates

/-- The radio's CSI callback up to `deliver`, with every gate read from what it stands for. -/
def Node.acquireUncached (board : Board) (peer : Mac) (n : Node) (info : WifiCsiInfo)
    (now : UInt64) : Node × Option CsiPacket :=
  let n := n.countCapture board.chip info
  match n.gates.csiRawCallback with
  | some cb => (n.observe (.rawCallback cb), none)
  | none =>
    if !n.gates.publishes then (n, none)
    else if !(Gates.macAdmits peer info && n.gates.sigModeAdmits board.chip info) then
      (n.countFiltered, none)
    else
      let judged := admitCapture n.gates n.policy info now
      let n := { n with policy := judged.2.2 }
      if !judged.1 then (n.countSuppressed, none) else n.buildCapture board info now judged.2.1

/-- After any calls the cached gates are what they stand for, so that a frame passes both exactly
when it passes the settings behind them, and the callback does what it would do without caches. -/
theorem gates_cached_of_run (board : Board) (evs : List Event) :
    let n := run (step board) .boot evs
    n.gates.csiPublishEnabled = n.gates.publishes ∧
      n.gates.csiFilterActive = (n.gates.csiPeerFilter != 0 || n.gates.csiMinSigMode != 0) ∧
      ∀ info now,
        (n.gates.csiPublishEnabled && n.gates.csiPassesFilter board.chip info) =
          (n.gates.publishes && Gates.macAdmits (Gates.peerAsked evs) info &&
            n.gates.sigModeAdmits board.chip info) ∧
        n.acquireCapture board info now =
          n.acquireUncached board (Gates.peerAsked evs) info now := by
  intro n
  have hgates : n.gates = run Gates.step .boot evs := run_gates board .boot evs
  have hcached : n.gates.Cached := hgates ▸ Gates.cached_run evs
  have hpeer : n.gates.csiPeerFilter = Gates.packMac (Gates.peerAsked evs) :=
    hgates ▸ Gates.csiPeerFilter_eq evs
  refine ⟨hcached.publish, hcached.filter, fun info now => ?_⟩
  have hfilter := hcached.csiPassesFilter_eq hpeer board.chip info
  have hpublish : n.gates.csiPublishEnabled = n.gates.publishes := hcached.publish
  constructor
  · rw [hpublish, hfilter, Bool.and_assoc]
  · obtain ⟨rxCount, bbFormatHist, hcount⟩ := n.countCapture_eq board.chip info
    rw [Node.acquireCapture, Node.acquireUncached, hcount]
    cases n.gates.csiRawCallback <;> simp only [hpublish, hfilter]

/-! ## After a run -/

/-- The run has ended, and no call since has installed a consumer. -/
def Stopped (evs : List Event) : Prop :=
  Since Gates.step (fun _ e => e = .reset) Gates.Installs .boot evs

/-- The event calls no callback, enqueues nothing and writes nothing to the host. -/
def Node.Silent (board : Board) (n : Node) (e : Event) : Prop :=
  (step board n e).out = n.out ∧ (step board n e).csiQueue = n.csiQueue ∧
    (step board n e).logger.csiChannel = n.logger.csiChannel

theorem Stopped.userPublishIntent {evs : List Event} (h : Stopped evs) :
    (run Gates.step .boot evs).userPublishIntent = false := by
  obtain ⟨pre, e, post, rfl, hreset, hpost⟩ := h
  subst hreset
  have hclosed : (run Gates.step .boot (pre ++ [.reset])).userPublishIntent = false := by
    rw [run_concat]
    rfl
  have hkept := hpost.always (Q := fun g => g.userPublishIntent = false) hclosed fun g e hg hno => by
    apply Bool.eq_false_iff.mpr
    intro hopen
    rcases (g.step_userPublishIntent e).mp hopen with hnew | ⟨hold, -⟩
    · exact hno hnew
    · exact absurd hold (by rw [hg]; exact Bool.false_ne_true)
  have hlast := hkept.last
  rwa [← run_append, List.append_assoc, List.singleton_append] at hlast

theorem Gates.csiRawCallback_isSome {evs : List Event} {cb : CallbackId}
    (h : .setCsiRawCallback cb ∈ evs) : (run Gates.step boot evs).csiRawCallback.isSome = true := by
  induction evs using List.reverseRecOn with
  | nil => simp at h
  | append_singleton evs e ih =>
    rw [run_concat]
    rcases List.mem_append.mp h with hold | hnew
    · have hprev := ih hold
      cases e with
      | setCsiRawCallback => rfl
      | nextCsiPacket t | printCsi t =>
        simp only [Gates.step, Gates.enterAsync]
        split_ifs <;> exact hprev
      | _ => exact hprev
    · obtain rfl := List.mem_singleton.mp hnew
      rfl

theorem Node.silent_emit {n : Node} (h : n.gates.csiPublishEnabled = false) (board : Board)
    (kind : SourceKind) (frame : CsiFrame) (now : UInt64) :
    n.Silent board (.emit kind frame now) := by
  have hstep : step board n (.emit kind frame now) = n := by
    simp [step, emit, acquireEmit, h, deliverAcquired]
  rw [Silent, hstep]
  exact ⟨rfl, rfl, rfl⟩

/-- The raw callback is asked before the publish gate, so a capture behind a closed gate is dropped
exactly when there is none. -/
theorem Node.silent_capture_iff {n : Node} (h : n.gates.csiPublishEnabled = false) (board : Board)
    (info : WifiCsiInfo) (now : UInt64) :
    n.Silent board (.capture info now) ↔ n.gates.csiRawCallback = none := by
  obtain ⟨rxCount, bbFormatHist, hcount⟩ := n.countCapture_eq board.chip info
  cases hraw : n.gates.csiRawCallback with
  | none =>
    have hstep : step board n (.capture info now) =
        { n with stats := { n.stats with rxCount, bbFormatHist } } := by
      simp [step, captureCsiInfo, acquireCapture, hcount, hraw, h, deliverAcquired]
    simp [Silent, hstep]
  | some cb =>
    have hout : (step board n (.capture info now)).out = n.out ++ [.rawCallback cb] := by
      simp [step, captureCsiInfo, acquireCapture, hcount, hraw, deliverAcquired]
    simp [Silent, hout]

/-- After a run, and until a consumer is installed, captured and emitted frames go nowhere exactly
when no raw callback was ever registered: the end of a run leaves it in place, ahead of the gate
that it closes. -/
theorem late_frames_silent_iff (board : Board) (evs : List Event) (h : Stopped evs) :
    (∀ e, e.measures = true → (run (step board) .boot evs).Silent board e) ↔
      ∀ cb, Event.setCsiRawCallback cb ∉ evs := by
  have hgates : (run (step board) .boot evs).gates = run Gates.step .boot evs :=
    run_gates board .boot evs
  have hclosed : (run (step board) .boot evs).gates.csiPublishEnabled = false := by
    rw [hgates, (Gates.cached_run evs).publish, h.userPublishIntent]
    rfl
  constructor
  · intro hsilent cb hcb
    have hnone := (Node.silent_capture_iff hclosed board (.quiet .zero 0 0) 0).mp (hsilent _ rfl)
    have hsome := Gates.csiRawCallback_isSome hcb
    rw [← hgates, hnone] at hsome
    cases hsome
  · intro hraw e hmeasures
    have hnone : (run (step board) .boot evs).gates.csiRawCallback = none := by
      rw [hgates]
      exact Gates.csiRawCallback_run evs hraw
    cases e with
    | capture info now => exact (Node.silent_capture_iff hclosed board info now).mpr hnone
    | emit kind frame now => exact Node.silent_emit hclosed board kind frame now
    | _ => simp [Event.measures] at hmeasures

/-- Output is switched on again and the node set to report once a run with a callback has ended. -/
theorem late_frames_silent_iff_reporting :
    Stopped [.setCsiCallback 0, .reset, .setReporting .HOST, .setCsiOutputEnabled true] ∧
      ∀ e, e.measures = true →
        (run (step .esp32) .boot [.setCsiCallback 0, .reset, .setReporting .HOST,
          .setCsiOutputEnabled true]).Silent .esp32 e := by
  have hstopped :
      Stopped [.setCsiCallback 0, .reset, .setReporting .HOST, .setCsiOutputEnabled true] := by
    refine ⟨[.setCsiCallback 0], .reset, [.setReporting .HOST, .setCsiOutputEnabled true], rfl, rfl,
      ?_⟩
    simp [along_cons, Gates.Installs]
  exact ⟨hstopped, (late_frames_silent_iff .esp32 _ hstopped).mpr (by simp)⟩

theorem late_frame_heard : Stopped [.setCsiRawCallback 0, .reset] ∧
    ¬ (run (step .esp32) .boot [.setCsiRawCallback 0, .reset]).Silent .esp32
      (.capture (.quiet .zero 0 0) 0) := by
  refine ⟨⟨[.setCsiRawCallback 0], .reset, [], rfl, rfl, along_nil⟩, fun hsilent => ?_⟩
  have hout := hsilent.1
  revert hout
  decide

end EspCsi.Csi
