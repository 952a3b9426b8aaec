import Mathlib.Data.Finset.Order
import EspCsi.Csi.LossAccounting
import EspCsi.Lib.Pacing
import EspCsi.Setup.Node

/-!
# The emitter

The frame that an emitter sends, the loop that sends it (`run_emitter` after its bring-up), and what
a receiver makes of it. The newer chips inject the frame as it is, the classic ones send it as the
payload of an ESP-NOW frame. The driver numbers the frames; which of them it accepts is its own
matter.
-/

namespace EspCsi.Emitter

open Wire Csi Transition

/-! ## The frame -/

def PROBE_FRAME_LEN : ℕ := 24 + 8

def HDR : ℕ := 24

/-- A non-QoS data frame without DS bits, its sequence control left to the driver. -/
def probeFrame (srcMac dstMac : Mac) : List UInt8 :=
  [0x08, 0x00, 0x00, 0x00] ++ dstMac.bytes ++ srcMac.bytes ++ srcMac.bytes ++ [0x00, 0x00] ++
    (List.range (PROBE_FRAME_LEN - HDR)).map UInt8.ofNat

def buildProbeFrame (srcMac dstMac : Mac) (buf : List UInt8) : ℕ × List UInt8 :=
  if buf.length < PROBE_FRAME_LEN then (0, buf)
  else (PROBE_FRAME_LEN, probeFrame srcMac dstMac ++ buf.drop PROBE_FRAME_LEN)

/-! ## The transports -/

inductive Interface where
  | station
  | accessPoint
deriving DecidableEq

def Interface.mac (station accessPoint : Mac) : Interface → Mac
  | .station => station
  | .accessPoint => accessPoint

inductive Transport where
  | rawInjection
  | espNow
deriving DecidableEq

/-- The classic chips accept raw injection and radiate nothing. -/
def transport : Chip → Transport
  | .esp32C5 | .esp32C6 => .rawInjection
  | .esp32 | .esp32S2 | .esp32S3 | .esp32C3 => .espNow

/-- What the driver is given: a frame, or the payload of one. -/
inductive Handed where
  | rawFrame (interface : Interface) (frame : List UInt8)
  | espNow (interface : Interface) (dst : Mac) (payload : List UInt8)
deriving DecidableEq

/-- What a call of the driver has come to when the loop goes on. Raw injection is never pending. -/
inductive Answer where
  | pending
  | ready (ok : Bool)
deriving DecidableEq

def injectProbeOnce (interface : Interface) (frame : List UInt8) (answer : Answer) :
    Handed × Bool :=
  (.rawFrame interface frame, answer = .ready true)

/-- The send future is polled once: pending means on its way. The peer was registered on the station
interface. -/
def sendOnce (dst : Mac) (payload : List UInt8) (answer : Answer) : Handed × Bool :=
  (.espNow .station dst payload, answer ≠ .ready false)

/-- What the driver itself puts into a frame. -/
structure Stamp where
  seq : UInt16
  retry : Bool
  duration : UInt8 × UInt8
  addr3 : Mac
  vendor : List UInt8

def Stamp.on (d : Stamp) (frame : List UInt8) : List UInt8 :=
  ((((frame.set 1 (if d.retry then 0x08 else 0x00)).set 2 d.duration.1).set 3 d.duration.2).set 22
    (d.seq <<< 4).toUInt8).set 23 ((d.seq <<< 4) >>> 8).toUInt8

/-- A frame on the air. An ESP-NOW payload goes out in a vendor action frame, its transmitter the
interface of the peer. -/
def onAir (station accessPoint : Mac) (d : Stamp) : Handed → List UInt8
  | .rawFrame _ frame => d.on frame
  | .espNow interface dst payload =>
    d.on ([0xD0, 0x00, 0x00, 0x00] ++ dst.bytes ++ (interface.mac station accessPoint).bytes ++
      d.addr3.bytes ++ [0x00, 0x00] ++ (d.vendor ++ payload))

/-! ## The loop -/

def CPU_TEST_MAX_FRAME_LEN : ℕ := 1500

structure EmitterConfig extends Setup.EmitterConfig where
  dstMac : Mac
  useStaIf : Bool

namespace EmitterConfig

def new (channel : UInt8) (phy : Setup.EmitterPhy) : EmitterConfig where
  channel
  phy
  dstMac := .broadcast
  periodUs := 20000
  useStaIf := true

def interface (cfg : EmitterConfig) : Interface :=
  if cfg.useStaIf then .station else .accessPoint

/-- The address that the frame is built with and that the emitter logs. -/
def srcMac (cfg : EmitterConfig) (station accessPoint : Mac) : Mac :=
  cfg.interface.mac station accessPoint

/-- The address that the frames carry as their transmitter's. -/
def sender (cfg : EmitterConfig) (chip : Chip) (station accessPoint : Mac) : Mac :=
  match transport chip with
  | .rawInjection => cfg.srcMac station accessPoint
  | .espNow => station

def sendFrame (cfg : EmitterConfig) (chip : Chip) (frame : List UInt8) (answer : Answer) :
    Handed × Bool :=
  match transport chip with
  | .rawInjection => injectProbeOnce cfg.interface frame answer
  | .espNow => sendOnce cfg.dstMac frame answer

end EmitterConfig

/-- What the crate was built for: a chip, and the CPU-utilization harness or not. -/
structure Build where
  chip : Chip
  cpuTestTx : Bool

structure CpuTest where
  rateHz : UInt32
  payloadB : UInt32
  paused : Bool

/-- One call of the driver, and the period that the loop then waits for. -/
structure Attempt where
  atUs : ℕ
  periodUs : ℕ
  handed : Handed
  accepted : Bool

inductive Phase where
  | running
  | waiting (wakeUs : ℕ)
  | returned
deriving DecidableEq

structure Emission where
  phase : Phase
  nowUs : ℕ
  buf : List UInt8
  len : ℕ
  signal : Bool := false
  txCount : UInt64 := 0
  reportedFailure : Bool := false
  reports : ℕ := 0
  attempts : List Attempt := []

/-- A poll comes some time after the last one, and finds what the harness has set, if it is built
in, and what the driver answers if it is called. -/
inductive Event where
  | sendStop
  | poll (elapsedUs : ℕ) (test : CpuTest) (answer : Answer)

def Event.isPoll : Event → Bool
  | .sendStop => false
  | .poll .. => true

namespace Emission

def start (build : Build) (cfg : EmitterConfig) (srcMac : Mac) (nowUs : ℕ) : Emission :=
  let frame :=
    List.replicate (if build.cpuTestTx then CPU_TEST_MAX_FRAME_LEN else PROBE_FRAME_LEN) 0
  let (len, buf) := buildProbeFrame srcMac cfg.dstMac frame
  { phase := .running, nowUs, buf, len }

def params (build : Build) (cfg : EmitterConfig) (len : ℕ) (test : CpuTest) : ℕ × ℕ × Bool :=
  if build.cpuTestTx then
    let rate := max test.rateHz.toNat 1
    (1000000 / rate, max len (min test.payloadB.toNat CPU_TEST_MAX_FRAME_LEN), test.paused)
  else (cfg.periodUs.toNat, len, false)

def send (build : Build) (cfg : EmitterConfig) (s : Emission) (periodUs len : ℕ)
    (answer : Answer) : Emission :=
  let (handed, sent) := cfg.sendFrame build.chip (s.buf.take len) answer
  let attempts := s.attempts ++ [⟨s.nowUs, periodUs, handed, sent⟩]
  if sent then { s with attempts, txCount := s.txCount + 1 }
  else if s.reportedFailure then { s with attempts }
  else { s with attempts, reportedFailure := true, reports := s.reports + 1 }

def pass (build : Build) (cfg : EmitterConfig) (s : Emission) (test : CpuTest) (answer : Answer) :
    Emission :=
  let (periodUs, len, paused) := params build cfg s.len test
  let s := if paused then s else s.send build cfg periodUs len answer
  { s with phase := if s.signal then .returned else .waiting (s.nowUs + periodUs) }

def step (build : Build) (cfg : EmitterConfig) (s : Emission) : Event → Emission
  | .sendStop => { s with signal := true }
  | .poll elapsedUs test answer =>
    let s := { s with nowUs := s.nowUs + elapsedUs }
    match s.phase with
    | .running => s.pass build cfg test answer
    | .waiting wakeUs =>
      if s.signal then { s with phase := .returned }
      else if wakeUs ≤ s.nowUs then s.pass build cfg test answer
      else s
    | .returned => s

end Emission

def runEmitter (build : Build) (cfg : EmitterConfig) (station accessPoint : Mac) (startUs : ℕ)
    (es : List Event) : Emission :=
  run (Emission.step build cfg) (.start build cfg (cfg.srcMac station accessPoint) startUs) es

/-! ## What the frame carries -/

theorem length_probeFrame (srcMac dstMac : Mac) :
    (probeFrame srcMac dstMac).length = PROBE_FRAME_LEN := by
  simp [probeFrame, Mac.bytes, PROBE_FRAME_LEN, HDR]

theorem u16OfLeBytes_bytes (x : UInt16) :
    HeaderDigest.u16OfLeBytes x.toUInt8 (x >>> 8).toUInt8 = x := by
  have hx := x.toNat_lt
  have hlow : x.toNat % 256 < 2 ^ 8 := Nat.mod_lt _ (by decide)
  have hshift : (x.toNat / 256) <<< 8 = 256 * (x.toNat / 256) := by
    rw [Nat.shiftLeft_eq, Nat.mul_comm]
  have hhigh : (x >>> 8).toUInt8.toNat = x.toNat / 256 := by
    rw [UInt16.toNat_toUInt8, UInt16.toNat_shiftRight]
    change x.toNat >>> 8 % 256 = x.toNat / 256
    rw [Nat.shiftRight_eq_div_pow]
    omega
  apply UInt16.toNat_inj.mp
  rw [HeaderDigest.u16OfLeBytes, UInt16.toNat_or, UInt8.toNat_toUInt16, UInt16.toNat_toUInt8,
    UInt16.toNat_shiftLeft, UInt8.toNat_toUInt16, hhigh]
  change x.toNat % 256 ||| (x.toNat / 256) <<< 8 % 65536 = x.toNat
  have hfits : (x.toNat / 256) <<< 8 % 65536 = (x.toNat / 256) <<< 8 :=
    Nat.mod_eq_of_lt (by rw [hshift]; omega)
  rw [hfits, Nat.or_comm, ← Nat.shiftLeft_add_eq_or_of_lt hlow, hshift]
  omega

def Carried (frameControl : UInt8) : Prop := frameControl = 0x08 ∨ frameControl = 0xD0

variable {frameControl : UInt8}

theorem on_eq (d : Stamp) (frameControl : UInt8) (addr1 addr2 addr3 : Mac) (rest : List UInt8) :
    d.on ([frameControl, 0x00, 0x00, 0x00] ++ addr1.bytes ++ addr2.bytes ++ addr3.bytes ++
        [0x00, 0x00] ++ rest) =
      [frameControl, if d.retry then 0x08 else 0x00, d.duration.1, d.duration.2] ++ addr1.bytes ++
        addr2.bytes ++ addr3.bytes ++ [(d.seq <<< 4).toUInt8, ((d.seq <<< 4) >>> 8).toUInt8] ++
        rest := by
  simp [Stamp.on, Mac.bytes]

theorem parse_on (h : Carried frameControl) (d : Stamp) (addr1 addr2 addr3 : Mac)
    (rest : List UInt8) :
    HeaderDigest.parse (d.on ([frameControl, 0x00, 0x00, 0x00] ++ addr1.bytes ++ addr2.bytes ++
        addr3.bytes ++ [0x00, 0x00] ++ rest)) =
      some
        { frameControl :=
            HeaderDigest.u16OfLeBytes frameControl (if d.retry then 0x08 else 0x00)
          addr1, addr2, addr3
          seqCtrl := d.seq <<< 4 } := by
  have htransmitter (digest : HeaderDigest)
      (hdigest : digest.frameControl =
        HeaderDigest.u16OfLeBytes frameControl (if d.retry then 0x08 else 0x00)) :
      digest.hasTransmitter = true := by
    rw [HeaderDigest.hasTransmitter, HeaderDigest.frameType, hdigest]
    rcases h with rfl | rfl <;> cases d.retry <;> rfl
  have hseq := u16OfLeBytes_bytes (d.seq <<< 4)
  rw [on_eq]
  unfold HeaderDigest.parse
  rw [if_neg (by simp [Mac.bytes, HeaderDigest.HEADER_LEN])]
  simp only [Mac.bytes, HeaderDigest.macAt, List.cons_append, List.nil_append, List.getD_cons_succ,
    List.getD_cons_zero, hseq]
  exact if_pos (htransmitter _ rfl)

/-- What the radio of a receiver reports as the transmitter. -/
def reportedMac (frame : List UInt8) : Mac := HeaderDigest.macAt frame 10

theorem reportedMac_on (d : Stamp) (frameControl : UInt8) (addr1 addr2 addr3 : Mac)
    (rest : List UInt8) :
    reportedMac (d.on ([frameControl, 0x00, 0x00, 0x00] ++ addr1.bytes ++ addr2.bytes ++
      addr3.bytes ++ [0x00, 0x00] ++ rest)) = addr2 := by
  rw [on_eq]
  simp [reportedMac, HeaderDigest.macAt, Mac.bytes]

theorem isRetry_u16OfLeBytes (h : Carried frameControl) (retry : Bool) (digest : HeaderDigest)
    (hdigest : digest.frameControl =
      HeaderDigest.u16OfLeBytes frameControl (if retry then 0x08 else 0x00)) :
    digest.isRetry = retry := by
  rw [HeaderDigest.isRetry, hdigest]
  rcases h with rfl | rfl <;> cases retry <;> decide

theorem digest_onAir (cfg : EmitterConfig) (chip : Chip) (station accessPoint : Mac)
    (rest : List UInt8) (answer : Answer) (d : Stamp) :
    let frame := onAir station accessPoint d (cfg.sendFrame chip
      (probeFrame (cfg.srcMac station accessPoint) cfg.dstMac ++ rest) answer).1
    reportedMac frame = cfg.sender chip station accessPoint ∧
      ∃ digest, HeaderDigest.parse frame = some digest ∧
        digest.addr2 = cfg.sender chip station accessPoint ∧ digest.isRetry = d.retry := by
  rw [EmitterConfig.sendFrame, EmitterConfig.sender]
  cases transport chip with
  | rawInjection =>
    have hdata : Carried 0x08 := .inl rfl
    simp only [injectProbeOnce, onAir, probeFrame, List.append_assoc _ _ rest]
    exact ⟨reportedMac_on .., _, parse_on hdata .., rfl, isRetry_u16OfLeBytes hdata _ _ rfl⟩
  | espNow =>
    have haction : Carried 0xD0 := .inr rfl
    simp only [sendOnce, onAir]
    exact ⟨reportedMac_on .., _, parse_on haction .., rfl, isRetry_u16OfLeBytes haction _ _ rfl⟩

theorem parse_take {n : ℕ} (hn : HeaderDigest.HEADER_LEN ≤ n) (hdr : List UInt8) :
    HeaderDigest.parse (hdr.take n) = HeaderDigest.parse hdr := by
  have hget (i : ℕ) (hi : i < HeaderDigest.HEADER_LEN) : (hdr.take n).getD i 0 = hdr.getD i 0 := by
    rw [List.getD_eq_getElem?_getD, List.getD_eq_getElem?_getD,
      List.getElem?_take_of_lt (hi.trans_le hn)]
  have hshort : (hdr.take n).length < HeaderDigest.HEADER_LEN ↔
      hdr.length < HeaderDigest.HEADER_LEN := by
    rw [List.length_take]
    omega
  unfold HeaderDigest.parse HeaderDigest.macAt
  simp only [HeaderDigest.HEADER_LEN] at hget hshort ⊢
  simp only [hget, hshort, Nat.reduceAdd, Nat.reduceLT]

theorem attributed_of_parse {frame : List UInt8} {digest : HeaderDigest}
    (hparse : HeaderDigest.parse frame = some digest) (hsame : digest.addr2 = reportedMac frame)
    {info : WifiCsiInfo} {n : ℕ} (hn : HeaderDigest.HEADER_LEN ≤ n)
    (hheader : info.header = frame.take n) (hmac : info.mac = reportedMac frame) (s : Session) :
    s.attributed info = reportedMac frame ∧
      s.retryOf info = if s.headerDigest then some digest.isRetry else none := by
  rw [← parse_take hn, ← hheader] at hparse
  rw [Session.attributed, Session.retryOf, Session.digestOf]
  cases s.headerDigest with
  | false => exact ⟨hmac, rfl⟩
  | true =>
    rw [if_pos rfl, hparse]
    exact ⟨hsame, rfl⟩

/-! ## Whole runs -/

def maxPadding (build : Build) : ℕ :=
  if build.cpuTestTx then CPU_TEST_MAX_FRAME_LEN - PROBE_FRAME_LEN else 0

/-- What an emitter has sent: its own frame, padded, by the transport of its chip; each one at least
the period of the one before after it; every accepted one counted, and a rejection reported once. -/
structure Sounds (build : Build) (cfg : EmitterConfig) (srcMac : Mac) (s : Emission) : Prop where
  frames : ∀ a ∈ s.attempts, ∃ padding ≤ maxPadding build, ∃ answer, (a.handed, a.accepted) =
    cfg.sendFrame build.chip (probeFrame srcMac cfg.dstMac ++ List.replicate padding 0) answer
  spaced : s.attempts.Pairwise fun a b => a.atUs + a.periodUs ≤ b.atUs
  period : build.cpuTestTx = false → ∀ a ∈ s.attempts, a.periodUs = cfg.periodUs.toNat
  counted : s.txCount = UInt64.ofNat (s.attempts.countP Attempt.accepted)
  reported : s.reports = if s.attempts.all Attempt.accepted then 0 else 1

namespace Emission

variable {build : Build} {cfg : EmitterConfig} {srcMac : Mac} {s : Emission}

structure Kept (build : Build) (cfg : EmitterConfig) (srcMac : Mac) (s : Emission) : Prop where
  sounds : Sounds build cfg srcMac s
  buf : s.buf = probeFrame srcMac cfg.dstMac ++ List.replicate (maxPadding build) 0
  len : s.len = PROBE_FRAME_LEN
  reportedFailure : s.reportedFailure = !s.attempts.all Attempt.accepted

def Free (s : Emission) (t : ℕ) : Prop := ∀ a ∈ s.attempts, a.atUs + a.periodUs ≤ t

structure Inv (build : Build) (cfg : EmitterConfig) (srcMac : Mac) (s : Emission) : Prop where
  kept : Kept build cfg srcMac s
  running : s.phase = .running → s.Free s.nowUs
  waiting : ∀ wakeUs, s.phase = .waiting wakeUs → s.Free wakeUs

theorem Kept.wait (h : Kept build cfg srcMac s) (nowUs : ℕ) (phase : Phase) (signal : Bool) :
    Kept build cfg srcMac { s with nowUs, phase, signal } where
  sounds := ⟨h.sounds.frames, h.sounds.spaced, h.sounds.period, h.sounds.counted, h.sounds.reported⟩
  buf := h.buf
  len := h.len
  reportedFailure := h.reportedFailure

theorem Free.mono {t t' : ℕ} (h : s.Free t) (hle : t ≤ t') : s.Free t' :=
  fun a ha => (h a ha).trans hle

theorem inv_start (build : Build) (cfg : EmitterConfig) (srcMac : Mac) (nowUs : ℕ) :
    Inv build cfg srcMac (start build cfg srcMac nowUs) := by
  have hroom : ¬ (List.replicate
      (if build.cpuTestTx then CPU_TEST_MAX_FRAME_LEN else PROBE_FRAME_LEN)
      (0 : UInt8)).length < PROBE_FRAME_LEN := by
    rw [List.length_replicate]
    cases build.cpuTestTx <;> decide
  have hstart : start build cfg srcMac nowUs =
      { phase := .running, nowUs, len := PROBE_FRAME_LEN
        buf := probeFrame srcMac cfg.dstMac ++ List.replicate (maxPadding build) 0 } := by
    rw [start, buildProbeFrame, if_neg hroom, List.drop_replicate, maxPadding]
    cases build.cpuTestTx <;> rfl
  rw [hstart]
  exact ⟨⟨⟨by simp, .nil, by simp, rfl, rfl⟩, rfl, rfl, rfl⟩, by simp [Free], by simp⟩

theorem params_len (build : Build) (cfg : EmitterConfig) (test : CpuTest) :
    ∃ padding ≤ maxPadding build,
      (params build cfg PROBE_FRAME_LEN test).2.1 = PROBE_FRAME_LEN + padding := by
  unfold maxPadding params
  cases build.cpuTestTx with
  | false => exact ⟨0, le_rfl, rfl⟩
  | true =>
    refine ⟨max PROBE_FRAME_LEN (min test.payloadB.toNat CPU_TEST_MAX_FRAME_LEN) - PROBE_FRAME_LEN,
      ?_, ?_⟩
    · simp only [if_true, CPU_TEST_MAX_FRAME_LEN, PROBE_FRAME_LEN]
      omega
    · simp only [if_true]
      omega

theorem send_eq (build : Build) (cfg : EmitterConfig) (s : Emission) (periodUs len : ℕ)
    (answer : Answer) :
    let sent := cfg.sendFrame build.chip (s.buf.take len) answer
    s.send build cfg periodUs len answer =
      { s with
        attempts := s.attempts ++ [⟨s.nowUs, periodUs, sent.1, sent.2⟩]
        txCount := s.txCount + if sent.2 then 1 else 0
        reportedFailure := s.reportedFailure || !sent.2
        reports := s.reports + if sent.2 || s.reportedFailure then 0 else 1 } := by
  unfold send
  obtain ⟨handed, sent⟩ := cfg.sendFrame build.chip (s.buf.take len) answer
  cases sent <;> cases hfailure : s.reportedFailure <;> simp

theorem Kept.send (h : Kept build cfg srcMac s) (hfree : s.Free s.nowUs) {periodUs padding : ℕ}
    (hperiod : build.cpuTestTx = false → periodUs = cfg.periodUs.toNat)
    (hpadding : padding ≤ maxPadding build) (answer : Answer) :
    Kept build cfg srcMac (s.send build cfg periodUs (PROBE_FRAME_LEN + padding) answer) ∧
      (s.send build cfg periodUs (PROBE_FRAME_LEN + padding) answer).Free
        (s.nowUs + periodUs) := by
  have hframe : s.buf.take (PROBE_FRAME_LEN + padding) =
      probeFrame srcMac cfg.dstMac ++ List.replicate padding 0 := by
    rw [h.buf, ← length_probeFrame srcMac cfg.dstMac, List.take_length_add_append,
      List.take_replicate, min_eq_left hpadding]
  rw [send_eq, hframe]
  rcases hsent : cfg.sendFrame build.chip
    (probeFrame srcMac cfg.dstMac ++ List.replicate padding 0) answer with ⟨handed, sent⟩
  have hcounted := h.sounds.counted
  have hreported := h.sounds.reported
  have hfailure := h.reportedFailure
  -- frames, spacing, period, count and report, and then the buffer and the failure flag
  refine ⟨⟨⟨fun a ha => ?_, ?_, fun hplain a ha => ?_, ?_, ?_⟩, h.buf, h.len, ?_⟩, fun a ha => ?_⟩
  · rcases List.mem_append.mp ha with ha | ha
    · exact h.sounds.frames a ha
    · rw [List.mem_singleton.mp ha]
      exact ⟨padding, hpadding, answer, hsent.symm⟩
  · refine List.pairwise_append.mpr ⟨h.sounds.spaced, List.pairwise_singleton _ _, ?_⟩
    intro a ha b hb
    rw [List.mem_singleton.mp hb]
    exact hfree a ha
  · rcases List.mem_append.mp ha with ha | ha
    · exact h.sounds.period hplain a ha
    · rw [List.mem_singleton.mp ha]
      exact hperiod hplain
  · rw [List.countP_append, UInt64.ofNat_add, ← hcounted]
    cases sent <;> simp
  · cases sent with
    | true => simpa using hreported
    | false =>
      -- a rejection is reported when it is the first one
      rw [hreported, hfailure]
      cases hall : s.attempts.all Attempt.accepted <;> simp [hall]
  · cases sent <;> simp [hfailure]
  · rcases List.mem_append.mp ha with ha | ha
    · exact (hfree a ha).trans (Nat.le_add_right _ _)
    · rw [List.mem_singleton.mp ha]

theorem Kept.pass (h : Kept build cfg srcMac s) (hfree : s.Free s.nowUs) (test : CpuTest)
    (answer : Answer) : Inv build cfg srcMac (s.pass build cfg test answer) := by
  obtain ⟨padding, hpadding, hlen⟩ := params_len build cfg test
  have hparams : params build cfg s.len test = ((params build cfg s.len test).1,
      PROBE_FRAME_LEN + padding, (params build cfg s.len test).2.2) := by
    rw [← hlen, h.len]
  have hperiod : build.cpuTestTx = false →
      (params build cfg s.len test).1 = cfg.periodUs.toNat := by
    intro hplain
    simp [params, hplain]
  unfold Emission.pass
  rw [hparams]
  generalize (params build cfg s.len test).1 = periodUs at hperiod
  dsimp only
  split_ifs with hpaused hsignal
  · exact ⟨h.wait s.nowUs .returned s.signal, by simp, by simp⟩
  · -- a silent pass moves the next one on
    refine ⟨h.wait s.nowUs _ s.signal, by simp, fun wakeUs hwake => ?_⟩
    cases hwake
    exact hfree.mono (Nat.le_add_right _ _)
  all_goals
    obtain ⟨hkept, hnext⟩ := h.send hfree hperiod hpadding answer
    have hnow : (s.send build cfg periodUs (PROBE_FRAME_LEN + padding) answer).nowUs =
        s.nowUs := by
      rw [send_eq]
  · exact ⟨hkept.wait _ .returned _, by simp, by simp⟩
  · refine ⟨hkept.wait _ _ _, by simp, fun wakeUs hwake => ?_⟩
    cases hwake
    rw [hnow]
    exact hnext

theorem inv_step (h : Inv build cfg srcMac s) (e : Event) :
    Inv build cfg srcMac (s.step build cfg e) := by
  cases e with
  | sendStop => exact ⟨h.kept.wait s.nowUs s.phase true, h.running, h.waiting⟩
  | poll elapsedUs test answer =>
    have hkept (phase : Phase) := h.kept.wait (s.nowUs + elapsedUs) phase s.signal
    cases hphase : s.phase with
    | running =>
      simp only [step, hphase]
      exact (hkept .running).pass ((h.running hphase).mono (Nat.le_add_right _ _)) test answer
    | waiting wakeUs =>
      simp only [step, hphase]
      split_ifs with hsignal hwake
      · exact ⟨hkept .returned, by simp, by simp⟩
      · exact (hkept (.waiting wakeUs)).pass ((h.waiting wakeUs hphase).mono hwake) test answer
      · refine ⟨hkept (.waiting wakeUs), by simp, fun wakeUs' hsame => ?_⟩
        cases hsame
        exact h.waiting wakeUs hphase
    | returned =>
      simp only [step, hphase]
      exact ⟨hkept .returned, by simp, by simp⟩

theorem inv_run (build : Build) (cfg : EmitterConfig) (srcMac : Mac) (startUs : ℕ)
    (es : List Event) : Inv build cfg srcMac
      (run (step build cfg) (start build cfg srcMac startUs) es) :=
  (always_of_step (inv_start build cfg srcMac startUs) fun _ e h => inv_step h e).last

/-! ### The stop -/

theorem returned_run (build : Build) (cfg : EmitterConfig) (h : s.phase = .returned)
    (es : List Event) : (run (step build cfg) s es).phase = .returned ∧
      (run (step build cfg) s es).attempts = s.attempts := by
  induction es generalizing s with
  | nil => exact ⟨h, rfl⟩
  | cons e es ih =>
    have hstep : (s.step build cfg e).phase = .returned ∧
        (s.step build cfg e).attempts = s.attempts := by
      cases e with
      | sendStop => exact ⟨h, rfl⟩
      | poll elapsedUs test answer => simp [step, h]
    obtain ⟨hphase, hattempts⟩ := ih hstep.1
    exact ⟨hphase, hattempts.trans hstep.2⟩

theorem poll_of_signal (build : Build) (cfg : EmitterConfig) (h : s.signal = true) (elapsedUs : ℕ)
    (test : CpuTest) (answer : Answer) :
    (s.step build cfg (.poll elapsedUs test answer)).phase = .returned ∧
      ∃ more, (s.step build cfg (.poll elapsedUs test answer)).attempts = s.attempts ++ more ∧
        more.length ≤ if s.phase = .running then 1 else 0 := by
  cases hphase : s.phase with
  | running =>
    by_cases hpaused : (params build cfg s.len test).2.2 = true
    · simp only [step, hphase, pass, hpaused, h, if_true]
      exact ⟨trivial, [], by simp⟩
    · simp only [step, hphase, pass, hpaused, send_eq, h, Bool.false_eq_true, if_false, if_true]
      exact ⟨trivial, [_], rfl, le_rfl⟩
  | waiting wakeUs =>
    simp only [step, hphase, h, if_true]
    exact ⟨trivial, [], by simp⟩
  | returned =>
    simp only [step, hphase]
    exact ⟨trivial, [], by simp⟩

theorem run_of_signal (build : Build) (cfg : EmitterConfig) (h : s.signal = true)
    (es : List Event) :
    (∃ more, (run (step build cfg) s es).attempts = s.attempts ++ more ∧
      more.length ≤ if s.phase = .running then 1 else 0) ∧
    (es.any Event.isPoll = true → (run (step build cfg) s es).phase = .returned) := by
  induction es with
  | nil => exact ⟨⟨[], by simp⟩, by simp⟩
  | cons e es ih =>
    cases e with
    | sendStop =>
      have hsame : s.step build cfg .sendStop = s := by
        rw [step, ← h]
      rw [run_cons, hsame]
      exact ih
    | poll elapsedUs test answer =>
      obtain ⟨hreturned, more, hmore, hlength⟩ := poll_of_signal build cfg h elapsedUs test answer
      obtain ⟨hphase, hattempts⟩ := returned_run build cfg hreturned es
      exact ⟨⟨more, hattempts.trans hmore, hlength⟩, fun _ => hphase⟩

end Emission

def Emission.slots (s : Emission) : List Pacing.Slot := s.attempts.map fun a => ⟨a.atUs, a.atUs⟩

/-- Without the harness, an emitter keeps to its rate in every window. -/
theorem Sounds.rateBounded {build : Build} {cfg : EmitterConfig} {srcMac : Mac} {s : Emission}
    (h : Sounds build cfg srcMac s) (hplain : build.cpuTestTx = false)
    (hperiod : 0 < cfg.periodUs.toNat) :
    Pacing.RateBounded cfg.periodUs.toNat 2 s.slots := by
  have hend : ∃ t, ∀ x ∈ s.slots, x.due + cfg.periodUs.toNat ≤ t := by
    obtain ⟨t, ht⟩ := (s.slots.map fun x => x.due + cfg.periodUs.toNat).toFinset.exists_le
    exact ⟨t, fun x hx => ht _ (List.mem_toFinset.mpr (List.mem_map_of_mem hx))⟩
  obtain ⟨next, hnext⟩ := hend
  have hpaced : Pacing.Paced cfg.periodUs.toNat next s.slots := by
    refine ⟨?_, ?_, hnext⟩
    · rw [Emission.slots, List.pairwise_map]
      refine h.spaced.imp_of_mem fun {a b} ha _ hab => ?_
      rwa [h.period hplain a ha] at hab
    · intro x hx
      obtain ⟨a, -, rfl⟩ := List.mem_map.mp hx
      exact le_rfl
  have hlate : ∀ x ∈ s.slots, x.at_ ≤ x.due + 0 := by
    intro x hx
    obtain ⟨a, -, rfl⟩ := List.mem_map.mp hx
    exact le_rfl
  simpa using Pacing.rateBounded_of_late hperiod hpaced hlate

/-- The address the emitter logs is the one its frames carry, but on a classic chip that was told to
use the access point's. -/
theorem EmitterConfig.sender_eq_srcMac_iff (cfg : EmitterConfig) (chip : Chip)
    (station accessPoint : Mac) :
    cfg.sender chip station accessPoint = cfg.srcMac station accessPoint ↔
      transport chip = .rawInjection ∨ cfg.useStaIf = true ∨ station = accessPoint := by
  rw [sender, srcMac, interface]
  cases transport chip <;> cases cfg.useStaIf <;> simp [Interface.mac]

/-- Whatever the driver answers, whenever the loop is polled and whatever the harness sets: the
frames, their order in time and their counts are as they should be, without the harness at the rate
of the configuration. A stop lets no frame through but a first one, and the next poll ends the loop.
A receiver of any of the frames, as the driver stamps it, takes it for its sender's. -/
theorem emission_run (build : Build) (cfg : EmitterConfig) (station accessPoint : Mac)
    (startUs : ℕ) (es es' : List Event) :
    Sounds build cfg (cfg.srcMac station accessPoint)
      (runEmitter build cfg station accessPoint startUs es) ∧
    (build.cpuTestTx = false → 0 < cfg.periodUs.toNat → Pacing.RateBounded cfg.periodUs.toNat 2
      (runEmitter build cfg station accessPoint startUs es).slots) ∧
    (∃ more,
      (runEmitter build cfg station accessPoint startUs (es ++ .sendStop :: es')).attempts =
        (runEmitter build cfg station accessPoint startUs es).attempts ++ more ∧
      more.length ≤
        if (runEmitter build cfg station accessPoint startUs es).phase = .running then 1 else 0) ∧
    (es'.any Event.isPoll = true →
      (runEmitter build cfg station accessPoint startUs (es ++ .sendStop :: es')).phase =
        .returned) ∧
    (∀ a ∈ (runEmitter build cfg station accessPoint startUs es).attempts,
      ∀ (d : Stamp) (n : ℕ) (info : WifiCsiInfo) (s : Session),
        HeaderDigest.HEADER_LEN ≤ n →
        info.header = (onAir station accessPoint d a.handed).take n →
        info.mac = reportedMac (onAir station accessPoint d a.handed) →
          s.attributed info = cfg.sender build.chip station accessPoint ∧
            s.retryOf info = if s.headerDigest then some d.retry else none) ∧
    (cfg.sender build.chip station accessPoint = cfg.srcMac station accessPoint ↔
      transport build.chip = .rawInjection ∨ cfg.useStaIf = true ∨ station = accessPoint) := by
  have hinv := Emission.inv_run build cfg (cfg.srcMac station accessPoint) startUs es
  have hstop := Emission.run_of_signal build cfg
    (s := { runEmitter build cfg station accessPoint startUs es with signal := true }) rfl es'
  have hrun : runEmitter build cfg station accessPoint startUs (es ++ .sendStop :: es') =
      run (Emission.step build cfg)
        { runEmitter build cfg station accessPoint startUs es with signal := true } es' := by
    rw [runEmitter, run_append]
    rfl
  refine ⟨hinv.kept.sounds, hinv.kept.sounds.rateBounded, ?_, ?_, fun a ha => ?_,
    cfg.sender_eq_srcMac_iff build.chip station accessPoint⟩
  · rw [hrun]
    exact hstop.1
  · rw [hrun]
    exact hstop.2
  · intro d n info s hn hheader hmac
    obtain ⟨padding, -, answer, hsent⟩ := hinv.kept.sounds.frames a ha
    obtain ⟨hreported, digest, hparse, haddr, hretry⟩ := digest_onAir cfg build.chip station
      accessPoint (List.replicate padding 0) answer d
    rw [← congrArg Prod.fst hsent] at hreported hparse
    have hattributed := attributed_of_parse hparse (haddr.trans hreported.symm) hn hheader hmac s
    rwa [hreported, hretry] at hattributed

/-- Three frames of an ESP32-S3 told to use its access point's interface, the second rejected. -/
def classicRun (es : List Event) : Emission :=
  runEmitter ⟨.esp32S3, false⟩ { EmitterConfig.new 6 .ht20 with useStaIf := false } .zero
    .broadcast 0 ([.poll 5 ⟨0, 0, false⟩ .pending, .poll 20000 ⟨0, 0, false⟩ (.ready false),
      .poll 20000 ⟨0, 0, false⟩ (.ready true)] ++ es)

/-- They leave from the station's interface, not from the one that was asked for. -/
theorem emission_run_classic :
    Pacing.RateBounded 20000 2 (classicRun []).slots ∧ (classicRun []).txCount = 2 ∧
    (classicRun []).reports = 1 ∧
    (classicRun [.sendStop, .poll 1 ⟨0, 0, false⟩ .pending]).phase = .returned ∧
    ∀ a ∈ (classicRun []).attempts, ∀ (d : Stamp) (s : Session),
      let frame := onAir .zero .broadcast d a.handed
      s.attributed
        { WifiCsiInfo.quiet (reportedMac frame) 0 0 with header := frame.take 24 } = .zero := by
  obtain ⟨-, hrate, -, hstop, hreceived, -⟩ := emission_run ⟨.esp32S3, false⟩
    { EmitterConfig.new 6 .ht20 with useStaIf := false } .zero .broadcast 0
    [.poll 5 ⟨0, 0, false⟩ .pending, .poll 20000 ⟨0, 0, false⟩ (.ready false),
      .poll 20000 ⟨0, 0, false⟩ (.ready true)] [.poll 1 ⟨0, 0, false⟩ .pending]
  refine ⟨hrate rfl (by decide), by decide +kernel, by decide +kernel, hstop rfl,
    fun a ha d s => ?_⟩
  exact (hreceived a ha d 24 _ s le_rfl rfl rfl).1

end EspCsi.Emitter
