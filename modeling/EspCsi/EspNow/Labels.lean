import EspCsi.EspNow.Reach

/-!
# Instance labels

When the initiator's measurement of a reply carries the number of the control frame that the reply
answers. The initiator labels from one cell, overwritten at each send, while the reply may be
measured much later.
-/

namespace EspCsi.Csi

open Wire Transition

/-! ## The label of a capture -/

namespace Node

theorem packetOf_stimulus {board : Board} {n : Node} {info : WifiCsiInfo} {now : UInt64}
    {p : CsiPacket} {session : Session} (h : n.packetOf board info now = some (p, session)) :
    p.frame.stimulus = n.session.stimulus info.mac (instanceIn n.session info) ∧
      session.soundingInstance = n.session.soundingInstance ∧
      session.stimulusControlled = n.session.stimulusControlled := by
  obtain ⟨frame, s, score, streamSeq, anchorPending, hframe, hreport, rfl⟩ := packetOf_eq_some h
  obtain ⟨-, hstimulus, rfl⟩ := frameFromEsp_eq_some hframe
  obtain ⟨tsLastRaw, tsWraps, hwiden⟩ := n.session.widenTimestamp_snd info.timestampUs.toUInt32
  rw [hreport, reportedAs_stimulus, hstimulus, hwiden]
  exact ⟨rfl, rfl, rfl⟩

end Node

theorem step_capture_stimulus (board : Board) (n : Node) (info : WifiCsiInfo) (now : UInt64) :
    (∀ p, n.delivered board (.capture info now) = some p →
        p.frame.stimulus = n.session.stimulus info.mac (instanceIn n.session info)) ∧
      (step board n (.capture info now)).session.soundingInstance = n.session.soundingInstance ∧
      (step board n (.capture info now)).session.stimulusControlled =
        n.session.stimulusControlled := by
  by_cases h : n.Delivers board info now
  · obtain ⟨p, session, rxCount, bbFormatHist, policy, hp, heq⟩ := Node.acquireCapture_of_delivers h
    obtain ⟨hstimulus, hsounding, hcontrolled⟩ := Node.packetOf_stimulus hp
    refine ⟨fun q hq => ?_, ?_⟩
    · obtain rfl : p = q := by simpa [Node.delivered, acquire, heq] using hq
      exact hstimulus
    · simpa [step, Node.captureCsiInfo, heq, Node.deliverAcquired] using ⟨hsounding, hcontrolled⟩
  · obtain ⟨stats, policy, out, heq, -⟩ := Node.acquireCapture_of_not_delivers h
    refine ⟨fun q hq => ?_, ?_⟩
    · simp [Node.delivered, acquire, heq] at hq
    · simp [step, Node.captureCsiInfo, heq, Node.deliverAcquired]

end EspCsi.Csi

namespace EspCsi.EspNow

open Wire Transition

def instanceId : Stimulus → Option UInt16
  | .controlled _ instanceId _ => some instanceId
  | _ => none

theorem instanceId_stimulus {s : Csi.Session} (hcontrolled : s.stimulusControlled = true)
    (info : Csi.WifiCsiInfo) :
    instanceId (s.stimulus info.mac (Csi.instanceIn s info)) =
      some ((controlSequenceIn info.payload).getD s.soundingInstance).toUInt16 := by
  rw [Csi.instanceIn, if_pos hcontrolled, Csi.Session.stimulus, if_pos hcontrolled]
  rfl

/-- A captured control frame is labelled by its own number, whatever the session's cell holds. -/
theorem instanceId_of_control {s : Csi.Session} {info : Csi.WifiCsiInfo} {head pad : List UInt8}
    {packet : ControlPacket} (hcontrolled : s.stimulusControlled = true)
    (hhead : afterMagic head = none)
    (hpayload : info.payload =
      head ++ (tagged controlPacketCodec packet INITIATOR_MAGIC_NUMBER true ++ pad)) :
    instanceId (s.stimulus info.mac (Csi.instanceIn s info)) =
      some packet.sequenceNumber.toUInt16 := by
  rw [instanceId_stimulus hcontrolled, hpayload, controlSequenceIn_append hhead]
  rfl

/-! ## Numbers on the air -/

def controlIn (data : List UInt8) : Option ControlPacket :=
  parseWithMagic controlPacketCodec data INITIATOR_MAGIC_NUMBER true

def replyBytes : List UInt8 := tagged responderPacketCodec ⟨⟩ RESPONDER_MAGIC_NUMBER true

/-- A captured reply carries no number, unless the framing in front of it holds the magic. -/
theorem controlSequenceIn_replyBytes {head : List UInt8} (hhead : afterMagic head = none) :
    controlSequenceIn (head ++ replyBytes) = none := by
  rw [controlSequenceIn, replyBytes, afterMagic_append_reply hhead]
  rfl

theorem controlIn_replyBytes : controlIn (replyBytes.take ESP_NOW_MAX_DATA_LEN) = none := by
  have hlen : replyBytes.length ≤ ESP_NOW_MAX_DATA_LEN := by decide
  have hmagic : RESPONDER_MAGIC_NUMBER ≠ INITIATOR_MAGIC_NUMBER := by decide
  rw [controlIn, List.take_of_length_le hlen, replyBytes]
  simpa using parseWithMagic_other responderPacketCodec controlPacketCodec ⟨⟩ hmagic []

theorem controlIn_tagged (packet : ControlPacket) :
    controlIn ((tagged controlPacketCodec packet INITIATOR_MAGIC_NUMBER true).take
      ESP_NOW_MAX_DATA_LEN) = some packet := by
  have hlen : (tagged controlPacketCodec packet INITIATOR_MAGIC_NUMBER true).length ≤
      ESP_NOW_MAX_DATA_LEN := by
    have hwrite := controlPacketCodec.write_length_le packet
    have hmax : controlPacketCodec.maxSize ≤ 6 := by decide
    rw [tagged, if_pos rfl, List.length_append, leBytes_INITIATOR_MAGIC_NUMBER,
      ESP_NOW_MAX_DATA_LEN]
    simp only [List.length_cons, List.length_nil]
    omega
  rw [controlIn, List.take_of_length_le hlen]
  simpa using parseWithMagic_tagged controlPacketCodec packet INITIATOR_MAGIC_NUMBER true []

def Used (number : UInt32) (nth sounding : ℕ) : Prop :=
  number = UInt32.ofNat nth ∧ nth ≤ sounding

theorem Used.mono {number : UInt32} {nth sounding sounding' : ℕ} (h : Used number nth sounding)
    (hle : sounding ≤ sounding') : Used number nth sounding' :=
  ⟨h.1, h.2.trans hle⟩

def NumbersData (data : List UInt8) (nth sounding : ℕ) : Prop :=
  ∀ packet, controlIn data = some packet → Used packet.sequenceNumber nth sounding

theorem NumbersData.mono {data : List UInt8} {nth sounding sounding' : ℕ}
    (h : NumbersData data nth sounding) (hle : sounding ≤ sounding') :
    NumbersData data nth sounding' :=
  fun packet hpacket => (h packet hpacket).mono hle

namespace Exchange

/-- A responder pairs automatically, and its queue and what it answers are numbered. It owes a reply
for a control packet it has taken in only. -/
structure ResponderNumbered (r : Responder) (sounding : ℕ) : Prop where
  auto : r.config.peerMac = none
  pool : ∀ x ∈ r.pool.queue, NumbersData x.data x.nth sounding
  answering : ∀ a ∈ r.answering, Used a.1 a.2 sounding
  owes : r.shared.pendingFlag = true → r.answering.isSome = true

/-- The numbers on the air, in the queues and in the cell the initiator labels from are places in one
count. -/
structure Numbered (s : Exchange) : Prop where
  auto : s.initiator.peerMac = none
  controlSequence : s.initiator.controlSequence = UInt32.ofNat s.initiator.nth
  soundingInstance :
    s.initiator.node.session.soundingInstance = UInt32.ofNat s.initiator.sounding
  controlled : s.initiator.node.session.stimulusControlled = true
  sounding : s.initiator.sounding ≤ s.initiator.nth
  air : ∀ f ∈ s.air,
    NumbersData (f.data.take ESP_NOW_MAX_DATA_LEN) f.nth s.initiator.sounding
  replies : ∀ f ∈ s.air, f.src ≠ s.initiatorMac →
    f.data = replyBytes ∧ ∃ number ∈ f.answers, Used number f.nth s.initiator.sounding
  responders : ∀ r ∈ s.responders, ResponderNumbered r s.initiator.sounding

theorem numbered_start (mac : Mac) (node : Csi.Node) (cfg : Csi.Node.RunConfig) :
    (start mac node cfg).Numbered where
  auto := rfl
  controlSequence := rfl
  soundingInstance := rfl
  controlled := rfl
  sounding := Nat.le_refl 0
  air := fun _ hf => absurd hf List.not_mem_nil
  replies := fun _ hf => absurd hf List.not_mem_nil
  responders := fun _ hr => absurd hr List.not_mem_nil

theorem ResponderNumbered.mono {r : Responder} {sounding sounding' : ℕ}
    (h : ResponderNumbered r sounding) (hle : sounding ≤ sounding') :
    ResponderNumbered r sounding' :=
  ⟨h.auto, fun x hx => (h.pool x hx).mono hle, fun a ha => (h.answering a ha).mono hle, h.owes⟩

theorem ResponderNumbered.ingestNext {r : Responder} {sounding : ℕ}
    (h : ResponderNumbered r sounding) (registers : Bool) :
    ResponderNumbered (r.ingestNext registers) sounding := by
  have hrest (x : PoolFrame) (hx : x ∈ (r.pool.drain RX_BURST_MAX_WITH_TX).2.queue) :
      NumbersData x.data x.nth sounding :=
    h.pool x (Pool.mem_drain_queue hx)
  rcases r.ingestNext_cases registers with heq | ⟨x, hx, heq⟩
  · rw [heq]
    exact ⟨h.auto, hrest, h.answering, h.owes⟩
  · rw [heq]
    rcases Responder.ingestControlPacket_cases
        { r with pool := (r.pool.drain RX_BURST_MAX_WITH_TX).2 } x true registers with
      ⟨rx, hing⟩ | ⟨packet, node, shared, rx, hparse, hing⟩
    · rw [hing]
      exact ⟨h.auto, hrest, h.answering, h.owes⟩
    · rw [hing]
      refine ⟨h.auto, hrest, fun a ha => ?_, fun _ => rfl⟩
      obtain rfl : (packet.sequenceNumber, x.nth) = a := Option.some_inj.mp ha
      apply h.pool x hx packet
      rwa [h.auto] at hparse

theorem ResponderNumbered.rcvCb {r : Responder} {sounding : ℕ} (h : ResponderNumbered r sounding)
    {f : AirFrame} (hf : NumbersData (f.data.take ESP_NOW_MAX_DATA_LEN) f.nth sounding) :
    ResponderNumbered { r with pool := r.pool.rcvCb (AirFrame.received f) } sounding := by
  refine ⟨h.auto, fun x hx => ?_, h.answering, h.owes⟩
  rcases Pool.mem_rcvCb hx with hold | rfl
  · exact h.pool x hold
  · exact hf

theorem ResponderNumbered.reply {r : Responder} {sounding : ℕ} (h : ResponderNumbered r sounding) :
    ResponderNumbered r.reply.2 sounding := by
  unfold Responder.reply
  split_ifs
  · exact ⟨h.auto, h.pool, h.answering, fun hpending => absurd hpending (by simp)⟩
  · exact h

theorem ResponderNumbered.start (mac : Mac) (chip : Chip) (config : EspNowConfig) (rawListen : Bool)
    (node : Csi.Node) (sounding : ℕ) :
    ResponderNumbered (.start mac chip { config with peerMac := none } rawListen node) sounding :=
  ⟨rfl, fun _ hx => absurd hx List.not_mem_nil, fun _ ha => by simp [Responder.start] at ha,
    fun hpending => by simp [Responder.start] at hpending⟩

theorem ResponderNumbered.replyFrame {r : Responder} {sounding : ℕ}
    (h : ResponderNumbered r sounding) {f : AirFrame} (hf : replyFrame r = some f) :
    f.data = replyBytes ∧ ∃ number ∈ f.answers, Used number f.nth sounding := by
  obtain ⟨out, hout, rfl⟩ := Option.map_eq_some_iff.mp hf
  unfold Responder.reply at hout
  split_ifs at hout with hdue
  obtain ⟨data, hdata, rfl⟩ := Option.map_eq_some_iff.mp hout
  constructor
  · rw [Responder.replyData_eq, h.auto, Option.isNone_none, if_pos rfl] at hdata
    exact (Option.some_inj.mp hdata).symm
  · obtain ⟨a, ha⟩ := Option.isSome_iff_exists.mp (h.owes hdue.2)
    exact ⟨a.1, by simp [ha], by simpa [ha] using h.answering a ha⟩

theorem Numbered.update {s : Exchange} (h : s.Numbered) (mac : Mac) {f : Responder → Responder}
    (hf : ∀ r, ResponderNumbered r s.initiator.sounding →
      ResponderNumbered (f r) s.initiator.sounding) : (s.update mac f).Numbered := by
  refine { h with responders := fun r hr => ?_ }
  obtain ⟨r', hr', rfl⟩ := List.mem_map.mp hr
  split_ifs
  · exact hf r' (h.responders r' hr')
  · exact h.responders r' hr'

def Agrees (s : Exchange) : Prop :=
  ∀ x ∈ s.measured, ∃ number ∈ x.2, instanceId x.1 = some number.toUInt16

/-- The initiator has begun to send a multiple of 65536 frames under new numbers since the control
frame that the reply `f` answers. Where the bytes captured with it hold a control packet, that packet
has the answered number instead. -/
def LabelFits (s : Exchange) (f : AirFrame) (head : List UInt8) : Prop :=
  match controlSequenceIn (head ++ f.data) with
  | none => 2 ^ 16 ∣ s.initiator.sounding - f.nth
  | some number => number.toUInt16 = (UInt32.ofNat f.nth).toUInt16

/-- A reply is measured while its label fits. -/
def InStep (board : Csi.Board) (s : Exchange) : Event → Prop
  | .measure k info head now => ∀ f ∈ s.air[k]?, f.src ≠ s.initiatorMac →
      (s.initiator.node.delivered board (AirFrame.report f info head now)).isSome = true →
        s.LabelFits f head
  | _ => True

theorem Numbered.send {s : Exchange} (h : s.Numbered) {dst : Mac} {data : List UInt8}
    (hframe : s.initiator.controlFrame = some (dst, data)) :
    Numbered { s with
      initiator := s.initiator.beginSend
      air := s.air ++ [⟨s.initiatorMac, dst, data, s.initiator.nth, none⟩] } where
  auto := h.auto
  controlSequence := h.controlSequence
  soundingInstance := h.controlSequence
  controlled := h.controlled
  sounding := Nat.le_refl _
  air := by
    intro f hf
    rcases List.mem_append.mp hf with hf | hf
    · exact (h.air f hf).mono h.sounding
    · obtain rfl := List.mem_singleton.mp hf
      rw [Initiator.controlFrame_eq, h.auto, Option.isNone_none] at hframe
      obtain ⟨-, rfl⟩ := Prod.mk.inj (Option.some_inj.mp hframe)
      intro packet hpacket
      rw [controlIn_tagged] at hpacket
      obtain rfl := Option.some_inj.mp hpacket
      exact ⟨h.controlSequence, Nat.le_refl _⟩
  replies := by
    intro f hf hother
    rcases List.mem_append.mp hf with hf | hf
    · obtain ⟨hdata, number, hnumber, hused⟩ := h.replies f hf hother
      exact ⟨hdata, number, hnumber, hused.mono h.sounding⟩
    · obtain rfl := List.mem_singleton.mp hf
      exact absurd rfl hother
  responders := fun r hr => (h.responders r hr).mono h.sounding

theorem Numbered.endSend {s : Exchange} (h : s.Numbered) (ok : Bool) :
    Numbered { s with initiator := s.initiator.endSend ok } := by
  cases ok with
  | false =>
    exact ⟨h.auto, h.controlSequence, h.soundingInstance, h.controlled, h.sounding, h.air, h.replies,
      h.responders⟩
  | true =>
    refine ⟨h.auto, ?_, h.soundingInstance, h.controlled, Nat.le_succ_of_le h.sounding, h.air,
      h.replies, h.responders⟩
    change s.initiator.controlSequence + 1 = UInt32.ofNat (s.initiator.nth + 1)
    rw [h.controlSequence, UInt32.ofNat_add]
    rfl

theorem Numbered.measure {s : Exchange} (h : s.Numbered) (board : Csi.Board) (f : AirFrame)
    (info : Csi.WifiCsiInfo) (head : List UInt8) (now : UInt64) :
    (s.measure board f info head now).Numbered := by
  unfold Exchange.measure
  split_ifs
  · exact h
  · obtain ⟨-, hsounding, hcontrolled⟩ := Csi.step_capture_stimulus board s.initiator.node
      { info with mac := f.src, payload := head ++ f.data } now
    exact ⟨h.auto, h.controlSequence, hsounding.trans h.soundingInstance,
      hcontrolled.trans h.controlled, h.sounding, h.air, h.replies, h.responders⟩

theorem Numbered.reply {s : Exchange} (h : s.Numbered) (mac : Mac) :
    Numbered { s.update mac fun r => r.reply.2 with
      air := s.air ++ (s.responders.filter (·.mac = mac)).filterMap Exchange.replyFrame } := by
  have hold := h.update mac fun r hr => hr.reply
  have hnew (f : AirFrame)
      (hf : f ∈ (s.responders.filter (·.mac = mac)).filterMap Exchange.replyFrame) :
      f.data = replyBytes ∧ ∃ number ∈ f.answers, Used number f.nth s.initiator.sounding := by
    obtain ⟨r, hr, hframe⟩ := List.mem_filterMap.mp hf
    exact (h.responders r (List.mem_of_mem_filter hr)).replyFrame hframe
  refine { hold with air := fun f hf => ?_, replies := fun f hf hother => ?_ }
  · rcases List.mem_append.mp hf with hf | hf
    · exact h.air f hf
    · intro packet hpacket
      rw [(hnew f hf).1, controlIn_replyBytes] at hpacket
      exact absurd hpacket (by simp)
  · rcases List.mem_append.mp hf with hf | hf
    · exact h.replies f hf hother
    · exact hnew f hf

theorem Numbered.outcome {board : Csi.Board} {s s' : Exchange} {e : Event} (h : s.Numbered)
    (hstep : Outcome board s e s') : s'.Numbered := by
  cases hstep with
  | skip => exact h
  | @powerOn mac chip config rawListen node =>
    refine { h with responders := fun r hr => ?_ }
    rcases List.mem_append.mp hr with hr | hr
    · exact h.responders r hr
    · rw [List.mem_singleton.mp hr]
      exact .start mac chip config rawListen node _
  | receivePass | toInitiator =>
    exact ⟨h.auto, h.controlSequence, h.soundingInstance, h.controlled, h.sounding, h.air, h.replies,
      h.responders⟩
  | send hframe => exact h.send hframe
  | sent ok => exact h.endSend ok
  | toResponder k mac hf => exact h.update mac fun r hr => hr.rcvCb (h.air _ hf)
  | lose k =>
    exact { h with
      air := fun f hf => h.air f (List.mem_of_mem_eraseIdx hf)
      replies := fun f hf => h.replies f (List.mem_of_mem_eraseIdx hf) }
  | ingest mac registers => exact h.update mac fun r hr => hr.ingestNext registers
  | reply mac => exact h.reply mac
  | @measure f k info head now => exact h.measure board f info head now

theorem Numbered.step {s : Exchange} (h : s.Numbered) (board : Csi.Board) (e : Event) :
    (s.step board e).Numbered :=
  h.outcome (step_outcome board s e)

/-! ## Labels -/

theorem low_half_eq_iff {a b : ℕ} (h : b ≤ a) :
    (UInt32.ofNat a).toUInt16 = (UInt32.ofNat b).toUInt16 ↔ 2 ^ 16 ∣ a - b := by
  rw [← UInt16.toNat_inj, UInt32.toNat_toUInt16, UInt32.toNat_toUInt16, UInt32.toNat_ofNat',
    UInt32.toNat_ofNat']
  omega

theorem Numbered.instanceId_measured {s : Exchange} (h : s.Numbered) {board : Csi.Board}
    {f : AirFrame} {info : Csi.WifiCsiInfo} {head : List UInt8} {now : UInt64} {p : Csi.CsiPacket}
    (hp : s.initiator.node.delivered board (AirFrame.report f info head now) = some p) :
    instanceId p.frame.stimulus =
      some ((controlSequenceIn (head ++ f.data)).getD
        (UInt32.ofNat s.initiator.sounding)).toUInt16 := by
  rw [(Csi.step_capture_stimulus board s.initiator.node _ now).1 p hp,
    instanceId_stimulus h.controlled, h.soundingInstance]

theorem Numbered.labelFits_of_framed {s : Exchange} (h : s.Numbered) {f : AirFrame}
    (hf : f ∈ s.air) (hother : f.src ≠ s.initiatorMac) {head : List UInt8}
    (hhead : afterMagic head = none) :
    s.LabelFits f head ↔ 2 ^ 16 ∣ s.initiator.sounding - f.nth := by
  obtain ⟨hdata, -⟩ := h.replies f hf hother
  rw [LabelFits, hdata, controlSequenceIn_replyBytes hhead]

theorem Numbered.labelFits_iff {s : Exchange} (h : s.Numbered) {board : Csi.Board} {f : AirFrame}
    (hf : f ∈ s.air) (hother : f.src ≠ s.initiatorMac) {info : Csi.WifiCsiInfo}
    {head : List UInt8} {now : UInt64} {p : Csi.CsiPacket}
    (hp : s.initiator.node.delivered board (AirFrame.report f info head now) = some p) :
    (∃ number ∈ f.answers, instanceId p.frame.stimulus = some number.toUInt16) ↔
      s.LabelFits f head := by
  obtain ⟨-, number, hanswers, hnumber, hle⟩ := h.replies f hf hother
  rw [h.instanceId_measured hp, Option.mem_def.mp hanswers, hnumber, LabelFits]
  cases controlSequenceIn (head ++ f.data) with
  | none =>
    rw [← low_half_eq_iff hle]
    simp
  | some carried => simp

theorem Numbered.agrees_measure {s : Exchange} (h : s.Numbered) (hs : s.Agrees) (board : Csi.Board)
    {f : AirFrame} (hf : f ∈ s.air) (info : Csi.WifiCsiInfo) (head : List UInt8) (now : UInt64) :
    (s.measure board f info head now).Agrees ↔
      (f.src ≠ s.initiatorMac →
        (s.initiator.node.delivered board (AirFrame.report f info head now)).isSome = true →
        s.LabelFits f head) := by
  by_cases hown : f.src = s.initiatorMac
  · have hsame : s.measure board f info head now = s := if_pos hown
    rw [hsame]
    exact iff_of_true hs fun hother => absurd hown hother
  · have hmeasured : (s.measure board f info head now).measured = s.measured ++
        (s.initiator.node.delivered board (AirFrame.report f info head now)).toList.map fun p =>
          (p.frame.stimulus, f.answers) := by
      rw [Exchange.measure, if_neg hown]
    rw [Agrees, hmeasured]
    cases hp : s.initiator.node.delivered board (AirFrame.report f info head now) with
    | none => simpa [Agrees] using hs
    | some p =>
      simp only [Option.toList_some, List.map_cons, List.map_nil, Option.isSome_some, forall_const,
        hown, ne_eq, not_false_eq_true]
      rw [← h.labelFits_iff hf hown hp]
      constructor
      · intro hall
        exact hall (p.frame.stimulus, f.answers) (by simp)
      · intro hnew x hx
        rcases List.mem_append.mp hx with hx | hx
        · exact hs x hx
        · rw [List.mem_singleton.mp hx]
          exact hnew

theorem Outcome.measured {board : Csi.Board} {s s' : Exchange} {e : Event}
    (h : Outcome board s e s') (hother : ∀ k info head now, e ≠ .measure k info head now) :
    s'.measured = s.measured := by
  cases h with
  | skip | powerOn | receivePass | send | toInitiator | toResponder | lose | ingest | reply => rfl
  | sent ok => cases ok <;> rfl
  | measure k info head now => exact absurd rfl (hother k info head now)

theorem Numbered.agrees_step {s : Exchange} (h : s.Numbered) (hs : s.Agrees) (board : Csi.Board)
    (e : Event) : (s.step board e).Agrees ↔ s.InStep board e := by
  have hkept (hother : ∀ k info head now, e ≠ .measure k info head now) :
      (s.step board e).Agrees := by
    rw [Agrees, (step_outcome board s e).measured hother]
    exact hs
  cases e with
  | measure k info head now =>
    simp only [Exchange.step, InStep]
    cases hair : s.air[k]? with
    | none => exact iff_of_true hs fun f hf => absurd hf (by simp)
    | some f =>
      rw [Option.map_some, Option.getD_some,
        h.agrees_measure hs board (List.mem_of_getElem? hair) info head now]
      simp
  | powerOn | receivePass | send | sent | arrive | lose | ingest | reply =>
    exact iff_of_true (hkept (by simp)) trivial

/-- Over any run of the exchange, every measured reply is labelled with the number of the control
packet it answers exactly when each is measured before the initiator goes on to another number, or
a multiple of 65536 numbers later. -/
theorem agrees_iff_inStep (board : Csi.Board) (mac : Mac) (node : Csi.Node)
    (cfg : Csi.Node.RunConfig) (evs : List Event) :
    Always (step board) Agrees (start mac node cfg) evs ↔
      Along (step board) (InStep board) (start mac node cfg) evs := by
  have hempty : (start mac node cfg).Agrees := fun _ hx => absurd hx List.not_mem_nil
  exact always_iff_along (I := Numbered) (H := fun _ _ => True) (fun _ _ _ => trivial)
    (numbered_start mac node cfg) hempty (fun s e hs ha _ => hs.agrees_step ha board e)
    fun s e hs _ _ _ => hs.step board e

def measuring : Csi.Node := Csi.step .esp32 .boot (.setCsiCallback 0)

/-- A reply that goes out once the next control frame has. -/
def paced : List Event :=
  [.powerOn (mac 1) .esp32 .default false .boot, .receivePass, .send, .sent true,
    .arrive 0 (mac 1), .ingest (mac 1) true, .receivePass, .send, .sent true, .reply (mac 1),
    .measure 2 (.quiet .zero 0 0) [127, 24, 254, 52] 0]

/-- A paced reply to control frame 0 is measured under number 1. -/
theorem paced_mislabelled :
    let s := run (step .esp32) (start (mac 0) measuring .monitor) paced
    s.measured = [(.controlled 0 1 (mac 1), some 0)] ∧ ¬ s.Agrees := by
  intro s
  have hmeasured : s.measured = [(.controlled 0 1 (mac 1), some 0)] := by decide +kernel
  refine ⟨hmeasured, fun h => ?_⟩
  obtain ⟨number, hnumber, hlabel⟩ := h (.controlled 0 1 (mac 1), some 0) (by simp [hmeasured])
  obtain rfl := Option.some_inj.mp hnumber
  exact absurd hlabel (by decide)

end Exchange

end EspCsi.EspNow
