import EspCsi.EspNow.Downlink
import EspCsi.EspNow.Responder

/-!
# The symmetric exchange

One initiator and any number of responders that pair automatically, on one channel. Frames on the
air may be lost, delayed, reordered and heard more than once; a unicast reaches its addressee only.
-/

namespace EspCsi.EspNow

open Wire Transition

/-- A frame on the air. `nth` is the place of a control frame in the initiator's count, or of the one
a reply answers, and `answers` the number of the control packet a reply answers; nothing of the crate
reads them. -/
structure AirFrame where
  src : Mac
  dst : Mac
  data : List UInt8
  nth : ℕ
  answers : Option UInt32
deriving DecidableEq, Repr

/-- The nodes, the air, and what the initiator has measured of the replies: the stimulus stamped on
each measurement, and the number of the control packet the reply answers. -/
structure Exchange where
  initiatorMac : Mac
  initiator : Initiator
  responders : List Responder
  air : List AirFrame
  measured : List (Stimulus × Option UInt32)

namespace Exchange

inductive Event where
  | powerOn (mac : Mac) (chip : Chip) (config : EspNowConfig) (rawListen : Bool) (node : Csi.Node)
  | receivePass
  | send
  | sent (ok : Bool)
  | arrive (k : ℕ) (mac : Mac)
  | lose (k : ℕ)
  | ingest (mac : Mac) (registers : Bool)
  | reply (mac : Mac)
  | measure (k : ℕ) (info : Csi.WifiCsiInfo) (head : List UInt8) (now : UInt64)

def start (initiatorMac : Mac) (node : Csi.Node) (cfg : Csi.Node.RunConfig) : Exchange where
  initiatorMac
  initiator := .start .default (node.beginRun { cfg with controlled := true })
  responders := []
  air := []
  measured := []

def macs (s : Exchange) : List Mac := s.responders.map Responder.mac

def update (s : Exchange) (mac : Mac) (f : Responder → Responder) : Exchange :=
  { s with responders := s.responders.map fun r => if r.mac = mac then f r else r }

/-- What a node's radio receives of a frame: not its own, and not another's unicast. -/
def AirFrame.receivedBy (f : AirFrame) (mac : Mac) : Bool :=
  f.src ≠ mac && (f.dst = BROADCAST_ADDRESS || f.dst = mac)

def AirFrame.received (f : AirFrame) : PoolFrame := ⟨f.src, f.data, f.nth⟩

/-- The CSI report of a frame, its data behind `head` in the captured payload. -/
def AirFrame.report (f : AirFrame) (info : Csi.WifiCsiInfo) (head : List UInt8)
    (now : UInt64) : Csi.Event :=
  .capture { info with mac := f.src, payload := head ++ f.data } now

def arrive (s : Exchange) (f : AirFrame) (mac : Mac) : Exchange :=
  if AirFrame.receivedBy f mac then
    if mac = s.initiatorMac then
      { s with
        initiator := { s.initiator with
          pool := s.initiator.pool.rcvCb (AirFrame.received f) } }
    else s.update mac fun r => { r with pool := r.pool.rcvCb (AirFrame.received f) }
  else s

def replyFrame (r : Responder) : Option AirFrame :=
  r.reply.1.map fun out =>
    { src := r.mac
      dst := out.1
      data := out.2
      nth := (r.answering.map Prod.snd).getD 0
      answers := r.answering.map Prod.fst }

/-- The initiator's CSI callback is handed another node's frame. -/
def measure (board : Csi.Board) (s : Exchange) (f : AirFrame) (info : Csi.WifiCsiInfo)
    (head : List UInt8) (now : UInt64) : Exchange :=
  let e := AirFrame.report f info head now
  if f.src = s.initiatorMac then s
  else
    { s with
      initiator := { s.initiator with node := Csi.step board s.initiator.node e }
      measured := s.measured ++ (s.initiator.node.delivered board e).toList.map fun p =>
        (p.frame.stimulus, f.answers) }

def powerOn (s : Exchange) (r : Responder) : Exchange :=
  if r.mac = BROADCAST_ADDRESS ∨ r.mac = s.initiatorMac ∨ r.mac ∈ s.macs then s
  else { s with responders := s.responders ++ [r] }

def step (board : Csi.Board) (s : Exchange) : Event → Exchange
  | .powerOn mac chip config rawListen node =>
    s.powerOn (.start mac chip { config with peerMac := none } rawListen node)
  | .receivePass =>
    if s.initiator.phase = .sending then s else { s with initiator := s.initiator.receivePass }
  | .send =>
    match s.initiator.phase, s.initiator.controlFrame with
    -- the number is in use from here on, however the send ends
    | .ready, some (dst, data) =>
      { s with
        initiator := s.initiator.beginSend
        air := s.air ++ [⟨s.initiatorMac, dst, data, s.initiator.nth, none⟩] }
    | _, _ => s
  | .sent ok =>
    if s.initiator.phase = .sending then { s with initiator := s.initiator.endSend ok } else s
  | .arrive k mac => (s.air[k]?.map fun f => s.arrive f mac).getD s
  | .lose k => { s with air := s.air.eraseIdx k }
  | .ingest mac registers => s.update mac fun r => r.ingestNext registers
  | .reply mac =>
    { s.update mac fun r => r.reply.2 with
      air := s.air ++ (s.responders.filter (·.mac = mac)).filterMap replyFrame }
  | .measure k info head now => (s.air[k]?.map fun f => s.measure board f info head now).getD s

/-! ## What a step can do -/

/-- The outcomes of an event: one for each that takes effect, and `skip` for the rest. -/
inductive Outcome (board : Csi.Board) (s : Exchange) : Event → Exchange → Prop
  | skip (e : Event) : Outcome board s e s
  | powerOn {mac : Mac} (chip : Chip) (config : EspNowConfig) (rawListen : Bool) (node : Csi.Node)
      (hunicast : mac ≠ BROADCAST_ADDRESS) (hfresh : mac ∉ s.macs) :
      Outcome board s (.powerOn mac chip config rawListen node)
        { s with
          responders := s.responders ++
            [.start mac chip { config with peerMac := none } rawListen node] }
  | receivePass : Outcome board s .receivePass { s with initiator := s.initiator.receivePass }
  | send {dst : Mac} {data : List UInt8} (hframe : s.initiator.controlFrame = some (dst, data)) :
      Outcome board s .send
        { s with
          initiator := s.initiator.beginSend
          air := s.air ++ [⟨s.initiatorMac, dst, data, s.initiator.nth, none⟩] }
  | sent (ok : Bool) : Outcome board s (.sent ok) { s with initiator := s.initiator.endSend ok }
  | toInitiator {f : AirFrame} (k : ℕ) (hf : f ∈ s.air) (hother : f.src ≠ s.initiatorMac) :
      Outcome board s (.arrive k s.initiatorMac)
        { s with
          initiator := { s.initiator with
            pool := s.initiator.pool.rcvCb (AirFrame.received f) } }
  | toResponder {f : AirFrame} (k : ℕ) (mac : Mac) (hf : f ∈ s.air) :
      Outcome board s (.arrive k mac)
        (s.update mac fun r => { r with pool := r.pool.rcvCb (AirFrame.received f) })
  | lose (k : ℕ) : Outcome board s (.lose k) { s with air := s.air.eraseIdx k }
  | ingest (mac : Mac) (registers : Bool) :
      Outcome board s (.ingest mac registers) (s.update mac fun r => r.ingestNext registers)
  | reply (mac : Mac) :
      Outcome board s (.reply mac)
        { s.update mac fun r => r.reply.2 with
          air := s.air ++ (s.responders.filter (·.mac = mac)).filterMap replyFrame }
  | measure {f : AirFrame} (k : ℕ) (info : Csi.WifiCsiInfo) (head : List UInt8) (now : UInt64)
      (hf : f ∈ s.air) :
      Outcome board s (.measure k info head now) (s.measure board f info head now)

theorem outcome_arrive (board : Csi.Board) (s : Exchange) {f : AirFrame} (hf : f ∈ s.air) (k : ℕ)
    (mac : Mac) : Outcome board s (.arrive k mac) (s.arrive f mac) := by
  unfold arrive
  split_ifs with hreceived hself
  · have hother : f.src ≠ s.initiatorMac := by
      unfold AirFrame.receivedBy at hreceived
      simp only [Bool.and_eq_true, decide_eq_true_eq] at hreceived
      rw [← hself]
      exact hreceived.1
    rw [hself]
    exact .toInitiator k hf hother
  · exact .toResponder k mac hf
  · exact .skip _

theorem step_outcome (board : Csi.Board) (s : Exchange) (e : Event) :
    Outcome board s e (step board s e) := by
  cases e with
  | powerOn mac chip config rawListen node =>
    simp only [step, Exchange.powerOn]
    split_ifs with hknown
    · exact .skip _
    -- a new address, and not the initiator's
    · obtain ⟨hunicast, hknown⟩ := not_or.mp hknown
      exact .powerOn chip config rawListen node hunicast (not_or.mp hknown).2
  | receivePass =>
    simp only [step]
    split_ifs
    · exact .skip _
    · exact .receivePass
  | send =>
    simp only [step]
    split
    · exact .send ‹_›
    · exact .skip _
  | sent ok =>
    simp only [step]
    split_ifs
    · exact .sent ok
    · exact .skip _
  | arrive k mac =>
    simp only [step]
    cases hair : s.air[k]? with
    | none => exact .skip _
    | some f => exact outcome_arrive board s (List.mem_of_getElem? hair) k mac
  | lose k => exact .lose k
  | ingest mac registers => exact .ingest mac registers
  | reply mac => exact .reply mac
  | measure k info head now =>
    simp only [step]
    cases hair : s.air[k]? with
    | none => exact .skip _
    | some f => exact .measure k info head now (List.mem_of_getElem? hair)

end Exchange

end EspCsi.EspNow
