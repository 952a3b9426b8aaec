import EspCsi.EspNow.Pacing
import EspCsi.Lib.Transition

/-!
# A channel with all kinds of ESP-NOW nodes

Symmetric initiators and responders, simplex sources and simplex peers that pair automatically, on
one channel. What is on the air stays there: any node in reach may hear any of it, any number of
times, in any order, or never. A unicast reaches its addressee only.
-/

namespace EspCsi.EspNow

open Wire Transition

/-! ## Nodes -/

inductive Node where
  | initiator (s : Initiator) (io : IOTaskConfig)
  | responder (s : Responder) (io : IOTaskConfig)
  | source (s : SimplexSource)
  | peer (s : SimplexPeer)

/-- What a node is started as. Pairing is automatic, so a configured peer is left out. -/
inductive NodeConfig where
  | initiator (config : EspNowConfig) (node : Csi.Node) (io : IOTaskConfig)
  | responder (chip : Chip) (config : EspNowConfig) (rawListen : Bool) (node : Csi.Node)
      (io : IOTaskConfig)
  | source (config : EspNowConfig)
  | peer (txEnabled : Bool)

/-- What a node shows of its pairing: whom a source has locked onto, and whom a peer has detected
and whether it still beacons. -/
inductive Role where
  | initiator
  | responder
  | source (peerAddr : Option Mac)
  | peer (detectedSrc : Option Mac) (beacons : Bool)
deriving DecidableEq, Repr

namespace Node

def start (mac : Mac) : NodeConfig → Node
  | .initiator config node io => .initiator (.start { config with peerMac := none } node) io
  | .responder chip config rawListen node io =>
    .responder (.start mac chip { config with peerMac := none } rawListen node) io
  | .source config => .source (.start { config with peerMac := none })
  | .peer txEnabled => .peer (.start .default txEnabled)

def pool : Node → Pool
  | .initiator s _ => s.pool
  | .responder s _ => s.pool
  | .source s => s.pool
  | .peer s => s.pool

def rcvCb (r : PoolFrame) : Node → Node
  | .initiator s io => .initiator { s with pool := s.pool.rcvCb r } io
  | .responder s io => .responder { s with pool := s.pool.rcvCb r } io
  | .source s => .source { s with pool := s.pool.rcvCb r }
  | .peer s => .peer { s with pool := s.pool.rcvCb r }

def receive (registers : Bool) : Node → Node
  | .initiator s io => .initiator (s.receive io) io
  | .responder s io =>
    if !io.txEnabled && io.rxEnabled then .responder (s.receiveOnly registers) io
    else .responder (s.receive io registers) io
  | .source s => .source s.discover
  | .peer s => .peer s.listen

def frame : Node → Option (Mac × List UInt8)
  | .initiator s io => if io.txEnabled then s.controlFrame else none
  | .responder s io => if io.txEnabled then s.reply.1 else none
  | .source s => if s.greeted then s.floodFrame else s.hello  -- neither, while it looks for a peer
  | .peer s => s.beacon.map fun data => (BROADCAST_ADDRESS, data)

def sent (ok : Bool) : Node → Node
  | .initiator s io => .initiator (s.beginSend.endSend ok) io
  | .responder s io => .responder s.reply.2 io
  | .source s => .source (if s.greeted then s.endFlood ok else s.greet)
  | .peer s => .peer s.endBeacon

def role : Node → Role
  | .initiator _ _ => .initiator
  | .responder _ _ => .responder
  | .source s => .source s.peerAddr
  | .peer s => .peer s.detectedSrc s.beacon.isSome

def taken : Node → List PoolFrame
  | .peer s => (s.pool.drain (if s.detectedSrc = none then 1 else 1 + RX_BURST_MAX_RX_ONLY)).1
  | _ => []

def Auto : Node → Prop
  | .initiator s _ => s.peerMac = none
  | .responder s _ => s.config.peerMac = none
  | .source s => s.peerMac = none
  | .peer s => s.peerMac = none

end Node

/-! ## What is sent -/

def ControlData (data : List UInt8) : Prop :=
  ∃ packet, data = tagged controlPacketCodec packet INITIATOR_MAGIC_NUMBER true

def ReplyData (data : List UInt8) : Prop :=
  ∃ packet, data = tagged responderPacketCodec packet RESPONDER_MAGIC_NUMBER true

theorem ControlData.length_le {data : List UInt8} (h : ControlData data) :
    data.length ≤ ESP_NOW_MAX_DATA_LEN := by
  obtain ⟨packet, rfl⟩ := h
  exact (tagged_length_le _ _ _ _).trans (by decide)

theorem ReplyData.length_le {data : List UInt8} (h : ReplyData data) :
    data.length ≤ ESP_NOW_MAX_DATA_LEN := by
  obtain ⟨packet, rfl⟩ := h
  exact (tagged_length_le _ _ _ _).trans (by decide)

theorem ControlData.isControl {r : PoolFrame} (h : ControlData r.data) : isControl r = true := by
  obtain ⟨packet, hdata⟩ := h
  have hparse := parseWithMagic_tagged controlPacketCodec packet INITIATOR_MAGIC_NUMBER true []
  rw [List.append_nil] at hparse
  rw [EspNow.isControl, hdata, hparse]
  rfl

theorem ControlData.not_isReply {r : PoolFrame} (h : ControlData r.data) : isReply r = false := by
  obtain ⟨packet, hdata⟩ := h
  have hmagic : INITIATOR_MAGIC_NUMBER ≠ RESPONDER_MAGIC_NUMBER := by decide
  have hparse := parseWithMagic_other controlPacketCodec responderPacketCodec packet hmagic []
  rw [List.append_nil] at hparse
  rw [EspNow.isReply, hdata, hparse]
  rfl

theorem ReplyData.isReply {r : PoolFrame} (h : ReplyData r.data) : isReply r = true := by
  obtain ⟨packet, hdata⟩ := h
  have hparse := parseWithMagic_tagged responderPacketCodec packet RESPONDER_MAGIC_NUMBER true []
  rw [List.append_nil] at hparse
  rw [EspNow.isReply, hdata, hparse]
  rfl

theorem ReplyData.not_isControl {r : PoolFrame} (h : ReplyData r.data) : isControl r = false := by
  obtain ⟨packet, hdata⟩ := h
  have hmagic : RESPONDER_MAGIC_NUMBER ≠ INITIATOR_MAGIC_NUMBER := by decide
  have hparse := parseWithMagic_other responderPacketCodec controlPacketCodec packet hmagic []
  rw [List.append_nil] at hparse
  rw [EspNow.isControl, hdata, hparse]
  rfl

/-- A frame that a node in this role may have sent. -/
def Role.MaySend : Role → Mac → List UInt8 → Prop
  | .initiator, _, data => ControlData data
  | .responder, _, data => ReplyData data
  | .source peerAddr, dst, data => peerAddr = some dst ∧ (ControlData data ∨ ReplyData data)
  | .peer _ _, _, data => ControlData data

theorem Role.MaySend.length_le {role : Role} {dst : Mac} {data : List UInt8}
    (h : role.MaySend dst data) : data.length ≤ ESP_NOW_MAX_DATA_LEN := by
  cases role with
  | initiator => exact ControlData.length_le h
  | responder => exact ReplyData.length_le h
  | source peerAddr => exact h.2.elim ControlData.length_le ReplyData.length_le
  | peer detectedSrc beacons => exact ControlData.length_le h

/-! ## What the calls of a node keep -/

namespace Responder

theorem ingestControlPacket_frame (s : Responder) (r : PoolFrame) (txEnabled registers : Bool) :
    (s.ingestControlPacket r txEnabled registers).pool = s.pool ∧
      (s.ingestControlPacket r txEnabled registers).config = s.config := by
  rcases s.ingestControlPacket_cases r txEnabled registers with
    ⟨rx, heq⟩ | ⟨packet, node, shared, rx, -, heq⟩ <;> rw [heq] <;> exact ⟨rfl, rfl⟩

theorem ingest_all_frame (rs : List PoolFrame) (s : Responder) (txEnabled registers : Bool) :
    (rs.foldl (fun s r => s.ingestControlPacket r txEnabled registers) s).pool = s.pool ∧
      (rs.foldl (fun s r => s.ingestControlPacket r txEnabled registers) s).config = s.config := by
  induction rs generalizing s with
  | nil => exact ⟨rfl, rfl⟩
  | cons r rs ih =>
    obtain ⟨hpool, hconfig⟩ := s.ingestControlPacket_frame r txEnabled registers
    exact ⟨(ih _).1.trans hpool, (ih _).2.trans hconfig⟩

end Responder

theorem SimplexPeer.beacon_isSome (s : SimplexPeer) :
    s.beacon.isSome = (s.txEnabled && s.detectedSrc.isNone) := by
  have hfits : 4 + controlPacketCodec.maxSize ≤ BEACON_BUF_LEN := by decide
  unfold beacon
  rw [serializeWithMagic_fits _ _ _ _ hfits]
  cases s.txEnabled <;> cases s.detectedSrc <;> rfl

def Role.take : Role → Option PoolFrame → Role
  | .source none, some r => .source (if isControl r then some r.srcAddress else none)
  | .peer none beacons, some r =>
    if isReply r then .peer (some r.srcAddress) false else .peer none beacons
  | role, _ => role

theorem Role.MaySend.take {role : Role} {dst : Mac} {data : List UInt8} (h : role.MaySend dst data)
    (r : Option PoolFrame) : (role.take r).MaySend dst data := by
  cases role with
  | initiator => exact h
  | responder => exact h
  | source peerAddr =>
    cases peerAddr with
    | none => cases h.1
    | some peer => exact h
  | peer detectedSrc beacons =>
    cases detectedSrc with
    | some src => exact h
    | none =>
      cases r with
      | none => exact h
      | some r =>
        show Role.MaySend (if isReply r then .peer (some r.srcAddress) false else .peer none beacons)
          dst data
        split_ifs <;> exact h

namespace Node

@[simp] theorem role_rcvCb (r : PoolFrame) (n : Node) : (n.rcvCb r).role = n.role := by
  cases n <;> rfl

@[simp] theorem pool_rcvCb (r : PoolFrame) (n : Node) : (n.rcvCb r).pool = n.pool.rcvCb r := by
  cases n <;> rfl

@[simp] theorem pool_sent (ok : Bool) (n : Node) : (n.sent ok).pool = n.pool := by
  cases n with
  | initiator s io => cases ok <;> rfl
  | responder s io =>
    simp only [sent, pool, Responder.reply]
    split_ifs <;> rfl
  | source s =>
    simp only [sent, pool]
    split_ifs
    · cases ok <;> rfl
    · rfl
  | peer s => rfl

@[simp] theorem role_sent (ok : Bool) (n : Node) : (n.sent ok).role = n.role := by
  cases n with
  | initiator s io => rfl
  | responder s io => rfl
  | source s =>
    simp only [sent, role]
    split_ifs
    · cases ok <;> rfl
    · rfl
  | peer s =>
    simp only [sent, role, SimplexPeer.beacon_isSome]
    rfl

theorem mem_pool_receive {registers : Bool} {n : Node} {r : PoolFrame}
    (h : r ∈ (n.receive registers).pool.queue) : r ∈ n.pool.queue := by
  cases n with
  | initiator s io =>
    simp only [receive, pool, Initiator.receive] at h
    split_ifs at h
    · exact Pool.mem_drain_queue h
    · exact h
  | responder s io =>
    simp only [receive] at h
    split_ifs at h
    · rw [pool, Responder.receiveOnly, (Responder.ingest_all_frame _ _ _ _).1] at h
      exact Pool.mem_drain_queue h
    · simp only [pool, Responder.receive] at h
      split_ifs at h
      · rw [Responder.ingestNext, (Responder.ingest_all_frame _ _ _ _).1] at h
        exact Pool.mem_drain_queue h
      · exact h
  | source s =>
    simp only [receive, pool, SimplexSource.discover] at h
    cases hpeer : s.peerAddr with
    | none =>
      cases hqueue : s.pool.queue with
      | nil => simp [hpeer, hqueue] at h
      | cons r' rest =>
        simp only [hpeer, hqueue] at h
        exact hqueue ▸ Pool.mem_drain_queue h
    -- a source that has its peer looks into its pool no more
    | some peer =>
      simp only [hpeer] at h
      exact h
  | peer s =>
    simp only [receive, pool, SimplexPeer.listen] at h
    cases hdetected : s.detectedSrc with
    | none =>
      cases hqueue : s.pool.queue with
      | nil => simp [hdetected, hqueue] at h
      | cons r' rest =>
        simp only [hdetected, hqueue] at h
        exact hqueue ▸ Pool.mem_drain_queue h
    | some src =>
      simp only [hdetected] at h
      exact Pool.mem_drain_queue h

theorem auto_start (mac : Mac) (config : NodeConfig) : (start mac config).Auto := by
  cases config <;> rfl

theorem Auto.rcvCb {n : Node} (h : n.Auto) (r : PoolFrame) : (n.rcvCb r).Auto := by
  cases n <;> exact h

theorem Auto.sent {n : Node} (h : n.Auto) (ok : Bool) : (n.sent ok).Auto := by
  cases n with
  | initiator s io => cases ok <;> exact h
  | responder s io =>
    simp only [Node.sent, Auto, Responder.reply]
    split_ifs <;> exact h
  | source s =>
    simp only [Node.sent, Auto]
    split_ifs
    · cases ok <;> exact h
    · exact h
  | peer s => exact h

theorem Auto.receive {n : Node} (h : n.Auto) (registers : Bool) : (n.receive registers).Auto := by
  cases n with
  | initiator s io =>
    simp only [Node.receive, Auto, Initiator.receive]
    split_ifs <;> exact h
  | responder s io =>
    simp only [Node.receive]
    split_ifs
    · rw [Auto, Responder.receiveOnly, (Responder.ingest_all_frame _ _ _ _).2]
      exact h
    · simp only [Auto, Responder.receive]
      split_ifs
      · rw [Responder.ingestNext, (Responder.ingest_all_frame _ _ _ _).2]
        exact h
      · exact h
  | source s =>
    simp only [Node.receive, Auto, SimplexSource.discover]
    split <;> exact h
  | peer s =>
    simp only [Node.receive, Auto, SimplexPeer.listen]
    split <;> exact h

theorem role_receive {n : Node} (h : n.Auto) (registers : Bool) :
    (n.receive registers).role = n.role.take n.pool.queue.head? := by
  cases n with
  | initiator s io => rfl
  | responder s io =>
    simp only [receive]
    split_ifs <;> rfl
  | source s =>
    simp only [receive, role, pool, SimplexSource.discover]
    cases hpeer : s.peerAddr with
    | some peer => simp [hpeer, Role.take]
    | none =>
      cases hqueue : s.pool.queue with
      | nil => simp [hpeer, Role.take]
      | cons r rest => simp [Role.take]
  | peer s =>
    have hauto : s.peerMac = none := h
    simp only [receive, role, pool, SimplexPeer.beacon_isSome, SimplexPeer.listen]
    cases hdetected : s.detectedSrc with
    | some src => simp [Role.take]
    | none =>
      cases hqueue : s.pool.queue with
      | nil => simp [hdetected, Role.take]
      | cons r rest =>
        simp only [List.head?_cons, Role.take, SimplexPeer.isSource, hauto]
        split_ifs <;> simp

theorem maySend_of_frame {n : Node} (h : n.Auto) {out : Mac × List UInt8}
    (hframe : n.frame = some out) : n.role.MaySend out.1 out.2 := by
  cases n with
  | initiator s io =>
    have hauto : s.peerMac = none := h
    simp only [frame, Initiator.controlFrame_eq, hauto, Option.isNone_none] at hframe
    split_ifs at hframe
    obtain rfl := Option.some_inj.mp hframe
    exact ⟨_, rfl⟩
  | responder s io =>
    have hauto : s.config.peerMac = none := h
    simp only [frame, Responder.reply, Responder.replyData_eq, hauto, Option.isNone_none, if_true,
      Option.map_some] at hframe
    split_ifs at hframe
    obtain rfl := Option.some_inj.mp hframe
    exact ⟨_, rfl⟩
  | source s =>
    have hauto : s.peerMac = none := h
    simp only [frame] at hframe
    cases hpeer : s.peerAddr with
    | none =>
      -- without a peer it sends nothing
      simp [SimplexSource.floodFrame, SimplexSource.hello, hpeer] at hframe
    | some peer =>
      cases hgreeted : s.greeted with
      | true =>
        simp only [hgreeted, if_true, SimplexSource.floodFrame, hpeer, hauto] at hframe
        obtain ⟨data, hdata, rfl⟩ := Option.map_eq_some_iff.mp hframe
        exact ⟨hpeer, .inl ⟨_, eq_tagged_of_serialize hdata⟩⟩
      | false =>
        simp only [hgreeted, Bool.false_eq_true, if_false, SimplexSource.hello, hpeer] at hframe
        obtain ⟨data, hdata, rfl⟩ := Option.map_eq_some_iff.mp hframe
        exact ⟨hpeer, .inr ⟨_, eq_tagged_of_serialize hdata⟩⟩
  | peer s =>
    have hauto : s.peerMac = none := h
    obtain ⟨data, hdata, rfl⟩ := Option.map_eq_some_iff.mp hframe
    simp only [SimplexPeer.beacon, hauto] at hdata
    split_ifs at hdata
    exact ⟨_, eq_tagged_of_serialize hdata⟩

end Node

/-! ## The channel -/

structure Transmission where
  src : Mac
  dst : Mac
  data : List UInt8
deriving DecidableEq, Repr

def Transmission.receivedBy (f : Transmission) (mac : Mac) : Bool :=
  f.src ≠ mac && (f.dst = BROADCAST_ADDRESS || f.dst = mac)

def Transmission.received (f : Transmission) : PoolFrame := ⟨f.src, f.data, 0⟩

/-- The nodes powered on, and everything sent so far. `heard` marks the peers that have taken a frame
of a source that is locked onto them; nothing of the crate reads it. -/
structure Network where
  nodes : Mac → Option Node
  air : List Transmission
  heard : Mac → Bool

namespace Network

inductive Event where
  | powerOn (mac : Mac) (config : NodeConfig)
  | arrive (k : ℕ) (mac : Mac)
  | receive (mac : Mac) (registers : Bool)
  | send (mac : Mac) (ok : Bool)

def start : Network := ⟨fun _ => none, [], fun _ => false⟩

def role (s : Network) (mac : Mac) : Option Role := (s.nodes mac).map Node.role

def set (s : Network) (mac : Mac) (n : Node) : Network :=
  { s with nodes := Function.update s.nodes mac (some n) }

def hears (s : Network) (mac : Mac) (n : Node) : Bool :=
  n.taken.any fun r => s.role r.srcAddress == some (.source (some mac))

/-- A node powers on with an address of its own, which is not the broadcast address. -/
def step (s : Network) : Event → Network
  | .powerOn mac config =>
    if mac = BROADCAST_ADDRESS ∨ (s.nodes mac).isSome then s else s.set mac (.start mac config)
  | .arrive k mac =>
    match s.air[k]?, s.nodes mac with
    | some f, some n => if f.receivedBy mac then s.set mac (n.rcvCb f.received) else s
    | _, _ => s
  | .receive mac registers =>
    match s.nodes mac with
    | some n =>
      { s.set mac (n.receive registers) with
        heard := Function.update s.heard mac (s.heard mac || s.hears mac n) }
    | none => s
  | .send mac ok =>
    match s.nodes mac with
    | some n =>
      match n.frame with
      | some out => { s.set mac (n.sent ok) with air := s.air ++ [⟨mac, out.1, out.2⟩] }
      | none => s
    | none => s

@[simp] theorem role_set (s : Network) (mac : Mac) (n : Node) :
    (s.set mac n).role = Function.update s.role mac (some n.role) := by
  funext mac'
  by_cases hmac : mac' = mac
  · subst hmac
    simp [role, set]
  · simp [role, set, hmac]

theorem role_of_node {s : Network} {mac : Mac} {n : Node} (hn : s.nodes mac = some n) :
    s.role mac = some n.role := by
  rw [role, hn]
  rfl

/-! ## What a step can do -/

inductive Outcome (s : Network) : Event → Network → Prop
  | skip {e : Event} (hidle : ∀ mac registers, e = .receive mac registers → s.nodes mac = none) :
      Outcome s e s
  | powerOn {mac : Mac} (config : NodeConfig) (hunicast : mac ≠ BROADCAST_ADDRESS)
      (hfresh : s.nodes mac = none) : Outcome s (.powerOn mac config) (s.set mac (.start mac config))
  | arrive {mac : Mac} {n : Node} {f : Transmission} (k : ℕ) (hn : s.nodes mac = some n)
      (hf : f ∈ s.air) (hreceived : f.receivedBy mac = true) :
      Outcome s (.arrive k mac) (s.set mac (n.rcvCb f.received))
  | receive {mac : Mac} {n : Node} (registers : Bool) (hn : s.nodes mac = some n) :
      Outcome s (.receive mac registers)
        { s.set mac (n.receive registers) with
          heard := Function.update s.heard mac (s.heard mac || s.hears mac n) }
  | send {mac : Mac} {n : Node} {out : Mac × List UInt8} (ok : Bool) (hn : s.nodes mac = some n)
      (hframe : n.frame = some out) :
      Outcome s (.send mac ok) { s.set mac (n.sent ok) with air := s.air ++ [⟨mac, out.1, out.2⟩] }

theorem step_outcome (s : Network) (e : Event) : Outcome s e (s.step e) := by
  cases e with
  | powerOn mac config =>
    simp only [step]
    split_ifs with hknown
    · exact .skip nofun
    · obtain ⟨hunicast, hfresh⟩ := not_or.mp hknown
      exact .powerOn config hunicast (Option.not_isSome_iff_eq_none.mp hfresh)
  | arrive k mac =>
    cases hf : s.air[k]? with
    | none =>
      simp only [step, hf]
      exact .skip nofun
    | some f =>
      cases hn : s.nodes mac with
      | none =>
        simp only [step, hf, hn]
        exact .skip nofun
      | some n =>
        simp only [step, hf, hn]
        split_ifs with hreceived
        · exact .arrive k hn (List.mem_of_getElem? hf) hreceived
        · exact .skip nofun
  | receive mac registers =>
    cases hn : s.nodes mac with
    | none =>
      simp only [step, hn]
      -- a look into a pool is skipped only where no node is on
      apply Outcome.skip
      rintro _ _ ⟨⟩
      exact hn
    | some n =>
      simp only [step, hn]
      exact .receive registers hn
  | send mac ok =>
    cases hn : s.nodes mac with
    | none =>
      simp only [step, hn]
      exact .skip nofun
    | some n =>
      cases hframe : n.frame with
      | none =>
        simp only [step, hn, hframe]
        exact .skip nofun
      | some out =>
        simp only [step, hn, hframe]
        exact .send ok hn hframe

end Network

end EspCsi.EspNow
