import EspCsi.EspNow.Network
import EspCsi.EspNow.Promotion

/-!
# Pairing by hand

A node that was given its peer's address sends no magic, and takes frames of that address only. Here
such nodes share the channel with nodes that pair automatically.
-/

namespace EspCsi.EspNow

open Wire Transition

/-! ## Nodes that may have been given a peer -/

/-- What a node is started as. -/
inductive PairingConfig where
  | initiator (config : EspNowConfig) (node : Csi.Node) (io : IOTaskConfig)
  | responder (chip : Chip) (config : EspNowConfig) (rawListen : Bool) (node : Csi.Node)
      (io : IOTaskConfig)
  | source (config : EspNowConfig)
  | peer (config : EspNowConfig) (txEnabled : Bool)

/-- What pairing depends on and no frame changes: the peer the node was given, and which end of the
exchange it is. -/
structure Kind where
  given : Option Mac
  isResponder : Bool
deriving DecidableEq, Repr

def Responder.partners (s : Responder) : List Mac :=
  if s.shared.isConnected then [s.shared.initiatorMac] else []

namespace Node

def startPaired (mac : Mac) : PairingConfig → Node
  | .initiator config node io => .initiator (.start config node) io
  | .responder chip config rawListen node io =>
    .responder (.start mac chip config rawListen node) io
  | .source config => .source (.start config)
  | .peer config txEnabled => .peer (.start config txEnabled)

def kind : Node → Kind
  | .initiator s _ => ⟨s.peerMac, false⟩
  | .responder s _ => ⟨s.config.peerMac, true⟩
  | .source s => ⟨s.peerMac, false⟩
  | .peer s => ⟨s.peerMac, false⟩

/-- Whom the node takes for its peers. -/
def partners : Node → List Mac
  | .initiator s _ => s.downlink.accepted
  | .responder s _ => s.partners
  | .source s => s.peerAddr.toList
  | .peer s => s.detectedSrc.toList

def answers : Node → Bool
  | .responder s _ => s.answering.isSome
  | _ => false

end Node

/-! ## What is sent, and what is made of it -/

/-- The bytes of a control packet between nodes that were given each other's address. -/
def PlainControl (data : List UInt8) : Prop := ∃ packet, data = controlPacketCodec.write packet

/-- A frame that a node of this kind may have sent. -/
def Kind.MaySend (k : Kind) (dst : Mac) (data : List UInt8) : Prop :=
  match k with
  | ⟨none, _⟩ => ControlData data ∨ ReplyData data
  | ⟨some peer, false⟩ => dst = peer ∧ PlainControl data
  | ⟨some peer, true⟩ =>
    (dst = peer ∨ dst = BROADCAST_ADDRESS) ∧ data = [RESPONDER_BEACON_SENTINEL]

theorem toUInt8_of_ofLeBytes {b0 b1 b2 b3 : UInt8} {magic : UInt32}
    (h : ofLeBytes b0 b1 b2 b3 = magic) : magic.toUInt8 = b0 := by
  have h0 := b0.toNat_lt
  have h1 := b1.toNat_lt
  have h2 := b2.toNat_lt
  have h3 := b3.toNat_lt
  have hmagic := congrArg UInt32.toNat h
  rw [ofLeBytes, UInt32.toNat_ofNat_of_lt' (by show _ < 2 ^ 32; omega)] at hmagic
  apply UInt8.toNat.inj
  rw [UInt32.toNat_toUInt8]
  omega

theorem head?_of_parse {α : Type} {c : Postcard.Codec α} {data : List UInt8} {magic : UInt32}
    (h : parseWithMagic c data magic true ≠ none) : data.head? = some magic.toUInt8 := by
  match data with
  | b0 :: b1 :: b2 :: b3 :: rest =>
    by_cases hmagic : ofLeBytes b0 b1 b2 b3 = magic
    · rw [toUInt8_of_ofLeBytes hmagic]
      rfl
    · simp [parseWithMagic, hmagic] at h
  | [] | [_] | [_, _] | [_, _, _] => simp [parseWithMagic] at h

theorem head?_of_read {data rest : List UInt8} {packet : ControlPacket}
    (h : controlPacketCodec.read data = .ok (packet, rest)) :
    data.head? = some 0 ∨ data.head? = some 1 := by
  obtain ⟨x, hx, -⟩ := Postcard.Codec.imap_read_eq_ok h
  obtain ⟨mid, hbool, -⟩ := Postcard.Codec.pair_read_eq_ok hx
  match data with
  | [] => cases hbool
  | b :: bs =>
    simp only [Postcard.Codec.bool] at hbool
    split_ifs at hbool with hzero hone
    · exact .inl (by rw [hzero]; rfl)
    · exact .inr (by rw [hone]; rfl)

theorem PlainControl.head? {data : List UInt8} (h : PlainControl data) :
    data.head? = some 0 ∨ data.head? = some 1 := by
  obtain ⟨packet, rfl⟩ := h
  have hread := controlPacketCodec.read_write packet []
  rw [List.append_nil] at hread
  exact head?_of_read hread

namespace Kind

variable {k : Kind} {dst : Mac} {r : PoolFrame}

theorem MaySend.length_le {data : List UInt8} (h : k.MaySend dst data) :
    data.length ≤ ESP_NOW_MAX_DATA_LEN := by
  match k with
  | ⟨none, _⟩ => exact h.elim ControlData.length_le ReplyData.length_le
  | ⟨some peer, false⟩ =>
    obtain ⟨-, packet, rfl⟩ := h
    exact (controlPacketCodec.write_length_le packet).trans (by decide)
  | ⟨some peer, true⟩ =>
    rw [h.2]
    decide

theorem MaySend.given_eq_none {data : List UInt8} (h : k.MaySend dst data) {α : Type}
    {c : Postcard.Codec α} {magic : UInt32} (hmagic : 1 < magic.toUInt8)
    (hparse : parseWithMagic c data magic true ≠ none) : k.given = none := by
  have hhead := head?_of_parse hparse
  match k with
  | ⟨none, _⟩ => rfl
  | ⟨some peer, false⟩ =>
    rcases h.2.head? with hbool | hbool <;> rw [hbool] at hhead
    all_goals
      rw [← Option.some_inj.mp hhead] at hmagic
      exact absurd hmagic (by decide)
  | ⟨some peer, true⟩ =>
    rw [h.2] at hhead
    rw [← Option.some_inj.mp hhead] at hmagic
    exact absurd hmagic (by decide)

theorem MaySend.given_eq_some {data : List UInt8} (h : k.MaySend dst data) {magic : UInt32}
    {packet : ControlPacket}
    (hparse : parseWithMagic controlPacketCodec data magic false = some packet) :
    k = ⟨some dst, false⟩ := by
  have hread : (controlPacketCodec.read data).toOption.map Prod.fst = some packet := by
    simpa [parseWithMagic] using hparse
  have hhead : data.head? = some 0 ∨ data.head? = some 1 := by
    cases hok : controlPacketCodec.read data with
    | error e => simp [hok, Except.toOption] at hread
    | ok x => exact head?_of_read hok
  obtain ⟨given, responder⟩ := k
  cases given with
  | none =>
    rcases h with ⟨sent, rfl⟩ | ⟨sent, rfl⟩
    all_goals exact absurd hhead (by simp [tagged, leBytes]; decide)
  | some peer =>
    cases responder with
    | false => rw [h.1]
    | true =>
      have hshort : controlPacketCodec.read [RESPONDER_BEACON_SENTINEL] =
          .error .deserializeUnexpectedEnd := rfl
      rw [h.2, hshort] at hread
      cases hread

end Kind

/-! ## What the calls of a node do to its pairing -/

namespace Responder

/-- A frame is refused, or it is ingested and leaves the pairing as it was, or the responder locks
onto its sender. -/
theorem ingest_pairing (s : Responder) (r : PoolFrame) (txEnabled registers : Bool) :
    let s' := s.ingestControlPacket r txEnabled registers
    (s'.shared = s.shared ∧ s'.answering = s.answering) ∨
      (∃ packet, s.accepts r = some packet) ∧ s'.answering.isSome = true ∧
        (s'.shared.isConnected = s.shared.isConnected ∧
            s'.shared.initiatorMac = s.shared.initiatorMac ∨
          s.shared.isConnected = false ∧ s'.shared.isConnected = true ∧
            s'.shared.initiatorMac = r.srcAddress) := by
  cases haccepts : s.accepts r with
  | none =>
    obtain ⟨parseFail, magicDrop, sourceFilterDrop, heq⟩ :=
      ingestControlPacket_of_refused haccepts txEnabled registers
    exact .inl (by rw [heq]; exact ⟨rfl, rfl⟩)
  | some packet =>
    refine .inr ⟨⟨packet, rfl⟩, ?_⟩
    rw [ingestControlPacket_of_accepts haccepts, ingest]
    simp only [followReporting_eq_promotes]
    cases txEnabled with
    | false => exact ⟨rfl, .inl ⟨rfl, rfl⟩⟩
    | true =>
      cases hconn : s.shared.isConnected <;> cases registers <;>
        simp [connect, countSequence, sound, hconn]

theorem ingest_all {P : Responder → Prop} {rs : List PoolFrame} {txEnabled registers : Bool}
    (h : ∀ s, P s → ∀ r ∈ rs, P (s.ingestControlPacket r txEnabled registers)) {s : Responder}
    (hs : P s) : P (rs.foldl (fun s r => s.ingestControlPacket r txEnabled registers) s) := by
  induction rs generalizing s with
  | nil => exact hs
  | cons r rs ih =>
    exact ih (fun s hs r hr => h s hs r (List.mem_cons_of_mem _ hr))
      (h s hs r List.mem_cons_self)

end Responder

/-- A frame that a node of this kind may pair on. -/
def Kind.Takes (k : Kind) (r : PoolFrame) : Prop :=
  match k.given with
  | none => isControl r = true ∨ isReply r = true
  | some peer => r.srcAddress = peer ∧ (k.isResponder = true → ∃ packet,
      parseWithMagic controlPacketCodec r.data INITIATOR_MAGIC_NUMBER false = some packet)

/-- A responder owes a reply for an ingested packet, and one that was given a peer is connected to it
from the start. -/
def Responder.Bound (s : Responder) : Prop :=
  (s.shared.pendingFlag = true → s.answering.isSome = true) ∧
    ∀ peer, s.config.peerMac = some peer →
      s.shared.isConnected = true ∧ s.shared.initiatorMac = peer

namespace Node

def Bound : Node → Prop
  | .initiator s _ => ∀ peer, s.peerMac = some peer → s.downlink.txTarget = peer
  | .responder s _ => s.Bound
  | .source s => ∀ peer, s.peerMac = some peer → s.peerAddr = some peer ∧ s.greeted = true
  | .peer s => ∀ peer, s.peerMac = some peer → s.detectedSrc = some peer

theorem bound_startPaired (mac : Mac) (config : PairingConfig) : (startPaired mac config).Bound := by
  cases config with
  | initiator config node io =>
    intro peer hpeer
    have hgiven : config.peerMac = some peer := hpeer
    simp [Initiator.start, Downlink.start, hgiven]
  | responder chip config rawListen node io =>
    refine ⟨fun h => absurd h Bool.false_ne_true, fun peer hpeer => ?_⟩
    have hgiven : config.peerMac = some peer := hpeer
    simp [Responder.start, hgiven]
  | source config =>
    intro peer hpeer
    have hgiven : config.peerMac = some peer := hpeer
    simp [SimplexSource.start, hgiven]
  | peer config txEnabled => exact fun peer hpeer => hpeer

/-- What a call leaves of a node's pairing, having taken frames of `rs` at most. -/
structure Pairs (n : Node) (rs : List PoolFrame) (n' : Node) : Prop where
  kind : n'.kind = n.kind
  bound : n'.Bound
  partners : ∀ m ∈ n'.partners, m ∈ n.partners ∨ ∃ r ∈ rs, r.srcAddress = m ∧ n.kind.Takes r
  answers : n'.answers = true → n.answers = true ∨ ∃ r ∈ rs, n.kind.Takes r
  answered : n.answers = true → n'.answers = true

variable {n : Node}

theorem Bound.pairs_rcvCb (h : n.Bound) (r : PoolFrame) (rs : List PoolFrame) :
    n.Pairs rs (n.rcvCb r) := by
  cases n <;> exact ⟨rfl, h, fun _ hm => .inl hm, .inl, id⟩

theorem Bound.pairs_sent (h : n.Bound) (ok : Bool) (rs : List PoolFrame) :
    n.Pairs rs (n.sent ok) := by
  cases n with
  | initiator s io => cases ok <;> exact ⟨rfl, h, fun _ hm => .inl hm, .inl, id⟩
  | responder s io =>
    by_cases howed : s.shared.isConnected ∧ s.shared.pendingFlag
    · rw [sent, Responder.reply, if_pos howed]
      exact ⟨rfl, ⟨fun hpending => absurd hpending Bool.false_ne_true, h.2⟩,
        fun _ hm => .inl hm, .inl, id⟩
    · rw [sent, Responder.reply, if_neg howed]
      exact ⟨rfl, h, fun _ hm => .inl hm, .inl, id⟩
  | source s =>
    cases hgreeted : s.greeted with
    | true =>
      simp only [sent, hgreeted, if_true]
      cases ok <;> exact ⟨rfl, h, fun _ hm => .inl hm, .inl, id⟩
    | false =>
      simp only [sent, hgreeted, Bool.false_eq_true, if_false]
      refine ⟨rfl, fun peer hpeer => ?_, fun _ hm => .inl hm, .inl, id⟩
      exact absurd (hgreeted.symm.trans (h peer hpeer).2) Bool.false_ne_true
  | peer s => exact ⟨rfl, h, fun _ hm => .inl hm, .inl, id⟩

end Node

namespace Responder

theorem Bound.takes {s : Responder} (h : s.Bound) {r : PoolFrame} {packet : ControlPacket}
    (haccepts : s.accepts r = some packet) : Kind.Takes ⟨s.config.peerMac, true⟩ r := by
  have hparse := parse_of_accepts haccepts
  cases hgiven : s.config.peerMac with
  | none =>
    rw [hgiven] at hparse
    exact .inl (Option.isSome_iff_exists.mpr ⟨packet, hparse⟩)
  | some peer =>
    rw [hgiven] at hparse
    refine ⟨?_, fun _ => ⟨packet, hparse⟩⟩
    obtain ⟨hconn, hinitiator⟩ := h.2 peer hgiven
    unfold accepts at haccepts
    split_ifs at haccepts with hraw hother
    rw [hconn, hinitiator] at hother
    by_contra hne
    exact hother ⟨rfl, fun heq => hne heq.symm⟩

structure Pairs (s : Responder) (rs : List PoolFrame) (s' : Responder) : Prop where
  given : s'.config.peerMac = s.config.peerMac
  bound : s'.Bound
  partners : ∀ m ∈ s'.partners,
    m ∈ s.partners ∨ ∃ r ∈ rs, r.srcAddress = m ∧ Kind.Takes ⟨s.config.peerMac, true⟩ r
  answers : s'.answering.isSome = true →
    s.answering.isSome = true ∨ ∃ r ∈ rs, Kind.Takes ⟨s.config.peerMac, true⟩ r
  answered : s.answering.isSome = true → s'.answering.isSome = true

theorem Pairs.ingest {s s' : Responder} {rs : List PoolFrame} (h : s.Pairs rs s') {r : PoolFrame}
    (hr : r ∈ rs) (txEnabled registers : Bool) :
    s.Pairs rs (s'.ingestControlPacket r txEnabled registers) := by
  obtain ⟨-, hconfig⟩ := s'.ingestControlPacket_frame r txEnabled registers
  have hgiven : (s'.ingestControlPacket r txEnabled registers).config.peerMac = s.config.peerMac := by
    rw [hconfig, h.given]
  rcases s'.ingest_pairing r txEnabled registers with ⟨hshared, hanswering⟩ |
      ⟨⟨packet, haccepts⟩, hanswers, hsame | ⟨hbefore, hafter, hlocked⟩⟩
  · refine ⟨hgiven, ⟨?_, ?_⟩, ?_, ?_, ?_⟩
    · rw [hshared, hanswering]
      exact h.bound.1
    · rw [hconfig, hshared]
      exact h.bound.2
    · rw [Responder.partners, hshared]
      exact h.partners
    · rw [hanswering]
      exact h.answers
    · rw [hanswering]
      exact h.answered
  · have htakes := h.bound.takes haccepts
    rw [h.given] at htakes
    refine ⟨hgiven, ⟨fun _ => hanswers, ?_⟩, ?_, fun _ => .inr ⟨r, hr, htakes⟩, fun _ => hanswers⟩
    · rw [hconfig, hsame.1, hsame.2]
      exact h.bound.2
    · rw [Responder.partners, hsame.1, hsame.2]
      exact h.partners
  · have htakes := h.bound.takes haccepts
    rw [h.given] at htakes
    refine ⟨hgiven, ⟨fun _ => hanswers, fun peer hpeer => ?_⟩, ?_, fun _ => .inr ⟨r, hr, htakes⟩,
      fun _ => hanswers⟩
    · rw [hconfig] at hpeer
      exact absurd (hbefore.symm.trans (h.bound.2 peer hpeer).1) Bool.false_ne_true
    · rw [Responder.partners, hafter, hlocked]
      intro m hm
      exact .inr ⟨r, hr, (List.mem_singleton.mp hm).symm, htakes⟩

theorem Bound.pairs_ingest_all {s : Responder} (h : s.Bound) (pool : Pool)
    {taken rs : List PoolFrame} (htaken : ∀ r ∈ taken, r ∈ rs) (txEnabled registers : Bool) :
    s.Pairs rs (taken.foldl (fun s r => s.ingestControlPacket r txEnabled registers)
      { s with pool }) :=
  ingest_all (P := s.Pairs rs) (fun _ hs r hr => hs.ingest (htaken r hr) _ _)
    ⟨rfl, h, fun _ hm => .inl hm, .inl, id⟩

end Responder

namespace Node

variable {n : Node}

theorem Bound.pairs_receive (h : n.Bound) (registers : Bool) :
    n.Pairs n.pool.queue (n.receive registers) := by
  cases n with
  | initiator s io =>
    simp only [receive, Initiator.receive]
    split_ifs
    · refine ⟨rfl, fun peer hpeer => ?_, fun m hm => ?_, .inl, id⟩
      -- with a peer given, the target is not chosen anew
      · have hgiven : s.peerMac = some peer := hpeer
        simp only [Downlink.receivePass, hgiven]
        rfl
      · rcases List.mem_append.mp hm with hold | hnew
        · exact .inl hold
        · obtain ⟨r, hr, hsrc⟩ := List.mem_map.mp hnew
          obtain ⟨hdrained, haccepts⟩ := List.mem_filter.mp hr
          -- a new partner sent one of the frames just drained
          refine .inr ⟨r, Pool.mem_drain hdrained, hsrc, ?_⟩
          rw [Kind.Takes, kind]
          cases hgiven : s.peerMac with
          | none =>
            rw [hgiven] at haccepts
            exact .inr haccepts
          | some peer =>
            rw [hgiven] at haccepts
            exact ⟨of_decide_eq_true haccepts, fun hf => absurd hf Bool.false_ne_true⟩
    · exact ⟨rfl, h, fun _ hm => .inl hm, .inl, id⟩
  | responder s io =>
    have hpairs {s' : Responder} (hs : s.Pairs s.pool.queue s') :
        (Node.responder s io).Pairs s.pool.queue (.responder s' io) :=
      ⟨congrArg (Kind.mk · true) hs.given, hs.bound, hs.partners, hs.answers, hs.answered⟩
    simp only [receive]
    split_ifs
    · exact hpairs (Responder.Bound.pairs_ingest_all h _
        (fun _ hr => Pool.mem_drain hr) _ _)
    · simp only [Responder.receive]
      split_ifs
      · exact hpairs (Responder.Bound.pairs_ingest_all h _
          (fun _ hr => Pool.mem_drain hr) _ _)
      · exact ⟨rfl, h, fun _ hm => .inl hm, .inl, id⟩
  | source s =>
    simp only [receive, SimplexSource.discover, pool]
    cases hpeer : s.peerAddr with
    | some peer => exact ⟨rfl, h, fun _ hm => .inl hm, .inl, id⟩
    | none =>
      -- it still looks for its peer, so none was given
      have hauto : s.peerMac = none := by
        by_contra hgiven
        obtain ⟨peer, hgiven⟩ := Option.ne_none_iff_exists'.mp hgiven
        exact absurd (hpeer.symm.trans (h peer hgiven).1) (Option.some_ne_none _).symm
      cases hqueue : s.pool.queue with
      | nil => exact ⟨rfl, h, fun _ hm => .inl hm, .inl, id⟩
      | cons r rest =>
        have hnone (peer : Mac) : s.peerMac ≠ some peer :=
          hauto ▸ (Option.some_ne_none peer).symm
        refine ⟨rfl, fun peer hgiven => absurd hgiven (hnone peer), fun m hm => ?_, .inl, id⟩
        simp only [partners] at hm
        split_ifs at hm with hcontrol
        · refine .inr ⟨r, List.mem_cons_self, Option.some_inj.mp (Option.mem_toList.mp hm), ?_⟩
          rw [Kind.Takes, kind, hauto]
          exact .inl hcontrol
        · simp at hm
  | peer s =>
    simp only [receive, pool]
    cases hdetected : s.detectedSrc with
    | some src =>
      have hlisten : s.listen = { s with pool := (s.pool.drain (1 + RX_BURST_MAX_RX_ONLY)).2 } := by
        simp [SimplexPeer.listen, hdetected]
      rw [hlisten]
      exact ⟨rfl, h, fun _ hm => .inl hm, .inl, id⟩
    | none =>
      have hauto : s.peerMac = none := by
        by_contra hgiven
        obtain ⟨peer, hgiven⟩ := Option.ne_none_iff_exists'.mp hgiven
        exact absurd (hdetected.symm.trans (h peer hgiven)) (Option.some_ne_none _).symm
      cases hqueue : s.pool.queue with
      | nil =>
        have hlisten : s.listen = s := by simp [SimplexPeer.listen, hdetected, hqueue]
        rw [hlisten]
        exact ⟨rfl, h, fun _ hm => .inl hm, .inl, id⟩
      | cons r rest =>
        simp only [SimplexPeer.listen, hdetected, hqueue]
        have hnone (peer : Mac) : s.peerMac ≠ some peer :=
          hauto ▸ (Option.some_ne_none peer).symm
        refine ⟨rfl, fun peer hgiven => absurd hgiven (hnone peer), fun m hm => ?_, .inl, id⟩
        simp only [partners, SimplexPeer.isSource, hauto] at hm
        split_ifs at hm with hreply
        · refine .inr ⟨r, List.mem_cons_self, Option.some_inj.mp (Option.mem_toList.mp hm), ?_⟩
          rw [Kind.Takes, kind, hauto]
          exact .inr hreply
        · simp at hm

theorem Bound.sends (h : n.Bound) {out : Mac × List UInt8} (hframe : n.frame = some out) :
    n.kind.MaySend out.1 out.2 ∧ (n.kind.isResponder = true → n.answers = true) := by
  cases hgiven : n.kind.given with
  | none =>
    -- a node that pairs automatically: its frames are those of its role
    have hauto : n.Auto := by cases n <;> exact hgiven
    have hkind : n.kind = ⟨none, n.kind.isResponder⟩ := by rw [← hgiven]
    have hsend := maySend_of_frame hauto hframe
    refine ⟨?_, fun hresponder => ?_⟩
    · rw [hkind]
      cases n with
      | initiator s io => exact .inl hsend
      | responder s io => exact .inr hsend
      | source s => exact hsend.2
      | peer s => exact .inl hsend
    · cases n with
      | responder s io =>
        simp only [frame, Responder.reply] at hframe
        split_ifs at hframe with htx howed
        exact h.1 howed.2
      | _ => cases hresponder
  -- a node that was given a peer sends to it, but for a responder's broadcasts
  | some peer =>
    cases n with
    | initiator s io =>
      have hpeer : s.peerMac = some peer := hgiven
      simp only [frame, Initiator.controlFrame_eq, hpeer, Option.isNone_some] at hframe
      split_ifs at hframe
      obtain rfl := Option.some_inj.mp hframe
      simp only [kind, hpeer]
      exact ⟨⟨h peer hpeer, _, rfl⟩, fun hf => absurd hf Bool.false_ne_true⟩
    | responder s io =>
      have hpeer : s.config.peerMac = some peer := hgiven
      simp only [frame, Responder.reply, Responder.replyData_eq, hpeer, Option.isNone_some,
        Bool.false_eq_true, if_false, Option.map_some] at hframe
      split_ifs at hframe with htx howed
      obtain rfl := Option.some_inj.mp hframe
      simp only [kind, hpeer]
      refine ⟨⟨?_, rfl⟩, fun _ => h.1 howed.2⟩
      rw [Responder.replyDestination, (h.2 peer hpeer).2]
      split_ifs
      · exact .inl rfl
      · exact .inr rfl
    | source s =>
      have hpeer : s.peerMac = some peer := hgiven
      obtain ⟨haddr, hgreeted⟩ := h peer hpeer
      simp only [frame, hgreeted, if_true, SimplexSource.floodFrame, haddr, hpeer] at hframe
      obtain ⟨data, hdata, rfl⟩ := Option.map_eq_some_iff.mp hframe
      simp only [kind, hpeer]
      exact ⟨⟨rfl, _, eq_tagged_of_serialize hdata⟩, fun hf => absurd hf Bool.false_ne_true⟩
    | peer s =>
      have hpeer : s.peerMac = some peer := hgiven
      simp [frame, SimplexPeer.beacon, h peer hpeer] at hframe

end Node

/-! ## The channel -/

namespace Network

/-- A node powers on as it was configured; all else is as between automatic nodes. -/
inductive PairingEvent where
  | powerOn (mac : Mac) (config : PairingConfig)
  | act (e : Event)

def stepPaired (s : Network) : PairingEvent → Network
  | .powerOn mac config =>
    if mac = BROADCAST_ADDRESS ∨ (s.nodes mac).isSome then s else s.set mac (.startPaired mac config)
  | .act e => s.step e

def kindAt (s : Network) (mac : Mac) : Option Kind := (s.nodes mac).map Node.kind

/-- The node at `peer` sends control packets, and was given `mac` to send them to. -/
def Addresses (s : Network) (peer mac : Mac) : Prop :=
  ∃ k, s.kindAt peer = some k ∧ k.isResponder = false ∧
    (k.given = some mac ∨ k.given = some BROADCAST_ADDRESS)

/-- Nodes pair as they were told to. One that was given a peer pairs with it alone and sends to it
alone, but for a responder's broadcasts; as a responder it takes in packets and replies only if it is
its peer's peer. One that was not pairs with nodes of its own mode only. -/
structure PairedAsGiven (s : Network) : Prop where
  partners : ∀ mac n peer, s.nodes mac = some n → n.kind.given = some peer →
    ∀ m ∈ n.partners, m = peer
  sends : ∀ mac n peer, s.nodes mac = some n → n.kind.given = some peer → ∀ f ∈ s.air, f.src = mac →
    f.dst = peer ∨ n.kind.isResponder = true ∧ f.dst = BROADCAST_ADDRESS
  reciprocal : ∀ mac n peer, s.nodes mac = some n → n.kind = ⟨some peer, true⟩ →
    (n.answers = true ∨ ∃ f ∈ s.air, f.src = mac) → s.Addresses peer mac
  automatic : ∀ mac n, s.nodes mac = some n → n.kind.given = none →
    ∀ m ∈ n.partners, ∃ k, s.kindAt m = some k ∧ k.given = none

def Heard (s : Network) (mac : Mac) (r : PoolFrame) : Prop :=
  ∃ k dst, s.kindAt r.srcAddress = some k ∧ k.MaySend dst r.data ∧
    (dst = BROADCAST_ADDRESS ∨ dst = mac)

def MayPair (s : Network) (k : Kind) (m : Mac) : Prop :=
  match k.given with
  | some peer => m = peer
  | none => ∃ k', s.kindAt m = some k' ∧ k'.given = none

structure Ruled (s : Network) : Prop where
  bound : ∀ mac n, s.nodes mac = some n → n.Bound
  pool : ∀ mac n, s.nodes mac = some n → ∀ r ∈ n.pool.queue, s.Heard mac r
  partners : ∀ mac n, s.nodes mac = some n → ∀ m ∈ n.partners, s.MayPair n.kind m
  answers : ∀ mac n peer, s.nodes mac = some n → n.kind = ⟨some peer, true⟩ → n.answers = true →
    s.Addresses peer mac
  air : ∀ f ∈ s.air, ∃ n, s.nodes f.src = some n ∧ n.kind.MaySend f.dst f.data ∧
    (n.kind.isResponder = true → n.answers = true)

theorem ruled_start : start.Ruled where
  bound := fun _ _ hn => nomatch (show none = some _ from hn)
  pool := fun _ _ hn => nomatch (show none = some _ from hn)
  partners := fun _ _ hn => nomatch (show none = some _ from hn)
  answers := fun _ _ _ hn => nomatch (show none = some _ from hn)
  air := fun _ hf => absurd hf List.not_mem_nil

theorem kindAt_of_node {s : Network} {mac : Mac} {n : Node} (hn : s.nodes mac = some n) :
    s.kindAt mac = some n.kind := by
  rw [kindAt, hn]
  rfl

variable {s s' : Network} {mac : Mac} {n n' : Node}

theorem Ruled.pairedAsGiven (h : s.Ruled) : s.PairedAsGiven where
  partners mac n peer hn hgiven m hm := by
    have hpair := h.partners mac n hn m hm
    rwa [MayPair, hgiven] at hpair
  sends mac n peer hn hgiven f hf hsrc := by
    obtain ⟨n', hn', hsend, -⟩ := h.air f hf
    rw [hsrc, hn] at hn'
    obtain rfl := Option.some_inj.mp hn'
    cases hkind : n.kind with
    | mk given isResponder =>
      rw [hkind] at hgiven hsend
      obtain rfl : given = some peer := hgiven
      cases isResponder with
      | false => exact .inl hsend.1
      | true => exact hsend.1.imp id fun hdst => ⟨rfl, hdst⟩
  reciprocal mac n peer hn hkind hacts := by
    apply h.answers mac n peer hn hkind
    rcases hacts with hanswers | ⟨f, hf, hsrc⟩
    · exact hanswers
    · obtain ⟨n', hn', -, hanswers⟩ := h.air f hf
      rw [hsrc, hn] at hn'
      obtain rfl := Option.some_inj.mp hn'
      exact hanswers (by rw [hkind])
  automatic mac n hn hgiven m hm := by
    have hpair := h.partners mac n hn m hm
    rwa [MayPair, hgiven] at hpair

theorem Heard.mayPair {r : PoolFrame} (h : s.Heard mac r) {k : Kind} (htakes : k.Takes r) :
    s.MayPair k r.srcAddress := by
  obtain ⟨k', dst, hkind, hsend, -⟩ := h
  rw [Kind.Takes] at htakes
  rw [MayPair]
  cases hgiven : k.given with
  | some peer =>
    rw [hgiven] at htakes
    exact htakes.1
  | none =>
    rw [hgiven] at htakes
    refine ⟨k', hkind, ?_⟩
    rcases htakes with hcontrol | hreply
    · exact hsend.given_eq_none (by decide) (Option.isSome_iff_ne_none.mp hcontrol)
    · exact hsend.given_eq_none (by decide) (Option.isSome_iff_ne_none.mp hreply)

theorem Heard.addresses {r : PoolFrame} (h : s.Heard mac r) {peer : Mac}
    (htakes : Kind.Takes ⟨some peer, true⟩ r) : s.Addresses peer mac := by
  obtain ⟨k, dst, hkind, hsend, hdst⟩ := h
  obtain ⟨hsrc, hparses⟩ := htakes
  obtain ⟨packet, hparse⟩ := hparses rfl
  obtain rfl := hsend.given_eq_some hparse
  refine ⟨_, hsrc ▸ hkind, rfl, ?_⟩
  exact hdst.symm.imp (congrArg some) (congrArg some)

/-! ## Every run -/

theorem kindAt_update (hn : s.nodes mac = some n) (hkind : n'.kind = n.kind)
    (hnodes : s'.nodes = Function.update s.nodes mac (some n')) : s'.kindAt = s.kindAt := by
  funext m
  by_cases hm : m = mac
  · subst hm
    rw [kindAt_of_node hn, kindAt, hnodes, Function.update_self, Option.map_some, hkind]
  · rw [kindAt, hnodes, Function.update_of_ne hm, kindAt]

theorem Ruled.update (h : s.Ruled) (hn : s.nodes mac = some n) (hpairs : n.Pairs n.pool.queue n')
    (hpool : ∀ r ∈ n'.pool.queue, s.Heard mac r)
    (hnodes : s'.nodes = Function.update s.nodes mac (some n'))
    (hair : ∀ f ∈ s'.air, f ∈ s.air ∨ f.src = mac ∧ n.kind.MaySend f.dst f.data ∧
      (n.kind.isResponder = true → n.answers = true)) : s'.Ruled := by
  have hkinds := kindAt_update hn hpairs.kind hnodes
  have hself : s'.nodes mac = some n' := by rw [hnodes, Function.update_self]
  have hother {m : Mac} (hm : m ≠ mac) : s'.nodes m = s.nodes m := by
    rw [hnodes, Function.update_of_ne hm]
  have hheard {m : Mac} {r : PoolFrame} (hr : s.Heard m r) : s'.Heard m r := by
    rwa [Heard, hkinds]
  have hmay {k : Kind} {m : Mac} (hm : s.MayPair k m) : s'.MayPair k m := by
    rwa [MayPair, hkinds]
  constructor
  · intro m x hx
    by_cases hm : m = mac
    · subst hm
      obtain rfl := Option.some_inj.mp (hself.symm.trans hx)
      exact hpairs.bound
    · exact h.bound m x (hother hm ▸ hx)
  -- what is in the pools was sent by a node of some kind, and kinds do not change
  · intro m x hx r hr
    by_cases hm : m = mac
    · subst hm
      obtain rfl := Option.some_inj.mp (hself.symm.trans hx)
      exact hheard (hpool r hr)
    · exact hheard (h.pool m x (hother hm ▸ hx) r hr)
  · intro m x hx p hp
    by_cases hm : m = mac
    · subst hm
      obtain rfl := Option.some_inj.mp (hself.symm.trans hx)
      rw [hpairs.kind]
      -- a partner is an old one, or sent the frame that was taken
      rcases hpairs.partners p hp with hold | ⟨r, hr, rfl, htakes⟩
      · exact hmay (h.partners m n hn p hold)
      · exact hmay ((h.pool m n hn r hr).mayPair htakes)
    · exact hmay (h.partners m x (hother hm ▸ hx) p hp)
  · intro m x peer hx hkind hanswers
    rw [Addresses, hkinds]
    by_cases hm : m = mac
    · subst hm
      obtain rfl := Option.some_inj.mp (hself.symm.trans hx)
      rw [hpairs.kind] at hkind
      rcases hpairs.answers hanswers with hold | ⟨r, hr, htakes⟩
      · exact h.answers m n peer hn hkind hold
      · exact (h.pool m n hn r hr).addresses (hkind ▸ htakes)
    · exact h.answers m x peer (hother hm ▸ hx) hkind hanswers
  · intro f hf
    -- the sender of an old frame is still there, with what it has answered
    rcases hair f hf with hold | ⟨rfl, hsend, hanswers⟩
    · obtain ⟨x, hx, hsend, hanswers⟩ := h.air f hold
      by_cases hm : f.src = mac
      · obtain rfl := Option.some_inj.mp ((hm ▸ hx : s.nodes mac = some x).symm.trans hn)
        refine ⟨n', hm ▸ hself, ?_, ?_⟩
        · rwa [hpairs.kind]
        · rw [hpairs.kind]
          exact fun hresponder => hpairs.answered (hanswers hresponder)
      · exact ⟨x, (hother hm).trans hx, hsend, hanswers⟩
    · refine ⟨n', hself, ?_, ?_⟩
      · rwa [hpairs.kind]
      · rw [hpairs.kind]
        exact fun hresponder => hpairs.answered (hanswers hresponder)

theorem mayPair_startPaired (mac : Mac) (config : PairingConfig) {m : Mac}
    (hm : m ∈ (Node.startPaired mac config).partners) :
    s.MayPair (Node.startPaired mac config).kind m := by
  cases config with
  | initiator config node io => exact absurd hm List.not_mem_nil
  | responder chip config rawListen node io =>
    cases hgiven : config.peerMac with
    | none => simp [Node.startPaired, Node.partners, Responder.partners, Responder.start, hgiven] at hm
    | some peer =>
      simpa [Node.startPaired, Node.partners, Node.kind, Responder.partners, Responder.start, MayPair,
        hgiven] using hm
  | source config =>
    cases hgiven : config.peerMac with
    | none => simp [Node.startPaired, Node.partners, SimplexSource.start, hgiven] at hm
    | some peer =>
      simpa [Node.startPaired, Node.partners, Node.kind, SimplexSource.start, MayPair, hgiven,
        eq_comm] using hm
  | peer config txEnabled =>
    cases hgiven : config.peerMac with
    | none => simp [Node.startPaired, Node.partners, SimplexPeer.start, hgiven] at hm
    | some peer =>
      simpa [Node.startPaired, Node.partners, Node.kind, SimplexPeer.start, MayPair, hgiven,
        eq_comm] using hm

theorem Ruled.powerOn (h : s.Ruled) (hfresh : s.nodes mac = none) (config : PairingConfig) :
    (s.set mac (.startPaired mac config)).Ruled := by
  have hself : (s.set mac (.startPaired mac config)).nodes mac = some (.startPaired mac config) :=
    Function.update_self ..
  have hother {m : Mac} (hm : m ≠ mac) :
      (s.set mac (.startPaired mac config)).nodes m = s.nodes m :=
    Function.update_of_ne hm ..
  -- the address was free, so no node changes its kind
  have hkinds {m : Mac} {k : Kind} (hk : s.kindAt m = some k) :
      (s.set mac (.startPaired mac config)).kindAt m = some k := by
    have hm : m ≠ mac := by
      rintro rfl
      rw [kindAt, hfresh] at hk
      cases hk
    rwa [kindAt, hother hm]
  have hpool : (Node.startPaired mac config).pool.queue = [] := by cases config <;> rfl
  have hanswers : (Node.startPaired mac config).answers = false := by cases config <;> rfl
  constructor
  · intro m x hx
    by_cases hm : m = mac
    · subst hm
      obtain rfl := Option.some_inj.mp (hself.symm.trans hx)
      exact Node.bound_startPaired m config
    · exact h.bound m x (hother hm ▸ hx)
  · intro m x hx r hr
    by_cases hm : m = mac
    · subst hm
      obtain rfl := Option.some_inj.mp (hself.symm.trans hx)
      rw [hpool] at hr
      exact absurd hr List.not_mem_nil
    · obtain ⟨k, dst, hk, hsend⟩ := h.pool m x (hother hm ▸ hx) r hr
      exact ⟨k, dst, hkinds hk, hsend⟩
  · intro m x hx p hp
    by_cases hm : m = mac
    · subst hm
      obtain rfl := Option.some_inj.mp (hself.symm.trans hx)
      exact mayPair_startPaired m config hp
    · have hpair := h.partners m x (hother hm ▸ hx) p hp
      rw [MayPair] at hpair ⊢
      cases hgiven : x.kind.given with
      | some peer => rwa [hgiven] at hpair
      | none =>
        rw [hgiven] at hpair
        obtain ⟨k, hk, hnone⟩ := hpair
        exact ⟨k, hkinds hk, hnone⟩
  · intro m x peer hx hkind hx'
    by_cases hm : m = mac
    · subst hm
      obtain rfl := Option.some_inj.mp (hself.symm.trans hx)
      exact absurd (hanswers.symm.trans hx') Bool.false_ne_true
    · obtain ⟨k, hk, hsends⟩ := h.answers m x peer (hother hm ▸ hx) hkind hx'
      exact ⟨k, hkinds hk, hsends⟩
  · intro f hf
    -- no frame on the air is from the new address
    obtain ⟨x, hx, hsend⟩ := h.air f hf
    have hm : f.src ≠ mac := fun heq => by
      rw [heq, hfresh] at hx
      cases hx
    exact ⟨x, (hother hm).trans hx, hsend⟩

theorem start_eq_startPaired (mac : Mac) (config : NodeConfig) :
    ∃ config', Node.start mac config = .startPaired mac config' := by
  cases config with
  | initiator config node io => exact ⟨.initiator { config with peerMac := none } node io, rfl⟩
  | responder chip config rawListen node io =>
    exact ⟨.responder chip { config with peerMac := none } rawListen node io, rfl⟩
  | source config => exact ⟨.source { config with peerMac := none }, rfl⟩
  | peer txEnabled => exact ⟨.peer .default txEnabled, rfl⟩

theorem Ruled.outcome (h : s.Ruled) {e : Event} (hs : Outcome s e s') : s'.Ruled := by
  cases hs with
  | skip _ => exact h
  | powerOn config hunicast hfresh =>
    obtain ⟨config', heq⟩ := start_eq_startPaired _ config
    rw [heq]
    exact h.powerOn hfresh config'
  | @arrive mac n f k hn hf hreceived =>
    refine h.update hn ((h.bound mac n hn).pairs_rcvCb _ _) (fun r hr => ?_) rfl fun f hf => .inl hf
    rw [Node.pool_rcvCb] at hr
    rcases Pool.mem_rcvCb hr with hold | rfl
    · exact h.pool mac n hn r hold
    · obtain ⟨x, hx, hsend, -⟩ := h.air f hf
      have hdata : f.data.take ESP_NOW_MAX_DATA_LEN = f.data :=
        List.take_of_length_le hsend.length_le
      refine ⟨x.kind, f.dst, kindAt_of_node hx, ?_, ?_⟩
      · show x.kind.MaySend f.dst (f.data.take ESP_NOW_MAX_DATA_LEN)
        rwa [hdata]
      · simp only [Transmission.receivedBy, Bool.and_eq_true, Bool.or_eq_true,
          decide_eq_true_eq] at hreceived
        exact hreceived.2
  | @receive mac n registers hn =>
    exact h.update hn ((h.bound mac n hn).pairs_receive registers)
      (fun r hr => h.pool mac n hn r (Node.mem_pool_receive hr)) rfl fun f hf => .inl hf
  | @send mac n out ok hn hframe =>
    obtain ⟨hsend, hanswers⟩ := (h.bound mac n hn).sends hframe
    refine h.update hn ((h.bound mac n hn).pairs_sent ok _) (fun r hr => ?_) rfl fun f hf => ?_
    · rw [Node.pool_sent] at hr
      exact h.pool mac n hn r hr
    · rcases List.mem_append.mp hf with hold | hnew
      · exact .inl hold
      · obtain rfl := List.mem_singleton.mp hnew
        exact .inr ⟨rfl, hsend, hanswers⟩

theorem Ruled.step (h : s.Ruled) (e : PairingEvent) : (s.stepPaired e).Ruled := by
  cases e with
  | powerOn mac config =>
    simp only [stepPaired]
    split_ifs with hknown
    · exact h
    · exact h.powerOn (Option.not_isSome_iff_eq_none.mp (not_or.mp hknown).2) config
  | act e => exact h.outcome (s.step_outcome e)

/-- Nodes pair as they were told to, whatever is lost, repeated or reordered. -/
theorem always_pairedAsGiven (es : List PairingEvent) :
    Always stepPaired PairedAsGiven start es := by
  have hruled : Always stepPaired Ruled start es :=
    always_of_step ruled_start fun s e hs => hs.step e
  exact fun pre hpre => (hruled pre hpre).pairedAsGiven

def controlAndReply (given₁ given₂ : Option Mac) : List PairingEvent :=
  let mac₁ : Mac := ⟨2, 0, 0, 0, 0, 1⟩
  let mac₂ : Mac := ⟨2, 0, 0, 0, 0, 2⟩
  [ .powerOn mac₁ (.initiator ⟨given₁, none, false⟩ .boot ⟨true, true⟩),
    .powerOn mac₂ (.responder .esp32 ⟨given₂, none, false⟩ false .boot ⟨true, true⟩),
    .act (.send mac₁ true), .act (.arrive 0 mac₂), .act (.receive mac₂ true),
    .act (.send mac₂ true) ]

example : (run stepPaired start (controlAndReply (some ⟨2, 0, 0, 0, 0, 2⟩)
    (some ⟨2, 0, 0, 0, 0, 1⟩))).air.length = 2 := by decide +kernel

example : (run stepPaired start (controlAndReply none
    (some ⟨2, 0, 0, 0, 0, 1⟩))).air.length = 1 := by decide +kernel

end Network

end EspCsi.EspNow
