import EspCsi.Lib.Postcard
import EspCsi.Wire.Types

/-!
# ESP-NOW packets

The wire format of `protocol.rs`: a control packet from the initiator and a presence beacon from a
responder, each behind a magic prefix in auto pairing.
-/

namespace EspCsi.EspNow

open Postcard

def INITIATOR_MAGIC_NUMBER : UInt32 := 0xA8912BF0

def RESPONDER_MAGIC_NUMBER : UInt32 := ~~~INITIATOR_MAGIC_NUMBER

structure ControlPacket where
  initiatorReports : Bool
  sequenceNumber : UInt32
deriving DecidableEq, Repr

/-- A pure presence beacon. -/
structure ResponderPacket where
deriving DecidableEq, Repr

def controlPacketCodec : Codec ControlPacket :=
  (Codec.bool.pair .u32).imap (fun p => (p.initiatorReports, p.sequenceNumber))
    (fun (initiatorReports, sequenceNumber) => ⟨initiatorReports, sequenceNumber⟩) fun _ => rfl

def responderPacketCodec : Codec ResponderPacket :=
  Codec.unit.imap (fun _ => ()) (fun _ => ⟨⟩) fun _ => rfl

/-- What a manual-mode reply carries, so that the frame is never empty. -/
def RESPONDER_BEACON_SENTINEL : UInt8 := 0

def leBytes (n : UInt32) : List UInt8 :=
  [n.toUInt8, (n >>> 8).toUInt8, (n >>> 16).toUInt8, (n >>> 24).toUInt8]

def ofLeBytes (b0 b1 b2 b3 : UInt8) : UInt32 :=
  UInt32.ofNat (b0.toNat + 256 * (b1.toNat + 256 * (b2.toNat + 256 * b3.toNat)))

/-- The bytes of a packet, behind the magic prefix when `sendMagic`. -/
def tagged {α : Type} (c : Codec α) (packet : α) (magic : UInt32) (sendMagic : Bool) : List UInt8 :=
  (if sendMagic then leBytes magic else []) ++ c.write packet

/-- Serialize into a buffer of `bufLen` bytes. -/
def serializeWithMagic {α : Type} (c : Codec α) (packet : α) (magic : UInt32) (sendMagic : Bool)
    (bufLen : ℕ) : Except Error (List UInt8) :=
  if (tagged c packet magic sendMagic).length ≤ bufLen then .ok (tagged c packet magic sendMagic)
  else .error .serializeBufferFull

/-- Parse a frame, which has to start with `magic` when `expectMagic`. Bytes after the packet are
ignored. -/
def parseWithMagic {α : Type} (c : Codec α) (data : List UInt8) (magic : UInt32)
    (expectMagic : Bool) : Option α :=
  let body :=
    if expectMagic then
      match data with
      | b0 :: b1 :: b2 :: b3 :: rest => if ofLeBytes b0 b1 b2 b3 = magic then some rest else none
      | _ => none
    else some data
  body.bind fun body => (c.read body).toOption.map Prod.fst

/-- What follows the first occurrence of the initiator's magic. -/
def afterMagic : List UInt8 → Option (List UInt8)
  | b0 :: b1 :: b2 :: b3 :: rest =>
    if [b0, b1, b2, b3] = leBytes INITIATOR_MAGIC_NUMBER then some rest
    else afterMagic (b1 :: b2 :: b3 :: rest)
  | _ => none

/-- The sounding number of an initiator's control frame, found in a received frame's payload. -/
def controlSequenceIn (payload : List UInt8) : Option UInt32 :=
  (afterMagic payload).bind fun body =>
    (controlPacketCodec.read body).toOption.map fun p => p.1.sequenceNumber

theorem ofLeBytes_leBytes (n : UInt32) :
    ofLeBytes n.toUInt8 (n >>> 8).toUInt8 (n >>> 16).toUInt8 (n >>> 24).toUInt8 = n := by
  apply UInt32.toNat_inj.mp
  have hn := n.toNat_lt
  simp only [ofLeBytes, UInt32.toNat_ofNat', UInt32.toNat_toUInt8, UInt32.toNat_shiftRight,
    UInt32.reduceToNat, Nat.reduceMod, Nat.shiftRight_eq_div_pow]
  omega

theorem tagged_length_le {α : Type} (c : Codec α) (packet : α) (magic : UInt32)
    (sendMagic : Bool) : (tagged c packet magic sendMagic).length ≤ 4 + c.maxSize := by
  have hwrite := c.write_length_le packet
  unfold tagged
  rw [List.length_append]
  split_ifs
  · simp only [leBytes, List.length_cons, List.length_nil]
    omega
  · simp only [List.length_nil]
    omega

theorem serializeWithMagic_fits {α : Type} (c : Codec α) (packet : α) (magic : UInt32)
    (sendMagic : Bool) {bufLen : ℕ} (h : 4 + c.maxSize ≤ bufLen) :
    serializeWithMagic c packet magic sendMagic bufLen =
      .ok (tagged c packet magic sendMagic) := by
  rw [serializeWithMagic, if_pos ((tagged_length_le c packet magic sendMagic).trans h)]

theorem eq_tagged_of_serialize {α : Type} {c : Codec α} {packet : α} {magic : UInt32}
    {sendMagic : Bool} {bufLen : ℕ} {data : List UInt8}
    (h : (serializeWithMagic c packet magic sendMagic bufLen).toOption = some data) :
    data = tagged c packet magic sendMagic := by
  unfold serializeWithMagic at h
  split_ifs at h
  · exact (Option.some_inj.mp h).symm
  · cases h

/-- A frame parses back under the pairing mode it was written in, whatever it is padded with. -/
theorem parseWithMagic_tagged {α : Type} (c : Codec α) (packet : α) (magic : UInt32)
    (sendMagic : Bool) (pad : List UInt8) :
    parseWithMagic c (tagged c packet magic sendMagic ++ pad) magic sendMagic = some packet := by
  cases sendMagic with
  | false => simp [parseWithMagic, tagged, c.read_write, Except.toOption]
  | true =>
    simp [parseWithMagic, tagged, leBytes, ofLeBytes_leBytes, c.read_write, Except.toOption]

/-- A frame behind another magic is not taken for one behind `magic`. -/
theorem parseWithMagic_other {α β : Type} (c : Codec α) (d : Codec β) (packet : α)
    {magic magic' : UInt32} (hne : magic' ≠ magic) (pad : List UInt8) :
    parseWithMagic d (tagged c packet magic' true ++ pad) magic true = none := by
  simp [parseWithMagic, tagged, leBytes, ofLeBytes_leBytes, hne]

/-! ## Looking into a payload -/

theorem leBytes_INITIATOR_MAGIC_NUMBER :
    leBytes INITIATOR_MAGIC_NUMBER = [0xF0, 0x2B, 0x91, 0xA8] := by
  decide

theorem afterMagic_cons (b : UInt8) (bs : List UInt8) :
    afterMagic (b :: bs) =
      if (b :: bs).take 4 = leBytes INITIATOR_MAGIC_NUMBER then some ((b :: bs).drop 4)
      else afterMagic bs := by
  match bs with
  | [] => simp [afterMagic, leBytes]
  | [b1] => simp [afterMagic, leBytes]
  | [b1, b2] => simp [afterMagic, leBytes]
  | b1 :: b2 :: b3 :: rest => simp [afterMagic]

/-- Bytes without the magic in front of others complete none, where those start with a byte that can
only be its first. -/
theorem afterMagic_append {head : List UInt8} (h : afterMagic head = none) {b0 : UInt8}
    (hb0 : b0 ∉ (leBytes INITIATOR_MAGIC_NUMBER).tail) (tail : List UInt8) :
    afterMagic (head ++ b0 :: tail) = afterMagic (b0 :: tail) := by
  rw [leBytes_INITIATOR_MAGIC_NUMBER] at hb0
  induction head with
  | nil => rfl
  | cons b head ih =>
    rw [afterMagic_cons] at h
    split_ifs at h with hhead
    rw [List.cons_append, afterMagic_cons, if_neg, ih h]
    intro hwindow
    rw [leBytes_INITIATOR_MAGIC_NUMBER] at hwindow hhead
    -- a window that reaches into the other bytes has `b0` behind its first place
    match head with
    | [] | [b1] | [b1, b2] =>
      apply hb0
      simp at hwindow
      simp [hwindow]
    | b1 :: b2 :: b3 :: rest => exact hhead (by simpa using hwindow)

/-- A reply's bytes complete no magic, wherever they stand. -/
theorem afterMagic_append_reply {head : List UInt8} (h : afterMagic head = none) :
    afterMagic (head ++ tagged responderPacketCodec ⟨⟩ RESPONDER_MAGIC_NUMBER true) = none := by
  have hreply : tagged responderPacketCodec ⟨⟩ RESPONDER_MAGIC_NUMBER true =
      [0x0F, 0xD4, 0x6E, 0x57] := by
    decide
  rw [hreply, afterMagic_append h (by decide)]
  decide

theorem controlSequenceIn_append {head : List UInt8} (h : afterMagic head = none)
    (packet : ControlPacket) (pad : List UInt8) :
    controlSequenceIn (head ++ (tagged controlPacketCodec packet INITIATOR_MAGIC_NUMBER true ++ pad)) =
      some packet.sequenceNumber := by
  have hfound : afterMagic (head ++ (leBytes INITIATOR_MAGIC_NUMBER ++
      (controlPacketCodec.write packet ++ pad))) = some (controlPacketCodec.write packet ++ pad) := by
    rw [leBytes_INITIATOR_MAGIC_NUMBER, List.cons_append, afterMagic_append h (by decide)]
    rfl
  rw [controlSequenceIn, tagged, if_pos rfl, List.append_assoc, hfound, Option.bind_some,
    controlPacketCodec.read_write]
  rfl

end EspCsi.EspNow
