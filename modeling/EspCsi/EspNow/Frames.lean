import EspCsi.EspNow.Labels

/-!
# Whole and cut control frames

What a control frame's bytes give back to a receiver and to the lookup in a captured payload, and that
they give nothing once they are cut short.
-/

namespace EspCsi.EspNow

open Postcard Wire

theorem extends_controlPacketCodec : controlPacketCodec.Extends :=
  ((Codec.local_bool.pair Codec.local_u32).imap fun _ => rfl).extends

theorem leBytes_length (n : UInt32) : (leBytes n).length = 4 := rfl

theorem take_tagged {α : Type} (c : Codec α) (packet : α) (magic : UInt32) (k : ℕ) :
    (tagged c packet magic true).take (4 + k) = leBytes magic ++ (c.write packet).take k := by
  rw [tagged, if_pos rfl, ← leBytes_length magic, List.take_length_add_append]

theorem parseWithMagic_short {α : Type} (c : Codec α) {bytes : List UInt8} (h : bytes.length < 4)
    (magic : UInt32) : parseWithMagic c bytes magic true = none := by
  rcases bytes with _ | ⟨b0, _ | ⟨b1, _ | ⟨b2, _ | ⟨b3, rest⟩⟩⟩⟩
  · rfl
  · rfl
  · rfl
  · rfl
  · simp only [List.length_cons] at h
    omega

theorem parseWithMagic_cut (packet : ControlPacket) (magic : UInt32) (sendMagic : Bool) {k : ℕ}
    (hk : k < (tagged controlPacketCodec packet magic sendMagic).length) :
    parseWithMagic controlPacketCodec
      ((tagged controlPacketCodec packet magic sendMagic).take k) magic sendMagic = none := by
  have hbody {j : ℕ} (hj : j < (controlPacketCodec.write packet).length) :
      (controlPacketCodec.read ((controlPacketCodec.write packet).take j)).toOption = none :=
    extends_controlPacketCodec.read_take packet hj
  cases sendMagic with
  | false =>
    have hwrite : tagged controlPacketCodec packet magic false = controlPacketCodec.write packet := by
      simp [tagged]
    rw [hwrite] at hk ⊢
    simp [parseWithMagic, hbody hk]
  | true =>
    by_cases h4 : 4 ≤ k
    · obtain ⟨j, rfl⟩ := Nat.exists_eq_add_of_le h4
      have hj : j < (controlPacketCodec.write packet).length := by
        rw [tagged, if_pos rfl, List.length_append, leBytes_length] at hk
        omega
      rw [take_tagged]
      simp [parseWithMagic, leBytes, ofLeBytes_leBytes, hbody hj]
    · -- the magic itself is cut
      apply parseWithMagic_short
      rw [List.length_take]
      omega

theorem afterMagic_eq_none_iff {bs : List UInt8} :
    afterMagic bs = none ↔ ¬ leBytes INITIATOR_MAGIC_NUMBER <:+: bs := by
  induction bs with
  | nil => simp [afterMagic, leBytes]
  | cons b bs ih =>
    rw [afterMagic_cons, List.infix_cons_iff, not_or, ← ih, List.prefix_iff_eq_take, leBytes_length]
    split_ifs with h
    · simp [h]
    · exact ⟨fun hnone => ⟨fun heq => h heq.symm, hnone⟩, fun hboth => hboth.2⟩

theorem afterMagic_of_short {bs : List UInt8} (h : bs.length < 4) : afterMagic bs = none := by
  match bs with
  | [] => rfl
  | [_] => rfl
  | [_, _] => rfl
  | [_, _, _] => rfl

theorem controlSequenceIn_cut {head : List UInt8} (h : afterMagic head = none)
    (packet : ControlPacket) {k : ℕ}
    (hk : k < (tagged controlPacketCodec packet INITIATOR_MAGIC_NUMBER true).length) :
    controlSequenceIn
      (head ++ (tagged controlPacketCodec packet INITIATOR_MAGIC_NUMBER true).take k) = none := by
  by_cases h4 : 4 ≤ k
  · obtain ⟨j, rfl⟩ := Nat.exists_eq_add_of_le h4
    have hj : j < (controlPacketCodec.write packet).length := by
      rw [tagged, if_pos rfl, List.length_append, leBytes_length] at hk
      omega
    have hfound : afterMagic (head ++ (leBytes INITIATOR_MAGIC_NUMBER ++
        (controlPacketCodec.write packet).take j)) = some ((controlPacketCodec.write packet).take j) := by
      rw [leBytes_INITIATOR_MAGIC_NUMBER, List.cons_append, afterMagic_append h (by decide)]
      rfl
    rw [take_tagged, controlSequenceIn, hfound, Option.bind_some,
      extends_controlPacketCodec.read_take packet hj]
    rfl
  · have hnone : afterMagic
        (head ++ (tagged controlPacketCodec packet INITIATOR_MAGIC_NUMBER true).take k) = none := by
      have hlen : ((tagged controlPacketCodec packet INITIATOR_MAGIC_NUMBER true).take k).length < 4 := by
        rw [List.length_take]
        omega
      rw [tagged, if_pos rfl, leBytes_INITIATOR_MAGIC_NUMBER] at hlen ⊢
      cases k with
      | zero => simpa using h
      | succ k =>
        -- what is left of the magic begins with a byte that only begins it
        rw [List.cons_append, List.take_succ_cons] at hlen ⊢
        rw [afterMagic_append h (by decide)]
        exact afterMagic_of_short hlen
    rw [controlSequenceIn, hnone]
    rfl

/-- A control frame fits its buffer and gives its packet back in both pairing modes, whatever it is
padded with; behind another magic, or cut short, it gives none. In a captured payload its number is
found behind any bytes that do not hold the magic, and is what a controlled run labels the
measurement by. -/
theorem control_frame_whole_or_nothing (packet : ControlPacket) :
    (∀ magic sendMagic,
      serializeWithMagic controlPacketCodec packet magic sendMagic 16 =
          .ok (tagged controlPacketCodec packet magic sendMagic) ∧
        serializeWithMagic responderPacketCodec ⟨⟩ magic sendMagic 8 =
          .ok (tagged responderPacketCodec ⟨⟩ magic sendMagic) ∧
        (∀ pad, parseWithMagic controlPacketCodec
          (tagged controlPacketCodec packet magic sendMagic ++ pad) magic sendMagic = some packet) ∧
        ∀ k < (tagged controlPacketCodec packet magic sendMagic).length,
          parseWithMagic controlPacketCodec
            ((tagged controlPacketCodec packet magic sendMagic).take k) magic sendMagic = none) ∧
      (∀ magic magic', magic' ≠ magic → ∀ pad,
        parseWithMagic controlPacketCodec (tagged controlPacketCodec packet magic' true ++ pad)
          magic true = none) ∧
      ∀ head, ¬ leBytes INITIATOR_MAGIC_NUMBER <:+: head →
        (∀ pad, controlSequenceIn
          (head ++ (tagged controlPacketCodec packet INITIATOR_MAGIC_NUMBER true ++ pad)) =
            some packet.sequenceNumber) ∧
        (∀ k < (tagged controlPacketCodec packet INITIATOR_MAGIC_NUMBER true).length,
          controlSequenceIn
            (head ++ (tagged controlPacketCodec packet INITIATOR_MAGIC_NUMBER true).take k) = none) ∧
        ∀ (s : Csi.Session) (info : Csi.WifiCsiInfo) (pad : List UInt8),
          s.stimulusControlled = true →
          info.payload =
            head ++ (tagged controlPacketCodec packet INITIATOR_MAGIC_NUMBER true ++ pad) →
          s.stimulus info.mac (Csi.instanceIn s info) =
            .controlled s.setupId packet.sequenceNumber.toUInt16 info.mac := by
  refine ⟨fun magic sendMagic => ⟨?_, ?_, ?_, ?_⟩, ?_, ?_⟩
  -- the two buffers, padding and cutting, the other magic, and the look-up behind a header
  · apply serializeWithMagic_fits
    decide
  · apply serializeWithMagic_fits
    decide
  · exact parseWithMagic_tagged controlPacketCodec packet magic sendMagic
  · intro k hk
    exact parseWithMagic_cut packet magic sendMagic hk
  · intro magic magic' hne pad
    exact parseWithMagic_other controlPacketCodec controlPacketCodec packet hne pad
  · intro head hfree
    have hhead : afterMagic head = none := afterMagic_eq_none_iff.mpr hfree
    refine ⟨controlSequenceIn_append hhead packet, ?_, ?_⟩
    · intro k hk
      exact controlSequenceIn_cut hhead packet hk
    · intro s info pad hcontrolled hpayload
      have hnumber : Csi.instanceIn s info = some packet.sequenceNumber := by
        rw [Csi.instanceIn, if_pos hcontrolled, hpayload, controlSequenceIn_append hhead]
      rw [hnumber, Csi.Session.stimulus, if_pos hcontrolled]
      rfl

/-- A frame behind three bytes of the magic, in a session that last recorded another number. -/
theorem control_frame_behind_part_of_magic :
    controlSequenceIn ([0xF0, 0x2B, 0x91] ++
        (tagged controlPacketCodec ⟨true, 300⟩ INITIATOR_MAGIC_NUMBER true ++ [7])) = some 300 ∧
      parseWithMagic controlPacketCodec
        (tagged controlPacketCodec ⟨true, 300⟩ RESPONDER_MAGIC_NUMBER true ++ [])
        INITIATOR_MAGIC_NUMBER true = none :=
  ⟨((control_frame_whole_or_nothing ⟨true, 300⟩).2.2 [0xF0, 0x2B, 0x91] (by decide)).1 [7],
    (control_frame_whole_or_nothing ⟨true, 300⟩).2.1 INITIATOR_MAGIC_NUMBER
      RESPONDER_MAGIC_NUMBER (by decide) []⟩

end EspCsi.EspNow
