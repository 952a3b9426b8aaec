import EspCsi.Lib.Cobs
import EspCsi.Wire.Codec
import Mathlib.Data.List.TakeWhile

/-!
# Frames on the serialized stream

An envelope and a body, postcard-encoded back to back inside one COBS frame.
-/

namespace EspCsi.Wire

/-- Bytes a COBS-encoded frame can occupy at most. -/
def MAX_ENCODED_LEN : ℕ :=
  let raw := envelopeCodec.maxSize + bodyCodec.maxSize
  raw + raw / 254 + 2

/-- `postcard::to_slice_cobs` into a buffer of `bufLen` bytes: the frame and its delimiter. -/
def encodeCobs (envelope : Envelope) (body : Body) (bufLen : ℕ) :
    Except Postcard.Error (List UInt8) :=
  let out := Cobs.encode (envelopeCodec.write envelope ++ bodyCodec.write body) ++ [0]
  if out.length ≤ bufLen then .ok out else .error .serializeBufferFull

inductive DecodeError where
  | unsupportedVersion (version : UInt8)
  | malformed (e : Postcard.Error)
deriving DecidableEq, Repr

/-- `postcard::take_from_bytes`, its error converted. -/
def takeFromBytes {α : Type} (c : Postcard.Codec α) (bytes : List UInt8) :
    Except DecodeError (α × List UInt8) :=
  (c.read bytes).mapError .malformed

/-- Decode one frame that has already been COBS-decoded. The version is checked before the body
is touched. -/
def decode (bytes : List UInt8) : Except DecodeError (Envelope × Body) := do
  let (envelope, rest) ← takeFromBytes envelopeCodec bytes
  if envelope.version ≠ WIRE_VERSION then .error (.unsupportedVersion envelope.version)
  else do
    let (body, _) ← takeFromBytes bodyCodec rest
    .ok (envelope, body)

/-- `cobs::decode_in_place`: the frame ends at the first zero byte, or with the buffer. -/
def decodeInPlace (frame : List UInt8) : Option (List UInt8) :=
  Cobs.decode (frame.takeWhile (· ≠ 0))

/-- Decode one COBS frame, with or without its trailing delimiter. -/
def decodeCobs (frame : List UInt8) : Except DecodeError (Envelope × Body) :=
  match decodeInPlace frame with
  | none => .error (.malformed .deserializeBadEncoding)
  | some bytes => decode bytes

theorem takeFromBytes_write {α : Type} (c : Postcard.Codec α) (a : α) (rest : List UInt8) :
    takeFromBytes c (c.write a ++ rest) = .ok (a, rest) := by
  rw [takeFromBytes, c.read_write]
  rfl

theorem decode_write (e : Envelope) (b : Body) (rest : List UInt8) (hv : e.version = WIRE_VERSION) :
    decode (envelopeCodec.write e ++ (bodyCodec.write b ++ rest)) = .ok (e, b) := by
  unfold decode
  rw [takeFromBytes_write]
  simp only [Bind.bind, Except.bind]
  rw [if_neg (by simpa using hv), takeFromBytes_write]

theorem decode_other_version (e : Envelope) (rest : List UInt8) (hv : e.version ≠ WIRE_VERSION) :
    decode (envelopeCodec.write e ++ rest) = .error (.unsupportedVersion e.version) := by
  unfold decode
  rw [takeFromBytes_write]
  simp only [Bind.bind, Except.bind]
  rw [if_pos hv]

theorem decode_ne_ok {v : UInt8} {bytes : List UInt8} (hv : v ≠ WIRE_VERSION)
    (x : Envelope × Body) : decode (v :: bytes) ≠ .ok x := by
  intro h
  obtain ⟨⟨e, rest⟩, henv, h⟩ := Postcard.bind_eq_ok.mp h
  have hread : envelopeCodec.read (v :: bytes) = .ok (e, rest) := by
    revert henv
    rw [takeFromBytes]
    cases envelopeCodec.read (v :: bytes) <;> simp [Except.mapError]
  have hne : e.version ≠ WIRE_VERSION := envelopeCodec_read_head hread ▸ hv
  simp only [if_pos hne] at h
  cases h

theorem takeWhile_encode (msg rest : List UInt8) :
    (Cobs.encode msg ++ 0 :: rest).takeWhile (· ≠ 0) = Cobs.encode msg := by
  have h : ∀ b ∈ Cobs.encode msg, decide (b ≠ 0) = true := by
    intro b hb
    have hne : b ≠ 0 := fun hz => Cobs.zero_not_mem_encode msg (hz ▸ hb)
    exact decide_eq_true hne
  rw [List.takeWhile_append_of_pos h]
  simp

theorem decodeInPlace_encode (msg rest : List UInt8) :
    decodeInPlace (Cobs.encode msg ++ 0 :: rest) = some msg := by
  rw [decodeInPlace, takeWhile_encode, Cobs.decode_encode]

theorem decodeInPlace_encode_undelimited (msg : List UInt8) :
    decodeInPlace (Cobs.encode msg) = some msg := by
  have h : ∀ b ∈ Cobs.encode msg, decide (b ≠ 0) = true := by
    intro b hb
    have hne : b ≠ 0 := fun hz => Cobs.zero_not_mem_encode msg (hz ▸ hb)
    exact decide_eq_true hne
  rw [decodeInPlace, List.takeWhile_eq_self_iff.mpr h, Cobs.decode_encode]

/-- The frame of any envelope and body fits a buffer of the advertised size. -/
theorem encodeCobs_fits (e : Envelope) (b : Body) :
    (Cobs.encode (envelopeCodec.write e ++ bodyCodec.write b) ++ [0]).length ≤ MAX_ENCODED_LEN := by
  have he := envelopeCodec.write_length_le e
  have hb := bodyCodec.write_length_le b
  have henc := Cobs.encode_length_le (envelopeCodec.write e ++ bodyCodec.write b)
  simp only [List.length_append, List.length_singleton, MAX_ENCODED_LEN] at henc ⊢
  omega

def frameBytes (e : Envelope) (b : Body) : List UInt8 :=
  Cobs.encode (envelopeCodec.write e ++ bodyCodec.write b)

theorem zero_not_mem_frameBytes (e : Envelope) (b : Body) : 0 ∉ frameBytes e b :=
  Cobs.zero_not_mem_encode _

theorem encodeCobs_eq (e : Envelope) (b : Body) :
    encodeCobs e b MAX_ENCODED_LEN = .ok (frameBytes e b ++ [0]) := by
  simp only [encodeCobs, frameBytes]
  rw [if_pos (encodeCobs_fits e b)]

theorem decodeCobs_frameBytes (e : Envelope) (b : Body) (hv : e.version = WIRE_VERSION) :
    decodeCobs (frameBytes e b) = .ok (e, b) := by
  have h := decode_write e b [] hv
  rw [List.append_nil] at h
  rw [decodeCobs, frameBytes, decodeInPlace_encode_undelimited]
  exact h

theorem decodeCobs_delimited (e : Envelope) (b : Body) (hv : e.version = WIRE_VERSION) :
    decodeCobs (frameBytes e b ++ [0]) = .ok (e, b) := by
  have h := decode_write e b [] hv
  rw [List.append_nil] at h
  rw [decodeCobs, frameBytes, decodeInPlace_encode]
  exact h

/-- Every frame at the current version encodes into the advertised buffer, ends on its only zero
byte and decodes back, and an envelope of another version is refused by its version. -/
theorem wire_round_trip :
    (∀ (e : Envelope) (b : Body), e.version = WIRE_VERSION →
      ∃ out, encodeCobs e b MAX_ENCODED_LEN = .ok out ∧ out.count 0 = 1 ∧
        out.getLast? = some 0 ∧ decodeCobs out = .ok (e, b) ∧
        decodeCobs out.dropLast = .ok (e, b)) ∧
    ∀ (e : Envelope) (rest : List UInt8), e.version ≠ WIRE_VERSION →
      decode (envelopeCodec.write e ++ rest) = .error (.unsupportedVersion e.version) := by
  refine ⟨fun e b hv => ⟨frameBytes e b ++ [0], encodeCobs_eq e b, ?_, ?_, ?_, ?_⟩,
    decode_other_version⟩
  · rw [List.count_append, List.count_eq_zero.mpr (zero_not_mem_frameBytes e b)]
    rfl
  · exact List.getLast?_concat
  · exact decodeCobs_delimited e b hv
  · rw [List.dropLast_concat]
    exact decodeCobs_frameBytes e b hv

/-- A session announcement, and an envelope of a later version. -/
theorem wire_round_trip_session :
    (∃ out, encodeCobs (.new .zero 7 .espVendor 0) (.session ⟨.esp32, (0, 12, 0), 5, none⟩)
        MAX_ENCODED_LEN = .ok out ∧ out.count 0 = 1 ∧ out.getLast? = some 0 ∧
        decodeCobs out = .ok (.new .zero 7 .espVendor 0, .session ⟨.esp32, (0, 12, 0), 5, none⟩) ∧
        decodeCobs out.dropLast =
          .ok (.new .zero 7 .espVendor 0, .session ⟨.esp32, (0, 12, 0), 5, none⟩)) ∧
      decode (envelopeCodec.write ⟨2, .zero, 7, .espVendor, 0⟩ ++ [9, 9]) =
        .error (.unsupportedVersion 2) :=
  ⟨wire_round_trip.1 _ _ rfl, wire_round_trip.2 ⟨2, .zero, 7, .espVendor, 0⟩ [9, 9] (by decide)⟩

end EspCsi.Wire
