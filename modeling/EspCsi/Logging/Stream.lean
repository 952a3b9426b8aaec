import EspCsi.Logging.Logger

/-!
# Framing of the serialized stream

The host cuts the stream at its zero bytes. A write that ends on one leaves the next packet a clean
start, and every frame of that packet is then a chunk of its own.
-/

namespace EspCsi.Logging

open Wire Csi Cobs

/-! ## What each write leaves behind -/

theorem encodePacketFrames_eq (p : CsiPacket) :
    encodePacketFrames p = (bodies p).flatMap fun body => frameBytes p.envelope body ++ [0] := by
  unfold encodePacketFrames
  congr 1
  funext body
  rw [encodeCobs_eq]

theorem stream_append (backend : Backend) (before after : List Write) :
    stream backend (before ++ after) = stream backend before ++ stream backend after :=
  List.flatMap_append

theorem stream_cons (backend : Backend) (w : Write) (ws : List Write) :
    stream backend (w :: ws) = w.bytes backend ++ stream backend ws :=
  List.flatMap_cons

theorem getLast?_writeTextFramed (text : Text) :
    (writeTextFramed text).getLast? = some COBS_DELIMITER := by
  simp [writeTextFramed, List.getLast?_cons]

theorem getLast?_encodePacketFrames (p : CsiPacket) :
    (encodePacketFrames p).getLast? = some COBS_DELIMITER := by
  rw [encodePacketFrames_eq, bodies, List.flatMap_append]
  simp [List.getLast?_append, COBS_DELIMITER]

theorem closed_bytes_async (w : Write) : Closed COBS_DELIMITER (w.bytes .async) := by
  have htext : ∀ text, Closed COBS_DELIMITER (logLnBytes text .async) := by
    intro text
    unfold logLnBytes
    cases queuedMessage text with
    | none => exact .inl rfl
    | some message => exact .inr (getLast?_writeTextFramed message)
  cases w with
  | packet p => exact .inr (getLast?_encodePacketFrames p)
  | logLn text => exact htext text
  | logLine text => exact htext text

theorem getLast?_bytes_sync (w : Write) :
    (w.bytes .sync).getLast? = some (match w with | .logLn _ => 10 | _ => COBS_DELIMITER) := by
  cases w with
  | packet p => exact getLast?_encodePacketFrames p
  | logLn text => exact List.getLast?_concat
  | logLine text => exact getLast?_writeTextFramed text

theorem closed_stream_async (ws : List Write) : Closed COBS_DELIMITER (stream .async ws) := by
  induction ws with
  | nil => exact .inl rfl
  | cons w ws ih =>
    rw [stream_cons]
    exact (closed_bytes_async w).append ih

theorem closed_stream_sync (ws : List Write) :
    Closed COBS_DELIMITER (stream .sync ws) ↔ ∀ before text, ws ≠ before ++ [.logLn text] := by
  rcases List.eq_nil_or_concat ws with rfl | ⟨ws, w, rfl⟩
  · simp [stream, Closed]
  have hlast : (stream .sync (ws ++ [w])).getLast? = (w.bytes .sync).getLast? := by
    rw [stream_append, List.getLast?_append]
    simp [stream, getLast?_bytes_sync]
  rw [List.concat_eq_append]
  constructor
  · rintro hclosed before text heq
    obtain ⟨-, rfl⟩ := List.append_singleton_inj.mp heq
    rcases hclosed with hnil | hclosed
    · rw [hnil, getLast?_bytes_sync] at hlast
      cases hlast
    · rw [hlast, getLast?_bytes_sync] at hclosed
      cases hclosed
  · intro hno
    right
    rw [hlast, getLast?_bytes_sync]
    cases w with
    | logLn text => exact absurd rfl (hno ws text)
    | packet p => rfl
    | logLine text => rfl

/-! ## Frames and chunks -/

def frameChunks (p : CsiPacket) : List (List UInt8) := (bodies p).map (frameBytes p.envelope)

theorem splitOn_encodePacketFrames (p : CsiPacket) (rest : List UInt8) :
    (encodePacketFrames p ++ rest).splitOn COBS_DELIMITER =
      frameChunks p ++ rest.splitOn COBS_DELIMITER := by
  rw [encodePacketFrames_eq]
  apply splitOn_flatMap_delimited
  intro body _
  exact zero_not_mem_frameBytes p.envelope body

theorem chunks_packet_iff (backend : Backend) (before after : List Write) (p : CsiPacket) :
    chunks backend (before ++ .packet p :: after) =
        (chunks backend before).dropLast ++ frameChunks p ++ chunks backend after ↔
      Closed COBS_DELIMITER (stream backend before) := by
  have hsplit := splitOn_encodePacketFrames p (stream backend after)
  rw [chunks, chunks, chunks, stream_append, stream_cons, Write.bytes, List.append_assoc, ← hsplit]
  exact splitOn_append_iff

theorem bounds_of_printable {chunk : List UInt8} (h : printable chunk = true) {b : UInt8}
    (hb : b ∈ chunk) : 9 ≤ b.toNat ∧ b.toNat < 127 := by
  have hall := List.all_eq_true.mp (Bool.and_eq_true_iff.mp h).2 b hb
  simp only [Bool.or_eq_true, beq_iff_eq, Bool.and_eq_true, decide_eq_true_eq,
    UInt8.le_iff_toNat_le, UInt8.lt_iff_toNat_lt] at hall
  rcases hall with ((rfl | rfl) | rfl) | ⟨hlow, hhigh⟩
  · decide
  · decide
  · decide
  · exact ⟨le_trans (by decide) hlow, hhigh⟩

theorem le_of_printable {chunk : List UInt8} (h : printable chunk = true) {b : UInt8}
    (hb : b ∈ chunk) : 9 ≤ b.toNat :=
  (bounds_of_printable h hb).1

theorem zero_not_mem_of_printable {chunk : List UInt8} (h : printable chunk = true) :
    0 ∉ chunk := by
  intro hb
  exact absurd (le_of_printable h hb) (by decide)

theorem decodeInPlace_of_printable {chunk : List UInt8} (h : printable chunk = true) :
    decodeInPlace chunk = Cobs.decode chunk := by
  rw [decodeInPlace, List.takeWhile_eq_self_iff.mpr]
  intro b hb
  have hne : b ≠ 0 := fun hz => zero_not_mem_of_printable h (hz ▸ hb)
  exact decide_eq_true hne

theorem decodeCobs_of_printable {chunk : List UInt8} (h : printable chunk = true) :
    decodeCobs chunk =
      (Cobs.decode chunk).elim (.error (.malformed .deserializeBadEncoding)) Wire.decode := by
  rw [decodeCobs, decodeInPlace_of_printable h]
  cases Cobs.decode chunk <;> rfl

/-- A printable chunk announces at least one data byte, and that byte is no wire version. -/
theorem decodeCobs_printable {chunk : List UInt8} (h : printable chunk = true)
    (x : Envelope × Body) : decodeCobs chunk ≠ .ok x := by
  intro hok
  rw [decodeCobs_of_printable h] at hok
  cases chunk with
  | nil => cases h
  | cons code bs =>
    have hcode := le_of_printable h List.mem_cons_self
    cases hdec : Cobs.decode (code :: bs) with
    | none =>
      rw [hdec] at hok
      cases hok
    | some out =>
      obtain ⟨b, bs', tl, rfl, rfl⟩ := decode_head (by omega) hdec
      have hb := le_of_printable h (List.mem_cons_of_mem code List.mem_cons_self)
      have hv : b ≠ WIRE_VERSION := by
        rintro rfl
        exact absurd hb (by decide)
      rw [hdec] at hok
      exact decode_ne_ok hv x hok

/-! ## The stream as the host sees it -/

/-- Every packet's frames are chunks of their own that decode back to it, and no printable chunk
decodes to a frame. -/
def Framed (backend : Backend) (writes : List Write) : Prop :=
  (∀ before p after, writes = before ++ .packet p :: after →
    chunks backend writes =
      (chunks backend before).dropLast ++ frameChunks p ++ chunks backend after ∧
    ∀ body ∈ bodies p, decodeCobs (frameBytes p.envelope body) = .ok (p.envelope, body)) ∧
  ∀ chunk ∈ chunks backend writes, printable chunk = true →
    ∀ x, decodeCobs chunk ≠ .ok x

/-- A packet written right after a `log_ln!` on the sync backend shares its first chunk with the
text. -/
theorem not_framed_of_logLn_packet (before after : List Write) (text : Text) (p : CsiPacket) :
    ¬ Framed .sync (before ++ .logLn text :: .packet p :: after) := by
  rintro ⟨hframes, -⟩
  have heq : before ++ .logLn text :: .packet p :: after =
      (before ++ [.logLn text]) ++ .packet p :: after := by simp
  have hchunks := (hframes _ p after heq).1
  rw [heq, chunks_packet_iff, closed_stream_sync] at hchunks
  exact hchunks before text rfl

theorem framed_of_closed {backend : Backend} {writes : List Write}
    (h : ∀ before p after, writes = before ++ .packet p :: after →
      Closed COBS_DELIMITER (stream backend before)) : Framed backend writes := by
  refine ⟨?_, fun chunk _ hprint x => decodeCobs_printable hprint x⟩
  rintro before p after rfl
  refine ⟨(chunks_packet_iff backend before after p).mpr (h before p after rfl), fun body _ => ?_⟩
  exact decodeCobs_frameBytes p.envelope body p.current

/-- The stream is framed exactly when the async backend writes it, or no packet is written right
after a `log_ln!`. -/
theorem framed_iff (backend : Backend) (writes : List Write) :
    Framed backend writes ↔
      backend = .async ∨
        ∀ before text p after, writes ≠ before ++ .logLn text :: .packet p :: after := by
  cases backend with
  | async =>
    refine iff_of_true (framed_of_closed fun before _ _ _ => closed_stream_async before) (.inl rfl)
  | sync =>
    constructor
    · intro hframed
      right
      rintro before text p after rfl
      exact not_framed_of_logLn_packet before after text p hframed
    · rintro (h | h)
      · cases h
      apply framed_of_closed
      rintro before p after rfl
      apply (closed_stream_sync before).mpr
      rintro before' text rfl
      exact h before' text p after (by simp)

def scoreReport : CsiPacket where
  envelope := .new .zero 0 .synthetic 0
  frame :=
    { rxMeta :=
        { timestampUs := 0, rssi := 0, noiseFloor := 0, channel := 1, secondary := .none
          bandwidth := none, ppdu := .unknown, mcs := none, stbc := none, sgi := none, nRx := 1
          nSs := none, antenna := none, sigLen := 0, rxState := 0, notSounding := none
          aggregation := none, frameSeq := none, vendor := .none }
      stimulus := .ambient .zero
      header := none
      payload := .variation 0 }
  session := none
  runNo := 0
  current := rfl

/-- `log_ln!("up")` on the sync backend, then a packet. -/
theorem up_then_packet_not_framed :
    ¬ Framed .sync [.logLn ⟨[117, 112], by decide⟩, .packet scoreReport] :=
  not_framed_of_logLn_packet [] [] ⟨[117, 112], by decide⟩ scoreReport

end EspCsi.Logging
