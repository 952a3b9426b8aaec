import EspCsi.Host.Counters
import EspCsi.Logging.Stream

/-!
# Lines of text

Which printable chunks the capture decoder takes for text. None of them decodes to a frame, but one
that decodes as far as a version is counted as a frame of another one.
-/

namespace EspCsi.Host

open Wire Logging Postcard

/-- A first length byte of nine leaves the eight bytes of a version, a node and a session. What
follows it begins with a zero, the number of a source. -/
def Mistaken (text : List UInt8) : Prop :=
  9 < text.length ∧ text.head? = some 9 ∧ Cobs.blocksEnd 0 text = true

instance (text : List UInt8) : Decidable (Mistaken text) := inferInstanceAs (Decidable (_ ∧ _ ∧ _))

/-! ## The head of an envelope -/

def envelopeHead (version : UInt8) (nodeId : Mac) (session : UInt8) : List UInt8 :=
  version :: (macCodec.write nodeId ++ [session])

theorem length_envelopeHead (version : UInt8) (nodeId : Mac) (session : UInt8) :
    (envelopeHead version nodeId session).length = 8 := rfl

theorem exists_envelopeHead (bytes : List UInt8) (h : bytes.length = 8) :
    ∃ version nodeId session, bytes = envelopeHead version nodeId session := by
  rcases bytes with
    _ | ⟨version, _ | ⟨b0, _ | ⟨b1, _ | ⟨b2, _ | ⟨b3, _ | ⟨b4, _ | ⟨b5, _ | ⟨session, bytes⟩⟩⟩⟩⟩⟩⟩⟩
  case cons.cons.cons.cons.cons.cons.cons.cons =>
    obtain rfl : bytes = [] := by simpa using h
    exact ⟨version, ⟨b0, b1, b2, b3, b4, b5⟩, session, rfl⟩
  all_goals simp at h

section

variable {version session : UInt8} {nodeId : Mac} (hsession : session.toNat < 128)

include hsession

theorem read_envelopeHead (rest : List UInt8) :
    envelopeCodec.read (envelopeHead version nodeId session ++ rest) =
      ((sourceKindCodec.pair Codec.u32).read rest).map fun x =>
        (⟨version, nodeId, UInt32.ofNat session.toNat, x.1.1, x.1.2⟩, x.2) := by
  have hread : envelopeHead version nodeId session ++ rest =
      version :: (macCodec.write nodeId ++ session :: rest) := by
    simp [envelopeHead]
  rw [hread, envelopeCodec, Codec.imap_read, Codec.pair_read_of_ok (a := version) rfl,
    Codec.pair_read_of_ok (macCodec.read_write nodeId _),
    Codec.pair_read_of_ok (Codec.u32_read_byte hsession rest)]
  cases (sourceKindCodec.pair Codec.u32).read rest <;> rfl

theorem decode_envelopeHead_of_error {rest : List UInt8} {e : Error}
    (h : sourceKindCodec.read rest = .error e) :
    decode (envelopeHead version nodeId session ++ rest) = .error (.malformed e) := by
  rw [decode, takeFromBytes, read_envelopeHead hsession, Codec.pair_read_of_error h]
  rfl

theorem decode_envelopeHead_zero (hversion : version ≠ WIRE_VERSION) {seq : UInt8}
    (hseq : seq.toNat < 128) (rest : List UInt8) :
    decode (envelopeHead version nodeId session ++ 0 :: seq :: rest) =
      .error (.unsupportedVersion version) := by
  have hsource : sourceKindCodec.read (0 :: seq :: rest) = .ok (.espVendor, seq :: rest) := rfl
  rw [decode, takeFromBytes, read_envelopeHead hsession, Codec.pair_read_of_ok hsource,
    Codec.u32_read_byte hseq rest]
  exact if_pos hversion

end

/-! ## What is mistaken -/

theorem sourceKind_read_of_printable {b : UInt8} (hlow : 9 ≤ b.toNat) (hhigh : b.toNat < 127)
    (rest : List UInt8) : sourceKindCodec.read (b :: rest) = .error .serdeDeCustom :=
  Codec.enumeration_read_byte _ _ (le_trans (by decide) hlow) (hhigh.trans (by decide)) rest

theorem isText_of_malformed {text : List UInt8} {e : Error} (h : printable text = true)
    (hdecode : decodeCobs text = .error (.malformed e)) : isText text = true := by
  rw [isText, h, hdecode]
  rfl

theorem not_isText_of_version {text : List UInt8} {version : UInt8} (h : printable text = true)
    (hdecode : decodeCobs text = .error (.unsupportedVersion version)) :
    ¬ isText text = true := by
  rw [isText, h, hdecode]
  exact Bool.false_ne_true

theorem exists_head_of_decode {code : UInt8} {bs out : List UInt8}
    (h : printable (code :: bs) = true) (hdecode : Cobs.decode (code :: bs) = some out) :
    ∃ version nodeId session data tail out',
      bs = envelopeHead version nodeId session ++ (data ++ tail) ∧
      out = envelopeHead version nodeId session ++ (data ++ out') ∧
      code.toNat = 9 + data.length ∧ Cobs.decodeFrom 0 false tail = some out' := by
  obtain ⟨hlow, hhigh⟩ := bounds_of_printable h List.mem_cons_self
  have hzero : code ≠ 0 := by
    rintro rfl
    exact absurd hlow (by decide)
  have hfull : (code == 255) = false := by
    rw [beq_eq_false_iff_ne]
    rintro rfl
    exact absurd hhigh (by decide)
  rw [Cobs.decode, if_neg hzero, hfull] at hdecode
  obtain ⟨block, tail, out', rfl, hlen, htail, rfl⟩ := Cobs.exists_data_of_decodeFrom hdecode
  have hroom : (block.take 8).length = 8 := by
    rw [List.length_take]
    omega
  obtain ⟨version, nodeId, session, hhead⟩ := exists_envelopeHead (block.take 8) hroom
  refine ⟨version, nodeId, session, block.drop 8, tail, out', ?_, ?_, ?_, ?_⟩
  · rw [← hhead, ← List.append_assoc, List.take_append_drop]
  · rw [← hhead, ← List.append_assoc, List.take_append_drop]
  · rw [List.length_drop]
    omega
  · exact htail

theorem decode_second_block {version session next : UInt8} {nodeId : Mac} {tail out : List UInt8}
    (h : ∀ b ∈ envelopeHead version nodeId session ++ next :: tail, 9 ≤ b.toNat ∧ b.toNat < 127)
    (hdecode : Cobs.decodeFrom 0 false (next :: tail) = some out) :
    decode (envelopeHead version nodeId session ++ out) = .error (.unsupportedVersion version) := by
  have hversion : version ≠ WIRE_VERSION := by
    rintro rfl
    exact absurd (h WIRE_VERSION (by simp [envelopeHead])).1 (by decide)
  have hsession := h session (by simp [envelopeHead])
  have hnext := h next (by simp)
  obtain ⟨seq, rest, out, rfl, rfl⟩ := Cobs.decodeFrom_head (by omega) hdecode
  have hseq := h seq (by simp)
  exact decode_envelopeHead_zero (by omega) hversion (by omega) out

/-- A printable chunk is taken for text unless it is mistaken. -/
theorem isText_iff {text : List UInt8} (h : printable text = true) :
    isText text = true ↔ ¬ Mistaken text := by
  cases text with
  | nil => cases h
  | cons code bs =>
    have hsome := Cobs.isSome_decode (zero_not_mem_of_printable h)
    have hcobs := decodeCobs_of_printable h
    cases hdecode : Cobs.decode (code :: bs) with
    | none =>
      rw [hdecode] at hsome hcobs
      refine iff_of_true (isText_of_malformed h hcobs) fun hmistaken => ?_
      exact absurd (hsome.trans hmistaken.2.2) (by decide)
    | some out =>
      rw [hdecode] at hsome hcobs
      obtain ⟨version, nodeId, session, data, tail, out', rfl, rfl, hcode, htail⟩ :=
        exists_head_of_decode h hdecode
      have hmem : ∀ b ∈ envelopeHead version nodeId session ++ (data ++ tail),
          9 ≤ b.toNat ∧ b.toNat < 127 := fun b hb =>
        bounds_of_printable h (List.mem_cons_of_mem code hb)
      have hsession := (hmem session (by simp [envelopeHead])).2.trans (by decide : 127 < 128)
      cases data with
      | cons b data =>
        -- the byte behind the head is no source
        obtain ⟨hlow, hhigh⟩ := hmem b (by simp)
        have hmalformed := hcobs.trans
          (decode_envelopeHead_of_error hsession (sourceKind_read_of_printable hlow hhigh _))
        have hlong : code ≠ 9 := by
          rintro rfl
          have hnine : (9 : UInt8).toNat = 9 := rfl
          rw [List.length_cons] at hcode
          omega
        refine iff_of_true (isText_of_malformed h hmalformed) fun hmistaken => ?_
        exact hlong (Option.some_inj.mp hmistaken.2.1)
      | nil =>
        obtain rfl : code = 9 := UInt8.toNat_inj.mp hcode
        cases tail with
        | nil =>
          -- nothing is behind the head
          obtain rfl : out' = [] := (Option.some_inj.mp htail).symm
          have hmalformed := hcobs.trans (decode_envelopeHead_of_error hsession rfl)
          refine iff_of_true (isText_of_malformed h hmalformed) fun hmistaken => ?_
          exact absurd hmistaken.1 (Nat.lt_irrefl 9)
        | cons next tail =>
          have hversion := hcobs.trans (decode_second_block hmem htail)
          refine iff_of_false (not_isText_of_version h hversion) (not_not.mpr ⟨?_, rfl, hsome.symm⟩)
          simp only [List.length_cons, List.length_append, length_envelopeHead]
          omega

end EspCsi.Host
