import EspCsi.Wire.Frame

/-!
# What the decoder accepts

Frames that were cut short, or lost the delimiter behind them, on their way to the host.
-/

namespace EspCsi.Wire

open Postcard Codec

/-! ## Every type of the contract is read from a first part of its input -/

theorem local_macCodec : macCodec.Local :=
  (local_u8.pair <| local_u8.pair <| local_u8.pair <| local_u8.pair <| local_u8.pair
    local_u8).imap fun _ => rfl

theorem local_envelopeCodec : envelopeCodec.Local :=
  (local_u8.pair <| local_macCodec.pair <| local_u32.pair <| local_enumeration.pair
    local_u32).imap fun _ => rfl

theorem local_sessionInfoCodec : sessionInfoCodec.Local :=
  (local_enumeration.pair <| (local_u8.pair <| local_u8.pair local_u8).pair <|
    local_u64.pair local_u64.option).imap fun _ => rfl

theorem local_headerDigestCodec : headerDigestCodec.Local :=
  (local_u16.pair <| local_macCodec.pair <| local_macCodec.pair <| local_macCodec.pair
    local_u16).imap fun _ => rfl

theorem local_stimulusCodec : stimulusCodec.Local := by
  apply Local.imap
  · apply local_tagged
    intro tag
    cases tag with
    | controlled => exact local_u8.pair (local_u16.pair local_macCodec)
    | ambient => exact local_macCodec
    | observed => exact local_macCodec.pair local_u8
  · rintro ⟨tag, fields⟩
    cases tag <;> rfl

theorem local_vendorRxCodec : vendorRxCodec.Local := by
  apply Local.imap
  · apply local_tagged
    intro tag
    cases tag with
    | none => exact local_unit
    | espClassic =>
      exact local_u8.pair <| local_u8.pair <| local_bool.pair <| local_bool.pair local_u8
    | espHe =>
      exact local_u8.pair <| local_u8.pair <| local_bool.pair <| local_u16.pair <|
        local_u16.pair <| local_bool.pair <| local_u8.pair <| local_u8.pair <| local_u32.pair <|
        local_u16.pair <| local_u8.pair local_bool
  · rintro ⟨tag, fields⟩
    cases tag <;> rfl

theorem local_csiPayloadCodec : csiPayloadCodec.Local := by
  apply Local.imap
  · apply local_tagged
    intro tag
    cases tag with
    | espRaw =>
      exact local_enumeration.pair <| local_enumeration.pair <| local_bool.pair local_i8.vec
    | grouped =>
      exact local_u8.pair <| local_u8.pair <| local_i16.pair <| local_u16.pair <|
        local_u8.pair <| local_u8.pair local_u8.vec
    | variation => exact local_u16
  · rintro ⟨tag, fields⟩
    cases tag <;> rfl

theorem local_rxMetaCodec : rxMetaCodec.Local :=
  (local_u64.pair <| local_i8.pair <| local_i8.pair <| local_u8.pair <| local_enumeration.pair <|
    local_enumeration.option.pair <| local_enumeration.pair <| local_u8.option.pair <|
    local_bool.option.pair <| local_bool.option.pair <| local_u8.pair <| local_u8.option.pair <|
    local_u8.option.pair <| local_u16.pair <| local_u8.pair <| local_bool.option.pair <|
    local_bool.option.pair <| local_u16.option.pair local_vendorRxCodec).imap fun _ => rfl

theorem local_csiFrameCodec : csiFrameCodec.Local :=
  (local_rxMetaCodec.pair <| local_stimulusCodec.pair <| local_headerDigestCodec.option.pair
    local_csiPayloadCodec).imap fun _ => rfl

theorem local_bodyCodec : bodyCodec.Local := by
  apply Local.imap
  · apply local_tagged
    intro tag
    cases tag with
    | csi => exact local_csiFrameCodec
    | session => exact local_sessionInfoCodec
  · rintro ⟨tag, fields⟩
    cases tag <;> rfl

/-! ## The decoder on parts of its input -/

theorem takeFromBytes_eq_ok {α : Type} {c : Codec α} {bytes : List UInt8} {x : α × List UInt8} :
    takeFromBytes c bytes = .ok x ↔ c.read bytes = .ok x := by
  rw [takeFromBytes]
  cases c.read bytes <;> simp [Except.mapError]

theorem takeFromBytes_eq_error {α : Type} {c : Codec α} {bytes : List UInt8} {e : DecodeError}
    (h : takeFromBytes c bytes = .error e) : ∃ err, e = .malformed err := by
  rw [takeFromBytes] at h
  cases hread : c.read bytes with
  | ok x => simp [hread, Except.mapError] at h
  | error err =>
    simp only [hread, Except.mapError, Except.error.injEq] at h
    exact ⟨err, h.symm⟩

theorem decode_eq_ok_iff {bytes : List UInt8} {e : Envelope} {b : Body} :
    decode bytes = .ok (e, b) ↔ e.version = WIRE_VERSION ∧
      ∃ rest rest', envelopeCodec.read bytes = .ok (e, rest) ∧ bodyCodec.read rest = .ok (b, rest') := by
  constructor
  · intro h
    obtain ⟨⟨e', rest⟩, henvelope, h⟩ := bind_eq_ok.mp h
    dsimp only at h
    split_ifs at h with hversion
    obtain ⟨⟨b', rest'⟩, hbody, h⟩ := bind_eq_ok.mp h
    cases h
    exact ⟨not_not.mp hversion, rest, rest', takeFromBytes_eq_ok.mp henvelope,
      takeFromBytes_eq_ok.mp hbody⟩
  · rintro ⟨hversion, rest, rest', henvelope, hbody⟩
    simp [decode, takeFromBytes_eq_ok.mpr henvelope, takeFromBytes_eq_ok.mpr hbody, hversion,
      Except.bind, Bind.bind]

/-- A part of the bytes of a frame is a part that still holds the frame, or is malformed. -/
theorem decode_part {part more : List UInt8} {x : Envelope × Body}
    (h : decode (part ++ more) = .ok x) :
    decode part = .ok x ∨ ∃ err, decode part = .error (.malformed err) := by
  obtain ⟨e, b⟩ := x
  obtain ⟨hversion, rest, rest', henvelope, hbody⟩ := decode_eq_ok_iff.mp h
  unfold decode
  cases hfirst : takeFromBytes envelopeCodec part with
  | error err =>
    right
    exact takeFromBytes_eq_error hfirst |>.imp fun _ herr => congrArg _ herr
  | ok y =>
    obtain ⟨e', mid⟩ := y
    have hwhole := local_envelopeCodec.extends (takeFromBytes_eq_ok.mp hfirst) more
    rw [henvelope] at hwhole
    cases hwhole
    simp only [Except.bind, Bind.bind]
    rw [if_neg (not_not.mpr hversion)]
    cases hsecond : takeFromBytes bodyCodec mid with
    | error err =>
      right
      exact takeFromBytes_eq_error hsecond |>.imp fun _ herr => congrArg _ herr
    | ok y =>
      obtain ⟨b', end'⟩ := y
      have hwhole := local_bodyCodec.extends (takeFromBytes_eq_ok.mp hsecond) more
      rw [hbody] at hwhole
      cases hwhole
      exact .inl rfl

theorem decode_append {bytes : List UInt8} {x : Envelope × Body} (h : decode bytes = .ok x)
    (more : List UInt8) : decode (bytes ++ more) = .ok x := by
  obtain ⟨e, b⟩ := x
  obtain ⟨hversion, rest, rest', henvelope, hbody⟩ := decode_eq_ok_iff.mp h
  exact decode_eq_ok_iff.mpr ⟨hversion, rest ++ more, rest' ++ more,
    local_envelopeCodec.extends henvelope more, local_bodyCodec.extends hbody more⟩

/-- What is accepted is at the current version, is told by a first part of the bytes alone, no
shorter than the encoding of the same frame, and is malformed when that part is cut. -/
theorem decode_accepts {bytes : List UInt8} {e : Envelope} {b : Body}
    (h : decode bytes = .ok (e, b)) :
    e.version = WIRE_VERSION ∧
      ∃ used rest, bytes = used ++ rest ∧
        (envelopeCodec.write e ++ bodyCodec.write b).length ≤ used.length ∧
        (∀ more, decode (used ++ more) = .ok (e, b)) ∧
        ∀ k < used.length, ∃ err, decode (used.take k) = .error (.malformed err) := by
  obtain ⟨hversion, rest, rest', henvelope, hbody⟩ := decode_eq_ok_iff.mp h
  obtain ⟨head, rfl, hhead, hreadHead⟩ := local_envelopeCodec henvelope
  obtain ⟨tail, rfl, htail, hreadTail⟩ := local_bodyCodec hbody
  have hread : (envelopeCodec.pair bodyCodec).read (head ++ tail) = .ok ((e, b), []) := by
    have htailEnd := hreadTail []
    rw [List.append_nil] at htailEnd
    rw [pair_read_of_ok (hreadHead tail), htailEnd]
    rfl
  have hmore (more : List UInt8) : decode (head ++ tail ++ more) = .ok (e, b) := by
    rw [List.append_assoc]
    exact decode_eq_ok_iff.mpr ⟨hversion, _, _, hreadHead _, hreadTail _⟩
  refine ⟨hversion, head ++ tail, rest', by rw [List.append_assoc], ?_, hmore, fun k hk => ?_⟩
  · rw [List.length_append, List.length_append]
    omega
  · have hwhole : decode ((head ++ tail).take k ++ (head ++ tail).drop k) = .ok (e, b) := by
      have hnil := hmore []
      rw [List.append_nil] at hnil
      rwa [List.take_append_drop]
    refine (decode_part hwhole).resolve_left fun hpart => ?_
    -- a cut pair would be read, and what follows it left over
    obtain ⟨-, mid, rest, hfirst, hsecond⟩ := decode_eq_ok_iff.mp hpart
    have hnone := (local_envelopeCodec.pair local_bodyCodec).read_cut hread hk
    rw [pair_read_of_ok hfirst, hsecond] at hnone
    cases hnone

abbrev Message := Envelope × Body

def Message.frame (m : Message) : List UInt8 := frameBytes m.1 m.2

def announced (n : UInt32) : Message :=
  (.new .zero 7 .espVendor n, .session ⟨.esp32, (0, 12, 0), 5, none⟩)

/-- An announcement with four bytes behind it. -/
theorem decode_accepts_session :
    (announced 0).1.version = WIRE_VERSION ∧
      ∃ used rest, [1, 0, 0, 0, 0, 0, 0, 7, 0, 0, 1, 0, 0, 12, 0, 5, 0, 9, 9, 9, 9] = used ++ rest ∧
        (envelopeCodec.write (announced 0).1 ++ bodyCodec.write (announced 0).2).length ≤
          used.length ∧
        (∀ more, decode (used ++ more) = .ok (announced 0)) ∧
        ∀ k < used.length, ∃ err, decode (used.take k) = .error (.malformed err) :=
  have h : decode [1, 0, 0, 0, 0, 0, 0, 7, 0, 0, 1, 0, 0, 12, 0, 5, 0, 9, 9, 9, 9] =
      .ok ((announced 0).1, (announced 0).2) := by
    decide +kernel
  decode_accepts h

/-! ## Damaged frames -/

theorem takeWhile_mono {α : Type} (p : α → Bool) {as bs : List α} (h : as <+: bs) :
    as.takeWhile p <+: bs.takeWhile p := by
  obtain ⟨more, rfl⟩ := h
  rw [List.takeWhile_append]
  split_ifs with hall
  · exact (List.takeWhile_prefix p).trans (List.prefix_append _ _)
  · exact List.prefix_refl _

theorem decodeInPlace_prefix {part frame cut msg : List UInt8} (h : part <+: frame)
    (hcut : decodeInPlace part = some cut) (hmsg : decodeInPlace frame = some msg) :
    cut <+: msg :=
  Cobs.decode_prefix (takeWhile_mono _ h) hcut hmsg

theorem decodeCobs_eq_ok_iff {frame : List UInt8} {x : Envelope × Body} :
    decodeCobs frame = .ok x ↔ ∃ msg, decodeInPlace frame = some msg ∧ decode msg = .ok x := by
  rw [decodeCobs]
  cases decodeInPlace frame <;> simp

theorem decodeInPlace_of_zero_not_mem {frame : List UInt8} (h : 0 ∉ frame) :
    decodeInPlace frame = Cobs.decode frame := by
  have hall : ∀ b ∈ frame, decide (b ≠ 0) = true := by
    intro b hb
    have hne : b ≠ 0 := fun hz => h (hz ▸ hb)
    exact decide_eq_true hne
  rw [decodeInPlace, List.takeWhile_eq_self_iff.mpr hall]

/-- However much of a frame is lost at its end, what is left is the same frame or malformed; so is
the frame with anything else behind it, where only the framing can be at fault. -/
theorem damaged_frame {frame : List UInt8} {x : Envelope × Body} (h : decodeCobs frame = .ok x) :
    (∀ k, decodeCobs (frame.take k) = .ok x ∨
      ∃ err, decodeCobs (frame.take k) = .error (.malformed err)) ∧
    ∀ junk, decodeCobs (frame ++ junk) = .ok x ∨
      decodeCobs (frame ++ junk) = .error (.malformed .deserializeBadEncoding) := by
  obtain ⟨msg, hmsg, hx⟩ := decodeCobs_eq_ok_iff.mp h
  constructor
  · intro k
    cases hcut : decodeInPlace (frame.take k) with
    | none => exact .inr ⟨_, by rw [decodeCobs, hcut]⟩
    | some cut =>
      obtain ⟨more, rfl⟩ := decodeInPlace_prefix (List.take_prefix k frame) hcut hmsg
      simp only [decodeCobs, hcut]
      exact decode_part hx
  · intro junk
    cases hout : decodeInPlace (frame ++ junk) with
    | none => exact .inr (by rw [decodeCobs, hout])
    | some out =>
      obtain ⟨more, rfl⟩ := decodeInPlace_prefix (List.prefix_append frame junk) hmsg hout
      left
      rw [decodeCobs, hout]
      exact decode_append hx more

theorem damaged_frame_session :
    (∀ k, decodeCobs ((announced 0).frame.take k) = .ok (announced 0) ∨
      ∃ err, decodeCobs ((announced 0).frame.take k) = .error (.malformed err)) ∧
    ∀ junk, decodeCobs ((announced 0).frame ++ junk) = .ok (announced 0) ∨
      decodeCobs ((announced 0).frame ++ junk) = .error (.malformed .deserializeBadEncoding) :=
  damaged_frame (decodeCobs_frameBytes _ _ rfl)

/-! ## Lost delimiters -/

/-- Frames on the stream without the delimiters between them. -/
def joined (ms : List Message) : List UInt8 := ms.flatMap Message.frame

theorem zero_not_mem_joined (ms : List Message) : 0 ∉ joined ms := by
  intro h
  obtain ⟨m, -, hm⟩ := List.mem_flatMap.mp h
  exact zero_not_mem_frameBytes m.1 m.2 hm

theorem blocksEnd_joined (ms : List Message) : Cobs.blocksEnd 0 (joined ms) = true := by
  induction ms with
  | nil => rfl
  | cons m ms ih =>
    rw [joined, List.flatMap_cons, Message.frame, frameBytes,
      Cobs.blocksEnd_append (Cobs.blocksEnd_encode _)]
    exact ih

theorem isSome_decodeInPlace_joined (m : Message) (ms : List Message) :
    (decodeInPlace (joined (m :: ms))).isSome := by
  obtain ⟨code, bs, hcons⟩ : ∃ code bs, joined (m :: ms) = code :: bs := by
    obtain ⟨code, bs, hcons⟩ := List.exists_cons_of_ne_nil (Cobs.encodeFrom_ne_nil []
      (envelopeCodec.write m.1 ++ bodyCodec.write m.2))
    rw [joined, List.flatMap_cons, Message.frame, frameBytes, Cobs.encode, hcons]
    exact ⟨_, _, List.cons_append⟩
  have h0 := zero_not_mem_joined (m :: ms)
  have hblocks := blocksEnd_joined (m :: ms)
  rw [decodeInPlace_of_zero_not_mem h0]
  rw [hcons] at h0 hblocks ⊢
  rw [Cobs.isSome_decode h0, hblocks]

theorem decodeCobs_joined {m : Message} (ms : List Message) (hv : m.1.version = WIRE_VERSION) :
    decodeCobs (joined (m :: ms)) = .ok m := by
  obtain ⟨msg, hmsg⟩ := Option.isSome_iff_exists.mp (isSome_decodeInPlace_joined m ms)
  obtain ⟨first, hfirst, hread⟩ := decodeCobs_eq_ok_iff.mp (decodeCobs_frameBytes m.1 m.2 hv)
  have hprefix : m.frame <+: joined (m :: ms) := List.prefix_append _ _
  obtain ⟨more, rfl⟩ := decodeInPlace_prefix hprefix hfirst hmsg
  rw [decodeCobs, hmsg]
  exact decode_append hread more

/-- Where delimiters are lost, the host reads the first frame of each run of frames and no other, and
never a mixture of two. -/
theorem lost_delimiters (runs : List (Message × List Message))
    (hv : ∀ r ∈ runs, r.1.1.version = WIRE_VERSION) :
    ((runs.flatMap fun r => joined (r.1 :: r.2) ++ [0]).splitOn 0).dropLast.map decodeCobs =
      runs.map fun r => .ok r.1 := by
  have hchunks := Cobs.splitOn_flatMap_delimited (fun r : Message × List Message =>
    joined (r.1 :: r.2)) runs [] fun r _ => zero_not_mem_joined _
  rw [List.append_nil, List.splitOn_nil] at hchunks
  rw [hchunks, List.dropLast_concat, List.map_map]
  apply List.map_congr_left
  intro r hr
  exact decodeCobs_joined r.2 (hv r hr)

/-- Two announcements run together, and a third on its own. -/
theorem lost_delimiters_sessions :
    (([(announced 0, [announced 1]), (announced 2, [])].flatMap fun r =>
        joined (r.1 :: r.2) ++ [0]).splitOn 0).dropLast.map decodeCobs =
      [(announced 0, [announced 1]), (announced 2, [])].map fun r => .ok r.1 :=
  lost_delimiters [(announced 0, [announced 1]), (announced 2, [])] (by decide)

end EspCsi.Wire
