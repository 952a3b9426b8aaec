import EspCsi.Logging.Backend
import EspCsi.Logging.Stream

/-!
# The stream of the logger task

What the task puts on the link in every mode. The three text formats are plain text and end no frame,
so it is the write before a packet that decides whether its frames are the host's.
-/

namespace EspCsi.Logging

open Wire Csi Rendering Cobs

/-! ## Plain text -/

/-- A printable ASCII character, or an end of line. -/
def Plain (c : Char) : Prop := c = '\r' ∨ c = '\n' ∨ 0x20 ≤ c.toNat ∧ c.toNat < 0x7f

instance (c : Char) : Decidable (Plain c) := inferInstanceAs (Decidable (_ ∨ _ ∨ _))

def PlainText (text : List Char) : Prop := ∀ c ∈ text, Plain c

instance (text : List Char) : Decidable (PlainText text) := List.decidableBAll Plain text

theorem plain_append {text more : List Char} :
    PlainText (text ++ more) ↔ PlainText text ∧ PlainText more :=
  List.forall_mem_append

def ascii (text : List Char) : List UInt8 := text.map Char.toUInt8

theorem plain_decimal (n : ℤ) : PlainText (decimal n) := by
  intro c hc
  by_cases hsign : c = '-'
  · rw [hsign]
    decide
  · by_cases hdigit : c.isDigit = true
    · have hbounds := hdigit
      simp only [Char.isDigit, Bool.and_eq_true, decide_eq_true_eq] at hbounds
      have hlow := UInt32.le_iff_toNat_le.mp hbounds.1
      have hhigh := UInt32.le_iff_toNat_le.mp hbounds.2
      exact .inr (.inr ⟨le_trans (by decide) hlow, lt_of_le_of_lt hhigh (by decide)⟩)
    · exact absurd hc (notMem_decimal hsign (Bool.not_eq_true _ ▸ hdigit) n)

theorem plain_dec32 (x : UInt32) : PlainText (dec32 x) := plain_decimal x.toNat

theorem plain_zeroPadded {width : ℕ} {numeral : List Char} (h : PlainText numeral) :
    PlainText (zeroPadded width numeral) := by
  intro c hc
  by_cases hzero : c = '0'
  · rw [hzero]
    decide
  · by_contra hplain
    exact notMem_zeroPadded hzero (fun hmem => hplain (h c hmem)) hc

theorem plain_dec64 (width : ℕ) (x : UInt64) : PlainText (dec64 width x) :=
  plain_zeroPadded (plain_decimal x.toNat)

theorem plain_hex8 (n : UInt8) : PlainText (hex8 n) := by
  have h : ∀ b : Fin 256, PlainText (hex8 (UInt8.ofBitVec (BitVec.ofFin b))) := by
    decide +kernel
  exact h n.toBitVec.toFin

theorem plain_lowerHex (n : UInt8) :
    PlainText (zeroPadded 2 (Nat.toDigits 16 n.toNat)) := by
  have h : ∀ b : Fin 256, PlainText (zeroPadded 2 (Nat.toDigits 16 b.val)) := by decide +kernel
  exact h ⟨n.toNat, n.toNat_lt⟩

theorem plain_intercalate {sep : List Char} {parts : List (List Char)} (hsep : PlainText sep)
    (h : ∀ part ∈ parts, PlainText part) : PlainText (sep.intercalate parts) := by
  intro c hc
  by_contra hplain
  exact notMem_intercalate (fun hmem => hplain (hsep c hmem))
    (fun part hpart hmem => hplain (h part hpart c hmem)) hc

/-! ## The three formats -/

theorem plain_arrayList (row : TextRow) : PlainText (ArrayList.line row) := by
  have hheader : PlainText (ArrayList.headerCells row) := by
    intro c hc
    obtain ⟨arg, -, hcell⟩ := List.mem_flatMap.mp hc
    rcases List.mem_append.mp hcell with hnumber | hlast
    · exact plain_decimal arg c hnumber
    · rw [List.mem_singleton.mp hlast]
      decide
  have hsamples : PlainText (ArrayList.samplesText row.csiData) := by
    apply plain_intercalate (by decide)
    intro part hpart
    obtain ⟨x, -, rfl⟩ := List.mem_map.mp hpart
    exact plain_decimal x.toInt
  have hmac : PlainText (ArrayList.macText row.mac) := by
    apply plain_intercalate (by decide)
    intro part hpart
    obtain ⟨b, -, rfl⟩ := List.mem_map.mp hpart
    exact plain_lowerHex b
  simp only [ArrayList.line, ArrayList.header, plain_append]
  exact ⟨⟨⟨⟨⟨⟨by decide, hheader⟩, by decide⟩, hsamples⟩, by decide⟩, hmac⟩, by decide⟩

theorem plain_arrayListLine (chip : Chip) (p : CsiPacket) :
    PlainText (Console.arrayListLine chip p) := by
  rw [Console.arrayListLine, ArrayList.formatArrayListInto_eq, Option.getD_some]
  split_ifs
  · exact List.forall_mem_nil _
  · exact plain_arrayList _

theorem plain_layoutColumns (packet : TextRow) :
    ∀ x ∈ CsiTool.layoutColumns packet, PlainText x.2 := by
  have hzero : PlainText ['0'] := by decide
  unfold CsiTool.layoutColumns
  cases packet.columns with
  | classic c =>
    simp only [List.forall_mem_cons]
    exact ⟨plain_dec32 _, plain_dec32 _, plain_dec32 _, plain_dec32 _, plain_dec32 _, plain_dec32 _,
      plain_dec32 _, plain_dec32 _, plain_dec32 _, plain_decimal _, plain_dec32 _, plain_dec32 _,
      plain_dec32 _, plain_dec32 _, plain_dec32 _, plain_dec32 _, plain_dec32 _,
      List.forall_mem_nil _⟩
  | he c =>
    simp only [List.forall_mem_cons]
    exact ⟨hzero, hzero, hzero, hzero, hzero, hzero, hzero, hzero, hzero, plain_decimal _, hzero,
      plain_dec32 _, hzero, plain_dec32 _, hzero, plain_dec32 _, plain_dec32 _,
      List.forall_mem_nil _⟩

theorem plain_csiTool (role : Role) (cap : UInt16) (packet : TextRow) :
    PlainText (CsiTool.line role cap packet) := by
  have hrole : PlainText role.asStr.toList := by cases role <;> decide
  have hmac : PlainText (CsiTool.upperMac packet.mac) := by
    apply plain_intercalate (by decide)
    intro part hpart
    obtain ⟨b, -, rfl⟩ := List.mem_map.mp hpart
    exact plain_hex8 b
  have htime : PlainText (CsiTool.realTimestamp packet.timestamp) := by
    simp only [CsiTool.realTimestamp, plain_append]
    exact ⟨⟨plain_dec32 _, by decide⟩, plain_zeroPadded (plain_dec32 _)⟩
  have hvalues : ∀ data, PlainText (CsiTool.valuesText data) := by
    intro data
    simp only [CsiTool.valuesText, plain_append]
    refine ⟨⟨by decide, ?_⟩, by decide⟩
    intro c hc
    obtain ⟨x, -, hx⟩ := List.mem_flatMap.mp hc
    rcases List.mem_append.mp hx with hnumber | hspace
    · exact plain_decimal x.toInt c hnumber
    · rw [List.mem_singleton.mp hspace]
      decide
  have hcolumns : ∀ x ∈ CsiTool.columns role cap packet, PlainText x.2 := by
    simp only [CsiTool.columns, CsiTool.frontColumns, CsiTool.timeColumns,
      List.forall_mem_append, List.forall_mem_cons]
    exact ⟨⟨⟨⟨by decide, hrole, hmac, plain_decimal _, plain_dec32 _, List.forall_mem_nil _⟩,
      plain_layoutColumns packet⟩, plain_decimal _, htime, plain_decimal _, List.forall_mem_nil _⟩,
      hvalues _, List.forall_mem_nil _⟩
  simp only [CsiTool.line, plain_append]
  refine ⟨plain_intercalate (by decide) ?_, by decide⟩
  intro part hpart
  obtain ⟨x, hx, rfl⟩ := List.mem_map.mp hpart
  exact hcolumns x hx

theorem plain_line {label : String} {value : List Char} (hlabel : PlainText label.toList)
    (hvalue : PlainText value) : ∀ piece ∈ Async.line label value, PlainText piece := by
  simp only [Async.line, List.forall_mem_cons]
  exact ⟨hlabel, hvalue, by decide, List.forall_mem_nil _⟩

theorem plain_columnLines (channel : UInt32) (columns : Columns) :
    ∀ line ∈ Async.columnLines channel columns, ∀ piece ∈ line, PlainText piece := by
  have h {label : String} (hlabel : PlainText label.toList) (x : UInt32) :=
    plain_line hlabel (plain_dec32 x)
  cases columns with
  | classic c =>
    simp only [Async.columnLines, List.forall_mem_cons]
    exact ⟨h (by decide) _, h (by decide) _, h (by decide) _, h (by decide) _, h (by decide) _,
      h (by decide) _, h (by decide) _, h (by decide) _, h (by decide) _, h (by decide) _,
      h (by decide) _, h (by decide) _, List.forall_mem_nil _⟩
  | he c =>
    obtain ⟨_, _, _, _, _, _, _, _, _, _, c6⟩ := c
    cases c6 with
    | none =>
      simp only [Async.columnLines, List.forall_mem_append, List.forall_mem_cons]
      exact ⟨⟨⟨⟨h (by decide) _, List.forall_mem_nil _⟩, List.forall_mem_nil _⟩, h (by decide) _,
        h (by decide) _, h (by decide) _, h (by decide) _, h (by decide) _, h (by decide) _,
        h (by decide) _, h (by decide) _, h (by decide) _, h (by decide) _,
        List.forall_mem_nil _⟩, List.forall_mem_nil _⟩
    | some c6 =>
      simp only [Async.columnLines, List.forall_mem_append, List.forall_mem_cons]
      exact ⟨⟨⟨⟨h (by decide) _, List.forall_mem_nil _⟩, h (by decide) _, h (by decide) _,
        List.forall_mem_nil _⟩, h (by decide) _, h (by decide) _, h (by decide) _,
        h (by decide) _, h (by decide) _, h (by decide) _, h (by decide) _, h (by decide) _,
        h (by decide) _, h (by decide) _, List.forall_mem_nil _⟩, h (by decide) _,
        List.forall_mem_nil _⟩

theorem plain_metadataLines (row : TextRow) :
    ∀ line ∈ Async.metadataLines row, ∀ piece ∈ line, PlainText piece := by
  have h32 {label : String} (hlabel : PlainText label.toList) (x : UInt32) :=
    plain_line hlabel (plain_dec32 x)
  have hnumber {label : String} (hlabel : PlainText label.toList) (n : ℤ) :=
    plain_line hlabel (plain_decimal n)
  have hdate : ∀ dt, ∀ piece ∈ Async.dateLine dt, PlainText piece := by
    intro dt
    simp only [Async.dateLine, List.forall_mem_cons]
    exact ⟨by decide, plain_dec64 _ _, by decide, plain_dec64 _ _, by decide, plain_dec64 _ _,
      by decide, plain_dec64 _ _, by decide, plain_dec64 _ _, by decide, plain_dec64 _ _,
      by decide, plain_dec64 _ _, by decide, List.forall_mem_nil _⟩
  have hmac : ∀ piece ∈ Async.macLine row.mac, PlainText piece := by
    simp only [Async.macLine, List.forall_mem_cons]
    exact ⟨by decide, plain_hex8 _, by decide, plain_hex8 _, by decide, plain_hex8 _, by decide,
      plain_hex8 _, by decide, plain_hex8 _, by decide, plain_hex8 _, by decide,
      List.forall_mem_nil _⟩
  simp only [Async.metadataLines, List.forall_mem_append, List.forall_mem_cons]
  refine ⟨⟨⟨?_, hmac, hnumber (by decide) _, hnumber (by decide) _, h32 (by decide) _,
    hnumber (by decide) _, h32 (by decide) _, h32 (by decide) _, h32 (by decide) _,
    h32 (by decide) _, List.forall_mem_nil _⟩, plain_columnLines _ _⟩, h32 (by decide) _,
    hnumber (by decide) _, List.forall_mem_nil _⟩
  intro line hline
  obtain ⟨dt, -, rfl⟩ := Option.mem_map.mp (Option.mem_toList.mp hline)
  exact hdate dt

theorem plain_flatten {pieces : List (List Char)} (h : ∀ piece ∈ pieces, PlainText piece) :
    PlainText pieces.flatten := by
  intro c hc
  obtain ⟨piece, hpiece, hmem⟩ := List.mem_flatten.mp hc
  exact h piece hpiece c hmem

theorem plain_textPacket (chip : Chip) (p : CsiPacket) :
    PlainText (writeTextPacketAsync chip p).flatten := by
  have hmetadata : PlainText (Async.metadataLines (TextRow.new chip p)).flatten.flatten := by
    apply plain_flatten
    intro piece hpiece
    obtain ⟨line, hline, hmem⟩ := List.mem_flatten.mp hpiece
    exact plain_metadataLines _ line hline piece hmem
  have hbody : PlainText (Async.body (TextRow.new chip p).csiData).flatten := by
    rw [flatten_body]
    apply plain_intercalate (by decide)
    intro part hpart
    obtain ⟨x, -, rfl⟩ := List.mem_map.mp hpart
    exact plain_decimal x.toInt
  simp only [writeTextPacketAsync, List.flatten_append, List.flatten_singleton, metadataBlock_eq,
    plain_append]
  exact ⟨⟨⟨hmetadata, by decide⟩, hbody⟩, by decide⟩

/-! ## What each write puts on the link -/

def Output.bytes (chip : Chip) : Output → List UInt8
  | serialized p => encodePacketFrames p
  | arrayList p => ascii (Console.arrayListLine chip p)
  | text p => ascii (writeTextPacketAsync chip p).flatten
  | csiTool header role cap p =>
    ascii ((if header then ESP_CSI_TOOL_HEADER.toList else []) ++
      (formatCsiToolInto role cap (TextRow.new chip p) Async.ASYNC_LOG_SCRATCH).getD [])
  | message framed line => if framed then writeTextFramed line else line.val

def Output.framed : Output → Bool
  | serialized _ => true
  | message framed _ => framed
  | _ => false

theorem zero_not_mem_ascii {text : List Char} (h : PlainText text) :
    COBS_DELIMITER ∉ ascii text := by
  intro hzero
  obtain ⟨c, hc, hbyte⟩ := List.mem_map.mp hzero
  have hnat := congrArg UInt8.toNat hbyte
  have hmod : c.toUInt8.toNat = c.toNat % 256 := UInt32.toNat_toUInt8 c.val
  rw [hmod] at hnat
  rcases h c hc with rfl | rfl | ⟨hlow, hhigh⟩
  · exact absurd hnat (by decide)
  · exact absurd hnat (by decide)
  · rw [Nat.mod_eq_of_lt (by omega)] at hnat
    exact absurd (hlow.trans hnat.le) (by decide)

variable (chip : Chip)

theorem getLast?_bytes_of_framed {o : Output} (h : o.framed = true) :
    (o.bytes chip).getLast? = some COBS_DELIMITER := by
  cases o with
  | serialized p => exact getLast?_encodePacketFrames p
  | message framed line =>
    obtain rfl : framed = true := h
    exact getLast?_writeTextFramed line
  | _ => cases h

theorem zero_not_mem_bytes {o : Output} (h : o.framed = false) :
    COBS_DELIMITER ∉ o.bytes chip := by
  cases o with
  | serialized p => cases h
  | arrayList p => exact zero_not_mem_ascii (plain_arrayListLine chip p)
  | text p => exact zero_not_mem_ascii (plain_textPacket chip p)
  | csiTool header role cap p =>
    apply zero_not_mem_ascii
    have hheader : PlainText (if header then ESP_CSI_TOOL_HEADER.toList else []) := by
      cases header <;> decide +kernel
    have hdata : (TextRow.new chip p).csiData.length ≤ 612 := by
      rw [TextRow.new_csiData]
      exact p.length_csiData
    rw [Async.ASYNC_LOG_SCRATCH, CsiTool.formatCsiToolInto_eq role cap hdata, Option.getD_some,
      plain_append]
    exact ⟨hheader, plain_csiTool role cap _⟩
  | message framed line =>
    obtain rfl : framed = false := h
    exact line.property

/-! ## The stream -/

def consoleStream (out : List Output) : List UInt8 := out.flatMap (Output.bytes chip)

/-- The last write that put anything on the link. -/
def lastWrite (out : List Output) : Option Output :=
  (out.filter fun o => !(o.bytes chip).isEmpty).getLast?

theorem consoleStream_append (before after : List Output) :
    consoleStream chip (before ++ after) =
      consoleStream chip before ++ consoleStream chip after :=
  List.flatMap_append

theorem consoleStream_cons (o : Output) (after : List Output) :
    consoleStream chip (o :: after) = o.bytes chip ++ consoleStream chip after :=
  List.flatMap_cons

theorem closed_consoleStream_iff (out : List Output) :
    Closed COBS_DELIMITER (consoleStream chip out) ↔
      ∀ o ∈ lastWrite chip out, o.framed = true := by
  induction out using List.reverseRecOn with
  | nil => exact iff_of_true (.inl rfl) fun o h => by cases h
  | append_singleton out o ih =>
    rw [consoleStream_append, consoleStream_cons, lastWrite, List.filter_append]
    by_cases hempty : o.bytes chip = []
    · rw [List.filter_cons_of_neg (by simp [hempty]), hempty]
      simpa [consoleStream, lastWrite] using ih
    · rw [List.filter_cons_of_pos (by simpa using hempty), List.filter_nil, List.getLast?_concat]
      have hlast : (consoleStream chip out ++ (o.bytes chip ++ consoleStream chip [])).getLast? =
          (o.bytes chip).getLast? := by
        rw [List.getLast?_append, consoleStream, List.flatMap_nil, List.append_nil,
          List.getLast?_eq_some_getLast hempty, Option.some_or]
      have hne : consoleStream chip out ++ (o.bytes chip ++ consoleStream chip []) ≠ [] := by
        intro hnil
        rw [hnil] at hlast
        exact hempty (List.getLast?_eq_none_iff.mp hlast.symm)
      rw [Closed, or_iff_right hne, hlast]
      cases hframed : o.framed with
      | true => exact iff_of_true (getLast?_bytes_of_framed chip hframed) (by simpa using hframed)
      | false =>
        refine iff_of_false (fun hzero => ?_) (by simpa using hframed)
        exact zero_not_mem_bytes chip hframed (List.mem_of_getLast? hzero)

/-- Wherever a packet is written in the serialized mode, its frames are chunks of the stream, except
that the chunk in progress is in front of the first one; there is none exactly when the write before it
was in that mode too. A message written in that mode is always a chunk of its own. -/
theorem consoleStream_chunks (before after : List Output) :
    (∀ p, ∃ frame frames, frameChunks p = frame :: frames ∧
      (consoleStream chip (before ++ .serialized p :: after)).splitOn COBS_DELIMITER =
        ((consoleStream chip before).splitOn COBS_DELIMITER).dropLast ++
          (inProgress COBS_DELIMITER (consoleStream chip before) ++ frame) :: frames ++
          (consoleStream chip after).splitOn COBS_DELIMITER ∧
      (inProgress COBS_DELIMITER (consoleStream chip before) = [] ↔
        ∀ o ∈ lastWrite chip before, o.framed = true)) ∧
    ∀ line : Text,
      (consoleStream chip (before ++ .message true line :: after)).splitOn COBS_DELIMITER =
        (consoleStream chip before).splitOn COBS_DELIMITER ++ line.val ::
          (consoleStream chip after).splitOn COBS_DELIMITER := by
  constructor
  · intro p
    have hframes : frameChunks p ≠ [] := by simp [frameChunks, bodies]
    obtain ⟨frame, frames, hcons⟩ := List.exists_cons_of_ne_nil hframes
    refine ⟨frame, frames, hcons, ?_, inProgress_eq_nil_iff.trans (closed_consoleStream_iff chip _)⟩
    rw [consoleStream_append, consoleStream_cons, splitOn_append, Output.bytes,
      splitOn_encodePacketFrames, hcons, List.cons_append, List.modifyHead_cons]
    simp
  · intro line
    have hbytes : (Output.message true line).bytes chip ++ consoleStream chip after =
        COBS_DELIMITER :: (line.val ++ COBS_DELIMITER :: consoleStream chip after) := by
      simp [Output.bytes, writeTextFramed]
    rw [consoleStream_append, consoleStream_cons, hbytes, List.splitOn_append_cons_self,
      List.splitOn_append_cons_self_of_not_mem line.property]

end EspCsi.Logging
