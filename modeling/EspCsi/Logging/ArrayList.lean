import EspCsi.Logging.Digits

/-!
# The array-list format

`LogMode::ArrayList` writes a packet as one line: the fields of the header, the samples in brackets,
and the MAC behind them. The fields go through a writer that drops what does not fit; the samples
are written without a check of their own, behind one check for the rest of the line.
-/

namespace EspCsi.Logging

open Wire Csi Rendering Appending

namespace ArrayList

/-- The pieces in which `Display` hands a number to the writer: its sign, then its digits. -/
def display : ℤ → List (List Char)
  | .ofNat n => [Nat.toDigits 10 n]
  | .negSucc n => [['-'], Nat.toDigits 10 (n + 1)]

/-- The pieces of `{:02x}`: the padding, then the digits. -/
def display02x (b : UInt8) : List (List Char) :=
  let digits := Nat.toDigits 16 b.toNat
  List.replicate (2 - digits.length) ['0'] ++ [digits]

def field (arg : ℤ) : List (List Char) := display arg ++ [[',']]

/-- The fields of the chip's own layout. -/
def columnFields (channel : UInt32) : Columns → List ℤ
  | .classic c =>
    [ c.secondaryChannel.toNat, c.sgi.toNat, c.antenna.toNat, c.ampduCnt.toNat, c.sigMode.toNat,
      c.mcs.toNat, c.bandwidth.toNat, c.smoothing.toNat, c.notSounding.toNat, c.aggregation.toNat,
      c.stbc.toNat, c.fecCoding.toNat ]
  | .he c =>
    [(c.dumpLen.toNat : ℤ)] ++
    (match c.c6 with
      | some c6 => [(c6.sigbLen.toNat : ℤ), (c6.curSingleMpdu.toNat : ℤ)]
      | none => []) ++
    [ (c.curBbFormat.toNat : ℤ), (c.rxChannelEstimateInfoVld.toNat : ℤ),
      (c.rxChannelEstimateLen.toNat : ℤ), (c.second.toNat : ℤ), (channel.toNat : ℤ),
      (c.isGroup.toNat : ℤ), (c.rxendState.toNat : ℤ), (c.rxmatch3.toNat : ℤ),
      (c.rxmatch2.toNat : ℤ), (c.rxmatch1.toNat : ℤ) ] ++
    (match c.c6 with
      | some c6 => [(c6.rxmatch0.toNat : ℤ)]
      | none => [])

def fields (row : TextRow) : List ℤ :=
  [ row.rssi.toInt, row.rate.toNat, row.noiseFloor.toInt, row.channel.toNat, row.timestamp.toNat,
    row.sigLen.toNat, row.rxState.toNat ] ++
  columnFields row.channel row.columns ++
  [(row.sigLen.toNat : ℤ), (row.csiDataLen.toNat : ℤ)]

/-- The writes up to the opening bracket of the samples. Each is tried, whatever became of the ones
before it. -/
def headerWrites (row : TextRow) : List (List (List Char)) :=
  [[['[']] ++ display row.sequenceNumber.toNat ++ [[',']]] ++ (fields row).map field ++ [[['[']]]

def macWrites (mac : Mac) : List (List (List Char)) :=
  mac.bytes.zipIdx.map fun x => (if x.2 = 0 then [] else [':']) :: display02x x.1

/-- `],`, the MAC and `]\r\n`. -/
def TAIL_RESERVE : ℕ := 2 + 17 + 3

/-- One turn of the loop over the samples. The last one is written with a placeholder, and the
position goes back over it. -/
def writeSample (capacity emitLen : ℕ) (w : List Char) (x : Int8 × ℕ) : Option (List Char) :=
  let sep := if x.2 + 1 < emitLen then ',' else '\x00'
  if sep = '\x00' then (writeI8Sep x.1 ',' capacity w).map List.dropLast
  else writeI8Sep x.1 sep capacity w

end ArrayList

open ArrayList

/-- `format_array_list_into`: what stands in a buffer of the given capacity up to the returned
position. `none` is an index out of bounds. -/
def formatArrayListInto (packet : TextRow) (capacity : ℕ) : Option (List Char) :=
  let w := (headerWrites packet).foldl (write capacity) []
  let emitLen := packet.csiData.length
  if capacity < w.length + emitLen * 5 + TAIL_RESERVE then some []
  else do
    let w ← packet.csiData.zipIdx.foldlM (writeSample capacity emitLen) w
    let w := write capacity w ["],".toList]
    let w := (macWrites packet.mac).foldl (write capacity) w
    some (write capacity w ["]\r\n".toList])

namespace ArrayList

/-! ## The reference line -/

def cell (arg : ℤ) : List Char := decimal arg ++ [',']

def headerCells (row : TextRow) : List Char :=
  (row.sequenceNumber.toNat :: fields row : List ℤ).flatMap cell

def samplesText (data : List Int8) : List Char :=
  [','].intercalate (data.map fun x => decimal x.toInt)

def macText (mac : Mac) : List Char :=
  [':'].intercalate (mac.bytes.map fun b => zeroPadded 2 (Nat.toDigits 16 b.toNat))

def header (row : TextRow) : List Char := ['['] ++ headerCells row ++ ['[']

def line (row : TextRow) : List Char :=
  header row ++ samplesText row.csiData ++ "],".toList ++ macText row.mac ++ "]\r\n".toList

/-! ## The header -/

theorem flatten_display (arg : ℤ) : (display arg).flatten = decimal arg := by
  cases arg <;> simp [display, decimal]

theorem flatten_field (arg : ℤ) : (field arg).flatten = cell arg := by
  rw [field, List.flatten_append, flatten_display]
  rfl

theorem flatten_headerWrites (row : TextRow) : (headerWrites row).flatten.flatten = header row := by
  have hfields : ((fields row).map field).flatten.flatten = (fields row).flatMap cell := by
    rw [List.flatten_flatten, List.map_map, List.flatMap_def]
    exact congrArg List.flatten (List.map_congr_left fun arg _ => flatten_field arg)
  simp [headerWrites, header, headerCells, hfields, flatten_display, cell]

theorem length_display {arg : ℤ} (h : arg.natAbs < 10 ^ 10) :
    ∀ piece ∈ display arg, piece.length ≤ 10 := by
  cases arg with
  | ofNat n =>
    simp only [display, List.forall_mem_cons]
    exact ⟨(Nat.length_toDigits_le_iff (by decide) (by decide)).mpr h, List.forall_mem_nil _⟩
  | negSucc n =>
    simp only [display, List.forall_mem_cons]
    exact ⟨by decide, (Nat.length_toDigits_le_iff (by decide) (by decide)).mpr h,
      List.forall_mem_nil _⟩

theorem natAbs_int32_lt (x : Int32) : x.toInt.natAbs < 10 ^ 10 := by
  have hlow := x.le_toInt
  have hhigh := x.toInt_lt
  omega

theorem natAbs_uint32_lt (x : UInt32) : (x.toNat : ℤ).natAbs < 10 ^ 10 := by
  have := x.toNat_lt
  rw [Int.natAbs_natCast]
  omega

theorem natAbs_uint16_lt (x : UInt16) : (x.toNat : ℤ).natAbs < 10 ^ 10 := by
  have := x.toNat_lt
  rw [Int.natAbs_natCast]
  omega

theorem exists_uint32_of_mem_columnFields {channel : UInt32} {columns : Columns} {arg : ℤ}
    (h : arg ∈ columnFields channel columns) : ∃ x : UInt32, arg = x.toNat := by
  have hall : ∀ arg ∈ columnFields channel columns, ∃ x : UInt32, arg = x.toNat := by
    cases columns with
    | classic c => simp [columnFields]
    | he c => cases hc6 : c.c6 <;> simp [columnFields, hc6]
  exact hall arg h

theorem natAbs_fields_lt {row : TextRow} {arg : ℤ} (h : arg ∈ fields row) :
    arg.natAbs < 10 ^ 10 := by
  rcases List.mem_append.mp h with hfront | hback
  · rcases List.mem_append.mp hfront with hcommon | hcolumn
    · have hall : ∀ arg ∈ ([ row.rssi.toInt, row.rate.toNat, row.noiseFloor.toInt,
          row.channel.toNat, row.timestamp.toNat, row.sigLen.toNat, row.rxState.toNat ] : List ℤ),
          arg.natAbs < 10 ^ 10 := by
        simp only [List.forall_mem_cons]
        exact ⟨natAbs_int32_lt _, natAbs_uint32_lt _, natAbs_int32_lt _, natAbs_uint32_lt _,
          natAbs_uint32_lt _, natAbs_uint32_lt _, natAbs_uint32_lt _, List.forall_mem_nil _⟩
      exact hall arg hcommon
    · obtain ⟨x, rfl⟩ := exists_uint32_of_mem_columnFields hcolumn
      exact natAbs_uint32_lt x
  · have hall : ∀ arg ∈ [(row.sigLen.toNat : ℤ), (row.csiDataLen.toNat : ℤ)],
        arg.natAbs < 10 ^ 10 := by
      simp only [List.forall_mem_cons]
      exact ⟨natAbs_uint32_lt _, natAbs_uint16_lt _, List.forall_mem_nil _⟩
    exact hall arg hback

theorem length_headerWrites (row : TextRow) :
    ∀ pieces ∈ headerWrites row, ∀ piece ∈ pieces, piece.length ≤ 10 := by
  intro pieces hpieces
  rcases List.mem_append.mp hpieces with hfront | hbracket
  · rcases List.mem_append.mp hfront with hseq | hfield
    · rw [List.mem_singleton.mp hseq]
      simp only [List.forall_mem_append, List.forall_mem_singleton]
      exact ⟨⟨by decide, length_display (natAbs_uint16_lt _)⟩, by decide⟩
    · obtain ⟨arg, harg, rfl⟩ := List.mem_map.mp hfield
      simp only [field, List.forall_mem_append, List.forall_mem_singleton]
      exact ⟨length_display (natAbs_fields_lt harg), by decide⟩
  · rw [List.mem_singleton.mp hbracket]
    decide

/-! ## Behind the header -/

/-- The text one turn of the loop leaves. -/
def sampleText (emitLen : ℕ) (x : Int8 × ℕ) : List Char :=
  if x.2 + 1 = emitLen then decimal x.1.toInt else decimal x.1.toInt ++ [',']

theorem length_sampleText (emitLen : ℕ) (x : Int8 × ℕ) : (sampleText emitLen x).length ≤ 5 := by
  have hdecimal := length_decimal_int8 x.1
  rw [sampleText]
  by_cases hlast : x.2 + 1 = emitLen
  · rw [if_pos hlast]
    omega
  · rw [if_neg hlast, List.length_append, List.length_singleton]
    omega

theorem writeSample_eq {capacity emitLen : ℕ} {w : List Char} {x : Int8 × ℕ} (hx : x.2 < emitLen)
    (hroom : w.length + 5 ≤ capacity) :
    writeSample capacity emitLen w x = some (w ++ sampleText emitLen x) := by
  have hdecimal := length_decimal_int8 x.1
  have hwrite : writeI8Sep x.1 ',' capacity w = some (w ++ (decimal x.1.toInt ++ [','])) := by
    apply puts_writeI8Sep
    rw [List.length_append, List.length_singleton]
    omega
  rw [writeSample, sampleText]
  by_cases hlast : x.2 + 1 = emitLen
  · -- the placeholder goes, so that nothing but the number is left
    have hsep : ¬x.2 + 1 < emitLen := by omega
    rw [if_neg hsep, if_pos rfl, if_pos hlast, hwrite, Option.map_some, ← List.append_assoc,
      List.dropLast_concat]
  · have hsep : x.2 + 1 < emitLen := by omega
    rw [if_pos hsep, if_neg (by decide), if_neg hlast, hwrite]

theorem samplesText_eq (data : List Int8) :
    data.zipIdx.flatMap (sampleText data.length) = samplesText data := by
  rw [List.flatMap_def]
  exact flatten_separated [','] (fun x : Int8 => decimal x.toInt) (Nat.zero_add _)

theorem length_samplesText (data : List Int8) : (samplesText data).length ≤ data.length * 5 := by
  have hlen := length_flatMap_le fun x (_ : x ∈ data.zipIdx) => length_sampleText data.length x
  rwa [samplesText_eq, List.length_zipIdx] at hlen

theorem foldlM_writeSample {capacity : ℕ} {w : List Char} {data : List Int8}
    (hroom : w.length + data.length * 5 ≤ capacity) :
    data.zipIdx.foldlM (writeSample capacity data.length) w = some (w ++ samplesText data) := by
  rw [← samplesText_eq]
  apply foldlM_eq 5
  · exact fun x _ => length_sampleText _ x
  · intro x hx buf hbuf
    have hlt := List.snd_lt_of_mem_zipIdx hx
    exact writeSample_eq (by omega) hbuf
  · rwa [List.length_zipIdx]

theorem flatten_display02x (b : UInt8) :
    (display02x b).flatten = zeroPadded 2 (Nat.toDigits 16 b.toNat) := by
  rw [display02x, List.flatten_append, List.flatten_replicate_singleton, List.flatten_singleton]
  rfl

theorem flatten_macWrites (mac : Mac) : (macWrites mac).flatten.flatten = macText mac := by
  simp [macWrites, macText, Mac.bytes, flatten_display02x, List.intercalate_cons_cons]

theorem length_macText (mac : Mac) : (macText mac).length = 17 := by
  have hbyte : ∀ b : UInt8, (zeroPadded 2 (Nat.toDigits 16 b.toNat)).length = 2 := by
    intro b
    rw [zeroPadded, List.length_leftpad]
    exact max_eq_left ((Nat.length_toDigits_le_iff (by decide) (by decide)).mpr b.toNat_lt)
  simp [macText, Mac.bytes, List.intercalate_cons_cons, hbyte]

theorem writeTail {capacity : ℕ} {w : List Char} {mac : Mac}
    (hroom : w.length + TAIL_RESERVE ≤ capacity) :
    write capacity ((macWrites mac).foldl (write capacity) (write capacity w ["],".toList]))
        ["]\r\n".toList] =
      w ++ "],".toList ++ macText mac ++ "]\r\n".toList := by
  have hmac := length_macText mac
  have hclose : "],".toList.length = 2 := rfl
  have hend : "]\r\n".toList.length = 3 := rfl
  rw [TAIL_RESERVE] at hroom
  have hfirst : write capacity w ["],".toList] = w ++ "],".toList := by
    rw [write_eq, List.flatten_singleton]
    rw [List.flatten_singleton]
    omega
  have hmiddle : (macWrites mac).foldl (write capacity) (w ++ "],".toList) =
      w ++ "],".toList ++ macText mac := by
    rw [foldl_write_eq, flatten_macWrites]
    rw [flatten_macWrites, List.length_append]
    omega
  rw [hfirst, hmiddle, write_eq, List.flatten_singleton]
  rw [List.flatten_singleton, List.length_append, List.length_append]
  omega

/-! ## Whole or absent -/

/-- The line is refused just if its header, five bytes for each sample and the reserve for the tail
exceed the buffer, and is otherwise whole. -/
theorem formatArrayListInto_eq (row : TextRow) (capacity : ℕ) :
    formatArrayListInto row capacity =
      some (if capacity < (header row).length + row.csiData.length * 5 + TAIL_RESERVE then []
        else line row) := by
  rw [formatArrayListInto]
  by_cases hrefused : capacity < (header row).length + row.csiData.length * 5 + TAIL_RESERVE
  · rw [if_pos hrefused, if_pos]
    rcases foldl_write_eq_or_full capacity [] (length_headerWrites row) with hwhole | hfull
    · -- nothing was dropped: the check sees the header as it is
      rw [hwhole, flatten_headerWrites, List.nil_append]
      exact hrefused
    · -- something was dropped: what room is left is less than the reserve
      rw [TAIL_RESERVE]
      omega
  · have hreserve : TAIL_RESERVE = 22 := rfl
    have hheader : (headerWrites row).foldl (write capacity) [] = header row := by
      rw [foldl_write_eq, flatten_headerWrites, List.nil_append]
      rw [flatten_headerWrites, List.length_nil]
      omega
    have hroom : (header row ++ samplesText row.csiData).length + TAIL_RESERVE ≤ capacity := by
      have hsamples := length_samplesText row.csiData
      rw [List.length_append]
      omega
    rw [if_neg hrefused, if_neg (by rwa [hheader]), hheader,
      foldlM_writeSample (by omega), Option.bind_eq_bind, Option.bind_some]
    exact congrArg some (writeTail hroom)

/-! ## How long a header gets -/

theorem length_cell (arg : ℤ) : (cell arg).length = (decimal arg).length + 1 := List.length_append

theorem length_cell_uint32 (x : UInt32) : (cell x.toNat).length ≤ 11 := by
  have hlen := length_dec32 x
  rw [dec32] at hlen
  rw [length_cell]
  omega

theorem length_cell_uint16 (x : UInt16) : (cell x.toNat).length ≤ 6 := by
  have hlen := length_decimal_uint16 x
  rw [length_cell]
  omega

theorem length_columnCells (channel : UInt32) (columns : Columns) :
    ((columnFields channel columns).flatMap cell).length ≤
      (columnFields channel columns).length * 11 := by
  apply length_flatMap_le
  intro arg harg
  obtain ⟨x, rfl⟩ := exists_uint32_of_mem_columnFields harg
  exact length_cell_uint32 x

theorem length_header (row : TextRow) :
    (header row).length ≤ (decimal row.rssi.toInt).length + (decimal row.noiseFloor.toInt).length +
      (columnFields row.channel row.columns).length * 11 + 82 := by
  have hseq := length_cell_uint16 row.sequenceNumber
  have hrssi := length_cell row.rssi.toInt
  have hrate := length_cell_uint32 row.rate
  have hnoise := length_cell row.noiseFloor.toInt
  have hchannel := length_cell_uint32 row.channel
  have htimestamp := length_cell_uint32 row.timestamp
  have hsigLen := length_cell_uint32 row.sigLen
  have hrxState := length_cell_uint32 row.rxState
  have hcolumns := length_columnCells row.channel row.columns
  have hdataLen := length_cell_uint16 row.csiDataLen
  simp only [header, headerCells, fields, List.flatMap_cons, List.flatMap_append, List.flatMap_nil,
    List.length_append, List.length_cons, List.length_nil]
  omega

def isC6 : Columns → Bool
  | .classic _ => false
  | .he c => c.c6.isSome

theorem length_columnFields (channel : UInt32) (columns : Columns) :
    (columnFields channel columns).length ≤ if isC6 columns then 14 else 12 := by
  cases columns with
  | classic c => exact Nat.le_refl _
  | he c => cases hc6 : c.c6 <;> simp [columnFields, isC6, hc6]

/-! ## Reading a line -/

def readSamples (text : List Char) : Option (List Int8) :=
  if text = [] then some []
  else (text.splitOn ',').mapM fun cell => (ofDecimal cell).map Int8.ofInt

def readMac (text : List Char) : Option Mac :=
  match (text.splitOn ':').mapM ofLowerHex with
  | some [b0, b1, b2, b3, b4, b5] =>
    some ⟨.ofNat b0, .ofNat b1, .ofNat b2, .ofNat b3, .ofNat b4, .ofNat b5⟩
  | _ => none

def u32 (n : ℤ) : UInt32 := UInt32.ofNat n.toNat

def u16 (n : ℤ) : UInt16 := UInt16.ofNat n.toNat

def readColumns : List ℤ → Option (Columns × ℤ)
  | [secondary, sgi, antenna, ampdu, sigMode, mcs, bandwidth, smoothing, notSounding, aggregation,
      stbc, fec, _, dataLen] =>
    some (.classic
      { sgi := u32 sgi
        secondaryChannel := u32 secondary
        bandwidth := u32 bandwidth
        antenna := u32 antenna
        sigMode := u32 sigMode
        mcs := u32 mcs
        smoothing := u32 smoothing
        notSounding := u32 notSounding
        aggregation := u32 aggregation
        stbc := u32 stbc
        fecCoding := u32 fec
        ampduCnt := u32 ampdu }, dataLen)
  | [dumpLen, bb, estVld, estLen, second, _, isGroup, rxend, rxmatch3, rxmatch2, rxmatch1, _,
      dataLen] =>
    some (.he
      { dumpLen := u32 dumpLen
        curBbFormat := u32 bb
        rxChannelEstimateInfoVld := u32 estVld
        rxChannelEstimateLen := u32 estLen
        second := u32 second
        isGroup := u32 isGroup
        rxendState := u32 rxend
        rxmatch3 := u32 rxmatch3
        rxmatch2 := u32 rxmatch2
        rxmatch1 := u32 rxmatch1
        c6 := none }, dataLen)
  | [dumpLen, sigb, single, bb, estVld, estLen, second, _, isGroup, rxend, rxmatch3, rxmatch2,
      rxmatch1, rxmatch0, _, dataLen] =>
    some (.he
      { dumpLen := u32 dumpLen
        curBbFormat := u32 bb
        rxChannelEstimateInfoVld := u32 estVld
        rxChannelEstimateLen := u32 estLen
        second := u32 second
        isGroup := u32 isGroup
        rxendState := u32 rxend
        rxmatch3 := u32 rxmatch3
        rxmatch2 := u32 rxmatch2
        rxmatch1 := u32 rxmatch1
        c6 := some { sigbLen := u32 sigb, curSingleMpdu := u32 single, rxmatch0 := u32 rxmatch0 } },
      dataLen)
  | _ => none

def readRow (mac : Mac) (samples : List Int8) : List ℤ → Option TextRow
  | seq :: rssi :: rate :: noise :: channel :: timestamp :: sigLen :: rxState :: rest => do
    let (columns, dataLen) ← readColumns rest
    some
      { mac := mac
        rssi := Int32.ofInt rssi
        timestamp := u32 timestamp
        rate := u32 rate
        noiseFloor := Int32.ofInt noise
        sigLen := u32 sigLen
        rxState := u32 rxState
        channel := u32 channel
        dateTime := none
        sequenceNumber := u16 seq
        csiDataLen := u16 dataLen
        csiData := samples
        columns := columns }
  | _ => none

/-- A host's reading of a line. The brackets part the header, the samples and the MAC. -/
def read (text : List Char) : Option TextRow :=
  match text.splitOn '[' with
  | [[], header, body] =>
    match body.splitOn ']' with
    | [samples, ',' :: mac, ['\r', '\n']] => do
      let mac ← readMac mac
      let samples ← readSamples samples
      let cells ← readEach ',' ofDecimal header
      readRow mac samples cells
    | _ => none
  | _ => none

theorem readEach_cells (args : List ℤ) : readEach ',' ofDecimal (args.flatMap cell) = some args :=
  readEach_flatMap (fun arg _ => notMem_decimal (by decide) (by decide) arg)
    fun arg _ => ofDecimal_decimal arg

theorem readSamples_samplesText (data : List Int8) : readSamples (samplesText data) = some data := by
  cases data with
  | nil => rfl
  | cons x data =>
    have hsplit : (samplesText (x :: data)).splitOn ',' =
        (x :: data).map fun x => decimal x.toInt := by
      apply List.splitOn_intercalate
      · intro part hpart
        obtain ⟨y, -, rfl⟩ := List.mem_map.mp hpart
        exact notMem_decimal (by decide) (by decide) y.toInt
      · simp
    have hne : samplesText (x :: data) ≠ [] := by
      intro hnil
      obtain ⟨c, cs, hcs, -⟩ := decimal_eq_cons x.toInt
      rw [hnil, List.map_cons, hcs] at hsplit
      exact List.cons_ne_nil c cs (List.cons.inj hsplit).1.symm
    rw [readSamples, if_neg hne, hsplit]
    apply mapM_render
    intro y _
    rw [ofDecimal_decimal, Option.map_some, Int8.ofInt_toInt]

theorem notMem_hex {c : Char} (h : ofHexDigit c = none) (b : UInt8) :
    c ∉ zeroPadded 2 (Nat.toDigits 16 b.toNat) := by
  intro hc
  have hsome := isSome_ofHexDigit_byte b.toNat_lt c hc
  rw [h] at hsome
  cases hsome

theorem readMac_macText (mac : Mac) : readMac (macText mac) = some mac := by
  have hsplit : (macText mac).splitOn ':' =
      mac.bytes.map fun b => zeroPadded 2 (Nat.toDigits 16 b.toNat) := by
    apply List.splitOn_intercalate
    · intro part hpart
      obtain ⟨b, -, rfl⟩ := List.mem_map.mp hpart
      exact notMem_hex (by decide) b
    · exact List.cons_ne_nil _ _
  have hread : ((mac.bytes.map UInt8.toNat).map fun n =>
      zeroPadded 2 (Nat.toDigits 16 n)).mapM ofLowerHex = some (mac.bytes.map UInt8.toNat) := by
    apply mapM_render
    intro n hn
    obtain ⟨b, -, rfl⟩ := List.mem_map.mp hn
    exact ofLowerHex_byte b.toNat_lt
  rw [List.map_map] at hread
  have hbytes : ((macText mac).splitOn ':').mapM ofLowerHex = some (mac.bytes.map UInt8.toNat) := by
    rw [hsplit]
    exact hread
  rw [readMac, hbytes]
  simp [Mac.bytes]

theorem u32_toNat (x : UInt32) : u32 x.toNat = x := by
  rw [u32, Int.toNat_natCast, UInt32.ofNat_toNat]

theorem u16_toNat (x : UInt16) : u16 x.toNat = x := by
  rw [u16, Int.toNat_natCast, UInt16.ofNat_toNat]

theorem readColumns_columnFields (channel : UInt32) (columns : Columns) (sigLen dataLen : ℤ) :
    readColumns (columnFields channel columns ++ [sigLen, dataLen]) = some (columns, dataLen) := by
  cases columns with
  | classic c => simp [columnFields, readColumns, u32_toNat]
  | he c =>
    obtain ⟨dumpLen, bb, estVld, estLen, second, isGroup, rxend, rxmatch3, rxmatch2, rxmatch1, c6⟩ := c
    cases c6 with
    | none => simp [columnFields, readColumns, u32_toNat]
    | some c6 => simp [columnFields, readColumns, u32_toNat]

theorem readRow_fields (row : TextRow) :
    readRow row.mac row.csiData (row.sequenceNumber.toNat :: fields row) =
      some { row with dateTime := none } := by
  simp only [fields, List.cons_append, List.nil_append, readRow]
  rw [readColumns_columnFields]
  simp [u32_toNat, u16_toNat]

section Brackets

variable {c : Char} (hdecimal : ∀ n : ℤ, c ∉ decimal n) (hcomma : c ≠ ',')

include hdecimal hcomma

theorem notMem_headerCells (row : TextRow) : c ∉ headerCells row := by
  intro hc
  obtain ⟨arg, -, hcell⟩ := List.mem_flatMap.mp hc
  rcases List.mem_append.mp hcell with hnumber | hlast
  · exact hdecimal arg hnumber
  · exact hcomma (List.mem_singleton.mp hlast)

theorem notMem_samplesText (data : List Int8) : c ∉ samplesText data := by
  apply notMem_intercalate
  · simpa using hcomma
  · intro part hpart
    obtain ⟨x, -, rfl⟩ := List.mem_map.mp hpart
    exact hdecimal x.toInt

end Brackets

theorem notMem_macText {c : Char} (hcolon : c ≠ ':') (hhex : ofHexDigit c = none) (mac : Mac) :
    c ∉ macText mac := by
  apply notMem_intercalate
  · simpa using hcolon
  · intro part hpart
    obtain ⟨b, -, rfl⟩ := List.mem_map.mp hpart
    exact notMem_hex hhex b

def body (row : TextRow) : List Char :=
  samplesText row.csiData ++ "],".toList ++ macText row.mac ++ "]\r\n".toList

theorem splitOn_line (row : TextRow) : (line row).splitOn '[' = [[], headerCells row, body row] := by
  have hline : line row = ['['].intercalate [[], headerCells row, body row] := by
    simp [line, header, body, List.intercalate_cons_cons]
  have hdecimal : ∀ n : ℤ, '[' ∉ decimal n := notMem_decimal (by decide) (by decide)
  have hcells := notMem_headerCells hdecimal (by decide) row
  have hsamples := notMem_samplesText hdecimal (by decide) row.csiData
  have hmac : '[' ∉ macText row.mac := notMem_macText (by decide) (by decide) row.mac
  have hbody : '[' ∉ body row := by
    simp [body, hsamples, hmac]
  rw [hline]
  apply List.splitOn_intercalate
  · simp only [List.forall_mem_cons]
    exact ⟨List.not_mem_nil, hcells, hbody, List.forall_mem_nil _⟩
  · exact List.cons_ne_nil _ _

theorem splitOn_body (row : TextRow) :
    (body row).splitOn ']' =
      [samplesText row.csiData, ',' :: macText row.mac, ['\r', '\n']] := by
  have hbody : body row =
      [']'].intercalate [samplesText row.csiData, ',' :: macText row.mac, ['\r', '\n']] := by
    simp [body, List.intercalate_cons_cons]
  have hdecimal : ∀ n : ℤ, ']' ∉ decimal n := notMem_decimal (by decide) (by decide)
  have hsamples := notMem_samplesText hdecimal (by decide) row.csiData
  have hmac : ']' ∉ macText row.mac := notMem_macText (by decide) (by decide) row.mac
  rw [hbody]
  apply List.splitOn_intercalate
  · simp only [List.forall_mem_cons]
    exact ⟨hsamples, List.not_mem_cons_of_ne_of_not_mem (by decide) hmac, by decide,
      List.forall_mem_nil _⟩
  · exact List.cons_ne_nil _ _

/-- A line has all that the row has but the date, which it never carries. -/
theorem read_line (row : TextRow) : read (line row) = some { row with dateTime := none } := by
  rw [read, splitOn_line]
  simp only [splitOn_body]
  rw [readMac_macText, readSamples_samplesText, headerCells, readEach_cells]
  exact readRow_fields row

/-! ## The scratch -/

theorem new_int8 (chip : Chip) (packet : CsiPacket) :
    (TextRow.new chip packet).rssi = packet.frame.rxMeta.rssi.toInt32 ∧
      (TextRow.new chip packet).noiseFloor = packet.frame.rxMeta.noiseFloor.toInt32 := by
  unfold TextRow.new
  cases isHe chip <;> exact ⟨rfl, rfl⟩

theorem length_header_new (chip : Chip) (packet : CsiPacket) :
    (header (TextRow.new chip packet)).length ≤ 244 := by
  have hheader := length_header (TextRow.new chip packet)
  have hcolumns := length_columnFields (TextRow.new chip packet).channel
    (TextRow.new chip packet).columns
  obtain ⟨hrssi, hnoise⟩ := new_int8 chip packet
  have hsignal := length_decimal_int8 packet.frame.rxMeta.rssi
  have hfloor := length_decimal_int8 packet.frame.rxMeta.noiseFloor
  rw [hrssi, hnoise, Int8.toInt_toInt32, Int8.toInt_toInt32] at hheader
  split_ifs at hcolumns <;> omega

theorem length_header_le {row : TextRow} (h : isC6 row.columns = false) :
    (header row).length ≤ 236 := by
  have hheader := length_header row
  have hcolumns := length_columnFields row.channel row.columns
  have hrssi := length_decimal_int32 row.rssi
  have hnoise := length_decimal_int32 row.noiseFloor
  rw [h, if_neg Bool.false_ne_true] at hcolumns
  omega

end ArrayList

/-- A line is whole or absent, whatever the row and the buffer: it is left out just if the buffer may
not hold it, and what is written reads back to the row. The 3328 bytes of the scratch are enough for
612 samples in any layout but the ESP32-C6's, and in that one for every packet. -/
theorem array_list_whole_or_absent :
    (∀ (row : TextRow) (capacity : ℕ), formatArrayListInto row capacity =
      some (if capacity < (header row).length + row.csiData.length * 5 + TAIL_RESERVE then []
        else line row)) ∧
    (∀ row : TextRow, row.csiData.length ≤ 612 → isC6 row.columns = false →
      formatArrayListInto row 3328 = some (line row)) ∧
    (∀ (chip : Chip) (packet : CsiPacket), formatArrayListInto (TextRow.new chip packet) 3328 =
      some (line (TextRow.new chip packet))) ∧
    (∀ row : TextRow, read (line row) = some { row with dateTime := none }) := by
  have hreserve : TAIL_RESERVE = 22 := rfl
  refine ⟨formatArrayListInto_eq, ?_, ?_, read_line⟩
  · intro row hdata hlayout
    have hheader := length_header_le hlayout
    rw [formatArrayListInto_eq, if_neg (by omega)]
  · intro chip packet
    have hheader := length_header_new chip packet
    have hdata : packet.csiData.length ≤ 612 := packet.length_csiData
    rw [← TextRow.new_csiData chip packet] at hdata
    rw [formatArrayListInto_eq, if_neg (by omega)]

/-- A classic row of two samples. -/
theorem array_list_whole_classic :
    ∃ row : TextRow, row.csiData = [1, -6] ∧ formatArrayListInto row 3328 = some (line row) :=
  ⟨{ mac := Mac.zero, rssi := -40, timestamp := 1, rate := 11, noiseFloor := -90, sigLen := 60,
      rxState := 0, channel := 6, dateTime := none, sequenceNumber := 7, csiDataLen := 2,
      csiData := [1, -6], columns := .classic ⟨0, 0, 0, 0, 0, 0, 0, 0, 0, 0, 0, 0⟩ }, rfl,
    array_list_whole_or_absent.2.1 _ (by decide) rfl⟩

/-- The longest row of the ESP32-C6, with every number at its largest. -/
def longestRow : TextRow where
  mac := Mac.broadcast
  rssi := Int32.minValue
  timestamp := 4294967295
  rate := 4294967295
  noiseFloor := Int32.minValue
  sigLen := 4294967295
  rxState := 4294967295
  channel := 4294967295
  dateTime := none
  sequenceNumber := 65535
  csiDataLen := 612
  csiData := List.replicate 612 (-128)
  columns := .he
    { dumpLen := 4294967295
      curBbFormat := 4294967295
      rxChannelEstimateInfoVld := 4294967295
      rxChannelEstimateLen := 4294967295
      second := 4294967295
      isGroup := 4294967295
      rxendState := 4294967295
      rxmatch3 := 4294967295
      rxmatch2 := 4294967295
      rxmatch1 := 4294967295
      c6 := some
        { sigbLen := 4294967295, curSingleMpdu := 4294967295, rxmatch0 := 4294967295 } }

/-- Its 612 samples are within the limit and its line is refused: 256 bytes of header, 3060 for the
samples and the reserve come to 3338. -/
theorem longestRow_refused :
    longestRow.csiData.length = 612 ∧ formatArrayListInto longestRow 3328 = some [] := by
  refine ⟨List.length_replicate, ?_⟩
  have hheader : (header longestRow).length = 256 := by decide +kernel
  have hdata : longestRow.csiData.length = 612 := List.length_replicate
  rw [formatArrayListInto_eq, if_pos]
  rw [hheader, hdata]
  decide

end EspCsi.Logging
