import EspCsi.Csi.Esp
import EspCsi.Lib.Rendering
import EspCsi.Logging.Logger
import Mathlib.Data.List.Forall2

/-!
# The text format

`LogMode::Text` writes a packet as some thirty labelled rows, the raw CSI buffer last. Each backend
has a writer of its own: the sync one prints row after row, the async one formats the metadata into
a shared scratch and then streams the samples through it.
-/

namespace EspCsi.Csi

open Wire

/-- The raw CSI buffer, for an Espressif payload. Empty for any other payload. -/
def CsiPacket.csiData (p : CsiPacket) : List Int8 :=
  match p.frame.payload with
  | .espRaw _ _ _ bytes => bytes.val
  | _ => []

theorem CsiPacket.length_csiData (p : CsiPacket) : p.csiData.length ≤ MAX_CSI_BYTES := by
  unfold CsiPacket.csiData
  split
  · rename_i bytes _
    exact bytes.property
  · exact Nat.zero_le _

structure DateTime where
  year : UInt64
  month : UInt64
  day : UInt64
  hour : UInt64
  minute : UInt64
  second : UInt64
  millisecond : UInt64

def secondaryCode : Secondary → UInt32
  | .none => 0
  | .above => 1
  | .below => 2

structure ClassicColumns where
  sgi : UInt32
  secondaryChannel : UInt32
  bandwidth : UInt32
  antenna : UInt32
  sigMode : UInt32
  mcs : UInt32
  smoothing : UInt32
  notSounding : UInt32
  aggregation : UInt32
  stbc : UInt32
  fecCoding : UInt32
  ampduCnt : UInt32

structure C6Columns where
  sigbLen : UInt32
  curSingleMpdu : UInt32
  rxmatch0 : UInt32

structure HeColumns where
  dumpLen : UInt32
  curBbFormat : UInt32
  rxChannelEstimateInfoVld : UInt32
  rxChannelEstimateLen : UInt32
  second : UInt32
  isGroup : UInt32
  rxendState : UInt32
  rxmatch3 : UInt32
  rxmatch2 : UInt32
  rxmatch1 : UInt32
  c6 : Option C6Columns

inductive Columns where
  | classic (c : ClassicColumns)
  | he (c : HeColumns)

/-- The packet fields that the text formats print, with the layout of the chip the build is for. -/
structure TextRow where
  mac : Mac
  rssi : Int32
  timestamp : UInt32
  rate : UInt32
  noiseFloor : Int32
  sigLen : UInt32
  rxState : UInt32
  channel : UInt32
  dateTime : Option DateTime
  sequenceNumber : UInt16
  csiDataLen : UInt16
  csiData : List Int8
  columns : Columns

namespace TextRow

def classicColumns (m : RxMeta) : UInt8 × ClassicColumns :=
  let (rate, sigMode, smoothing, fec, ampdu) :=
    match m.vendor with
    | .espClassic rate sigMode smoothing fecLdpc ampduCnt =>
      (rate, sigMode, smoothing, fecLdpc, ampduCnt)
    -- a packet of another source has none of the vendor's fields
    | _ => (0, 0, false, false, 0)
  (rate,
    { sgi := (m.sgi.getD false).toUInt32
      secondaryChannel := secondaryCode m.secondary
      bandwidth := (m.bandwidth == some .mhz40).toUInt32
      antenna := (m.antenna.getD 0).toUInt32
      sigMode := sigMode.toUInt32
      mcs := (m.mcs.getD 0).toUInt32
      smoothing := smoothing.toUInt32
      notSounding := (m.notSounding.getD true).toUInt32
      aggregation := (m.aggregation.getD false).toUInt32
      stbc := (m.stbc.getD false).toUInt32
      fecCoding := fec.toUInt32
      ampduCnt := ampdu.toUInt32 })

def heColumns (chip : Chip) (m : RxMeta) : UInt8 × HeColumns :=
  let (rate, bb, estVld, estLen, dumpLen, isGroup, rxend, rxmatch, sigb, single) :=
    match m.vendor with
    | .espHe rate curBbFormat estimateValid estimateLen dumpLen isGroup rxendState rxmatch _ _
        sigbLen singleMpdu =>
      (rate, curBbFormat, estimateValid, estimateLen, dumpLen, isGroup, rxendState, rxmatch, sigbLen,
        singleMpdu)
    | _ => (0, 0, false, 0, 0, false, 0, 0, 0, false)
  (rate,
    { dumpLen := dumpLen.toUInt32
      curBbFormat := bb.toUInt32
      rxChannelEstimateInfoVld := estVld.toUInt32
      rxChannelEstimateLen := estLen.toUInt32
      second := secondaryCode m.secondary
      isGroup := isGroup.toUInt32
      rxendState := rxend.toUInt32
      rxmatch3 := ((rxmatch >>> 3) &&& 1).toUInt32
      rxmatch2 := ((rxmatch >>> 2) &&& 1).toUInt32
      rxmatch1 := ((rxmatch >>> 1) &&& 1).toUInt32
      -- the columns that only a C6 build has
      c6 :=
        if chip = .esp32C6 then
          some
            { sigbLen := sigb.toUInt32
              curSingleMpdu := single.toUInt32
              rxmatch0 := (rxmatch &&& 1).toUInt32 }
        else none })

def new (chip : Chip) (p : CsiPacket) : TextRow :=
  let m := p.frame.rxMeta
  let (rate, columns) :=
    if isHe chip then
      let (rate, c) := heColumns chip m
      (rate, Columns.he c)
    else
      let (rate, c) := classicColumns m
      (rate, Columns.classic c)
  { mac := p.mac
    rssi := m.rssi.toInt32
    timestamp := m.timestampUs.toUInt32
    rate := rate.toUInt32
    noiseFloor := m.noiseFloor.toInt32
    sigLen := m.sigLen.toUInt32
    rxState := m.rxState.toUInt32
    channel := m.channel.toUInt32
    -- Never set by the crate; the formats still print it.
    dateTime := none
    sequenceNumber := m.frameSeq.getD 0
    csiDataLen := UInt16.ofNat p.csiData.length
    csiData := p.csiData
    columns := columns }

theorem new_csiData (chip : Chip) (p : CsiPacket) : (new chip p).csiData = p.csiData := by
  unfold new
  cases isHe chip <;> rfl

end TextRow

end EspCsi.Csi

namespace EspCsi.Logging

open Wire Csi Rendering

/-! ## The writers -/

def dec32 (x : UInt32) : List Char := decimal x.toNat

def dec64 (width : ℕ) (x : UInt64) : List Char := zeroPadded width (decimal x.toNat)

def hex8 (x : UInt8) : List Char := zeroPadded 2 (upperHex x.toNat)

namespace Sync

def logLn (label : String) (value : List Char) : List Char := label.toList ++ value ++ ['\n']

def dateRow (dt : DateTime) : List Char :=
  "Recieved at ".toList ++ dec64 4 dt.year ++ ['-'] ++ dec64 2 dt.month ++ ['-'] ++
    dec64 2 dt.day ++ [' '] ++ dec64 2 dt.hour ++ [':'] ++ dec64 2 dt.minute ++ [':'] ++
    dec64 2 dt.second ++ ['.'] ++ dec64 3 dt.millisecond ++ ['\n']

def macRow (mac : Mac) : List Char :=
  "mac: ".toList ++ hex8 mac.b0 ++ [':'] ++ hex8 mac.b1 ++ [':'] ++ hex8 mac.b2 ++ [':'] ++
    hex8 mac.b3 ++ [':'] ++ hex8 mac.b4 ++ [':'] ++ hex8 mac.b5 ++ ['\n']

def columnRows (channel : UInt32) : Columns → List (List Char)
  | .classic c =>
    [ logLn "secondary channel: " (dec32 c.secondaryChannel),
      logLn "sgi: " (dec32 c.sgi),
      logLn "ant: " (dec32 c.antenna),
      logLn "ampdu cnt: " (dec32 c.ampduCnt),
      logLn "sig_mode: " (dec32 c.sigMode),
      logLn "mcs: " (dec32 c.mcs),
      logLn "cwb: " (dec32 c.bandwidth),
      logLn "smoothing: " (dec32 c.smoothing),
      logLn "not sounding: " (dec32 c.notSounding),
      logLn "aggregation: " (dec32 c.aggregation),
      logLn "stbc: " (dec32 c.stbc),
      logLn "fec coding: " (dec32 c.fecCoding) ]
  | .he c =>
    [logLn "dump len: " (dec32 c.dumpLen)] ++
    (match c.c6 with
      | some c6 =>
        [ logLn "sigb len: " (dec32 c6.sigbLen),
          logLn "cur single mpdu: " (dec32 c6.curSingleMpdu) ]
      | none => []) ++
    [ logLn "cur bb format: " (dec32 c.curBbFormat),
      logLn "rx channel estimate info vld: " (dec32 c.rxChannelEstimateInfoVld),
      logLn "rx channel estimate len: " (dec32 c.rxChannelEstimateLen),
      logLn "time seconds: " (dec32 c.second),
      logLn "channel: " (dec32 channel),
      logLn "is group: " (dec32 c.isGroup),
      logLn "rxend state: " (dec32 c.rxendState),
      logLn "rxmatch3: " (dec32 c.rxmatch3),
      logLn "rxmatch2: " (dec32 c.rxmatch2),
      logLn "rxmatch1: " (dec32 c.rxmatch1) ] ++
    (match c.c6 with
      | some c6 => [logLn "rxmatch0: " (dec32 c6.rxmatch0)]
      | none => [])

def metadata (row : TextRow) : List (List Char) :=
  (row.dateTime.map dateRow).toList ++
  [ macRow row.mac,
    logLn "sequence number: " (decimal row.sequenceNumber.toNat),
    logLn "rssi: " (decimal row.rssi.toInt),
    logLn "rate: " (dec32 row.rate),
    logLn "noise floor: " (decimal row.noiseFloor.toInt),
    logLn "channel: " (dec32 row.channel),
    logLn "timestamp: " (dec32 row.timestamp),
    logLn "sig len: " (dec32 row.sigLen),
    logLn "rx state: " (dec32 row.rxState) ] ++
  columnRows row.channel row.columns ++
  [ logLn "sig_len: " (dec32 row.sigLen),
    logLn "data length: " (decimal row.csiDataLen.toNat) ]

/-- `{:X?}` of a slice: its own brackets, and each element in hexadecimal as its bits stand. -/
def upperHexDebug (data : List Int8) : List Char :=
  ['['] ++ ", ".toList.intercalate (data.map fun x => upperHex x.toUInt8.toNat) ++ [']']

end Sync

/-- `write_text_packet_sync`: the characters printed. -/
def writeTextPacketSync (chip : Chip) (packet : CsiPacket) : List Char :=
  let row := TextRow.new chip packet
  (Sync.metadata row).flatten ++ "csi raw data: [".toList ++ Sync.upperHexDebug row.csiData ++
    [']'] ++ ['\n']

namespace Async

def ASYNC_LOG_SCRATCH : ℕ := 3328

def line (label : String) (value : List Char) : List (List Char) :=
  [label.toList, value, "\r\n".toList]

def dateLine (dt : DateTime) : List (List Char) :=
  [ "Recieved at ".toList, dec64 4 dt.year, ['-'], dec64 2 dt.month, ['-'], dec64 2 dt.day, [' '],
    dec64 2 dt.hour, [':'], dec64 2 dt.minute, [':'], dec64 2 dt.second, ['.'],
    dec64 3 dt.millisecond, "\r\n".toList ]

def macLine (mac : Mac) : List (List Char) :=
  [ "mac: ".toList, hex8 mac.b0, [':'], hex8 mac.b1, [':'], hex8 mac.b2, [':'], hex8 mac.b3, [':'],
    hex8 mac.b4, [':'], hex8 mac.b5, "\r\n".toList ]

def columnLines (channel : UInt32) : Columns → List (List (List Char))
  | .classic c =>
    [ line "secondary channel: " (dec32 c.secondaryChannel),
      line "sgi: " (dec32 c.sgi),
      line "ant: " (dec32 c.antenna),
      line "ampdu cnt: " (dec32 c.ampduCnt),
      line "sig_mode: " (dec32 c.sigMode),
      line "mcs: " (dec32 c.mcs),
      line "cwb: " (dec32 c.bandwidth),
      line "smoothing: " (dec32 c.smoothing),
      line "not sounding: " (dec32 c.notSounding),
      line "aggregation: " (dec32 c.aggregation),
      line "stbc: " (dec32 c.stbc),
      line "fec coding: " (dec32 c.fecCoding) ]
  | .he c =>
    [line "dump len: " (dec32 c.dumpLen)] ++
    (match c.c6 with
      | some c6 =>
        [ line "sigb len: " (dec32 c6.sigbLen),
          line "cur single mpdu: " (dec32 c6.curSingleMpdu) ]
      | none => []) ++
    [ line "cur bb format: " (dec32 c.curBbFormat),
      line "rx channel estimate info vld: " (dec32 c.rxChannelEstimateInfoVld),
      line "rx channel estimate len: " (dec32 c.rxChannelEstimateLen),
      line "time seconds: " (dec32 c.second),
      line "channel: " (dec32 channel),
      line "is group: " (dec32 c.isGroup),
      line "rxend state: " (dec32 c.rxendState),
      line "rxmatch3: " (dec32 c.rxmatch3),
      line "rxmatch2: " (dec32 c.rxmatch2),
      line "rxmatch1: " (dec32 c.rxmatch1) ] ++
    (match c.c6 with
      | some c6 => [line "rxmatch0: " (dec32 c6.rxmatch0)]
      | none => [])

def metadataLines (row : TextRow) : List (List (List Char)) :=
  (row.dateTime.map dateLine).toList ++
  [ macLine row.mac,
    line "sequence number: " (decimal row.sequenceNumber.toNat),
    line "rssi: " (decimal row.rssi.toInt),
    line "rate: " (dec32 row.rate),
    line "noise floor: " (decimal row.noiseFloor.toInt),
    line "channel: " (dec32 row.channel),
    line "timestamp: " (dec32 row.timestamp),
    line "sig len: " (dec32 row.sigLen),
    line "rx state: " (dec32 row.rxState) ] ++
  columnLines row.channel row.columns ++
  [ line "sig_len: " (dec32 row.sigLen),
    line "data length: " (decimal row.csiDataLen.toNat) ]

/-- The metadata block in the scratch, up to the opening bracket of the last row. A line that does
not fit is cut short and the lines behind it are still tried. -/
def metadataBlock (row : TextRow) : List Char :=
  write ASYNC_LOG_SCRATCH ((metadataLines row).foldl (write ASYNC_LOG_SCRATCH) [])
    ["csi raw data: [".toList]

def elem (total i : ℕ) (val : Int8) : List Char :=
  if i + 1 = total then write 16 [] [decimal val.toInt]
  else write 16 [] [decimal val.toInt, ", ".toList]

def elems (data : List Int8) : List (List Char) :=
  data.zipIdx.map fun x => elem data.length x.2 x.1

/-- The samples, streamed through the scratch with a flush when one does not fit. -/
def body (data : List Int8) : List (List Char) :=
  ((elems data).foldl (Flushed.push ASYNC_LOG_SCRATCH) ⟨[], []⟩).finish

end Async

/-- `write_text_packet_async`: the slices handed to the driver, which writes each whole. -/
def writeTextPacketAsync (chip : Chip) (packet : CsiPacket) : List (List Char) :=
  let row := TextRow.new chip packet
  [Async.metadataBlock row] ++ Async.body row.csiData ++ ["]\r\n".toList]

/-! ## What is common to the two -/

def SameRow (row : List Char) (line : List (List Char)) : Prop :=
  ∃ text, row = text ++ ['\n'] ∧ line.flatten = text ++ "\r\n".toList

@[simp] theorem sameRow_line (label : String) (value : List Char) :
    SameRow (Sync.logLn label value) (Async.line label value) :=
  ⟨label.toList ++ value, rfl, by simp [Async.line]⟩

@[simp] theorem sameRow_mac (mac : Mac) : SameRow (Sync.macRow mac) (Async.macLine mac) :=
  ⟨_, rfl, by simp [Async.macLine]⟩

@[simp] theorem sameRow_date (dt : DateTime) : SameRow (Sync.dateRow dt) (Async.dateLine dt) :=
  ⟨_, rfl, by simp [Async.dateLine]⟩

theorem sameRow_columns (channel : UInt32) (columns : Columns) :
    List.Forall₂ SameRow (Sync.columnRows channel columns) (Async.columnLines channel columns) := by
  cases columns with
  | classic c => simp [Sync.columnRows, Async.columnLines]
  | he c => cases hc6 : c.c6 <;> simp [Sync.columnRows, Async.columnLines, hc6]

theorem sameRow_metadata (row : TextRow) :
    List.Forall₂ SameRow (Sync.metadata row) (Async.metadataLines row) := by
  have hdate : List.Forall₂ SameRow (row.dateTime.map Sync.dateRow).toList
      (row.dateTime.map Async.dateLine).toList := by
    cases row.dateTime <;> simp
  unfold Sync.metadata Async.metadataLines
  refine List.rel_append (List.rel_append (List.rel_append hdate ?_) ?_) ?_
  · simp
  · exact sameRow_columns row.channel row.columns
  · simp

theorem exists_rows (row : TextRow) :
    ∃ rows : List (List Char), (Sync.metadata row).flatten = rows.flatMap (· ++ ['\n']) ∧
      (Async.metadataLines row).flatten.flatten = rows.flatMap (· ++ "\r\n".toList) := by
  have hsame := sameRow_metadata row
  generalize Sync.metadata row = rows at hsame
  generalize Async.metadataLines row = lines at hsame
  induction hsame with
  | nil => exact ⟨[], rfl, rfl⟩
  | cons hhead _ ih =>
    obtain ⟨text, hrow, hline⟩ := hhead
    obtain ⟨texts, hrows, hlines⟩ := ih
    refine ⟨text :: texts, ?_, ?_⟩
    · rw [List.flatten_cons, hrow, hrows, List.flatMap_cons]
    · rw [List.flatten_cons, List.flatten_append, hline, hlines, List.flatMap_cons]

/-! ## The scratch -/

theorem length_dec32 (x : UInt32) : (dec32 x).length ≤ 10 :=
  length_decimal_natCast_le (Nat.lt_of_lt_of_le x.toNat_lt (by decide)) (by decide)

theorem length_decimal_uint16 (x : UInt16) : (decimal x.toNat).length ≤ 5 :=
  length_decimal_natCast_le (Nat.lt_of_lt_of_le x.toNat_lt (by decide)) (by decide)

theorem length_decimal_int32 (x : Int32) : (decimal x.toInt).length ≤ 11 := by
  apply length_decimal_le (k := 10) _ (by decide)
  have hlow := x.le_toInt
  have hhigh := x.toInt_lt
  omega

theorem length_decimal_int8 (x : Int8) : (decimal x.toInt).length ≤ 4 := by
  apply length_decimal_le (k := 3) _ (by decide)
  have hlow := x.le_toInt
  have hhigh := x.toInt_lt
  omega

theorem length_dec64 {width : ℕ} (hwidth : width ≤ 21) (x : UInt64) :
    (dec64 width x).length ≤ 21 := by
  rw [dec64, zeroPadded, List.length_leftpad]
  apply max_le hwidth
  apply length_decimal_le (k := 20) _ (by decide)
  have := x.toNat_lt
  rw [Int.natAbs_natCast]
  omega

theorem length_hex8 (x : UInt8) : (hex8 x).length ≤ 2 := by
  rw [hex8, zeroPadded, List.length_leftpad]
  exact max_le le_rfl (length_upperHex_le (k := 2) x.toNat_lt (by decide))

-- over the label's characters: to count those of a literal the kernel would decode it
theorem length_line {label value : List Char} (hlabel : label.length ≤ 32)
    (hvalue : value.length ≤ 11) :
    (Async.line (String.ofList label) value).flatten.length ≤ 45 := by
  have heol : "\r\n".toList.length = 2 := rfl
  simp only [Async.line, String.toList_ofList, List.flatten_cons, List.flatten_nil,
    List.length_append, List.length_nil]
  omega

theorem length_line32 {label : List Char} (hlabel : label.length ≤ 32) (x : UInt32) :
    (Async.line (String.ofList label) (dec32 x)).flatten.length ≤ 45 :=
  length_line hlabel ((length_dec32 x).trans (by decide))

theorem length_line16 {label : List Char} (hlabel : label.length ≤ 32) (x : UInt16) :
    (Async.line (String.ofList label) (decimal x.toNat)).flatten.length ≤ 45 :=
  length_line hlabel ((length_decimal_uint16 x).trans (by decide))

theorem length_macLine (mac : Mac) : (Async.macLine mac).flatten.length ≤ 45 := by
  have hsep : [':'].length ≤ 2 := by decide
  have heol : "\r\n".toList.length ≤ 2 := by decide
  rw [Async.macLine, List.flatten_cons, List.length_append]
  refine (Nat.add_le_add (Nat.le_of_eq rfl) (length_flatten_le (b := 2) ?_)).trans ?_
  · simp only [List.forall_mem_cons]
    exact ⟨length_hex8 _, hsep, length_hex8 _, hsep, length_hex8 _, hsep, length_hex8 _, hsep,
      length_hex8 _, hsep, length_hex8 _, heol, List.forall_mem_nil _⟩
  · simp

theorem length_dateLine (dt : DateTime) : (Async.dateLine dt).flatten.length ≤ 315 := by
  have h2 : ∀ x, (dec64 2 x).length ≤ 21 := length_dec64 (by decide)
  have hsep : ∀ c : Char, [c].length ≤ 21 := fun _ => by simp
  refine (length_flatten_le (b := 21) ?_).trans (by simp [Async.dateLine])
  simp only [Async.dateLine, List.forall_mem_cons]
  exact ⟨by decide, length_dec64 (by decide) _, hsep _, h2 _, hsep _, h2 _, hsep _, h2 _, hsep _,
    h2 _, hsep _, h2 _, hsep _, length_dec64 (by decide) _, by decide, List.forall_mem_nil _⟩

theorem length_columnLines (channel : UInt32) (columns : Columns) :
    (Async.columnLines channel columns).flatten.flatten.length ≤ 14 * 45 := by
  have hcount : (Async.columnLines channel columns).length ≤ 14 := by
    cases columns with
    | classic c => simp [Async.columnLines]
    | he c => cases hc6 : c.c6 <;> simp [Async.columnLines, hc6]
  refine (length_flatten_flatten_le (b := 45) ?_).trans (Nat.mul_le_mul_right 45 hcount)
  cases columns with
  | classic c =>
    simp only [Async.columnLines, List.forall_mem_cons]
    and_intros <;> first | exact length_line32 (by decide) _ | simp
  | he c =>
    cases hc6 : c.c6 with
    | none =>
      simp only [Async.columnLines, hc6, List.cons_append, List.nil_append, List.append_nil,
        List.forall_mem_cons]
      and_intros <;> first | exact length_line32 (by decide) _ | simp
    | some c6 =>
      simp only [Async.columnLines, hc6, List.cons_append, List.nil_append, List.forall_mem_cons]
      and_intros <;> first | exact length_line32 (by decide) _ | simp

theorem length_metadataLines (row : TextRow) :
    (Async.metadataLines row).flatten.flatten.length ≤ 1440 := by
  have hdate : (row.dateTime.map Async.dateLine).toList.flatten.flatten.length ≤ 315 := by
    cases row.dateTime with
    | none => simp
    | some dt => simpa using length_dateLine dt
  simp only [Async.metadataLines, List.flatten_append, List.length_append]
  refine (Nat.add_le_add (Nat.add_le_add (Nat.add_le_add hdate (length_flatten_flatten_le
    (b := 45) ?_)) (length_columnLines row.channel row.columns)) (length_flatten_flatten_le
    (b := 45) ?_)).trans ?_
  · simp only [List.forall_mem_cons]
    exact ⟨length_macLine row.mac, length_line16 (by decide) _,
      length_line (by decide) (length_decimal_int32 _), length_line32 (by decide) _,
      length_line (by decide) (length_decimal_int32 _), length_line32 (by decide) _,
      length_line32 (by decide) _, length_line32 (by decide) _, length_line32 (by decide) _,
      List.forall_mem_nil _⟩
  · simp only [List.forall_mem_cons]
    exact ⟨length_line32 (by decide) _, length_line16 (by decide) _,
      List.forall_mem_nil _⟩
  · simp

theorem metadataBlock_eq (row : TextRow) :
    Async.metadataBlock row =
      (Async.metadataLines row).flatten.flatten ++ "csi raw data: [".toList := by
  have hfits := length_metadataLines row
  have hlast : "csi raw data: [".toList.length = 15 := rfl
  rw [Async.metadataBlock, foldl_write_eq, write_eq]
  · simp
  · simp only [List.nil_append, List.flatten_cons, List.flatten_nil, List.append_nil, hlast,
      Async.ASYNC_LOG_SCRATCH]
    omega
  · simp only [List.length_nil, Async.ASYNC_LOG_SCRATCH]
    omega

/-! ## The samples -/

theorem elem_eq (total i : ℕ) (val : Int8) :
    Async.elem total i val =
      if i + 1 = total then decimal val.toInt else decimal val.toInt ++ ", ".toList := by
  have hval := length_decimal_int8 val
  unfold Async.elem
  by_cases hlast : i + 1 = total
  · rw [if_pos hlast, if_pos hlast, write_eq (by simp; omega)]
    simp
  · rw [if_neg hlast, if_neg hlast, write_eq (by simp; omega)]
    simp

theorem flatten_body (data : List Int8) :
    (Async.body data).flatten =
      ", ".toList.intercalate (data.map fun x => decimal x.toInt) := by
  rw [Async.body, Flushed.flatten_finish, Flushed.all_foldl_push]
  simp only [Async.elems, elem_eq]
  exact flatten_separated ", ".toList (fun x : Int8 => decimal x.toInt) (Nat.zero_add _)

theorem length_body (data : List Int8) :
    ∀ slice ∈ Async.body data, slice.length ≤ Async.ASYNC_LOG_SCRATCH := by
  have hempty : (⟨[], []⟩ : Flushed Char).Fits Async.ASYNC_LOG_SCRATCH :=
    ⟨List.forall_mem_nil _, Nat.zero_le _⟩
  apply (hempty.foldl_push _).finish
  intro piece hpiece
  obtain ⟨x, -, rfl⟩ := List.mem_map.mp hpiece
  have hval := length_decimal_int8 x.1
  have hsep : ", ".toList.length = 2 := rfl
  rw [elem_eq, Async.ASYNC_LOG_SCRATCH]
  by_cases hlast : x.2 + 1 = data.length
  · rw [if_pos hlast]
    omega
  · rw [if_neg hlast, List.length_append]
    omega

theorem length_slices (chip : Chip) (packet : CsiPacket) :
    ∀ slice ∈ writeTextPacketAsync chip packet, slice.length ≤ Async.ASYNC_LOG_SCRATCH := by
  intro slice hslice
  rcases List.mem_append.mp hslice with hfront | hend
  · rcases List.mem_append.mp hfront with hblock | hbody
    · rw [List.mem_singleton.mp hblock, metadataBlock_eq, List.length_append]
      have hmetadata := length_metadataLines (TextRow.new chip packet)
      have hlast : "csi raw data: [".toList.length = 15 := rfl
      rw [Async.ASYNC_LOG_SCRATCH]
      omega
    · exact length_body _ slice hbody
  · rw [List.mem_singleton.mp hend]
    decide

/-! ## What each writer puts out -/

def terminator (c : Char) : Bool := c == '\r' || c == '\n'

/-- The text without its line terminators. -/
def unterminated (text : List Char) : List Char := text.filter fun c => !terminator c

theorem unterminated_append (a b : List Char) :
    unterminated (a ++ b) = unterminated a ++ unterminated b :=
  List.filter_append a b

theorem unterminated_flatMap {eol : List Char} (heol : unterminated eol = [])
    (rows : List (List Char)) :
    unterminated (rows.flatMap (· ++ eol)) = rows.flatMap unterminated := by
  induction rows with
  | nil => rfl
  | cons row rows ih =>
    rw [List.flatMap_cons, unterminated_append, unterminated_append, heol, List.append_nil, ih,
      List.flatMap_cons]

theorem unterminated_samples (data : List Int8) :
    ∃ c cs, unterminated (", ".toList.intercalate (data.map fun x => decimal x.toInt) ++
      "]\r\n".toList) = c :: cs ∧ c ≠ '[' := by
  cases data with
  | nil => exact ⟨']', [], rfl, by decide⟩
  | cons x xs =>
    obtain ⟨c, cs, hcs, hc⟩ := decimal_eq_cons x.toInt
    have hsplit : ∃ rest, ", ".toList.intercalate ((x :: xs).map fun x => decimal x.toInt) =
        c :: rest := by
      rw [List.map_cons, hcs]
      cases xs with
      | nil => exact ⟨_, List.intercalate_singleton⟩
      | cons y ys => exact ⟨_, List.intercalate_cons_of_ne_nil (List.cons_ne_nil _ _)⟩
    obtain ⟨rest, hrest⟩ := hsplit
    have hplain : c ≠ '[' ∧ (!terminator c) = true := by
      rcases hc with rfl | hdigit
      · decide
      · constructor
        · rintro rfl
          cases hdigit
        · cases hterm : terminator c with
          | false => rfl
          | true =>
            rcases Bool.or_eq_true_iff.mp hterm with hcr | hlf
            · rw [eq_of_beq hcr] at hdigit
              cases hdigit
            · rw [eq_of_beq hlf] at hdigit
              cases hdigit
    rw [hrest, List.cons_append, unterminated,
      List.filter_cons_of_pos (p := fun c => !terminator c) hplain.2]
    exact ⟨c, _, rfl, hplain.1⟩

/-- The two backends print the same metadata and then the same samples in two ways: the async
writer as the format has them, decimal and in one pair of brackets, the sync writer in hexadecimal
and in two pairs. No packet reads the same from both. -/
theorem text_backends_differ (chip : Chip) (packet : CsiPacket) :
    (∃ rows : List (List Char),
      writeTextPacketSync chip packet =
        rows.flatMap (· ++ ['\n']) ++ "csi raw data: [[".toList ++
          ", ".toList.intercalate (packet.csiData.map fun x => upperHex x.toUInt8.toNat) ++
          "]]\n".toList ∧
      (writeTextPacketAsync chip packet).flatten =
        rows.flatMap (· ++ "\r\n".toList) ++ "csi raw data: [".toList ++
          ", ".toList.intercalate (packet.csiData.map fun x => decimal x.toInt) ++
          "]\r\n".toList) ∧
    unterminated (writeTextPacketSync chip packet) ≠
      unterminated (writeTextPacketAsync chip packet).flatten := by
  obtain ⟨rows, hsync, hasync⟩ := exists_rows (TextRow.new chip packet)
  have hdata := TextRow.new_csiData chip packet
  have hs : writeTextPacketSync chip packet =
      rows.flatMap (· ++ ['\n']) ++ "csi raw data: [[".toList ++
        ", ".toList.intercalate (packet.csiData.map fun x => upperHex x.toUInt8.toNat) ++
        "]]\n".toList := by
    simp [writeTextPacketSync, Sync.upperHexDebug, hsync, hdata]
  have ha : (writeTextPacketAsync chip packet).flatten =
      rows.flatMap (· ++ "\r\n".toList) ++ "csi raw data: [".toList ++
        ", ".toList.intercalate (packet.csiData.map fun x => decimal x.toInt) ++
        "]\r\n".toList := by
    simp only [writeTextPacketAsync, List.flatten_append, List.flatten_cons, List.flatten_nil,
      List.append_nil, metadataBlock_eq, flatten_body, hasync, hdata]
  refine ⟨⟨rows, hs, ha⟩, ?_⟩
  -- Up to the opening bracket the two agree; then the sync writer opens another.
  obtain ⟨c, cs, hc, hne⟩ := unterminated_samples packet.csiData
  have hleft : unterminated (writeTextPacketSync chip packet) =
      (rows.flatMap unterminated ++ unterminated "csi raw data: [".toList) ++
        '[' :: unterminated
          (", ".toList.intercalate (packet.csiData.map fun x => upperHex x.toUInt8.toNat) ++
            "]]\n".toList) := by
    have hopen : unterminated "csi raw data: [[".toList =
        unterminated "csi raw data: [".toList ++ ['['] := by decide
    rw [hs, unterminated_append, unterminated_append, unterminated_append, hopen,
      unterminated_flatMap (by decide), unterminated_append]
    simp
  have hright : unterminated (writeTextPacketAsync chip packet).flatten =
      (rows.flatMap unterminated ++ unterminated "csi raw data: [".toList) ++ c :: cs := by
    rw [ha, List.append_assoc, unterminated_append, unterminated_append,
      unterminated_flatMap (by decide), hc]
  intro hsame
  rw [hleft, hright] at hsame
  exact hne (List.cons.inj (List.append_cancel_left hsame)).1.symm

/-- The samples 1 and -6 of a frame heard by an ESP32. -/
theorem two_samples_differ :
    ∃ packet, (CsiPacket.fromWifiCsiInfo .esp32 .boot
        { WifiCsiInfo.quiet ⟨2, 0, 0, 0, 0, 1⟩ 7 1000 with buf := [1, -6] } 0).map Prod.fst =
          some packet ∧
      "csi raw data: [[1, FA]]\n".toList <:+ writeTextPacketSync .esp32 packet ∧
      "csi raw data: [1, -6]\r\n".toList <:+ (writeTextPacketAsync .esp32 packet).flatten ∧
      unterminated (writeTextPacketSync .esp32 packet) ≠
        unterminated (writeTextPacketAsync .esp32 packet).flatten :=
  ⟨_, rfl, by decide +kernel, by decide +kernel, by decide +kernel⟩

end EspCsi.Logging
