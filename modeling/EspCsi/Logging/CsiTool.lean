import EspCsi.Logging.Digits

/-!
# The ESP32-CSI-Tool format

`LogMode::EspCsiTool` writes a packet as one line of comma-separated columns under a header, the
samples in the last. The line goes through the digit writers alone, into a buffer nothing checks.
-/

namespace EspCsi.Logging

open Wire Csi Rendering Appending

inductive Role where
  | sta
  | ap
  | passive
deriving DecidableEq, Repr

def Role.asStr : Role → String
  | .sta => "STA"
  | .ap => "AP"
  | .passive => "PASSIVE"

def ESP_CSI_TOOL_HEADER : String :=
  "type,role,mac,rssi,rate,sig_mode,mcs,bandwidth,smoothing,not_sounding,aggregation,stbc,fec_coding,sgi,noise_floor,ampdu_cnt,channel,secondary_channel,local_timestamp,ant,sig_len,rx_state,real_time_set,real_timestamp,len,CSI_DATA\n"

namespace CsiTool

def column (w : Writer Char) : Writer Char := seq [w, put ',']

def macWriters (mac : Mac) : List (Writer Char) :=
  [ writeHexU8 mac.b0, put ':', writeHexU8 mac.b1, put ':', writeHexU8 mac.b2, put ':',
    writeHexU8 mac.b3, put ':', writeHexU8 mac.b4, put ':', writeHexU8 mac.b5, put ',' ]

/-- The columns of the chip's own layout. The newer chips keep the old places with zeros. -/
def layoutWriters (packet : TextRow) : List (Writer Char) :=
  match packet.columns with
  | .classic c =>
    [ column (writeU32 c.sigMode),
      column (writeU32 c.mcs),
      column (writeU32 c.bandwidth),
      column (writeU32 c.smoothing),
      column (writeU32 c.notSounding),
      column (writeU32 c.aggregation),
      column (writeU32 c.stbc),
      column (writeU32 c.fecCoding),
      column (writeU32 c.sgi),
      column (writeI32 packet.noiseFloor),
      column (writeU32 c.ampduCnt),
      column (writeU32 packet.channel),
      column (writeU32 c.secondaryChannel),
      column (writeU32 packet.timestamp),
      column (writeU32 c.antenna),
      column (writeU32 packet.sigLen),
      column (writeU32 packet.rxState) ]
  | .he _ =>
    [ copy "0,0,0,0,0,0,0,0,0,".toList,
      column (writeI32 packet.noiseFloor),
      copy "0,".toList,
      column (writeU32 packet.channel),
      copy "0,".toList,
      column (writeU32 packet.timestamp),
      copy "0,".toList,
      column (writeU32 packet.sigLen),
      column (writeU32 packet.rxState) ]

def realTimeSet (packet : TextRow) : UInt8 := if packet.dateTime.isSome then 1 else 0

/-- The timestamp in seconds, the columns up to the sample count, and the opening bracket. -/
def timeWriters (packet : TextRow) (emitLen : ℕ) : List (Writer Char) :=
  [ column (writeU32 (realTimeSet packet).toUInt32),
    writeU32 (packet.timestamp / 1000000), put '.',
    column (writeU32Pad6 (packet.timestamp % 1000000)),
    column (writeU32 (UInt32.ofNat emitLen)), put '[' ]

def prefixWriters (role : Role) (packet : TextRow) (emitLen : ℕ) : List (Writer Char) :=
  [copy "CSI_DATA,".toList, copy role.asStr.toList, put ','] ++ macWriters packet.mac ++
    [column (writeI32 packet.rssi), column (writeU32 packet.rate)] ++ layoutWriters packet ++
    timeWriters packet emitLen

/-- The loop over the samples. It stops when less than five bytes are left in front of `]\n`. -/
def writeBody (capacity : ℕ) : List Int8 → List Char → Option (List Char)
  | [], buf => some buf
  | val :: rest, buf =>
    if capacity - 2 < buf.length + 5 then some buf
    else do
      let buf ← writeI8Space val capacity buf
      writeBody capacity rest buf

def emitLen (cap : UInt16) (packet : TextRow) : ℕ :=
  if cap.toNat = 0 then packet.csiData.length else min packet.csiData.length cap.toNat

end CsiTool

open CsiTool

/-- `format_csi_tool_into`: what stands in a buffer of the given capacity up to the returned
position. `none` is an index out of bounds. -/
def formatCsiToolInto (role : Role) (cap : UInt16) (packet : TextRow) (capacity : ℕ) :
    Option (List Char) := do
  let buf ← seq (prefixWriters role packet (emitLen cap packet)) capacity []
  let buf ← writeBody capacity (packet.csiData.take (emitLen cap packet)) buf
  seq [put ']', put '\n'] capacity buf

namespace CsiTool

/-! ## The reference line -/

def upperMac (mac : Mac) : List Char := [':'].intercalate (mac.bytes.map hex8)

def realTimestamp (timestamp : UInt32) : List Char :=
  dec32 (timestamp / 1000000) ++ ['.'] ++ zeroPadded 6 (dec32 (timestamp % 1000000))

def value (x : Int8) : List Char := decimal x.toInt ++ [' ']

def valuesText (data : List Int8) : List Char := ['['] ++ data.flatMap value ++ [']']

def layoutColumns (packet : TextRow) : List (String × List Char) :=
  match packet.columns with
  | .classic c =>
    [ ("sig_mode", dec32 c.sigMode),
      ("mcs", dec32 c.mcs),
      ("bandwidth", dec32 c.bandwidth),
      ("smoothing", dec32 c.smoothing),
      ("not_sounding", dec32 c.notSounding),
      ("aggregation", dec32 c.aggregation),
      ("stbc", dec32 c.stbc),
      ("fec_coding", dec32 c.fecCoding),
      ("sgi", dec32 c.sgi),
      ("noise_floor", decimal packet.noiseFloor.toInt),
      ("ampdu_cnt", dec32 c.ampduCnt),
      ("channel", dec32 packet.channel),
      ("secondary_channel", dec32 c.secondaryChannel),
      ("local_timestamp", dec32 packet.timestamp),
      ("ant", dec32 c.antenna),
      ("sig_len", dec32 packet.sigLen),
      ("rx_state", dec32 packet.rxState) ]
  | .he _ =>
    [ ("sig_mode", ['0']),
      ("mcs", ['0']),
      ("bandwidth", ['0']),
      ("smoothing", ['0']),
      ("not_sounding", ['0']),
      ("aggregation", ['0']),
      ("stbc", ['0']),
      ("fec_coding", ['0']),
      ("sgi", ['0']),
      ("noise_floor", decimal packet.noiseFloor.toInt),
      ("ampdu_cnt", ['0']),
      ("channel", dec32 packet.channel),
      ("secondary_channel", ['0']),
      ("local_timestamp", dec32 packet.timestamp),
      ("ant", ['0']),
      ("sig_len", dec32 packet.sigLen),
      ("rx_state", dec32 packet.rxState) ]

def timeColumns (packet : TextRow) (emitLen : ℕ) : List (String × List Char) :=
  [ ("real_time_set", decimal (realTimeSet packet).toNat),
    ("real_timestamp", realTimestamp packet.timestamp),
    ("len", decimal emitLen) ]

def frontColumns (role : Role) (packet : TextRow) (emitLen : ℕ) : List (String × List Char) :=
  [ ("type", "CSI_DATA".toList),
    ("role", role.asStr.toList),
    ("mac", upperMac packet.mac),
    ("rssi", decimal packet.rssi.toInt),
    ("rate", dec32 packet.rate) ] ++
  layoutColumns packet ++ timeColumns packet emitLen

def columns (role : Role) (cap : UInt16) (packet : TextRow) : List (String × List Char) :=
  frontColumns role packet (emitLen cap packet) ++
    [("CSI_DATA", valuesText (packet.csiData.take (emitLen cap packet)))]

def line (role : Role) (cap : UInt16) (packet : TextRow) : List Char :=
  [','].intercalate ((columns role cap packet).map Prod.snd) ++ ['\n']

/-! ## What the writers put -/

theorem puts_column {w : Writer Char} {text : List Char} (h : Puts w text) :
    Puts (column w) (text ++ [',']) :=
  h.cons ((Puts.put ',').cons Puts.nil)

@[simp] theorem puts_column_u32 (x : UInt32) : Puts (column (writeU32 x)) (dec32 x ++ [',']) :=
  puts_column (puts_writeU32 x)

@[simp] theorem puts_column_i32 (x : Int32) :
    Puts (column (writeI32 x)) (decimal x.toInt ++ [',']) :=
  puts_column (puts_writeI32 x)

theorem puts_macWriters (mac : Mac) : Puts (seq (macWriters mac)) (upperMac mac ++ [',']) := by
  have hputs : List.Forall₂ Puts (macWriters mac)
      [ hex8 mac.b0, [':'], hex8 mac.b1, [':'], hex8 mac.b2, [':'], hex8 mac.b3, [':'],
        hex8 mac.b4, [':'], hex8 mac.b5, [','] ] := by
    simp [macWriters, puts_writeHexU8, Puts.put]
  have htext : upperMac mac ++ [','] = [hex8 mac.b0, [':'], hex8 mac.b1, [':'], hex8 mac.b2, [':'],
      hex8 mac.b3, [':'], hex8 mac.b4, [':'], hex8 mac.b5, [',']].flatten := by
    simp [upperMac, Mac.bytes, List.intercalate_cons_cons]
  rw [htext]
  exact Puts.seq hputs

def columnText (x : String × List Char) : List Char := x.2 ++ [',']

theorem puts_layoutWriters (packet : TextRow) :
    Puts (seq (layoutWriters packet)) ((layoutColumns packet).flatMap columnText) := by
  unfold layoutWriters layoutColumns
  cases packet.columns with
  | classic c =>
    rw [List.flatMap_def]
    apply Puts.seq
    simp [columnText]
  | he c =>
    have hputs : List.Forall₂ Puts
        [ copy "0,0,0,0,0,0,0,0,0,".toList, column (writeI32 packet.noiseFloor), copy "0,".toList,
          column (writeU32 packet.channel), copy "0,".toList, column (writeU32 packet.timestamp),
          copy "0,".toList, column (writeU32 packet.sigLen), column (writeU32 packet.rxState) ]
        [ "0,0,0,0,0,0,0,0,0,".toList, decimal packet.noiseFloor.toInt ++ [','], "0,".toList,
          dec32 packet.channel ++ [','], "0,".toList, dec32 packet.timestamp ++ [','], "0,".toList,
          dec32 packet.sigLen ++ [','], dec32 packet.rxState ++ [','] ] := by
      simp [Puts.copy]
    simpa [columnText] using Puts.seq hputs

theorem mod_lt (timestamp : UInt32) : (timestamp % 1000000).toNat < 10 ^ 6 := by
  rw [UInt32.toNat_mod]
  exact Nat.mod_lt _ (by decide)

theorem puts_timeWriters (packet : TextRow) {emitLen : ℕ} (h : emitLen < 2 ^ 32) :
    Puts (seq (timeWriters packet emitLen))
      ((timeColumns packet emitLen).flatMap columnText ++ ['[']) := by
  have hputs : List.Forall₂ Puts (timeWriters packet emitLen)
      [ dec32 (realTimeSet packet).toUInt32 ++ [','], dec32 (packet.timestamp / 1000000), ['.'],
        zeroPadded 6 (dec32 (packet.timestamp % 1000000)) ++ [','],
        dec32 (UInt32.ofNat emitLen) ++ [','], ['['] ] := by
    simp [timeWriters, puts_writeU32, Puts.put,
      puts_column (puts_writeU32Pad6 (mod_lt packet.timestamp))]
  have hlen : dec32 (UInt32.ofNat emitLen) = decimal emitLen := by
    rw [dec32, UInt32.toNat_ofNat_of_lt' h]
  have hset : dec32 (realTimeSet packet).toUInt32 = decimal (realTimeSet packet).toNat := by
    rw [dec32, UInt8.toNat_toUInt32]
  rw [hlen, hset] at hputs
  simpa [timeColumns, columnText, realTimestamp] using Puts.seq hputs

theorem puts_prefixWriters (role : Role) (packet : TextRow) {emitLen : ℕ} (h : emitLen < 2 ^ 32) :
    Puts (seq (prefixWriters role packet emitLen))
      ((frontColumns role packet emitLen).flatMap columnText ++ ['[']) := by
  have hlabel : Puts (seq [copy "CSI_DATA,".toList, copy role.asStr.toList, put ','])
      ("CSI_DATA,".toList ++ (role.asStr.toList ++ [','])) :=
    (Puts.copy _).cons ((Puts.copy _).cons ((Puts.put ',').cons Puts.nil))
  have hsignal := (puts_column_i32 packet.rssi).cons
    ((puts_column_u32 packet.rate).cons Puts.nil)
  rw [List.append_nil] at hsignal
  have hputs := (((hlabel.append (puts_macWriters packet.mac)).append hsignal).append
    (puts_layoutWriters packet)).append (puts_timeWriters packet h)
  have htext : (frontColumns role packet emitLen).flatMap columnText ++ ['['] =
      "CSI_DATA,".toList ++ (role.asStr.toList ++ [',']) ++ (upperMac packet.mac ++ [',']) ++
        ((decimal packet.rssi.toInt ++ [',']) ++ (dec32 packet.rate ++ [','])) ++
        (layoutColumns packet).flatMap columnText ++
        ((timeColumns packet emitLen).flatMap columnText ++ ['[']) := by
    simp [frontColumns, columnText]
  rw [htext]
  exact hputs

/-! ## The samples -/

theorem writeBody_eq {capacity : ℕ} {data : List Int8} {buf : List Char}
    (hroom : buf.length + data.length * 5 + 2 ≤ capacity) :
    writeBody capacity data buf = some (buf ++ data.flatMap value) := by
  induction data generalizing buf with
  | nil => rw [writeBody, List.flatMap_nil, List.append_nil]
  | cons val data ih =>
    have hdecimal := length_decimal_int8 val
    have hlen : (value val).length = (decimal val.toInt).length + 1 := List.length_append
    rw [List.length_cons] at hroom
    have hwrite : writeI8Space val capacity buf = some (buf ++ value val) := by
      apply puts_writeI8Sep
      rw [value] at hlen
      omega
    have hrest : (buf ++ value val).length + data.length * 5 + 2 ≤ capacity := by
      rw [List.length_append]
      omega
    rw [writeBody, if_neg (by omega), hwrite, Option.bind_eq_bind, Option.bind_some, ih hrest,
      List.flatMap_cons, List.append_assoc]

/-! ## The room the line takes -/

theorem length_columns_le {xs : List (String × List Char)} (h : ∀ x ∈ xs, x.2.length ≤ 10) :
    (xs.flatMap columnText).length ≤ xs.length * 11 := by
  apply length_flatMap_le
  intro x hx
  have hlen := h x hx
  rw [columnText, List.length_append, List.length_singleton]
  omega

theorem exists_layoutColumns_eq (packet : TextRow) :
    ∃ front back, layoutColumns packet =
        front ++ ("noise_floor", decimal packet.noiseFloor.toInt) :: back ∧
      front.length = 9 ∧ back.length = 7 ∧ ∀ x ∈ front ++ back, x.2.length ≤ 10 := by
  refine ⟨(layoutColumns packet).take 9, (layoutColumns packet).drop 10, ?_⟩
  unfold layoutColumns
  cases packet.columns with
  | classic c => exact ⟨rfl, rfl, rfl, by simp [length_dec32]⟩
  | he c => exact ⟨rfl, rfl, rfl, by simp [length_dec32]⟩

theorem length_layoutColumns (packet : TextRow) :
    ((layoutColumns packet).flatMap columnText).length ≤ 188 := by
  obtain ⟨front, back, heq, hfront, hback, hcells⟩ := exists_layoutColumns_eq packet
  have hle := length_columns_le hcells
  have hnoise := length_decimal_int32 packet.noiseFloor
  rw [List.flatMap_append, List.length_append, List.length_append, hfront, hback] at hle
  rw [heq, List.flatMap_append, List.flatMap_cons, List.length_append, List.length_append,
    columnText, List.length_append, List.length_singleton]
  show _ + ((decimal packet.noiseFloor.toInt).length + 1 + _) ≤ 188
  omega

theorem length_upperMac (mac : Mac) : (upperMac mac).length ≤ 17 := by
  have hbyte := length_hex8
  have h0 := hbyte mac.b0
  have h1 := hbyte mac.b1
  have h2 := hbyte mac.b2
  have h3 := hbyte mac.b3
  have h4 := hbyte mac.b4
  have h5 := hbyte mac.b5
  simp only [upperMac, Mac.bytes, List.map_cons, List.map_nil, List.intercalate_cons_cons,
    List.intercalate_singleton, List.length_append, List.length_cons, List.length_nil]
  omega

theorem length_usecs (timestamp : UInt32) :
    (zeroPadded 6 (dec32 (timestamp % 1000000))).length = 6 := by
  rw [zeroPadded, List.length_leftpad]
  exact max_eq_left (length_decimal_natCast_le (mod_lt timestamp) (by decide))

theorem length_realTimestamp (timestamp : UInt32) : (realTimestamp timestamp).length ≤ 11 := by
  have hsecs : (dec32 (timestamp / 1000000)).length ≤ 4 := by
    apply length_decimal_natCast_le _ (by decide)
    have hlt := timestamp.toNat_lt
    rw [UInt32.toNat_div]
    show timestamp.toNat / 1000000 < 10 ^ 4
    omega
  have husecs := length_usecs timestamp
  simp only [realTimestamp, List.length_append, List.length_cons, List.length_nil, husecs]
  omega

theorem length_frontColumns (role : Role) (packet : TextRow) {emitLen : ℕ} (h : emitLen ≤ 612) :
    ((frontColumns role packet emitLen).flatMap columnText).length ≤ 264 := by
  have hrole : role.asStr.toList.length ≤ 7 := by cases role <;> decide
  have hmac := length_upperMac packet.mac
  have hrssi := length_decimal_int32 packet.rssi
  have hrate := length_dec32 packet.rate
  have hlayout := length_layoutColumns packet
  have hset : (decimal (realTimeSet packet).toNat).length = 1 := by
    unfold realTimeSet
    cases packet.dateTime.isSome <;> rfl
  have htime := length_realTimestamp packet.timestamp
  have hlen : (decimal emitLen).length ≤ 3 := length_decimal_natCast_le (by omega) (by decide)
  have htype : "CSI_DATA".toList.length = 8 := rfl
  simp only [frontColumns, timeColumns, columnText, List.flatMap_append, List.flatMap_cons,
    List.flatMap_nil, List.length_append, List.length_cons, List.length_nil] at hlayout ⊢
  omega

theorem emitLen_le (cap : UInt16) (packet : TextRow) : emitLen cap packet ≤ packet.csiData.length := by
  unfold emitLen
  split_ifs
  · exact Nat.le_refl _
  · exact Nat.min_le_left _ _

theorem length_values (data : List Int8) : (data.flatMap value).length ≤ data.length * 5 := by
  apply length_flatMap_le
  intro x _
  have hdecimal := length_decimal_int8 x
  rw [value, List.length_append, List.length_singleton]
  omega

theorem line_eq (role : Role) (cap : UInt16) (packet : TextRow) :
    line role cap packet =
      (frontColumns role packet (emitLen cap packet)).flatMap columnText ++ ['['] ++
        (packet.csiData.take (emitLen cap packet)).flatMap value ++ [']', '\n'] := by
  have hcolumns : (frontColumns role packet (emitLen cap packet)).flatMap columnText ++
      valuesText (packet.csiData.take (emitLen cap packet)) =
        [','].intercalate ((frontColumns role packet (emitLen cap packet)).map Prod.snd ++
          [valuesText (packet.csiData.take (emitLen cap packet))]) :=
    flatMap_append_eq_intercalate [','] Prod.snd _ _
  rw [line, columns, List.map_append, List.map_singleton, ← hcolumns]
  simp [valuesText]

/-- The whole line, for every row of a packet's size: 264 characters of columns, the bracket, five
for each sample and the two at the end just fit in the scratch. -/
theorem formatCsiToolInto_eq (role : Role) (cap : UInt16) {packet : TextRow}
    (h : packet.csiData.length ≤ 612) :
    formatCsiToolInto role cap packet 3328 = some (line role cap packet) := by
  have hle := emitLen_le cap packet
  have hfront := length_frontColumns role packet (hle.trans h)
  have hdata : (packet.csiData.take (emitLen cap packet)).length = emitLen cap packet :=
    List.length_take_of_le hle
  have hvalues := length_values (packet.csiData.take (emitLen cap packet))
  have hputs : Puts (seq (prefixWriters role packet (emitLen cap packet))) _ :=
    puts_prefixWriters role packet (by omega)
  rw [formatCsiToolInto, line_eq]
  generalize (frontColumns role packet (emitLen cap packet)).flatMap columnText = front at *
  generalize packet.csiData.take (emitLen cap packet) = data at *
  have hcolumns : seq (prefixWriters role packet (emitLen cap packet)) 3328 [] =
      some (front ++ ['[']) := by
    apply hputs
    rw [List.length_append, List.length_singleton, List.length_nil]
    omega
  have hbody : writeBody 3328 data (front ++ ['[']) = some (front ++ ['['] ++ data.flatMap value) := by
    apply writeBody_eq
    rw [List.length_append, List.length_singleton]
    omega
  have htail : seq [put ']', put '\n'] 3328 (front ++ ['['] ++ data.flatMap value) =
      some (front ++ ['['] ++ data.flatMap value ++ [']', '\n']) := by
    apply (Puts.put ']').cons ((Puts.put '\n').cons Puts.nil)
    simp only [List.length_append, List.length_cons, List.length_nil]
    omega
  rw [hcolumns, Option.bind_eq_bind, Option.bind_some, hbody, Option.bind_some, htail]

/-! ## Reading a line -/

def readLine (text : List Char) : Option (List (List Char)) :=
  if text.getLast? = some '\n' then some (text.dropLast.splitOn ',') else none

def readValues : List Char → Option (List Int8)
  | '[' :: text =>
    if text.getLast? = some ']' then
      readEach ' ' (fun cell => (ofDecimal cell).map Int8.ofInt) text.dropLast
    else none
  | _ => none

/-- Seconds, a point and six digits of microseconds. -/
def readTimestamp (text : List Char) : Option ℕ :=
  match text.splitOn '.' with
  | [secs, usecs] => do
    let s ← ofDigits secs
    let us ← ofDigits usecs
    if usecs.length = 6 then some (s * 1000000 + us) else none
  | _ => none

theorem readValues_valuesText (data : List Int8) : readValues (valuesText data) = some data := by
  have hread : readEach ' ' (fun cell => (ofDecimal cell).map Int8.ofInt) (data.flatMap value) =
      some data := by
    apply readEach_flatMap
    · exact fun x _ => notMem_decimal (by decide) (by decide) x.toInt
    · intro x _
      rw [ofDecimal_decimal, Option.map_some, Int8.ofInt_toInt]
  show (if (data.flatMap value ++ [']']).getLast? = some ']' then
    readEach ' ' (fun cell => (ofDecimal cell).map Int8.ofInt)
      (data.flatMap value ++ [']']).dropLast else none) = some data
  rw [List.getLast?_concat, if_pos rfl, List.dropLast_concat, hread]

theorem readTimestamp_realTimestamp (timestamp : UInt32) :
    readTimestamp (realTimestamp timestamp) = some timestamp.toNat := by
  have hsplit : (realTimestamp timestamp).splitOn '.' =
      [dec32 (timestamp / 1000000), zeroPadded 6 (dec32 (timestamp % 1000000))] := by
    have hparts : realTimestamp timestamp = ['.'].intercalate
        [dec32 (timestamp / 1000000), zeroPadded 6 (dec32 (timestamp % 1000000))] := by
      simp [realTimestamp, List.intercalate_cons_cons]
    rw [hparts]
    apply List.splitOn_intercalate
    · simp only [List.forall_mem_cons]
      exact ⟨notMem_decimal (by decide) (by decide) _,
        notMem_zeroPadded (by decide) (notMem_decimal (by decide) (by decide) _),
        List.forall_mem_nil _⟩
    · exact List.cons_ne_nil _ _
  have hsecs : ofDigits (dec32 (timestamp / 1000000)) = some (timestamp.toNat / 1000000) := by
    rw [dec32, decimal_natCast, ofDigits_toDigits, UInt32.toNat_div]
    rfl
  have husecs : ofDigits (zeroPadded 6 (dec32 (timestamp % 1000000))) =
      some (timestamp.toNat % 1000000) := by
    rw [dec32, decimal_natCast, ofDigits_zeroPadded, UInt32.toNat_mod]
    rfl
  rw [readTimestamp, hsplit]
  simp only [hsecs, husecs, length_usecs]
  show some (timestamp.toNat / 1000000 * 1000000 + timestamp.toNat % 1000000) = some timestamp.toNat
  rw [Nat.div_add_mod']

theorem comma_notMem_decimal (n : ℤ) : ',' ∉ decimal n :=
  notMem_decimal (by decide) (by decide) n

theorem comma_notMem_dec32 (x : UInt32) : ',' ∉ dec32 x := comma_notMem_decimal x.toNat

theorem comma_notMem_hex8 (n : UInt8) : ',' ∉ hex8 n := by
  have h : ∀ b : Fin 256, ',' ∉ hex8 (UInt8.ofBitVec (BitVec.ofFin b)) := by decide +kernel
  exact h n.toBitVec.toFin

theorem comma_notMem_layoutColumns (packet : TextRow) : ∀ x ∈ layoutColumns packet, ',' ∉ x.2 := by
  unfold layoutColumns
  cases packet.columns with
  | classic c => simp [comma_notMem_decimal, comma_notMem_dec32]
  | he c => simp [comma_notMem_decimal, comma_notMem_dec32]

theorem comma_notMem_columns (role : Role) (cap : UInt16) (packet : TextRow) :
    ∀ x ∈ columns role cap packet, ',' ∉ x.2 := by
  have hrole : ',' ∉ role.asStr.toList := by cases role <;> decide
  have hmac : ',' ∉ upperMac packet.mac := by
    apply notMem_intercalate (by decide)
    intro part hpart
    obtain ⟨b, -, rfl⟩ := List.mem_map.mp hpart
    exact comma_notMem_hex8 b
  have htime : ',' ∉ realTimestamp packet.timestamp := by
    have hpadded : ',' ∉ zeroPadded 6 (dec32 (packet.timestamp % 1000000)) :=
      notMem_zeroPadded (by decide) (comma_notMem_dec32 _)
    simp [realTimestamp, comma_notMem_dec32, hpadded]
  have hvalues : ∀ data, ',' ∉ valuesText data := by
    intro data
    simp [valuesText, value, comma_notMem_decimal]
  have hlayout := comma_notMem_layoutColumns packet
  simp only [columns, frontColumns, timeColumns, List.forall_mem_append, List.forall_mem_cons]
  exact ⟨⟨⟨⟨by decide, hrole, hmac, comma_notMem_decimal _, comma_notMem_dec32 _,
    List.forall_mem_nil _⟩, hlayout⟩, comma_notMem_decimal _, htime, comma_notMem_decimal _,
    List.forall_mem_nil _⟩, hvalues _, List.forall_mem_nil _⟩

theorem readLine_line (role : Role) (cap : UInt16) (packet : TextRow) :
    readLine (line role cap packet) = some ((columns role cap packet).map Prod.snd) := by
  have hsplit : ([','].intercalate ((columns role cap packet).map Prod.snd)).splitOn ',' =
      (columns role cap packet).map Prod.snd := by
    apply List.splitOn_intercalate
    · intro part hpart
      obtain ⟨x, hx, rfl⟩ := List.mem_map.mp hpart
      exact comma_notMem_columns role cap packet x hx
    · simp [columns]
  rw [readLine, line, List.getLast?_concat, if_pos rfl, List.dropLast_concat, hsplit]

/-! ## The columns by their places -/

def layoutNames : List String :=
  [ "sig_mode", "mcs", "bandwidth", "smoothing", "not_sounding", "aggregation", "stbc", "fec_coding",
    "sgi", "noise_floor", "ampdu_cnt", "channel", "secondary_channel", "local_timestamp", "ant",
    "sig_len", "rx_state" ]

theorem map_fst_layoutColumns (packet : TextRow) :
    (layoutColumns packet).map Prod.fst = layoutNames := by
  unfold layoutColumns
  cases packet.columns with
  | classic c => rfl
  | he c => rfl

theorem map_fst_columns (role : Role) (cap : UInt16) (packet : TextRow) :
    (columns role cap packet).map Prod.fst = ["type", "role", "mac", "rssi", "rate"] ++ layoutNames ++
      ["real_time_set", "real_timestamp", "len", "CSI_DATA"] := by
  simp [columns, frontColumns, timeColumns, map_fst_layoutColumns]

theorem readLine_header (role : Role) (cap : UInt16) (packet : TextRow) :
    readLine ESP_CSI_TOOL_HEADER.toList =
      some (((columns role cap packet).map Prod.fst).map String.toList) := by
  rw [map_fst_columns, ESP_CSI_TOOL_HEADER, String.toList_ofList]
  decide +kernel

theorem length_layoutColumns_eq (packet : TextRow) : (layoutColumns packet).length = 17 := by
  have hlen := congrArg List.length (map_fst_layoutColumns packet)
  rwa [List.length_map] at hlen

theorem length_columns (role : Role) (cap : UInt16) (packet : TextRow) :
    (columns role cap packet).length = 26 := by
  have hlen := congrArg List.length (map_fst_columns role cap packet)
  rwa [List.length_map] at hlen

/-- The columns at the places that a host reads by number. -/
theorem getElem?_columns (role : Role) (cap : UInt16) (packet : TextRow) :
    ((columns role cap packet).map Prod.snd)[23]? = some (realTimestamp packet.timestamp) ∧
      ((columns role cap packet).map Prod.snd)[24]? = some (decimal (emitLen cap packet)) ∧
      ((columns role cap packet).map Prod.snd)[25]? =
        some (valuesText (packet.csiData.take (emitLen cap packet))) := by
  have hlayout := length_layoutColumns_eq packet
  simp [columns, frontColumns, timeColumns, hlayout]

end CsiTool

/-- Every packet's line is whole on every chip, under every role and cap: the 26 columns that the
header names, with the number of samples in the one before the last and just these samples in the
last, and a time that reads back to the row's microseconds. -/
theorem csi_tool_line_well_formed (chip : Chip) (packet : CsiPacket) (role : Role) (cap : UInt16) :
    ∃ text cells values, formatCsiToolInto role cap (TextRow.new chip packet) 3328 = some text ∧
      readLine text = some cells ∧ cells.length = 26 ∧
      cells = (columns role cap (TextRow.new chip packet)).map Prod.snd ∧
      readLine ESP_CSI_TOOL_HEADER.toList =
        some (((columns role cap (TextRow.new chip packet)).map Prod.fst).map String.toList) ∧
      cells[24]?.bind ofDecimal = some (values.length : ℤ) ∧
      cells[25]?.bind readValues = some values ∧
      values = packet.csiData.take
        (if cap.toNat = 0 then packet.csiData.length else min packet.csiData.length cap.toNat) ∧
      values.length =
        (if cap.toNat = 0 then packet.csiData.length else min packet.csiData.length cap.toNat) ∧
      cells[23]?.bind readTimestamp = some (TextRow.new chip packet).timestamp.toNat := by
  have hdata : (TextRow.new chip packet).csiData = packet.csiData := TextRow.new_csiData chip packet
  have hle : (TextRow.new chip packet).csiData.length ≤ 612 := by
    rw [hdata]
    exact packet.length_csiData
  have hemit : emitLen cap (TextRow.new chip packet) =
      if cap.toNat = 0 then packet.csiData.length else min packet.csiData.length cap.toNat := by
    rw [emitLen, hdata]
  have hvalues : (packet.csiData.take (emitLen cap (TextRow.new chip packet))).length =
      emitLen cap (TextRow.new chip packet) := by
    rw [← hdata]
    exact List.length_take_of_le (emitLen_le cap _)
  obtain ⟨htime, hlen, hcells⟩ := getElem?_columns role cap (TextRow.new chip packet)
  refine ⟨_, _, packet.csiData.take (emitLen cap (TextRow.new chip packet)),
    formatCsiToolInto_eq role cap hle, readLine_line role cap _, ?_, rfl,
    readLine_header role cap _, ?_, ?_, ?_, ?_, ?_⟩
  · rw [List.length_map, length_columns]
  · rw [hlen, Option.bind_some, ofDecimal_decimal, hvalues]
  · rw [hcells, Option.bind_some, readValues_valuesText, hdata]
  · rw [hemit]
  · rw [hvalues, hemit]
  · rw [htime, Option.bind_some, readTimestamp_realTimestamp]

end EspCsi.Logging
