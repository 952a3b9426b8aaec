import EspCsi.Csi.LossAccounting
import EspCsi.Csi.Timestamps
import EspCsi.Logging.ArrayList
import EspCsi.Logging.CsiTool

/-!
# A radio report as a host reads it

What the radio reports of a frame goes through the metadata of the measurement, the packet and the
row of the text formats onto an ArrayList line. A host that reads the line has the report back.
-/

namespace EspCsi.Csi

open Wire

/-! ## The row of a report -/

namespace TextRow

/-- The classic columns as the radio reports them, but for two: the MCS of a frame that is neither HT
nor VHT is left out, and of the space-time block code only whether there is one. -/
def reportedClassic (info : WifiCsiInfo) : ClassicColumns where
  sgi := info.shortGuideInterval.toUInt32
  secondaryChannel := (secondaryRaw info.secondaryChannel).toUInt32
  bandwidth := info.cwb.toUInt32
  antenna := info.antenna.toUInt32
  sigMode := info.packetMode.toUInt32
  mcs :=
    if info.packetMode = 1 ∨ info.packetMode = 3 then info.modulationCodingScheme.toUInt32 else 0
  smoothing := info.smoothing.toUInt32
  notSounding := info.notSounding.toUInt32
  aggregation := info.aggregation.toUInt32
  stbc := if info.spaceTimeBlockCode = 0 then 0 else 1
  fecCoding := info.forwardErrorCorrectionCoding.toUInt32
  ampduCnt := info.ampduCount.toUInt32

def reportedHe (chip : Chip) (info : WifiCsiInfo) : HeColumns where
  dumpLen := info.dumpLength.toUInt32
  curBbFormat := info.curBbFormat.toUInt32
  rxChannelEstimateInfoVld := info.rxChannelEstimateInfoValid.toUInt32
  rxChannelEstimateLen := info.rxChannelEstimateLength.toUInt32
  second := (secondaryRaw info.secondaryChannel).toUInt32
  isGroup := info.isGroup.toUInt32
  rxendState := info.rxEndState.toUInt32
  rxmatch3 := info.rxMatch3.toUInt32
  rxmatch2 := info.rxMatch2.toUInt32
  rxmatch1 := info.rxMatch1.toUInt32
  c6 :=
    if chip = .esp32C6 then
      some
        { sigbLen := info.heSigbLength.toUInt32
          curSingleMpdu := info.curSingleMpdu.toUInt32
          rxmatch0 := info.rxMatch0.toUInt32 }
    else none

/-- What the radio reported, its clock narrow as it was, under the transmitter of the packet. -/
def reported (chip : Chip) (s : Session) (info : WifiCsiInfo) : TextRow where
  mac := s.attributed info
  rssi := info.rssi.toInt32
  timestamp := info.timestampUs.toUInt32
  rate := info.rate.toUInt32
  noiseFloor := info.noiseFloor.toInt32
  sigLen := info.signalLength.toUInt32
  rxState := info.rxState.toUInt32
  channel := info.channel.toUInt32
  dateTime := none
  sequenceNumber := info.rxSequence
  csiDataLen := UInt16.ofNat info.buf.length
  csiData := info.buf
  columns :=
    if isHe chip then .he (reportedHe chip info) else .classic (reportedClassic info)

theorem secondaryCode_eq (secondary : Secondary) :
    secondaryCode secondary = (secondaryRaw secondary).toUInt32 := by
  cases secondary <;> rfl

theorem classicColumns_rxMeta (info : WifiCsiInfo) (timestampUs : UInt64) :
    classicColumns (rxMetaClassic info timestampUs).1 = (info.rate, reportedClassic info) := by
  have hstbc : (info.spaceTimeBlockCode != 0).toUInt32 =
      if info.spaceTimeBlockCode = 0 then 0 else 1 := by
    split_ifs with h
    · rw [h]
      rfl
    · rw [bne_iff_ne.mpr h]
      rfl
  have hcwb : (some (if info.cwb then Bandwidth.mhz40 else .mhz20) == some .mhz40) = info.cwb := by
    cases info.cwb <;> rfl
  have hone : info.packetMode = 1 ↔ info.packetMode.toNat = 1 := UInt8.toNat_inj.symm
  have hthree : info.packetMode = 3 ↔ info.packetMode.toNat = 3 := UInt8.toNat_inj.symm
  simp only [rxMetaClassic, classicColumns, reportedClassic, Option.getD_some, secondaryCode_eq,
    hstbc, hcwb, hone, hthree]
  congr 2
  -- the packet mode is 0 for legacy frames, 1 for HT and 3 for VHT
  rcases info.packetMode.toNat with _ | _ | _ | _ | mode
  · by_cases hrate : info.rate < 8 <;> simp [hrate]
  · simp
  · simp
  · simp
  · simp

theorem rxmatch_bits (b0 b1 b2 b3 : Bool) :
    let packed : UInt8 :=
      (b1.toUInt8 <<< 1) ||| (b2.toUInt8 <<< 2) ||| (b3.toUInt8 <<< 3) ||| b0.toUInt8
    (packed &&& 1).toUInt32 = b0.toUInt32 ∧ ((packed >>> 1) &&& 1).toUInt32 = b1.toUInt32 ∧
      ((packed >>> 2) &&& 1).toUInt32 = b2.toUInt32 ∧
      ((packed >>> 3) &&& 1).toUInt32 = b3.toUInt32 := by
  cases b0 <;> cases b1 <;> cases b2 <;> cases b3 <;> exact ⟨rfl, rfl, rfl, rfl⟩

theorem heColumns_rxMeta (chip : Chip) (info : WifiCsiInfo)
    (timestampUs : UInt64) :
    heColumns chip (rxMetaHe chip info timestampUs).1 = (info.rate, reportedHe chip info) := by
  by_cases hc6 : chip = .esp32C6
  · obtain ⟨h0, h1, h2, h3⟩ := rxmatch_bits info.rxMatch0 info.rxMatch1 info.rxMatch2 info.rxMatch3
    simp only [rxMetaHe, heColumns, reportedHe, secondaryCode_eq, hc6, if_true, decide_true,
      Bool.true_and, h0, h1, h2, h3]
  · obtain ⟨-, h1, h2, h3⟩ := rxmatch_bits false info.rxMatch1 info.rxMatch2 info.rxMatch3
    have hzero : Bool.toUInt8 false = 0 := rfl
    rw [hzero] at h1 h2 h3
    simp only [rxMetaHe, heColumns, reportedHe, secondaryCode_eq, hc6, if_false, h1, h2, h3]

end TextRow

namespace Session

theorem toUInt32_stamp (wraps raw : UInt32) : (stamp wraps raw).toUInt32 = raw := by
  apply UInt32.toNat_inj.mp
  have hraw := raw.toNat_lt
  rw [UInt64.toNat_toUInt32, stamp_toNat]
  omega

theorem toUInt32_widenTimestamp (s : Session) (raw : UInt32) :
    (s.widenTimestamp raw).1.toUInt32 = raw := by
  unfold widenTimestamp
  split_ifs <;> exact toUInt32_stamp ..

end Session

/-- The row of a captured frame is what the radio reported. -/
theorem TextRow.new_fromWifiCsiInfo {board : Board} {s s' : Session} {info : WifiCsiInfo}
    {now : UInt64} {p : CsiPacket} (h : CsiPacket.fromWifiCsiInfo board s info now = some (p, s')) :
    TextRow.new board.chip p = TextRow.reported board.chip s info := by
  by_cases hlen : info.buf.length ≤ MAX_CSI_BYTES
  swap
  · simp [CsiPacket.fromWifiCsiInfo, frameFromEsp, hlen] at h
  have htime := s.toUInt32_widenTimestamp info.timestampUs.toUInt32
  simp only [CsiPacket.fromWifiCsiInfo, frameFromEsp, hlen, dite_true, Option.map_some,
    Option.some_inj] at h
  have hframe := congrArg (fun x : CsiPacket × Session => x.1.frame) h
  simp only [(CsiPacket.new_eq ..).1] at hframe
  have hmac : p.mac = s.attributed info := by
    rw [CsiPacket.mac, CsiFrame.transmitter, ← hframe, Session.attributed, Session.digestOf]
    cases hheader : (if s.headerDigest then HeaderDigest.parse info.header else none) with
    | none => simp [s.stimulus_ta]
    | some digest => simp
  have hdata : p.csiData = info.buf := by
    rw [CsiPacket.csiData, ← hframe]
  rw [TextRow.new, hmac, hdata, ← hframe]
  cases hhe : isHe board.chip with
  | true =>
    simp only [rxMeta, hhe, if_true, heColumns_rxMeta, reported]
    simp only [rxMetaHe, htime]
    rfl
  | false =>
    simp only [rxMeta, hhe, Bool.false_eq_true, if_false, classicColumns_rxMeta, reported]
    simp only [rxMetaClassic, htime]
    rfl

end EspCsi.Csi

namespace EspCsi.Logging

open Wire Csi

section Line

variable (chip : Chip) (packet : CsiPacket)

theorem formatArrayListInto_new :
    (formatArrayListInto (TextRow.new chip packet) Async.ASYNC_LOG_SCRATCH).bind ArrayList.read =
      some (TextRow.new chip packet) := by
  have hheader := ArrayList.length_header_new chip packet
  have hdata : packet.csiData.length ≤ 612 := packet.length_csiData
  rw [← TextRow.new_csiData chip packet] at hdata
  have hreserve : ArrayList.TAIL_RESERVE = 22 := rfl
  have hscratch : Async.ASYNC_LOG_SCRATCH = 3328 := rfl
  rw [ArrayList.formatArrayListInto_eq, if_neg (by omega), Option.bind_some, ArrayList.read_line]
  rfl

theorem formatCsiToolInto_new (role : Role) (cap : UInt16) :
    (formatCsiToolInto role cap (TextRow.new chip packet) Async.ASYNC_LOG_SCRATCH).bind
        CsiTool.readLine =
      some ((CsiTool.columns role cap (TextRow.new chip packet)).map Prod.snd) := by
  have hdata : packet.csiData.length ≤ 612 := packet.length_csiData
  rw [← TextRow.new_csiData chip packet] at hdata
  rw [Async.ASYNC_LOG_SCRATCH, CsiTool.formatCsiToolInto_eq role cap hdata, Option.bind_some,
    CsiTool.readLine_line]

end Line

/-- The ArrayList line of a captured frame reads back to what the radio reported of it, in every
column of every chip's layout, and the cells of its EspCsiTool line are those of the report; a frame
has no line only if its buffer has no packet. -/
theorem lines_report (board : Board) (s : Session) (info : WifiCsiInfo) (now : UInt64) (role : Role)
    (cap : UInt16) :
    (CsiPacket.fromWifiCsiInfo board s info now).map (fun built =>
        ((formatArrayListInto (TextRow.new board.chip built.1) Async.ASYNC_LOG_SCRATCH).bind
            ArrayList.read,
          (formatCsiToolInto role cap (TextRow.new board.chip built.1)
            Async.ASYNC_LOG_SCRATCH).bind CsiTool.readLine)) =
      if info.buf.length ≤ MAX_CSI_BYTES then
        some (some (TextRow.reported board.chip s info),
          some ((CsiTool.columns role cap (TextRow.reported board.chip s info)).map Prod.snd))
      else none := by
  cases hbuilt : CsiPacket.fromWifiCsiInfo board s info now with
  | none =>
    have hlen : ¬ info.buf.length ≤ MAX_CSI_BYTES := by
      rw [← Node.fromWifiCsiInfo_isSome board s info now, hbuilt]
      exact Bool.false_ne_true
    rw [if_neg hlen, Option.map_none]
  | some built =>
    have hlen : info.buf.length ≤ MAX_CSI_BYTES := by
      rw [← Node.fromWifiCsiInfo_isSome board s info now, hbuilt]
      rfl
    rw [if_pos hlen, Option.map_some, formatArrayListInto_new, formatCsiToolInto_new,
      TextRow.new_fromWifiCsiInfo hbuilt]

end EspCsi.Logging
