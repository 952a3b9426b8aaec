import EspCsi.Csi.Order
import EspCsi.Host.Summary

/-!
# From a node to the report

A run of a node in the serialized mode, captured and decoded: packets of the run that reach the host
output, lines of text between them, and what the capture decoder makes of it.
-/

namespace EspCsi.Host

open Wire Logging Csi Transition Missing

def Piece.announced : Piece → Option (Envelope × SessionInfo)
  | session env info => some (env, info)
  | _ => none

/-! ## What is written -/

def packetOf : Write → Option CsiPacket
  | .packet p => some p
  | _ => none

def lineOf (backend : Backend) : Write → Option Text
  | .packet _ => none
  | .logLn text =>
    match backend with
    | .async => queuedMessage text
    | .sync => none
  | .logLine text =>
    match backend with
    | .async => queuedMessage text
    | .sync => some text

/-- No write leaves a chunk in progress. -/
def Separate (backend : Backend) (w : Write) : Prop := backend = .async ∨ ∀ text, w ≠ .logLn text

theorem bytes_of_separate {backend : Backend} {w : Write} (h : Separate backend w) :
    w.bytes backend = match packetOf w with
      | some p => encodePacketFrames p
      | none => (lineOf backend w).elim [] Logging.writeTextFramed := by
  cases w with
  | packet p => rfl
  | logLn text =>
    cases backend with
    | async => rfl
    | sync =>
      rcases h with h | h
      · cases h
      · exact absurd rfl (h text)
  | logLine text => cases backend <;> rfl

def piecesOf (p : CsiPacket) : List Piece :=
  (p.session.map (Piece.session p.envelope)).toList ++ [.measurement (p.envelope, p.frame)]

theorem map_bytes_piecesOf (p : CsiPacket) : (piecesOf p).map Piece.bytes = frameChunks p := by
  cases hsession : p.session <;> simp [piecesOf, frameChunks, bodies, hsession, Piece.bytes]

def linePieces (line : Text) : List Piece :=
  if h : printable line.val = true then [.text ⟨line.val, h⟩] else []

def writePieces (backend : Backend) (w : Write) : List Piece :=
  match packetOf w with
  | some p => piecesOf p
  | none => (lineOf backend w).elim [] linePieces

theorem filter_chunks {backend : Backend} {writes : List Write}
    (hseparate : ∀ w ∈ writes, Separate backend w)
    (hlines : ∀ w ∈ writes, ∀ line ∈ lineOf backend w, printable line.val = true) :
    (chunks backend writes).filter (· ≠ []) =
      (writes.flatMap (writePieces backend)).map Piece.bytes := by
  induction writes with
  | nil => rfl
  | cons w writes ih =>
    obtain ⟨hw, hrest⟩ := List.forall_mem_cons.mp hseparate
    obtain ⟨hline, hlines⟩ := List.forall_mem_cons.mp hlines
    have htail := ih hrest hlines
    rw [chunks] at htail ⊢
    rw [stream_cons, bytes_of_separate hw, List.flatMap_cons, List.map_append, ← htail, writePieces]
    cases hpacket : packetOf w with
    -- a packet's frames are chunks, none of them empty
    | some p =>
      have hframes : (frameChunks p).filter (· ≠ []) = frameChunks p := by
        rw [List.filter_eq_self, ← map_bytes_piecesOf]
        intro chunk hchunk
        obtain ⟨piece, -, rfl⟩ := List.mem_map.mp hchunk
        exact decide_eq_true piece.bytes_ne_nil
      rw [splitOn_encodePacketFrames, List.filter_append, hframes, map_bytes_piecesOf]
    | none =>
      cases hline' : lineOf backend w with
      | none => rfl
      | some line =>
        have hprint := hline line hline'
        have hne : line.val ≠ [] := by
          intro hnil
          rw [hnil] at hprint
          cases hprint
        -- a line goes out between two delimiters, so an empty chunk comes before it
        have hbytes : Logging.writeTextFramed line ++ stream backend writes =
            COBS_DELIMITER :: (line.val ++ COBS_DELIMITER :: stream backend writes) := by
          simp [Logging.writeTextFramed]
        have hsplit : (COBS_DELIMITER :: (line.val ++ COBS_DELIMITER :: stream backend writes)).splitOn
            COBS_DELIMITER = [] :: line.val :: (stream backend writes).splitOn COBS_DELIMITER := by
          rw [← List.nil_append (COBS_DELIMITER :: _), List.splitOn_append_cons_self,
            List.splitOn_append_cons_self_of_not_mem line.property]
          rfl
        simp only [Option.elim_some, linePieces, hprint, dite_true, List.map_singleton]
        rw [hbytes, hsplit, List.filter_cons_of_neg (by simp),
          List.filter_cons_of_pos (by simpa using hne)]
        rfl

/-! ## A captured run -/

/-- A run of a node that writes the serialized format, begun with no packet waiting, and a capture of
its output from the first byte to the last: the packets that it wrote, and lines of text between
them. -/
structure Captured (board : Board) where
  node : Node
  cfg : Node.RunConfig
  events : List Event
  queue_empty : node.csiQueue = []
  channel_empty : node.logger.csiChannel = []
  serialized : node.logger.mode = .serialized
  keeps : ∀ e ∈ events, e.keepsOutput = true
  orderly : Along (step board) (Node.Orderly board) (node.beginRun cfg) events
  countable : (node.runPackets board cfg events).length ≤ 2 ^ 32
  writes : List Write
  packets_eq : writes.filterMap packetOf = (node.beginRun cfg).hostOutput board events
  separate : ∀ w ∈ writes, Separate node.logger.backend w
  plain : ∀ w ∈ writes, ∀ line ∈ lineOf node.logger.backend w, printable line.val = true
  capture : Capture
  bytes_eq : capture.bytes = stream node.logger.backend writes

def measurementOfPacket (p : CsiPacket) : Measurement := (p.envelope, p.frame)

namespace Captured

variable {board : Board} (r : Captured board)

def delivered : List Measurement :=
  (r.node.runPackets board r.cfg r.events).map measurementOfPacket

def written : List Measurement := (r.writes.filterMap packetOf).map measurementOfPacket

def announced : List (Envelope × SessionInfo) :=
  (r.writes.filterMap packetOf).filterMap fun p => p.session.map fun info => (p.envelope, info)

def lines : List (List UInt8) :=
  (r.writes.filterMap (lineOf r.node.logger.backend)).map Subtype.val

def pieces : List Piece := r.writes.flatMap (writePieces r.node.logger.backend)

theorem numbers_delivered :
    r.delivered.map Measurement.number = List.range r.delivered.length := by
  have hbegin : ∀ cfg, Event.beginRun cfg ∉ r.events := fun cfg hcfg => by
    have hkeeps := r.keeps _ hcfg
    cases hkeeps
  apply List.ext_getElem (by simp)
  intro i hi _
  have hlen : i < (r.node.runPackets board r.cfg r.events).length := by
    simpa [delivered] using hi
  have hsplit := (List.take_append_drop i (r.node.runPackets board r.cfg r.events)).symm
  rw [List.drop_eq_getElem_cons hlen] at hsplit
  have hseq := streamSeq_of_packets hbegin hsplit
  have hstart : (r.node.beginRun r.cfg).session.streamSeq = 0 := rfl
  have hcount := r.countable
  rw [hstart, UInt32.zero_add, List.length_take_of_le hlen.le] at hseq
  simp only [delivered, List.getElem_map, List.getElem_range, Measurement.number,
    measurementOfPacket]
  rw [hseq, UInt32.toNat_ofNat', Nat.mod_eq_of_lt (by omega)]

theorem sublist_delivered : r.written.Sublist r.delivered := by
  rw [written, r.packets_eq]
  exact (Node.hostOutput_sublist (n := r.node.beginRun r.cfg) r.queue_empty r.channel_empty
    r.orderly).map measurementOfPacket

def toRun : Run where
  sessionId := (r.node.beginRun r.cfg).session.sessionId
  frames := r.delivered
  current m hm := by
    obtain ⟨p, -, rfl⟩ := List.mem_map.mp hm
    exact p.current
  same_session m hm := by
    obtain ⟨p, hp, rfl⟩ := List.mem_map.mp hm
    exact packets_sessionId r.keeps p hp
  numbered := r.numbers_delivered

theorem filterMap_pieces {β : Type} {f : Piece → Option β} {g : Write → Option β}
    (h : ∀ w ∈ r.writes, (writePieces r.node.logger.backend w).filterMap f = (g w).toList) :
    r.pieces.filterMap f = r.writes.filterMap g := by
  rw [pieces, List.filterMap_flatMap, List.filterMap_eq_flatMap_toList, List.flatMap_congr h]

theorem measured_pieces : r.pieces.filterMap Piece.measured = r.written := by
  rw [written, List.map_filterMap]
  apply r.filterMap_pieces
  intro w _
  rw [writePieces]
  cases packetOf w with
  | some p => cases hsession : p.session <;> simp only [piecesOf, hsession] <;> rfl
  | none =>
    cases lineOf r.node.logger.backend w with
    | none => rfl
    | some line =>
      simp only [Option.elim_some, linePieces, Option.map_none, Option.toList_none]
      split_ifs <;> rfl

theorem line_pieces : r.pieces.filterMap Piece.line = r.lines := by
  rw [lines, List.map_filterMap]
  apply r.filterMap_pieces
  intro w hw
  have hplain := r.plain w hw
  rw [writePieces]
  cases hpacket : packetOf w with
  | some p =>
    have hline : lineOf r.node.logger.backend w = none := by
      cases w with
      | packet p => rfl
      | _ => cases hpacket
    rw [hline]
    cases hsession : p.session <;> simp only [piecesOf, hsession] <;> rfl
  | none =>
    cases hline : lineOf r.node.logger.backend w with
    | none => rfl
    | some line =>
      simp only [Option.elim_some, linePieces, hplain line hline, dite_true, Option.map_some]
      rfl

def recording : Recording where
  run := r.toRun
  pieces := r.pieces
  sublist := r.measured_pieces ▸ r.sublist_delivered
  capture := r.capture
  chunks_eq := by
    rw [Capture.chunks, r.bytes_eq]
    exact filter_chunks r.separate r.plain

/-! ## The report -/

theorem measurementOf_bytes {p : Piece}
    (h : ∀ m, p.measured = some m → m.1.version = WIRE_VERSION) :
    measurementOf p.bytes = p.measured := by
  cases p with
  | measurement m =>
    have hdecode := decodeCobs_frameBytes m.1 (.csi m.2) (h m rfl)
    rw [measurementOf, Piece.bytes, hdecode]
    rfl
  | session env info =>
    rcases decodeCobs_frameBytes_cases env (.session info) with hdecode | hdecode <;>
      rw [measurementOf, Piece.bytes, hdecode] <;> rfl
  | text line =>
    rw [measurementOf, Piece.bytes]
    cases hdecode : decodeCobs line.val with
    | ok x => exact absurd hdecode (decodeCobs_printable line.property x)
    | error e => rfl

theorem announced_pieces : r.pieces.filterMap Piece.announced = r.announced := by
  rw [announced, List.filterMap_filterMap]
  apply r.filterMap_pieces
  intro w _
  rw [writePieces]
  cases packetOf w with
  | some p =>
    cases hsession : p.session <;> simp only [piecesOf, Option.bind_some, hsession] <;> rfl
  | none =>
    cases lineOf r.node.logger.backend w with
    | none => rfl
    | some line =>
      simp only [Option.elim_some, linePieces, Option.bind_none, Option.toList_none]
      split_ifs <;> rfl

theorem current {p : Piece} (hp : p ∈ r.pieces) :
    (∃ m : Measurement, p = .measurement m ∧ m.1.version = WIRE_VERSION) ∨
      (∃ env info, p = .session env info ∧ env.version = WIRE_VERSION) ∨ ∃ line, p = .text line := by
  obtain ⟨w, -, hw⟩ := List.mem_flatMap.mp hp
  rw [writePieces] at hw
  cases hpacket : packetOf w with
  | some packet =>
    rw [hpacket] at hw
    rcases List.mem_append.mp hw with hsession | hmeasured
    · obtain ⟨info, -, rfl⟩ := Option.mem_map.mp (Option.mem_toList.mp hsession)
      exact .inr (.inl ⟨_, info, rfl, packet.current⟩)
    · obtain rfl := List.mem_singleton.mp hmeasured
      exact .inl ⟨_, rfl, packet.current⟩
  | none =>
    rw [hpacket] at hw
    cases hline : lineOf r.node.logger.backend w with
    | none => simp [hline] at hw
    | some line =>
      simp only [hline, Option.elim_some, linePieces] at hw
      split_ifs at hw
      · exact .inr (.inr ⟨_, List.mem_singleton.mp hw⟩)
      · cases hw

theorem announcementOf_bytes {p : Piece} (hp : p ∈ r.pieces) :
    announcementOf p.bytes = p.announced := by
  rcases r.current hp with ⟨m, rfl, hm⟩ | ⟨env, info, rfl, henv⟩ | ⟨line, rfl⟩
  · have hdecode := decodeCobs_frameBytes m.1 (.csi m.2) hm
    rw [announcementOf, Piece.bytes, hdecode]
    rfl
  · have hdecode := decodeCobs_frameBytes env (.session info) henv
    rw [announcementOf, Piece.bytes, hdecode]
    rfl
  · rw [announcementOf, Piece.bytes]
    cases hdecode : decodeCobs line.val with
    | ok x => exact absurd hdecode (decodeCobs_printable line.property x)
    | error e => rfl

theorem isGarbage_bytes {p : Piece} (hp : p ∈ r.pieces) : isGarbage p.bytes = false := by
  rcases r.current hp with ⟨m, rfl, hm⟩ | ⟨env, info, rfl, henv⟩ | ⟨line, rfl⟩
  · have hdecode := decodeCobs_frameBytes m.1 (.csi m.2) hm
    rw [isGarbage, Piece.bytes, hdecode]
  · have hdecode := decodeCobs_frameBytes env (.session info) henv
    rw [isGarbage, Piece.bytes, hdecode]
  · rw [isGarbage, Piece.bytes, line.property]
    split <;> simp

theorem isOtherVersion_bytes {p : Piece} (hp : p ∈ r.pieces)
    (hlines : ∀ line ∈ r.lines, ¬ Mistaken line) : isOtherVersion p.bytes = false := by
  rcases r.current hp with ⟨m, rfl, hm⟩ | ⟨env, info, rfl, henv⟩ | ⟨line, rfl⟩
  · have hdecode := decodeCobs_frameBytes m.1 (.csi m.2) hm
    rw [isOtherVersion, Piece.bytes, hdecode]
  · have hdecode := decodeCobs_frameBytes env (.session info) henv
    rw [isOtherVersion, Piece.bytes, hdecode]
  · have hmem : line.val ∈ r.lines := by
      rw [← r.line_pieces]
      exact List.mem_filterMap.mpr ⟨_, hp, rfl⟩
    have htext := (isText_iff line.property).mpr (hlines _ hmem)
    rw [isText, line.property, Bool.true_and] at htext
    rw [isOtherVersion, Piece.bytes]
    split
    · rename_i hdecode
      rw [hdecode] at htext
      cases htext
    · rfl

theorem countP_chunks {f : List UInt8 → Bool} (h : f [] = false)
    (hpieces : ∀ p ∈ r.pieces, f p.bytes = false) : r.capture.chunks.countP f = 0 := by
  rw [List.countP_eq_zero]
  intro chunk hchunk
  by_cases hempty : chunk = []
  · simp [hempty, h]
  · have hmem : chunk ∈ r.recording.capture.chunks.filter (· ≠ []) :=
      List.mem_filter.mpr ⟨hchunk, decide_eq_true hempty⟩
    rw [r.recording.chunks_eq] at hmem
    obtain ⟨p, hp, rfl⟩ := List.mem_map.mp hmem
    simp [hpieces p hp]

end Captured

/-- Of a captured run the report counts the measurements that were written, and as lost those that the
run delivered in between and did not write, whatever became of them; it lists the announcements, finds
no other session and nothing that does not decode, and every line of text unless one is mistaken. -/
theorem report_of_run {board : Board} (r : Captured board) :
    ∃ s, wireDecode r.capture = some s ∧ s.csi = r.written.length ∧ s.sessions = r.announced ∧
      s.seqLost = deletedBetween Measurement.number r.delivered r.written ∧ s.seqResets = 0 ∧
      s.decodeErrors = 0 ∧ ((∀ line ∈ r.lines, ¬ Mistaken line) →
        s.text = r.lines.map trim ∧ s.versionErrors = 0) := by
  obtain ⟨s, hs, hlost, hresets, htext⟩ := exists_wireDecode r.recording.fits
  have hreport := eq_of_wireDecode hs
  have hkept : r.recording.kept = r.written := r.measured_pieces
  have hlines : r.recording.lines = r.lines := r.line_pieces
  refine ⟨s, hs, ?_, ?_, ?_, ?_, ?_, ?_⟩
  · rw [hreport, ← r.measured_pieces]
    refine congrArg List.length ((r.recording.filterMap_chunks rfl).trans ?_)
    exact List.filterMap_congr fun p hp => Captured.measurementOf_bytes (r.recording.current hp)
  · rw [hreport, ← r.announced_pieces]
    refine (r.recording.filterMap_chunks rfl).trans ?_
    exact List.filterMap_congr fun p hp => r.announcementOf_bytes hp
  · rw [hlost, r.recording.total_passed_marks, hkept]
    rfl
  · rw [hresets, r.recording.total_resets_marks]
  · rw [hreport]
    exact r.countP_chunks rfl fun p hp => r.isGarbage_bytes hp
  · intro hmistaken
    constructor
    · rw [htext, r.recording.filterMap_textOf, r.recording.filterMap_textOf_eq_iff.mpr, hlines]
      rwa [hlines]
    · rw [hreport]
      exact r.countP_chunks rfl fun p hp => r.isOtherVersion_bytes hp hmistaken

/-! ## Three captures, the second for a callback -/

def serializedNode : Node := step .esp32 .boot (.initLogger .serialized .async)

def threeCaptures : List Event :=
  [ .capture (.quiet .zero 0 0) 0, .setCsiDeliveryMode .callback, .capture (.quiet .zero 1 9) 9,
    .setCsiDeliveryMode .off, .capture (.quiet .zero 2 19) 19, .loggerBackend, .loggerBackend ]

def upBehind : List Write :=
  ((serializedNode.beginRun .monitor).hostOutput .esp32 threeCaptures).flatMap fun p =>
    [.packet p, .logLn ⟨[117, 112], by decide⟩]

def upCapture : Capture where
  bytes := stream serializedNode.logger.backend upBehind
  length_lt := by decide +kernel

theorem upCapture_bytes : upCapture.bytes = stream serializedNode.logger.backend upBehind := by
  rw [upCapture]

def oneNotWritten : Captured .esp32 where
  node := serializedNode
  cfg := .monitor
  events := threeCaptures
  queue_empty := rfl
  channel_empty := rfl
  serialized := rfl
  keeps := by decide
  orderly := by decide +kernel
  countable := by decide +kernel
  writes := upBehind
  packets_eq := by decide +kernel
  separate _ _ := .inl rfl
  plain := by decide +kernel
  capture := upCapture
  bytes_eq := upCapture_bytes

/-- The report counts two measurements, and one as lost. -/
theorem report_of_run_one_lost :
    ∃ s, wireDecode oneNotWritten.capture = some s ∧ s.csi = 2 ∧ s.seqLost = 1 ∧ s.seqResets = 0 := by
  obtain ⟨s, hs, hcsi, -, hlost, hresets, -⟩ := report_of_run oneNotWritten
  have hwritten : oneNotWritten.written.length = 2 := by decide +kernel
  have hdeleted : deletedBetween Measurement.number oneNotWritten.delivered
      oneNotWritten.written = 1 := by decide +kernel
  exact ⟨s, hs, hcsi.trans hwritten, hlost.trans hdeleted, hresets⟩

end EspCsi.Host
