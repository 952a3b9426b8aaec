import EspCsi.Host.TextLines
import EspCsi.Lib.Missing

/-!
# Lost frames

A recording of one run: some measurement frames are gone, session announcements and lines of text
stand between the others. What the capture decoder reports of it.
-/

namespace EspCsi.Host

open Wire Logging Neighbours Missing

/-! ## Recordings -/

abbrev Measurement := Envelope × CsiFrame

def Measurement.number (m : Measurement) : ℕ := m.1.streamSeq.toNat

/-- The measurement frames of one run: one session, numbered from 0 on. -/
structure Run where
  sessionId : UInt32
  frames : List Measurement
  current : ∀ m ∈ frames, m.1.version = WIRE_VERSION
  same_session : ∀ m ∈ frames, m.1.sessionId = sessionId
  numbered : frames.map Measurement.number = List.range frames.length

/-- What stands between delimiters. -/
inductive Piece where
  | measurement (m : Measurement)
  | session (env : Envelope) (info : SessionInfo)
  | text (line : {bytes : List UInt8 // printable bytes = true})

namespace Piece

def bytes : Piece → List UInt8
  | measurement m => frameBytes m.1 (.csi m.2)
  | session env info => frameBytes env (.session info)
  | text line => line.val

def measured : Piece → Option Measurement
  | measurement m => some m
  | _ => none

def line : Piece → Option (List UInt8)
  | text line => some line.val
  | _ => none

end Piece

/-- What is left of a run, in a file. -/
structure Recording where
  run : Run
  pieces : List Piece
  sublist : (pieces.filterMap Piece.measured).Sublist run.frames
  capture : Capture
  chunks_eq : capture.chunks.filter (· ≠ []) = pieces.map Piece.bytes

namespace Recording

def kept (r : Recording) : List Measurement := r.pieces.filterMap Piece.measured

def lines (r : Recording) : List (List UInt8) := r.pieces.filterMap Piece.line

/-- The decoder reports the frames deleted between the first and the last one kept, no reset, and
every line of text as one. -/
def Accounted (r : Recording) : Prop :=
  ∃ s, wireDecode r.capture = some s ∧
    s.seqLost = deletedBetween Measurement.number r.run.frames r.kept ∧ s.seqResets = 0 ∧
    s.text = r.lines.map trim

end Recording

theorem Run.length_frames_le (run : Run) : run.frames.length ≤ 2 ^ 32 := by
  by_contra hlong
  have hmem : 2 ^ 32 ∈ run.frames.map Measurement.number := by
    rw [run.numbered]
    exact List.mem_range.mpr (Nat.lt_of_not_le hlong)
  obtain ⟨m, -, hm⟩ := List.mem_map.mp hmem
  exact absurd hm (Nat.ne_of_lt m.1.streamSeq.toNat_lt)

def delimited (pieces : List Piece) : List UInt8 :=
  pieces.flatMap fun p => p.bytes ++ [COBS_DELIMITER]

theorem Piece.bytes_ne_nil (p : Piece) : p.bytes ≠ [] := by
  cases p with
  | measurement m => exact Cobs.encodeFrom_ne_nil [] _
  | session env info => exact Cobs.encodeFrom_ne_nil [] _
  | text line =>
    intro hnil
    have hline : printable line.val = true := line.property
    rw [show line.val = [] from hnil] at hline
    cases hline

theorem Piece.zero_not_mem_bytes (p : Piece) : COBS_DELIMITER ∉ p.bytes := by
  cases p with
  | measurement m => exact zero_not_mem_frameBytes m.1 _
  | session env info => exact zero_not_mem_frameBytes env _
  | text line => exact zero_not_mem_of_printable line.property

theorem chunks_delimited {c : Capture} {pieces : List Piece} (h : c.bytes = delimited pieces) :
    c.chunks.filter (· ≠ []) = pieces.map Piece.bytes := by
  have hsplit := Cobs.splitOn_flatMap_delimited Piece.bytes pieces []
    fun p _ => p.zero_not_mem_bytes
  have hkeep : ∀ chunk ∈ pieces.map Piece.bytes, decide (chunk ≠ []) = true := by
    intro chunk hchunk
    obtain ⟨p, -, rfl⟩ := List.mem_map.mp hchunk
    exact decide_eq_true p.bytes_ne_nil
  rw [List.append_nil] at hsplit
  rw [Capture.chunks, h, delimited, hsplit, List.filter_append, List.filter_eq_self.mpr hkeep]
  simp

/-! ## The chunks of a recording -/

theorem decodeCobs_frameBytes_cases (env : Envelope) (body : Body) :
    decodeCobs (frameBytes env body) = .ok (env, body) ∨
      decodeCobs (frameBytes env body) = .error (.unsupportedVersion env.version) := by
  by_cases hversion : env.version = WIRE_VERSION
  · exact .inl (decodeCobs_frameBytes env body hversion)
  · right
    rw [decodeCobs, frameBytes, decodeInPlace_encode_undelimited]
    exact decode_other_version env _ hversion

theorem textOf_frameBytes (env : Envelope) (body : Body) : textOf (frameBytes env body) = none := by
  apply textOf_of_not_malformed
  intro e
  rcases decodeCobs_frameBytes_cases env body with hdecode | hdecode
  · rw [hdecode]
    simp
  · rw [hdecode]
    simp

namespace Piece

theorem markOf_bytes {p : Piece} (h : ∀ m, p.measured = some m → m.1.version = WIRE_VERSION) :
    markOf p.bytes = p.measured.map fun m => mark m.1 := by
  cases p with
  | measurement m => exact markOf_of_csi (decodeCobs_frameBytes m.1 _ (h m rfl))
  | session env info =>
    rcases decodeCobs_frameBytes_cases env (.session info) with hdecode | hdecode
    · exact markOf_of_session hdecode
    · exact markOf_of_error hdecode
  | text line =>
    cases hdecode : decodeCobs line.val with
    | ok x => exact absurd hdecode (decodeCobs_printable line.property x)
    | error e => exact markOf_of_error hdecode

theorem textOf_bytes (p : Piece) : textOf p.bytes = p.line.bind textOf := by
  cases p with
  | measurement m => exact textOf_frameBytes m.1 (.csi m.2)
  | session env info => exact textOf_frameBytes env (.session info)
  | text line => rfl

end Piece

namespace Recording

variable (r : Recording)

theorem current {p : Piece} (hp : p ∈ r.pieces) :
    ∀ m, p.measured = some m → m.1.version = WIRE_VERSION := fun m hm =>
  r.run.current m (r.sublist.subset (List.mem_filterMap.mpr ⟨p, hp, hm⟩))

theorem filterMap_chunks {β : Type} {f : List UInt8 → Option β} (h : f [] = none) :
    r.capture.chunks.filterMap f = r.pieces.filterMap fun p => f p.bytes := by
  have hempty : (r.capture.chunks.filter (· ≠ [])).filterMap f = r.capture.chunks.filterMap f := by
    rw [List.filterMap_filter]
    congr 1
    funext chunk
    by_cases hchunk : chunk = []
    · rw [hchunk, h]
      rfl
    · exact if_pos (decide_eq_true hchunk)
  rw [← hempty, r.chunks_eq, List.filterMap_map]
  rfl

theorem marks_eq :
    r.capture.marks = r.kept.map fun m => (r.run.sessionId, m.1.streamSeq) := by
  have hpieces : r.capture.marks = r.kept.map fun m => mark m.1 := by
    rw [Capture.marks, r.filterMap_chunks rfl, kept, List.map_filterMap]
    apply List.filterMap_congr
    intro p hp
    exact Piece.markOf_bytes (r.current hp)
  rw [hpieces]
  apply List.map_congr_left
  intro m hm
  rw [mark, r.run.same_session m (r.sublist.subset hm)]

theorem filterMap_textOf : r.capture.chunks.filterMap textOf = r.lines.filterMap textOf := by
  rw [r.filterMap_chunks rfl, lines, List.filterMap_filterMap]
  apply List.filterMap_congr
  intro p _
  exact p.textOf_bytes

theorem printable_of_mem {line : List UInt8} (h : line ∈ r.lines) : printable line = true := by
  obtain ⟨p, -, hline⟩ := List.mem_filterMap.mp h
  cases p with
  | measurement m => cases hline
  | session env info => cases hline
  | text line' => exact Option.some_inj.mp hline ▸ line'.property

theorem filterMap_textOf_eq_iff :
    r.lines.filterMap textOf = r.lines.map trim ↔ ∀ line ∈ r.lines, ¬ Mistaken line := by
  have hiff : ∀ line ∈ r.lines, (textOf line).isSome = true ↔ ¬ Mistaken line := by
    intro line hline
    rw [← isText_iff (r.printable_of_mem hline), textOf]
    cases isText line <;> simp
  constructor
  · intro heq line hline
    have hlen := congrArg List.length heq
    rw [List.length_map, List.filterMap_length_eq_length] at hlen
    exact (hiff line hline).mp (hlen line hline)
  · intro h
    rw [← List.filterMap_eq_map]
    apply List.filterMap_congr
    intro line hline
    have htext := (isText_iff (r.printable_of_mem hline)).mpr (h line hline)
    exact if_pos htext

theorem increasing : (r.kept.map Measurement.number).Pairwise (· < ·) := by
  have hrange : (r.kept.map Measurement.number).Sublist (List.range r.run.frames.length) :=
    r.run.numbered ▸ r.sublist.map Measurement.number
  exact List.pairwise_lt_range.sublist hrange

theorem total_passed_marks :
    total passed r.capture.marks = deletedBetween Measurement.number r.run.frames r.kept := by
  have hgap : total passed r.capture.marks =
      total (fun a b => b - a - 1) (r.kept.map Measurement.number) := by
    rw [marks_eq, total_map, total_map]
    congr 1
    funext m m'
    exact if_pos rfl
  rw [hgap, total_passed r.increasing, kept, deletedBetween_eq_missing r.run.numbered r.sublist]

theorem chain_marks :
    r.capture.marks.IsChain fun p q => p.1 = q.1 ∧ p.2.toNat < q.2.toNat := by
  have hchain := (List.pairwise_map.mp r.increasing).isChain
  rw [marks_eq, List.isChain_map]
  exact hchain.imp fun m m' hlt => ⟨rfl, hlt⟩

theorem total_resets_marks : total resets r.capture.marks = 0 := by
  have hnone : total resets r.capture.marks = total (fun _ _ => 0) r.capture.marks := by
    apply total_congr
    apply r.chain_marks.imp
    rintro p q ⟨hsame, hlt⟩
    apply if_neg
    rintro (hother | hback)
    · exact hother hsame
    · exact absurd (UInt32.lt_iff_toNat_lt.mp hback) (Nat.lt_asymm hlt)
  rw [hnone, total_zero]

theorem fits : r.capture.Fits := by
  have hlen : r.capture.marks.length ≤ 2 ^ 32 := by
    rw [marks_eq, List.length_map]
    exact r.sublist.length_le.trans r.run.length_frames_le
  rw [Capture.fits_iff_of_length_le hlen]
  apply r.chain_marks.imp
  rintro p q ⟨-, hlt⟩ ⟨-, hp, hq⟩
  rw [hp, hq] at hlt
  exact Nat.lt_irrefl _ hlt

/-- A recording is accounted for exactly when none of its lines is mistaken for a frame. -/
theorem accounted_iff : r.Accounted ↔ ∀ line ∈ r.lines, ¬ Mistaken line := by
  obtain ⟨s, hs, hlost, hresets, htext⟩ := exists_wireDecode r.fits
  rw [total_passed_marks] at hlost
  rw [total_resets_marks] at hresets
  rw [filterMap_textOf] at htext
  rw [← r.filterMap_textOf_eq_iff]
  constructor
  · rintro ⟨s', hs', -, -, htext'⟩
    obtain rfl : s = s' := Option.some_inj.mp (hs.symm.trans hs')
    exact htext.symm.trans htext'
  · intro hlines
    exact ⟨s, hs, hlost, hresets, htext.trans hlines⟩

end Recording

/-- The decoder has a summary of a capture exactly when its numbers fit, and accounts for a recording
exactly when it mistakes none of its lines for a frame. -/
theorem wireDecode_accounts (c : Capture) (r : Recording) :
    ((wireDecode c).isSome = true ↔ c.Fits) ∧
      (r.Accounted ↔ ∀ line ∈ r.lines, ¬ Mistaken line) :=
  ⟨isSome_wireDecode_iff c, r.accounted_iff⟩

/-! ## Recordings of three reports -/

def reportNumbered (seq : UInt32) : Measurement := (.new .zero 7 .synthetic seq, scoreReport.frame)

def threeReports : Run where
  sessionId := 7
  frames := [reportNumbered 0, reportNumbered 1, reportNumbered 2]
  current := by decide
  same_session := by decide
  numbered := by decide

/-- The report in the middle is gone, and a line stands in its place. -/
def around (line : {bytes : List UInt8 // printable bytes = true}) : List Piece :=
  [.measurement (reportNumbered 0), .text line, .measurement (reportNumbered 2)]

def middleGone (line : {bytes : List UInt8 // printable bytes = true})
    (h : (delimited (around line)).length < 2 ^ 63) : Recording where
  run := threeReports
  pieces := around line
  sublist := (List.Sublist.refl [reportNumbered 2]).cons (reportNumbered 1) |>.cons_cons _
  capture := ⟨delimited (around line), h⟩
  chunks_eq := chunks_delimited rfl

def upBetween : Recording := middleGone ⟨[117, 112, 13, 10], by decide⟩ (by decide +kernel)

theorem wireDecode_accounts_up :
    (wireDecode upBetween.capture).isSome = true ∧ upBetween.Accounted ∧
      deletedBetween Measurement.number upBetween.run.frames upBetween.kept = 1 := by
  obtain ⟨hsome, haccounted⟩ := wireDecode_accounts upBetween.capture upBetween
  exact ⟨hsome.mpr upBetween.fits, haccounted.mpr (by decide), by decide⟩

/-- The report with the last number there is, twice. -/
def lastTwice : Capture where
  bytes := delimited
    [.measurement (reportNumbered 0xffffffff), .measurement (reportNumbered 0xffffffff)]
  length_lt := by decide +kernel

/-- `ABCDEFGH`, a tab and `IJKLMN`, behind another tab: two blocks of nine bytes. -/
def tabLine : {bytes : List UInt8 // printable bytes = true} :=
  ⟨[9, 65, 66, 67, 68, 69, 70, 71, 72, 9, 73, 74, 75, 76, 77, 78, 13, 10], by decide⟩

/-- The number behind the last one does not fit, and a line that begins with a tab is taken for a
frame of version 65. -/
theorem wireDecode_fails :
    wireDecode lastTwice = none ∧ ¬ (middleGone tabLine (by decide +kernel)).Accounted := by
  constructor
  · have hsome := isSome_wireDecode_iff lastTwice
    have hend : ¬ lastTwice.Fits := by decide +kernel
    rwa [iff_false_right hend, Option.not_isSome_iff_eq_none] at hsome
  · rw [Recording.accounted_iff]
    intro hlines
    exact absurd (hlines tabLine.val (by decide)) (not_not.mpr (by decide))

end EspCsi.Host
