import EspCsi.Lib.Checked
import EspCsi.Logging.Logger
import Mathlib.Data.Finset.Insert
import Mathlib.Data.List.DropRight

/-!
# The capture decoder

`wire-tests/src/bin/wire-decode.rs`: a capture is cut at its zero bytes, every chunk is decoded, and
what decodes is summed up. The counters are checked, so a chunk at which a build with overflow checks
would stop has no result.
-/

namespace EspCsi.Host

open Wire Logging

/-- A file read into memory: a vector holds at most `isize::MAX` bytes. -/
structure Capture where
  bytes : List UInt8
  length_lt : bytes.length < 2 ^ 63

/-- A map of 64-bit counters, 0 for a key without an entry. A key that the source turns into its name
is the value itself. -/
abbrev Counts (κ : Type) := κ → ℕ

structure Summary where
  csi : ℕ
  sessions : List (Envelope × SessionInfo)
  decodeErrors : ℕ
  versionErrors : ℕ
  text : List (List UInt8)
  seqGaps : ℕ
  seqLost : ℕ
  seqResets : ℕ
  tsBackwards : ℕ
  tsFirst : Option UInt64
  tsLast : UInt64
  tsMax : UInt64
  sources : Counts SourceKind
  ppdu : Counts PpduFormat
  layout : Counts LayoutId
  lens : Counts ℕ
  payload : Counts PayloadTag
  stimulus : Counts StimulusTag
  tx : Counts Mac
  setupIds : Counts UInt8
  instances : Finset UInt16
  header : ℕ
  retries : ℕ
  nodeIds : Counts Mac
  sessionIds : Counts UInt32
  variation : List UInt16
  bandwidth : Counts (Option Bandwidth)

def Summary.default : Summary where
  csi := 0
  sessions := []
  decodeErrors := 0
  versionErrors := 0
  text := []
  seqGaps := 0
  seqLost := 0
  seqResets := 0
  tsBackwards := 0
  tsFirst := none
  tsLast := 0
  tsMax := 0
  sources := fun _ => 0
  ppdu := fun _ => 0
  layout := fun _ => 0
  lens := fun _ => 0
  payload := fun _ => 0
  stimulus := fun _ => 0
  tx := fun _ => 0
  setupIds := fun _ => 0
  instances := ∅
  header := 0
  retries := 0
  nodeIds := fun _ => 0
  sessionIds := fun _ => 0
  variation := []
  bandwidth := fun _ => 0

/-- `+= 1` on a counter. -/
def increment (n : ℕ) : Option ℕ := Checked.add 64 n 1

/-- `if p { .. += 1; }`. -/
def incrementIf (p : Prop) [Decidable p] (n : ℕ) : Option ℕ := if p then increment n else some n

/-- `*map.entry(key).or_default() += 1`. -/
def entry {κ : Type} [DecidableEq κ] (counts : Counts κ) (key : κ) : Option (Counts κ) :=
  Checked.tally 64 counts key

/-- `char::is_whitespace`, of an ASCII byte. -/
def isWhitespace (b : UInt8) : Bool := (9 ≤ b && b ≤ 13) || b == 32

def trim (text : List UInt8) : List UInt8 :=
  (text.dropWhile isWhitespace).rdropWhile isWhitespace

/-- The session and the number of a measurement frame. -/
abbrev Mark := UInt32 × UInt32

namespace Summary

def checkSeq (lastSeq : Option Mark) (env : Envelope) (s : Summary) : Option Summary :=
  match lastSeq with
  | none => some s
  | some (sess, seq) =>
    if sess ≠ env.sessionId ∨ env.streamSeq < seq then do
      let seqResets ← increment s.seqResets
      some { s with seqResets }
    else do
      -- taken before the comparison, so the last number there is has none
      let next ← Checked.add 32 seq.toNat 1
      if env.streamSeq.toNat > next then do
        let seqGaps ← increment s.seqGaps
        let ahead ← Checked.sub env.streamSeq.toNat seq.toNat
        let lost ← Checked.sub ahead 1
        let seqLost ← Checked.add 64 s.seqLost lost
        some { s with seqGaps, seqLost }
      else some s

def checkTime (ts : UInt64) (s : Summary) : Option Summary := do
  let tsBackwards ← incrementIf (s.tsFirst.isSome ∧ ts < s.tsLast) s.tsBackwards
  some { s with
    tsBackwards
    tsFirst := s.tsFirst.or (some ts)
    tsLast := ts
    tsMax := max s.tsMax ts }

def countHeader (f : CsiFrame) (s : Summary) : Option Summary := do
  let tx ← f.transmitter.elim (some s.tx) (entry s.tx)
  match f.header with
  | some h => do
    let header ← increment s.header
    let retries ← incrementIf h.isRetry s.retries
    some { s with tx, header, retries }
  | none => some { s with tx }

def countStimulus (f : CsiFrame) (s : Summary) : Option Summary :=
  match f.stimulus with
  | .controlled setupId instanceId _ => do
    let setupIds ← entry s.setupIds setupId
    let stimulus ← entry s.stimulus .controlled
    some { s with setupIds, instances := insert instanceId s.instances, stimulus }
  | .ambient _ => do
    let stimulus ← entry s.stimulus .ambient
    some { s with stimulus }
  | .observed _ _ => do
    let stimulus ← entry s.stimulus .observed
    some { s with stimulus }

def countPayload (f : CsiFrame) (s : Summary) : Option Summary :=
  match f.payload with
  | .espRaw _ layout _ bytes => do
    let layout ← entry s.layout layout
    let lens ← entry s.lens bytes.val.length
    let payload ← entry s.payload .espRaw
    some { s with layout, lens, payload }
  | .grouped _ _ _ _ _ _ _ => do
    let payload ← entry s.payload .grouped
    some { s with payload }
  | .variation value => do
    let payload ← entry s.payload .variation
    some { s with variation := s.variation ++ [value], payload }

def measure (lastSeq : Option Mark) (env : Envelope) (f : CsiFrame) (s : Summary) :
    Option Summary := do
  let csi ← increment s.csi
  let sources ← entry s.sources env.source
  let s ← checkSeq lastSeq env { s with csi, sources }
  let s ← s.checkTime f.rxMeta.timestampUs
  let ppdu ← entry s.ppdu f.rxMeta.ppdu
  let bandwidth ← entry s.bandwidth f.rxMeta.bandwidth
  let s ← countHeader f { s with ppdu, bandwidth }
  let s ← countStimulus f s
  countPayload f s

end Summary

structure Loop where
  s : Summary
  lastSeq : Option Mark

namespace Loop

def start : Loop := ⟨.default, none⟩

def step (l : Loop) (frame : List UInt8) : Option Loop :=
  if frame.isEmpty then some l
  else
    match decodeCobs frame with
    | .ok (env, body) => do
      let nodeIds ← entry l.s.nodeIds env.nodeId
      let sessionIds ← entry l.s.sessionIds env.sessionId
      let s := { l.s with nodeIds, sessionIds }
      match body with
      | .session info => some { l with s := { s with sessions := s.sessions ++ [(env, info)] } }
      | .csi f => do
        let s ← s.measure l.lastSeq env f
        some ⟨s, some (env.sessionId, env.streamSeq)⟩
    | .error (.unsupportedVersion _) => do
      let versionErrors ← increment l.s.versionErrors
      some { l with s := { l.s with versionErrors } }
    -- printable text is no error
    | .error (.malformed _) =>
      if printable frame then some { l with s := { l.s with text := l.s.text ++ [trim frame] } }
      else do
        let decodeErrors ← increment l.s.decodeErrors
        some { l with s := { l.s with decodeErrors } }

end Loop

def Capture.chunks (c : Capture) : List (List UInt8) := c.bytes.splitOn COBS_DELIMITER

/-- What `wire-decode` sums up of a capture. -/
def wireDecode (c : Capture) : Option Summary :=
  (c.chunks.foldlM Loop.step Loop.start).map Loop.s

end EspCsi.Host
