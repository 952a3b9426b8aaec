import EspCsi.EspNow.Promotion

/-!
# The announced reporting

Whether what an initiator announces in its control packets is the reporting in force, and what the
responder makes of it. The driver loads the value once, when it starts; `set_reporting` may change it
at any time.
-/

namespace EspCsi.EspNow

open Wire Transition Streak

/-- A control packet sent, with whether the initiator's reporting in force reported anything at that
moment. Nothing of the crate reads the latter. -/
structure Sent where
  data : List UInt8
  reporting : Bool
deriving DecidableEq, Repr

/-- A symmetric exchange, every control packet sent kept: it may be ingested late, in any order, more
than once, or never. `changedAt` counts those sent before the initiator last changed between
reporting and not, and `ingested` lists those ingested, each with its place; nothing of the crate
reads these two. -/
structure Coupled where
  auto : Bool
  initiatorMac : Mac
  initiator : Initiator
  sent : List Sent
  changedAt : ℕ
  responder : Responder
  ingested : List (ControlPacket × ℕ)

namespace Coupled

/-- What happens at either node. `set_reporting` is one of the calls into the initiator's crate. -/
inductive Event where
  | receivePass
  | send
  | sendDone (ok : Bool)
  | hear (r : PoolFrame)
  | initiatorCall (e : Csi.Event)
  | ingest (k : ℕ) (registers : Bool)
  | reply
  | responderCall (e : Csi.Event)

/-- Both drivers start, each in a run of its own. In manual pairing each knows the other's address. -/
def start (auto : Bool) (initiatorMac responderMac : Mac) (chip : Chip)
    (initiatorConfig responderConfig : EspNowConfig) (rawListen : Bool) (m n : Csi.Node)
    (initiatorRun responderRun : Csi.Node.RunConfig) : Coupled where
  auto
  initiatorMac
  initiator := .start { initiatorConfig with peerMac := if auto then none else some responderMac }
    (m.beginRun initiatorRun)
  sent := []
  changedAt := 0
  responder := .start responderMac chip
    { responderConfig with peerMac := if auto then none else some initiatorMac } rawListen
    (n.beginRun responderRun)
  ingested := []

def send (s : Coupled) (data : List UInt8) : Coupled :=
  { s with
    initiator := s.initiator.beginSend
    sent := s.sent ++ [⟨data, s.initiator.node.gates.runtimeReporting.reports⟩] }

def callInitiator (board : Csi.Board) (s : Coupled) (e : Csi.Event) : Coupled :=
  let node := Csi.step board s.initiator.node e
  { s with
    initiator := { s.initiator with node }
    changedAt :=
      if node.gates.runtimeReporting.reports = s.initiator.node.gates.runtimeReporting.reports then
        s.changedAt
      else s.sent.length }

def ingest (s : Coupled) (txEnabled : Bool) (f : Sent) (k : ℕ) (registers : Bool) : Coupled :=
  let r : PoolFrame := ⟨s.initiatorMac, f.data, k⟩
  { s with
    responder := s.responder.ingestControlPacket r txEnabled registers
    ingested := s.ingested ++ (s.responder.accepts r).toList.map fun packet => (packet, k) }

def step (board : Csi.Board) (txEnabled : Bool) (s : Coupled) : Event → Coupled
  | .receivePass =>
    if s.initiator.phase = .sending then s else { s with initiator := s.initiator.receivePass }
  | .send =>
    match s.initiator.phase, s.initiator.controlFrame with
    | .ready, some (_, data) => s.send data
    | _, _ => s
  | .sendDone ok =>
    if s.initiator.phase = .sending then { s with initiator := s.initiator.endSend ok } else s
  | .hear r => { s with initiator := { s.initiator with pool := s.initiator.pool.rcvCb r } }
  | .initiatorCall e => s.callInitiator board e
  | .ingest k registers =>
    match s.sent[k]? with
    | some f => s.ingest txEnabled f k registers
    | none => s
  | .reply => { s with responder := s.responder.turn board txEnabled .reply }
  | .responderCall e => { s with responder := s.responder.turn board txEnabled (.call e) }

/-! ## What the pair is to guarantee -/

def announcement (s : Coupled) (f : Sent) : Option Bool :=
  (parseWithMagic controlPacketCodec f.data INITIATOR_MAGIC_NUMBER s.auto).map
    ControlPacket.initiatorReports

def Announced (s : Coupled) : Prop := ∀ f ∈ s.sent, s.announcement f = some f.reporting

instance (s : Coupled) : Decidable s.Announced := inferInstanceAs (Decidable (∀ f ∈ s.sent, _))

def OneReports (s : Coupled) : Prop :=
  s.initiator.node.gates.runtimeReporting.reports = true ∨
    s.responder.node.gates.runtimeReporting.reports = true

instance (s : Coupled) : Decidable s.OneReports := inferInstanceAs (Decidable (_ ∨ _))

/-- Three packets in a row that were sent after the initiator's last change have been ingested. -/
def Informed (s : Coupled) : Prop := HasStreak (fun x => s.changedAt ≤ x.2) 3 s.ingested

/-- What the pair is to guarantee, for a responder configured with `policy`. -/
structure Guaranteed (policy : Reporting) (s : Coupled) : Prop where
  announced : s.Announced
  oneReports : policy = .none → s.Informed → s.OneReports

/-! ## What holds of every run -/

def OnlyDriver (_ : Coupled) : Event → Prop
  | .responderCall e => e.keepsReporting = true
  | _ => True

instance (s : Coupled) : (e : Event) → Decidable (s.OnlyDriver e)
  | .responderCall e => inferInstanceAs (Decidable (e.keepsReporting = true))
  | .receivePass | .send | .sendDone _ | .hear _ | .initiatorCall _ | .ingest .. | .reply =>
    isTrue trivial

/-- A control packet that is sent finds the reporting as it was when the driver started. -/
def Unchanged (s : Coupled) : Event → Prop
  | .send => s.initiator.phase = .ready →
      s.initiator.reports = s.initiator.node.gates.runtimeReporting.reports
  | _ => True

instance (s : Coupled) : (e : Event) → Decidable (s.Unchanged e)
  | .send => inferInstanceAs (Decidable (_ → _ = _))
  | .receivePass | .sendDone _ | .hear _ | .initiatorCall _ | .ingest .. | .reply
  | .responderCall _ => isTrue trivial

/-- What the two nodes and the packets between them have in common. -/
structure Inv (policy : Reporting) (s : Coupled) : Prop where
  initiatorAuto : s.initiator.peerMac.isNone = s.auto
  responderAuto : s.responder.config.peerMac.isNone = s.auto
  since : ∀ k f, s.changedAt ≤ k → s.sent[k]? = some f →
    f.reporting = s.initiator.node.gates.runtimeReporting.reports
  parsed : ∀ x ∈ s.ingested, ∃ f, s.sent[x.2]? = some f ∧
    parseWithMagic controlPacketCodec f.data INITIATOR_MAGIC_NUMBER s.auto = some x.1
  follows : Listening.Follows policy s.responder.following (s.ingested.map Prod.fst)

theorem inv_start (auto : Bool) (initiatorMac responderMac : Mac) (chip : Chip)
    (initiatorConfig responderConfig : EspNowConfig) (rawListen : Bool) (m n : Csi.Node)
    (initiatorRun responderRun : Csi.Node.RunConfig) :
    Inv responderRun.reporting (start auto initiatorMac responderMac chip initiatorConfig
      responderConfig rawListen m n initiatorRun responderRun) where
  initiatorAuto := by cases auto <;> rfl
  responderAuto := by cases auto <;> rfl
  since := by simp [start]
  parsed := by simp [start]
  follows := Listening.follows_start responderMac chip _ rawListen n responderRun

namespace Inv

variable {policy : Reporting} {s : Coupled}

theorem initiator (h : Inv policy s) {i : Initiator} (hpeer : i.peerMac = s.initiator.peerMac)
    (hgates : i.node.gates = s.initiator.node.gates) : Inv policy { s with initiator := i } where
  initiatorAuto := by
    rw [hpeer]
    exact h.initiatorAuto
  responderAuto := h.responderAuto
  since := by
    rw [hgates]
    exact h.since
  parsed := h.parsed
  follows := h.follows

theorem send (h : Inv policy s) (data : List UInt8) : Inv policy (s.send data) where
  initiatorAuto := h.initiatorAuto
  responderAuto := h.responderAuto
  since := by
    intro k f hk hf
    simp only [Coupled.send] at hf
    by_cases hlt : k < s.sent.length
    · rw [List.getElem?_append_left hlt] at hf
      exact h.since k f hk hf
    · rw [List.getElem?_append_right (Nat.not_lt.mp hlt)] at hf
      obtain rfl := List.mem_singleton.mp (List.mem_of_getElem? hf)
      rfl
  parsed := by
    intro x hx
    obtain ⟨f, hf, hparse⟩ := h.parsed x hx
    obtain ⟨hlt, -⟩ := List.getElem?_eq_some_iff.mp hf
    refine ⟨f, ?_, hparse⟩
    rw [Coupled.send, List.getElem?_append_left hlt, hf]
  follows := h.follows

theorem callInitiator (h : Inv policy s) (board : Csi.Board) (e : Csi.Event) :
    Inv policy (s.callInitiator board e) where
  initiatorAuto := h.initiatorAuto
  responderAuto := h.responderAuto
  since := by
    intro k f hk hf
    simp only [Coupled.callInitiator] at hk hf ⊢
    split_ifs at hk with hsame
    · rw [hsame]
      exact h.since k f hk hf
    · obtain ⟨hlt, -⟩ := List.getElem?_eq_some_iff.mp hf
      omega
  parsed := h.parsed
  follows := h.follows

theorem turn (h : Inv policy s) (board : Csi.Board) (txEnabled : Bool) {t : Responder.Turn}
    (hdriver : Listening.OnlyDriver ⟨s.responder, s.ingested.map Prod.fst⟩ t)
    (hnone : Listening.ingested s.responder t = none) :
    Inv policy { s with responder := s.responder.turn board txEnabled t } where
  initiatorAuto := h.initiatorAuto
  responderAuto := by
    rw [Responder.turn_config]
    exact h.responderAuto
  since := h.since
  parsed := h.parsed
  follows := by
    have hstep := h.follows.step (l := ⟨s.responder, s.ingested.map Prod.fst⟩) board txEnabled
      hdriver
    simpa [Listening.step, hnone] using hstep

theorem ingest (h : Inv policy s) (board : Csi.Board) (txEnabled : Bool) {f : Sent} {k : ℕ}
    (hf : s.sent[k]? = some f) (registers : Bool) :
    Inv policy (s.ingest txEnabled f k registers) where
  initiatorAuto := h.initiatorAuto
  responderAuto := by
    have hconfig : (s.ingest txEnabled f k registers).responder.config = s.responder.config :=
      Responder.turn_config board txEnabled s.responder
        (.ingest ⟨s.initiatorMac, f.data, k⟩ registers)
    rw [hconfig]
    exact h.responderAuto
  since := h.since
  parsed := by
    intro x hx
    rcases List.mem_append.mp hx with hold | hnew
    · exact h.parsed x hold
    · obtain ⟨packet, hpacket, rfl⟩ := List.mem_map.mp hnew
      have haccepts := Option.mem_toList.mp hpacket
      have hparse := Responder.parse_of_accepts haccepts
      rw [h.responderAuto] at hparse
      exact ⟨f, hf, hparse⟩
  follows := by
    have hstep := h.follows.step (l := ⟨s.responder, s.ingested.map Prod.fst⟩) board txEnabled
      (t := .ingest ⟨s.initiatorMac, f.data, k⟩ registers) trivial
    simpa [Listening.step, Listening.ingested, Coupled.ingest, Responder.turn, Function.comp_def]
      using hstep

theorem step (h : Inv policy s) (board : Csi.Board) (txEnabled : Bool) {e : Event}
    (he : s.OnlyDriver e) : Inv policy (s.step board txEnabled e) := by
  cases e with
  | receivePass =>
    simp only [Coupled.step]
    split_ifs
    · exact h
    · exact h.initiator rfl rfl
  | send =>
    simp only [Coupled.step]
    split
    · exact h.send _
    · exact h
  | sendDone ok =>
    simp only [Coupled.step, Initiator.endSend]
    split_ifs
    · exact h.initiator rfl rfl
    · exact h.initiator rfl rfl
    · exact h
  | hear r => exact h.initiator rfl rfl
  | initiatorCall e => exact h.callInitiator board e
  | ingest k registers =>
    simp only [Coupled.step]
    cases hf : s.sent[k]? with
    | none => exact h
    | some f => exact h.ingest board txEnabled hf registers
  | reply => exact h.turn board txEnabled (t := .reply) trivial rfl
  | responderCall e => exact h.turn board txEnabled (t := .call e) he rfl

theorem guaranteed_iff (h : Inv policy s) : s.Guaranteed policy ↔ s.Announced := by
  refine ⟨Guaranteed.announced, fun hann => ⟨hann, ?_⟩⟩
  rintro rfl hinformed
  cases hreports : s.initiator.node.gates.runtimeReporting.reports with
  | true => exact .inl hreports
  | false =>
    have hsilent : HasStreak (fun x => Listening.Silent x.1) 3 s.ingested := by
      apply hinformed.mono
      intro x hx hk
      obtain ⟨f, hf, hparse⟩ := h.parsed x hx
      have hflag := hann f (List.mem_of_getElem? hf)
      rw [announcement, hparse, h.since x.2 f hk hf, hreports] at hflag
      have hsilent : x.1.initiatorReports = false := by simpa using hflag
      exact hsilent
    have hhost := h.follows.exact (l := ⟨s.responder, s.ingested.map Prod.fst⟩)
      |>.1 ⟨rfl, hsilent.map (f := Prod.fst)⟩
    refine .inr ?_
    rw [hhost]
    rfl

end Inv

theorem parse_controlFrame {i : Initiator} {dst : Mac} {data : List UInt8}
    (h : i.controlFrame = some (dst, data)) :
    parseWithMagic controlPacketCodec data INITIATOR_MAGIC_NUMBER i.peerMac.isNone =
      some ⟨i.reports, i.controlSequence⟩ := by
  rw [Initiator.controlFrame_eq] at h
  obtain ⟨-, rfl⟩ := Prod.mk.inj (Option.some_inj.mp h)
  simpa using parseWithMagic_tagged controlPacketCodec ⟨i.reports, i.controlSequence⟩
    INITIATOR_MAGIC_NUMBER i.peerMac.isNone []

theorem step_sent (board : Csi.Board) (txEnabled : Bool) (s : Coupled) {e : Event}
    (he : e ≠ .send) :
    (s.step board txEnabled e).sent = s.sent ∧ (s.step board txEnabled e).auto = s.auto := by
  cases e with
  | send => exact absurd rfl he
  | receivePass | sendDone | ingest =>
    simp only [step]
    split <;> exact ⟨rfl, rfl⟩
  | hear | initiatorCall | reply | responderCall => exact ⟨rfl, rfl⟩

theorem announced_send {policy : Reporting} {s : Coupled} (h : Inv policy s) (hann : s.Announced)
    {dst : Mac} {data : List UInt8} (hframe : s.initiator.controlFrame = some (dst, data)) :
    (s.send data).Announced ↔
      s.initiator.reports = s.initiator.node.gates.runtimeReporting.reports := by
  have hparse := parse_controlFrame hframe
  rw [h.initiatorAuto] at hparse
  have hnew : s.announcement ⟨data, s.initiator.node.gates.runtimeReporting.reports⟩ =
      some s.initiator.reports := by
    rw [announcement, hparse]
    rfl
  constructor
  · intro hall
    have hlast := hall ⟨data, s.initiator.node.gates.runtimeReporting.reports⟩ (by simp [send])
    exact Option.some_inj.mp (hnew.symm.trans hlast)
  · intro hsame f hf
    rcases List.mem_append.mp hf with hold | hlast
    · exact hann f hold
    · rw [List.mem_singleton.mp hlast]
      exact hnew.trans (congrArg some hsame)

theorem announced_step {policy : Reporting} {s : Coupled} (h : Inv policy s) (board : Csi.Board)
    (txEnabled : Bool) (hann : s.Announced) (e : Event) :
    (s.step board txEnabled e).Announced ↔ s.Unchanged e := by
  by_cases hsend : e = .send
  · subst hsend
    simp only [step, Unchanged]
    cases hphase : s.initiator.phase with
    | waiting | sending => simpa using hann
    | ready =>
      rw [Initiator.controlFrame_eq]
      simpa using announced_send h hann (Initiator.controlFrame_eq s.initiator)
  · obtain ⟨hsent, hauto⟩ := step_sent board txEnabled s hsend
    have hsame : (s.step board txEnabled e).Announced := by
      intro f hf
      rw [hsent] at hf
      rw [announcement, hauto]
      exact hann f hf
    refine iff_of_true hsame ?_
    cases e with
    | send => exact absurd rfl hsend
    | _ => trivial

/-- In every run of the exchange, the announcements are right and the pair is not left silent
exactly when each control packet is sent under the reporting that its driver started with. -/
theorem guaranteed_iff_unchanged (board : Csi.Board) (txEnabled auto : Bool)
    (initiatorMac responderMac : Mac) (chip : Chip) (initiatorConfig responderConfig : EspNowConfig)
    (rawListen : Bool) (m n : Csi.Node) (initiatorRun responderRun : Csi.Node.RunConfig)
    (es : List Event) :
    let s := start auto initiatorMac responderMac chip initiatorConfig responderConfig rawListen m n
      initiatorRun responderRun
    Along (step board txEnabled) OnlyDriver s es →
      (Always (step board txEnabled) (Guaranteed responderRun.reporting) s es ↔
        Along (step board txEnabled) Unchanged s es) := by
  intro s hdriver
  have hinv : Inv responderRun.reporting s := inv_start auto initiatorMac responderMac chip
    initiatorConfig responderConfig rawListen m n initiatorRun responderRun
  have hann : s.Announced := by simp [s, start, Announced]
  apply always_iff_along hdriver hinv (hinv.guaranteed_iff.mpr hann)
  · intro s e hs hq he
    rw [(hs.step board txEnabled he).guaranteed_iff]
    exact announced_step hs board txEnabled hq.announced e
  · intro s e hs _ he _
    exact hs.step board txEnabled he

def quiet : Csi.Node.RunConfig := { Csi.Node.RunConfig.monitor with reporting := .none }

/-- A classic board's exchange in auto pairing, the initiator configured to report and the responder
not to. -/
def startReporting : Coupled :=
  start true ⟨2, 0, 0, 0, 0, 1⟩ ⟨2, 0, 0, 0, 0, 2⟩ .esp32 .default .default false .boot .boot .monitor
    quiet

def turn : List Event := [.receivePass, .send, .sendDone true]

theorem guaranteed_iff_unchanged_turn :
    Always (step .esp32 true) (Guaranteed .none) startReporting
      (turn ++ [Event.ingest 0 true]) :=
  (guaranteed_iff_unchanged .esp32 true true ⟨2, 0, 0, 0, 0, 1⟩ ⟨2, 0, 0, 0, 0, 2⟩ .esp32 .default
    .default false .boot .boot .monitor quiet (turn ++ [Event.ingest 0 true]) (by decide)).mpr
    (by decide)

/-- An initiator told to stop reporting goes on announcing that it does, and the responder that
ingests three such packets stays silent too. -/
theorem left_silent :
    let s := run (step .esp32 true) startReporting
      (turn ++ [.initiatorCall (.setReporting .none)] ++ turn ++ turn ++ turn ++
        [.ingest 1 true, .ingest 2 true, .ingest 3 true])
    ¬ s.Announced ∧ s.Informed ∧ ¬ s.OneReports := by
  refine ⟨by decide +kernel, ⟨_, rfl, List.infix_rfl, ?_⟩, by decide +kernel⟩
  decide +kernel

end Coupled

end EspCsi.EspNow
