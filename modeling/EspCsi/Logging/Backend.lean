import EspCsi.Lib.Drained
import EspCsi.Logging.CsiTool
import EspCsi.Logging.ArrayList

/-!
# The logger task

The async backend: packets and lines of text wait in a channel each, and one task writes them. It
prefers packets, and after each one it empties the channel of text. The mode is read when something
is written and not when it is logged.
-/

namespace EspCsi.Logging

open Wire Csi Transition Drained

def TEXT_LOG_CHANNEL_CAPACITY : ℕ := 64

/-- One write of the task, with what was in force: of a packet in each mode, of a message in a frame
slot of its own or as it is. -/
inductive Output where
  | serialized (p : CsiPacket)
  | arrayList (p : CsiPacket)
  | text (p : CsiPacket)
  | csiTool (header : Bool) (role : Role) (cap : UInt16) (p : CsiPacket)
  | message (framed : Bool) (line : Text)

def Output.item : Output → CsiPacket ⊕ Text
  | serialized p | arrayList p | text p | csiTool _ _ _ p => .inl p
  | message _ line => .inr line

/-- The state behind the async backend. `draining` is the task in its loop over the text channel. -/
structure Console where
  mode : LogMode
  role : Role
  emitCap : UInt16
  headerPrinted : Bool
  csiChannel : List CsiPacket
  logChannel : List Text
  draining : Bool
  logDroppedPackets : UInt32
  out : List Output

inductive ConsoleEvent where
  | logCsi (packet : CsiPacket)
  | log (text : Text)
  | setLogMode (mode : LogMode)
  | setRole (role : Role)
  | setCsiToolEmitCap (cap : UInt16)
  | loggerBackend

namespace Console

def boot : Console where
  mode := .text
  role := .sta
  emitCap := 0
  headerPrinted := false
  csiChannel := []
  logChannel := []
  draining := false
  logDroppedPackets := 0
  out := []

def recordLogDrop (c : Console) : Console :=
  { c with logDroppedPackets := c.logDroppedPackets + 1 }

def put (c : Console) (o : Output) : Console := { c with out := c.out ++ [o] }

/-- `log_csi` on the async backend. -/
def logCsi (c : Console) (packet : CsiPacket) : Console :=
  if c.csiChannel.length < CSI_LOG_CHANNEL_CAPACITY then
    { c with csiChannel := c.csiChannel ++ [packet] }
  else c.recordLogDrop

/-- `EspLogger::log`: a line that is too long, or that finds the channel full, is dropped uncounted. -/
def log (c : Console) (text : Text) : Console :=
  match queuedMessage text with
  | some message =>
    if c.logChannel.length < TEXT_LOG_CHANNEL_CAPACITY then
      { c with logChannel := c.logChannel ++ [message] }
    else c
  | none => c

def setLogMode (c : Console) (mode : LogMode) : Console := { c with mode, headerPrinted := false }

/-- What `format_array_list_into` leaves in the scratch: nothing when it refuses the line. -/
def arrayListLine (chip : Chip) (packet : CsiPacket) : List Char :=
  (formatArrayListInto (TextRow.new chip packet) Async.ASYNC_LOG_SCRATCH).getD []

def refusesArrayList (chip : Chip) (packet : CsiPacket) : Bool :=
  (arrayListLine chip packet).isEmpty

/-- `write_csi_tool_packet_async`: the header goes out in front of the first line. -/
def writeCsiToolPacket (c : Console) (packet : CsiPacket) : Console :=
  { c with headerPrinted := true }.put (.csiTool (!c.headerPrinted) c.role c.emitCap packet)

def writeTextArrayPacket (chip : Chip) (c : Console) (packet : CsiPacket) : Console :=
  if refusesArrayList chip packet then (c.put (.arrayList packet)).recordLogDrop
  else c.put (.arrayList packet)

def writePacket (chip : Chip) (c : Console) (packet : CsiPacket) : Console :=
  match c.mode with
  | .serialized => c.put (.serialized packet)
  | .arrayList => c.writeTextArrayPacket chip packet
  | .text => c.put (.text packet)
  | .espCsiTool => c.writeCsiToolPacket packet

/-- `write_text_framed`: only the serialized stream has frames to keep the text out of. -/
def writeTextFramed (c : Console) (message : Text) : Console :=
  c.put (.message (c.mode == .serialized) message)

/-- `logger_backend` up to the end of its next write. -/
def loggerBackend (chip : Chip) (c : Console) : Console :=
  if c.draining then
    match c.logChannel with
    | message :: rest => { c with logChannel := rest }.writeTextFramed message
    | [] => { c with draining := false }
  else
    match c.csiChannel, c.logChannel with
    | packet :: rest, _ => { c with csiChannel := rest, draining := true }.writePacket chip packet
    | [], message :: rest => { c with logChannel := rest }.writeTextFramed message
    | [], [] => c

def step (chip : Chip) (c : Console) : ConsoleEvent → Console
  | .logCsi packet => c.logCsi packet
  | .log text => c.log text
  | .setLogMode mode => c.setLogMode mode
  | .setRole role => { c with role }
  | .setCsiToolEmitCap cap => { c with emitCap := cap }
  | .loggerBackend => c.loggerBackend chip

/-! ## The two channels and their task -/

def server (c : Console) : Server CsiPacket Text :=
  ⟨c.csiChannel, c.logChannel, c.draining, c.out.map Output.item⟩

end Console

def ConsoleEvent.serverEvent : ConsoleEvent → Option (Drained.Event CsiPacket Text)
  | .logCsi packet => some (.offer packet)
  | .log text => (queuedMessage text).map .post
  | .loggerBackend => some .turn
  | _ => none

namespace Console

variable (chip : Chip) (c : Console) (es : List ConsoleEvent)

theorem server_writePacket (packet : CsiPacket) :
    (c.writePacket chip packet).server =
      { c.server with served := c.server.served ++ [.inl packet] } := by
  unfold writePacket
  cases c.mode with
  | arrayList =>
    simp only [writeTextArrayPacket]
    split_ifs <;> simp [server, put, recordLogDrop, Output.item]
  | _ => simp [server, put, writeCsiToolPacket, Output.item]

theorem server_writeTextFramed (message : Text) :
    (c.writeTextFramed message).server =
      { c.server with served := c.server.served ++ [.inr message] } := by
  simp [server, put, writeTextFramed, Output.item]

theorem server_loggerBackend : (c.loggerBackend chip).server = c.server.turn := by
  obtain ⟨mode, role, emitCap, headerPrinted, csiChannel, logChannel, draining, dropped, out⟩ := c
  cases draining with
  | true =>
    cases logChannel with
    | nil => rfl
    | cons message rest => exact server_writeTextFramed _ message
  | false =>
    cases csiChannel with
    | cons packet rest => exact server_writePacket chip _ packet
    | nil =>
      cases logChannel with
      | nil => rfl
      | cons message rest => exact server_writeTextFramed _ message

/-- The console is the server of two queues. -/
theorem server_step (e : ConsoleEvent) :
    (c.step chip e).server = e.serverEvent.elim c.server
      (c.server.step CSI_LOG_CHANNEL_CAPACITY TEXT_LOG_CHANNEL_CAPACITY) := by
  cases e with
  | logCsi packet =>
    simp only [step, logCsi, ConsoleEvent.serverEvent, Option.elim_some, Server.step]
    split_ifs with hroom hroom' hroom'
    · rfl
    · exact absurd hroom hroom'
    · exact absurd hroom' hroom
    · rfl
  | log text =>
    simp only [step, log, ConsoleEvent.serverEvent]
    cases queuedMessage text with
    | none => rfl
    | some message =>
      simp only [Option.map_some, Option.elim_some, Server.step]
      split_ifs with hroom hroom' hroom'
      · rfl
      · exact absurd hroom hroom'
      · exact absurd hroom' hroom
      · rfl
  | loggerBackend => exact c.server_loggerBackend chip
  | _ => rfl

/-! ## What becomes of what is logged -/

def refused (c : Console) : ConsoleEvent → List CsiPacket
  | .logCsi packet => if c.csiChannel.length < CSI_LOG_CHANNEL_CAPACITY then [] else [packet]
  | _ => []

def accepted (c : Console) : ConsoleEvent → List CsiPacket
  | .logCsi packet => if c.csiChannel.length < CSI_LOG_CHANNEL_CAPACITY then [packet] else []
  | _ => []

def queued (c : Console) : ConsoleEvent → List Text
  | .log text =>
    if c.logChannel.length < TEXT_LOG_CHANNEL_CAPACITY then (queuedMessage text).toList else []
  | _ => []

end Console

/-- A line taken out of the channel and not written. -/
def Output.isRefused (chip : Chip) : Output → Bool
  | arrayList p => Console.refusesArrayList chip p
  | _ => false

def Output.packets (w : List Output) : List CsiPacket := lefts (w.map Output.item)

def Output.messages (w : List Output) : List Text := rights (w.map Output.item)

namespace Console

variable (chip : Chip) (c : Console) (es : List ConsoleEvent)

theorem accepted_eq (e : ConsoleEvent) :
    c.accepted e =
      e.serverEvent.elim [] (c.server.takenFirst CSI_LOG_CHANNEL_CAPACITY) := by
  cases e with
  | log text =>
    cases h : queuedMessage text <;>
      simp [accepted, ConsoleEvent.serverEvent, h, Server.takenFirst]
  | _ => rfl

theorem queued_eq (e : ConsoleEvent) :
    c.queued e =
      e.serverEvent.elim [] (c.server.takenSecond TEXT_LOG_CHANNEL_CAPACITY) := by
  cases e with
  | log text =>
    cases h : queuedMessage text <;>
      simp [queued, ConsoleEvent.serverEvent, h, Server.takenSecond, server]
  | _ => rfl

/-- What was written and charged between two states. -/
def Adds (c : Console) (refused : List CsiPacket) (w : List Output) (c' : Console) : Prop :=
  c'.out = c.out ++ w ∧ c'.logDroppedPackets =
    c.logDroppedPackets + UInt32.ofNat (refused.length + w.countP (Output.isRefused chip))

variable {chip c}

theorem adds_nil {c' : Console} (hout : c'.out = c.out)
    (hdropped : c'.logDroppedPackets = c.logDroppedPackets) : c.Adds chip [] [] c' :=
  ⟨by rw [hout, List.append_nil], by rw [hdropped]; exact (UInt32.add_zero _).symm⟩

theorem Adds.trans {c' c'' : Console} {refused refused' : List CsiPacket} {w w' : List Output}
    (h : c.Adds chip refused w c') (h' : c'.Adds chip refused' w' c'') :
    c.Adds chip (refused ++ refused') (w ++ w') c'' := by
  refine ⟨by rw [h'.1, h.1, List.append_assoc], ?_⟩
  rw [h'.2, h.2, UInt32.add_assoc, ← UInt32.ofNat_add, List.length_append, List.countP_append]
  congr 2
  omega

theorem adds_put {o : Output} (h : o.isRefused chip = false) : c.Adds chip [] [o] (c.put o) := by
  refine ⟨rfl, ?_⟩
  rw [List.countP_singleton, h]
  exact (UInt32.add_zero _).symm

theorem exists_adds_writePacket (packet : CsiPacket) :
    ∃ o, c.Adds chip [] [o] (c.writePacket chip packet) := by
  unfold writePacket
  cases c.mode with
  | serialized => exact ⟨_, adds_put rfl⟩
  | text => exact ⟨_, adds_put rfl⟩
  | espCsiTool => exact ⟨_, adds_put rfl⟩
  | arrayList =>
    refine ⟨.arrayList packet, ?_⟩
    simp only [writeTextArrayPacket]
    split_ifs with hrefused
    · refine ⟨rfl, ?_⟩
      rw [List.countP_singleton, Output.isRefused, if_pos hrefused]
      rfl
    · exact adds_put (Bool.not_eq_true _ ▸ hrefused)

theorem exists_adds_loggerBackend : ∃ w, c.Adds chip [] w (c.loggerBackend chip) := by
  obtain ⟨mode, role, emitCap, headerPrinted, csiChannel, logChannel, draining, dropped, out⟩ := c
  cases draining with
  | true =>
    cases logChannel with
    | nil => exact ⟨[], adds_nil rfl rfl⟩
    | cons message rest => exact ⟨[_], adds_put rfl⟩
  | false =>
    cases csiChannel with
    | cons packet rest =>
      obtain ⟨o, ho⟩ := exists_adds_writePacket (c := ⟨mode, role, emitCap, headerPrinted, rest,
        logChannel, true, dropped, out⟩) packet
      exact ⟨[o], ho⟩
    | nil =>
      cases logChannel with
      | nil => exact ⟨[], adds_nil rfl rfl⟩
      | cons message rest => exact ⟨[_], adds_put rfl⟩

theorem exists_adds_step (chip : Chip) (c : Console) (e : ConsoleEvent) :
    ∃ w, c.Adds chip (c.refused e) w (c.step chip e) := by
  cases e with
  | logCsi packet =>
    refine ⟨[], ?_⟩
    simp only [step, logCsi, refused]
    split_ifs
    · exact adds_nil rfl rfl
    · exact ⟨(List.append_nil _).symm, rfl⟩
  | log line =>
    refine ⟨[], ?_⟩
    simp only [step, log]
    cases queuedMessage line with
    | none => exact adds_nil rfl rfl
    | some message =>
      dsimp only
      split_ifs <;> exact adds_nil rfl rfl
  | loggerBackend => exact exists_adds_loggerBackend
  | _ => exact ⟨[], adds_nil rfl rfl⟩

variable (chip c)

theorem exists_adds_run :
    ∃ w, c.Adds chip (gather (step chip) refused c es) w (run (step chip) c es) := by
  induction es generalizing c with
  | nil => exact ⟨[], adds_nil rfl rfl⟩
  | cons e es ih =>
    obtain ⟨w, hstep⟩ := exists_adds_step chip c e
    obtain ⟨w', hrun⟩ := ih (c.step chip e)
    exact ⟨w ++ w', hstep.trans hrun⟩

theorem server_run :
    (run (step chip) c es).server =
      run (Server.step CSI_LOG_CHANNEL_CAPACITY TEXT_LOG_CHANNEL_CAPACITY) c.server
        (es.filterMap ConsoleEvent.serverEvent) :=
  run_filterMap (f := server) (fun c e => c.server_step chip e) c es

theorem gather_accepted :
    gather (step chip) accepted c es =
      gather (Server.step CSI_LOG_CHANNEL_CAPACITY TEXT_LOG_CHANNEL_CAPACITY)
        (Server.takenFirst CSI_LOG_CHANNEL_CAPACITY) c.server
        (es.filterMap ConsoleEvent.serverEvent) := by
  rw [← gather_filterMap (f := server) fun c e => c.server_step chip e]
  congr 1
  funext c e
  exact c.accepted_eq e

theorem gather_queued :
    gather (step chip) queued c es =
      gather (Server.step CSI_LOG_CHANNEL_CAPACITY TEXT_LOG_CHANNEL_CAPACITY)
        (Server.takenSecond TEXT_LOG_CHANNEL_CAPACITY) c.server
        (es.filterMap ConsoleEvent.serverEvent) := by
  rw [← gather_filterMap (f := server) fun c e => c.server_step chip e]
  congr 1
  funext c e
  exact c.queued_eq e

/-- What the task has written since state `c` and what waits are what waited in `c` and what was
accepted since, channel by channel and in order. Text is overtaken by one packet at most, and the
counter of drops is exact. -/
theorem loggerBackend_run :
    ∃ c' w, run (step chip) c es = c' ∧ c'.out = c.out ++ w ∧
      Output.packets w ++ c'.csiChannel = c.csiChannel ++ gather (step chip) accepted c es ∧
      Output.messages w ++ c'.logChannel = c.logChannel ++ gather (step chip) queued c es ∧
      ((Output.packets w).length ≤ 1 ∨ c.logChannel <+: Output.messages w) ∧
      c'.logDroppedPackets = c.logDroppedPackets + UInt32.ofNat
        ((gather (step chip) refused c es).length + w.countP (Output.isRefused chip)) := by
  obtain ⟨w, hout, hdropped⟩ := c.exists_adds_run chip es
  have hserver := c.server_run chip es
  have hserved : (run (step chip) c es).server.served = c.server.served ++ w.map Output.item := by
    rw [server, hout, List.map_append]
    rfl
  refine ⟨_, w, rfl, hout, ?_, ?_, ?_, hdropped⟩
  · have hfirst := c.server.run_first CSI_LOG_CHANNEL_CAPACITY TEXT_LOG_CHANNEL_CAPACITY
      (es.filterMap ConsoleEvent.serverEvent)
    rw [← hserver, hserved, lefts_append, ← gather_accepted, List.append_assoc,
      List.append_assoc] at hfirst
    exact List.append_cancel_left hfirst
  · have hsecond := c.server.run_second CSI_LOG_CHANNEL_CAPACITY TEXT_LOG_CHANNEL_CAPACITY
      (es.filterMap ConsoleEvent.serverEvent)
    rw [← hserver, hserved, rights_append, ← gather_queued, List.append_assoc,
      List.append_assoc] at hsecond
    exact List.append_cancel_left hsecond
  · obtain ⟨w', hserved', hover⟩ := c.server.second_waits_for_one CSI_LOG_CHANNEL_CAPACITY
      TEXT_LOG_CHANNEL_CAPACITY (es.filterMap ConsoleEvent.serverEvent)
    rw [← hserver, hserved] at hserved'
    obtain rfl := List.append_cancel_left hserved'
    exact hover

end Console

end EspCsi.Logging
