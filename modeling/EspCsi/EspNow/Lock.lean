import EspCsi.EspNow.Promotion

/-!
# The initiator lock

When an auto-pairing responder is deaf to everyone but its initiator. The lock is taken where a reply
is prepared for, so a responder that does not transmit, or whose radio refuses the peer, has none.
-/

namespace EspCsi.EspNow

open Wire Transition

namespace Responder

/-! ## What refused frames leave behind -/

structure Drops where
  parseFail : UInt64
  magicDrop : UInt64
  sourceFilterDrop : UInt64

def withDrops (s : Responder) (d : Drops) : Responder :=
  { s with
    rx := { s.rx with
      parseFail := d.parseFail
      magicDrop := d.magicDrop
      sourceFilterDrop := d.sourceFilterDrop } }

def drops (s : Responder) : Drops := ⟨s.rx.parseFail, s.rx.magicDrop, s.rx.sourceFilterDrop⟩

@[simp] theorem withDrops_drops (s : Responder) : s.withDrops s.drops = s := rfl

@[simp] theorem withDrops_withDrops (s : Responder) (d d' : Drops) :
    (s.withDrops d).withDrops d' = s.withDrops d' := rfl

@[simp] theorem accepts_withDrops (s : Responder) (d : Drops) (r : PoolFrame) :
    (s.withDrops d).accepts r = s.accepts r := rfl

theorem connect_withDrops (s : Responder) (d : Drops) (src : Mac) (registers : Bool) :
    (s.withDrops d).connect src registers = (s.connect src registers).withDrops d := by
  cases hconn : s.shared.isConnected with
  | false => cases registers <;> simp [connect, withDrops, hconn]
  | true =>
    by_cases hcheck : s.shared.peerHealthcheckCounter + 1 &&& PEER_HEALTHCHECK_PERIOD - 1 = 0 <;>
      cases registers <;> simp [connect, withDrops, hconn, hcheck]

theorem followReporting_withDrops (s : Responder) (d : Drops) (initiatorReports : Bool) :
    (s.withDrops d).followReporting initiatorReports =
      (s.followReporting initiatorReports).withDrops d := by
  rw [followReporting_eq_promotes, followReporting_eq_promotes]
  rfl

theorem ingest_withDrops (s : Responder) (d : Drops) (r : PoolFrame) (packet : ControlPacket)
    (txEnabled registers : Bool) :
    (s.withDrops d).ingest r packet txEnabled registers =
      (s.ingest r packet txEnabled registers).withDrops d := by
  have hcount : ((s.withDrops d).sound packet r.nth).countSequence packet =
      ((s.sound packet r.nth).countSequence packet).withDrops d := rfl
  simp only [ingest, hcount]
  split_ifs
  · rw [connect_withDrops, followReporting_withDrops]
  · rw [followReporting_withDrops]

theorem ingestControlPacket_refused {s : Responder} {r : PoolFrame} (h : s.accepts r = none)
    (txEnabled registers : Bool) :
    ∃ d, s.ingestControlPacket r txEnabled registers = s.withDrops d := by
  obtain ⟨parseFail, magicDrop, sourceFilterDrop, heq⟩ :=
    ingestControlPacket_of_refused h txEnabled registers
  exact ⟨⟨parseFail, magicDrop, sourceFilterDrop⟩, heq⟩

theorem turn_withDrops (board : Csi.Board) (txEnabled : Bool) (s : Responder) (d : Drops)
    (t : Turn) :
    ∃ d', (s.withDrops d).turn board txEnabled t = (s.turn board txEnabled t).withDrops d' := by
  cases t with
  | ingest r registers =>
    cases haccepts : s.accepts r with
    | none =>
      obtain ⟨d₁, hwith⟩ := ingestControlPacket_refused
        (s := s.withDrops d) (r := r) haccepts txEnabled registers
      obtain ⟨d₂, hwithout⟩ := ingestControlPacket_refused haccepts txEnabled registers
      exact ⟨d₁, by rw [turn, turn, hwith, hwithout, withDrops_withDrops, withDrops_withDrops]⟩
    | some packet =>
      refine ⟨d, ?_⟩
      rw [turn, turn, ingestControlPacket_of_accepts haccepts,
        ingestControlPacket_of_accepts (s := s.withDrops d) haccepts, ingest_withDrops]
  | reply =>
    refine ⟨d, ?_⟩
    by_cases howed : s.shared.isConnected ∧ s.shared.pendingFlag
    · cases txEnabled <;> simp [turn, reply, withDrops, howed]
    · cases txEnabled <;> simp [turn, reply, withDrops, howed]
  | call e => exact ⟨d, rfl⟩

/-! ## What an initiator can change -/

/-- The part of a responder's state that its initiator is meant to decide. -/
structure View where
  soundingInstance : UInt32
  controlPackets : UInt64
  sequenceMiss : UInt64
  pendingFlag : Bool
  lastInitiatorSilent : Bool
  modeStreak : UInt8
  reporting : Reporting
deriving DecidableEq

def view (s : Responder) : View where
  soundingInstance := s.node.session.soundingInstance
  controlPackets := s.rx.controlPackets
  sequenceMiss := s.rx.sequenceMiss
  pendingFlag := s.shared.pendingFlag
  lastInitiatorSilent := s.shared.lastInitiatorSilent
  modeStreak := s.shared.modeStreak
  reporting := s.node.gates.runtimeReporting

@[simp] theorem view_withDrops (s : Responder) (d : Drops) : (s.withDrops d).view = s.view := rfl

theorem ingest_controlPackets (s : Responder) (r : PoolFrame) (packet : ControlPacket)
    (txEnabled registers : Bool) :
    (s.ingest r packet txEnabled registers).rx.controlPackets = s.rx.controlPackets + 1 := by
  have hfollow (s : Responder) :
      (s.followReporting packet.initiatorReports).rx = s.rx := by
    obtain ⟨node, shared, heq⟩ := s.followReporting_eq packet.initiatorReports
    rw [heq]
  have hconnect (s : Responder) :
      (s.connect r.srcAddress registers).rx.controlPackets = s.rx.controlPackets := by
    cases hconn : s.shared.isConnected with
    | false => cases registers <;> simp [connect, hconn]
    | true =>
      by_cases hcheck : s.shared.peerHealthcheckCounter + 1 &&& PEER_HEALTHCHECK_PERIOD - 1 = 0 <;>
        cases registers <;> simp [connect, hconn, hcheck]
  simp only [ingest, hfollow]
  split_ifs
  · rw [hconnect]
    rfl
  · rfl

/-! ## The lock -/

def LockedOn (s : Responder) (a : Mac) : Prop :=
  s.shared.isConnected = true ∧ s.shared.initiatorMac = a

theorem accepts_of_lockedOn {s : Responder} {a : Mac} (h : s.LockedOn a) {r : PoolFrame}
    (hr : r.srcAddress ≠ a) : s.accepts r = none := by
  have hother : s.shared.isConnected ∧ s.shared.initiatorMac ≠ r.srcAddress :=
    ⟨h.1, h.2 ▸ hr.symm⟩
  rw [accepts, if_pos hother, ite_self]

theorem connect_lockedOn {s : Responder} {a : Mac} (h : s.LockedOn a) (src : Mac)
    (registers : Bool) : (s.connect src registers).LockedOn a := by
  have hconn : (!s.shared.isConnected) = false := by rw [h.1]; rfl
  simp only [connect, hconn, Bool.false_eq_true, if_false]
  exact h

theorem followReporting_lockedOn {s : Responder} {a : Mac} (h : s.LockedOn a)
    (initiatorReports : Bool) : (s.followReporting initiatorReports).LockedOn a := by
  rw [followReporting_eq_promotes]
  exact h

theorem LockedOn.turn {s : Responder} {a : Mac} (h : s.LockedOn a) (board : Csi.Board)
    (txEnabled : Bool) (t : Turn) : (s.turn board txEnabled t).LockedOn a := by
  cases t with
  | ingest r registers =>
    cases haccepts : s.accepts r with
    | none =>
      obtain ⟨d, heq⟩ := ingestControlPacket_refused haccepts txEnabled registers
      rw [Responder.turn, heq]
      exact h
    | some packet =>
      rw [Responder.turn, ingestControlPacket_of_accepts haccepts]
      have hcount : ((s.sound packet r.nth).countSequence packet).LockedOn a := h
      apply followReporting_lockedOn
      split_ifs
      · exact connect_lockedOn hcount r.srcAddress registers
      · exact hcount
  | reply =>
    simp only [Responder.turn, reply]
    split_ifs <;> exact h
  | call e => exact h

theorem lockedOn_of_ingest {s : Responder} {r : PoolFrame} {packet : ControlPacket}
    (h : s.accepts r = some packet) : (s.ingest r packet true true).LockedOn r.srcAddress := by
  apply followReporting_lockedOn
  by_cases hconn : s.shared.isConnected = true
  · have hsrc : s.shared.initiatorMac = r.srcAddress := by
      by_contra hne
      have hnone := accepts_of_lockedOn ⟨hconn, rfl⟩ (Ne.symm hne)
      simp [hnone] at h
    exact connect_lockedOn (s := (s.sound packet r.nth).countSequence packet) ⟨hconn, hsrc⟩
      r.srcAddress true
  · have hdisc : ((s.sound packet r.nth).countSequence packet).shared.isConnected = false := by
      simpa [sound, countSequence] using hconn
    simp [connect, hdisc, LockedOn]

end Responder

/-! ## Two runs -/

/-- A responder that hears everyone, and the same one in the run without the frames of others than
its initiator. -/
structure Paired where
  full : Responder
  alone : Responder

namespace Paired

open Responder (Turn)

def fromOther (a : Mac) : Turn → Bool
  | .ingest r _ => r.srcAddress ≠ a
  | _ => false

def step (board : Csi.Board) (txEnabled : Bool) (a : Mac) (s : Paired) (t : Turn) : Paired where
  full := s.full.turn board txEnabled t
  alone := if fromOther a t then s.alone else s.alone.turn board txEnabled t

def start (s : Responder) : Paired := ⟨s, s⟩

theorem run_eq (board : Csi.Board) (txEnabled : Bool) (a : Mac) (s : Paired) (ts : List Turn) :
    run (step board txEnabled a) s ts =
      ⟨run (Responder.turn board txEnabled) s.full ts,
        run (Responder.turn board txEnabled) s.alone (ts.filter fun t => !fromOther a t)⟩ := by
  induction ts generalizing s with
  | nil => rfl
  | cons t ts ih =>
    rw [run_cons, ih]
    by_cases hother : fromOther a t = true <;> simp [step, hother]

/-- The others' frames change nothing that the initiator is meant to decide. -/
def Deaf (s : Paired) : Prop := s.full.view = s.alone.view

instance (s : Paired) : Decidable s.Deaf := inferInstanceAs (Decidable (_ = _))

/-- The turn does not have the responder ingest a control packet of another source. -/
def Refuses (a : Mac) (s : Paired) : Turn → Prop
  | .ingest r _ => r.srcAddress ≠ a → s.full.accepts r = none
  | _ => True

/-- The two runs differ in their counts of refused frames only. -/
def Apart (s : Paired) : Prop := ∃ d, s.full = s.alone.withDrops d

theorem Apart.deaf {s : Paired} (h : s.Apart) : s.Deaf := by
  obtain ⟨d, hfull⟩ := h
  rw [Deaf, hfull, Responder.view_withDrops]

theorem Apart.step {board : Csi.Board} {txEnabled : Bool} {a : Mac} {s : Paired} (h : s.Apart)
    {t : Turn} (ht : s.Refuses a t) : (s.step board txEnabled a t).Apart := by
  obtain ⟨d, hfull⟩ := h
  by_cases hother : fromOther a t = true
  · cases t with
    | ingest r registers =>
      have hnone := ht (by simpa [fromOther] using hother)
      obtain ⟨d', heq⟩ := Responder.ingestControlPacket_refused hnone txEnabled registers
      refine ⟨d', ?_⟩
      simp only [Paired.step, hother, if_true, Responder.turn, heq]
      rw [hfull, Responder.withDrops_withDrops]
    | reply | call => simp [fromOther] at hother
  · obtain ⟨d', heq⟩ := s.alone.turn_withDrops board txEnabled d t
    refine ⟨d', ?_⟩
    simp only [Paired.step, hother, Bool.false_eq_true, if_false, hfull, heq]

theorem not_deaf_step {board : Csi.Board} {txEnabled : Bool} {a : Mac} {s : Paired} (h : s.Deaf)
    {t : Turn} (ht : ¬ s.Refuses a t) : ¬ (s.step board txEnabled a t).Deaf := by
  cases t with
  | ingest r registers =>
    simp only [Refuses, Classical.not_imp] at ht
    obtain ⟨hother, haccepts⟩ := ht
    obtain ⟨packet, hpacket⟩ := Option.ne_none_iff_exists'.mp haccepts
    have hsame : s.full.rx.controlPackets = s.alone.rx.controlPackets :=
      congrArg Responder.View.controlPackets h
    intro hdeaf
    have hcount : (s.step board txEnabled a (.ingest r registers)).full.rx.controlPackets =
        (s.step board txEnabled a (.ingest r registers)).alone.rx.controlPackets :=
      congrArg Responder.View.controlPackets hdeaf
    simp [Paired.step, Responder.turn, fromOther, hother,
      Responder.ingestControlPacket_of_accepts hpacket, Responder.ingest_controlPackets,
      hsame] at hcount
  | reply | call => exact absurd trivial ht

/-- In every run of an auto-pairing responder, the others' frames change nothing that its initiator
is meant to decide exactly when it ingests none of their control packets. -/
theorem deaf_iff_refuses (board : Csi.Board) (txEnabled : Bool) (a mac : Mac) (chip : Chip)
    (config : EspNowConfig) (rawListen : Bool) (node : Csi.Node) (ts : List Turn) :
    let s := start (.start mac chip { config with peerMac := none } rawListen node)
    Always (step board txEnabled a) Deaf s ts ↔ Along (step board txEnabled a) (Refuses a) s ts := by
  intro s
  have hapart : s.Apart := ⟨s.alone.drops, rfl⟩
  apply always_iff_along (I := Apart) (H := fun _ _ => True) (fun _ _ _ => trivial) hapart
    hapart.deaf
  · intro s t hs hdeaf _
    refine ⟨fun h => by_contra fun ht => not_deaf_step hdeaf ht h, fun ht => ?_⟩
    exact (hs.step ht).deaf
  · intro s t hs _ _ ht
    exact hs.step ht

def controlFrame (src : Mac) (sequenceNumber : UInt32) : PoolFrame where
  srcAddress := src
  data := tagged controlPacketCodec ⟨true, sequenceNumber⟩ INITIATOR_MAGIC_NUMBER true
  nth := sequenceNumber.toNat

/-- A responder that only receives ingests the frames of a second initiator, and so does one whose
radio did not take the first one's address. -/
theorem not_deaf :
    let s := start (.start .zero .esp32 .default false .boot)
    let a : Mac := ⟨2, 0, 0, 0, 0, 1⟩
    let b : Mac := ⟨2, 0, 0, 0, 0, 2⟩
    ¬ Always (step .esp32 false a) Deaf s
        [.ingest (controlFrame a 0) true, .ingest (controlFrame b 7) true] ∧
      ¬ Always (step .esp32 true a) Deaf s
        [.ingest (controlFrame a 0) false, .ingest (controlFrame b 7) true] :=
  ⟨fun h => absurd h.last (by decide +kernel), fun h => absurd h.last (by decide +kernel)⟩

theorem deaf_of_lockedOn (board : Csi.Board) (txEnabled : Bool) {a : Mac} {s : Responder}
    (h : s.LockedOn a) (ts : List Turn) : Always (step board txEnabled a) Deaf (start s) ts := by
  have hboth : Always (step board txEnabled a) (fun p => p.Apart ∧ p.full.LockedOn a) (start s) ts := by
    refine always_of_step ⟨⟨s.drops, rfl⟩, h⟩ ?_
    rintro p t ⟨hapart, hlocked⟩
    refine ⟨hapart.step ?_, hlocked.turn board txEnabled t⟩
    cases t with
    | ingest r registers => exact fun hother => Responder.accepts_of_lockedOn hlocked hother
    | reply | call => trivial
  intro pre hpre
  exact (hboth pre hpre).1.deaf

end Paired

end EspCsi.EspNow
