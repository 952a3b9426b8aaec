import EspCsi.Setup.Node

/-!
# The protocol of a run

`set_mode`, `set_protocol` and the part of `run_inner` that settles a run's protocol set. The field
that holds the user's choice is also where a run leaves the protocol that its own mode implies.
-/

namespace EspCsi.Setup

open Wire Csi Transition

inductive Protocol where
  | b
  | g
  | n
  | lr
  | a
  | ac
  | ax
deriving DecidableEq, Repr

/-- Expand a requested 2.4 GHz protocol into the cumulative set the radio needs. -/
def protocolLadder24 : Protocol → List Protocol
  | .b => [.b]
  | .g => [.b, .g]
  | .n => [.b, .g, .n]
  -- not part of the 2.4 GHz ladder
  | .lr => [.lr]
  | .a => [.a]
  | .ac => [.ac]
  | .ax => [.b, .g, .n, .ax]

/-- The hooks of a bring-up back-end that see the protocol, over the driver's type of sets. -/
structure RadioProfile (Protocols : Type) where
  wantsBringup : Mode → Option Protocol → Bool
  tuneProtocols : Mode → Protocol → Protocols → Protocols

def Mode.isHe20 : Mode → Bool
  | .espNow c => c.he20
  | .espNowSimplex c => c.inner.he20
  | _ => false

/-- The driver's protocol set, for each band. -/
structure Protocols where
  band24 : List Protocol
  band5 : List Protocol
deriving DecidableEq, Repr

def he20Protocols (chip : Chip) (default : Protocols) : Protocols where
  band24 := [.n, .ax]
  band5 := if chip = .esp32C5 then [.a, .n, .ax] else default.band5

def StandardProfile (chip : Chip) (default : Protocols) : RadioProfile Protocols where
  wantsBringup mode protocol :=
    isHe chip && protocol == some .ax &&
      match mode with
      | .accessPoint c => c.secondaryChannel.isNone
      | .station _ | .sniffer _ => true
      | .emitter _ | .espNow _ | .espNowSimplex _ => false
  tuneProtocols mode protocol base :=
    match mode with
    | .station _ | .accessPoint _ =>
      if isHe chip && protocol == .ax then he20Protocols chip default
      else if chip = .esp32C5 then { base with band5 := [.a, .n] }
      else base
    | _ => base

/-- What a run brings the radio up with: the protocol it settles on, whether the profile takes the
bring-up over, and the set given to the driver. An emitter pins its own set. -/
structure Bringup (Protocols : Type) where
  protocol : Option Protocol
  bringup : Bool
  protocols : Option Protocols

/-- The driver's default set is `base` of its 2.4 GHz half. -/
def Bringup.of {Protocols : Type} (profile : RadioProfile Protocols)
    (base : List Protocol → Protocols) (mode : Mode) (protocol : Option Protocol) :
    Bringup Protocols where
  protocol
  bringup := profile.wantsBringup mode protocol
  protocols :=
    if mode.isEmitter then none
    else protocol.map fun p => profile.tuneProtocols mode p (base (protocolLadder24 p))

theorem Bringup.of_inj {Protocols : Type} {profile : RadioProfile Protocols}
    {base : List Protocol → Protocols} {mode : Mode} {p q : Option Protocol} :
    Bringup.of profile base mode p = .of profile base mode q ↔ p = q :=
  ⟨fun h => congrArg Bringup.protocol h, fun h => congrArg _ h⟩

/-- The fields of a node that settle the protocol. -/
structure ProtocolNode where
  mode : Mode
  protocol : Option Protocol

namespace ProtocolNode

def new (mode : Mode) : ProtocolNode := ⟨mode, none⟩

inductive Op where
  | setMode (mode : Mode)
  | setProtocol (protocol : Protocol)
  | run

def settle (chip : Chip) (n : ProtocolNode) : Option Protocol :=
  if isHe chip && n.protocol.isNone && n.mode.isHe20 then some .ax else n.protocol

def step (chip : Chip) (n : ProtocolNode) : Op → ProtocolNode
  | .setMode mode => { n with mode }
  | .setProtocol protocol => { n with protocol := some protocol }
  | .run => { n with protocol := n.settle chip }

def bringup {Protocols : Type} (chip : Chip) (profile : RadioProfile Protocols)
    (base : List Protocol → Protocols) (n : ProtocolNode) : Bringup Protocols :=
  .of profile base n.mode (n.settle chip)

/-! ## The user's choice -/

/-- The protocol last given to `set_protocol`. -/
def asked (ops : List Op) : Option Protocol :=
  ops.foldl (fun last op => match op with
    | .setProtocol protocol => some protocol
    | _ => last) none

/-- The protocol a run is to use: the one asked for, or else the one its own mode implies. -/
def intended (chip : Chip) (choice : Option Protocol) (mode : Mode) : Option Protocol :=
  choice.or (if isHe chip && mode.isHe20 then some .ax else none)

/-- Some run so far was in an ESP-NOW mode at HE20. -/
def RanHe20 (chip : Chip) (mode : Mode) (ops : List Op) : Prop :=
  ∃ pre, pre ++ [.run] <+: ops ∧ (run (step chip) (new mode) pre).mode.isHe20 = true

/-- A protocol was implied by an earlier run, the user never asked for one, and the mode now implies
none. -/
def Leaked (chip : Chip) (mode : Mode) (ops : List Op) : Prop :=
  isHe chip = true ∧ asked ops = none ∧ RanHe20 chip mode ops ∧
    (run (step chip) (new mode) ops).mode.isHe20 = false

theorem ranHe20_concat {chip : Chip} {mode : Mode} {ops : List Op} {op : Op} :
    RanHe20 chip mode (ops ++ [op]) ↔
      RanHe20 chip mode ops ∨
        op = .run ∧ (run (step chip) (new mode) ops).mode.isHe20 = true := by
  constructor
  · rintro ⟨pre, hpre, hhe⟩
    rcases List.prefix_concat_iff.mp hpre with heq | hold
    · obtain ⟨rfl, hop⟩ := List.append_inj' heq rfl
      exact .inr ⟨(List.singleton_inj.mp hop).symm, hhe⟩
    · exact .inl ⟨pre, hold, hhe⟩
  · rintro (⟨pre, hpre, hhe⟩ | ⟨rfl, hhe⟩)
    · exact ⟨pre, hpre.trans (List.prefix_append ops [op]), hhe⟩
    · exact ⟨ops, List.prefix_rfl, hhe⟩

theorem asked_concat (ops : List Op) (op : Op) : asked (ops ++ [op]) =
    match op with
    | .setProtocol protocol => some protocol
    | _ => asked ops := by
  rw [asked, List.foldl_append]
  rfl

theorem protocol_run_iff (chip : Chip) (mode : Mode) (ops : List Op) (p : Protocol) :
    (run (step chip) (new mode) ops).protocol = some p ↔
      asked ops = some p ∨
        asked ops = none ∧ isHe chip = true ∧ RanHe20 chip mode ops ∧ p = .ax := by
  induction ops using List.reverseRecOn generalizing p with
  | nil =>
    have hnone : ¬ RanHe20 chip mode [] := by
      rintro ⟨pre, hpre, -⟩
      simp at hpre
    simp [new, asked, hnone]
  | append_singleton ops op ih =>
    rw [run_concat, asked_concat, ranHe20_concat]
    cases op with
    | setMode mode' => simpa [step] using ih p
    | setProtocol protocol => simp [step]
    | run =>
      simp only [step, settle, true_and]
      generalize run (step chip) (new mode) ops = n at ih ⊢
      cases hheld : n.protocol with
      -- a run with a protocol in place settles on it and stores nothing
      | some q =>
        rcases (ih q).mp hheld with hasked | ⟨hasked, hhe, hran, rfl⟩
        · simp [hasked]
        · simp [hasked, hhe, hran]
          exact eq_comm
      | none =>
        have hasked : asked ops = none := by
          cases hasked : asked ops with
          | none => rfl
          | some q =>
            have hq := (ih q).mpr (.inl hasked)
            rw [hheld] at hq
            cases hq
        have hran : isHe chip = true → ¬ RanHe20 chip mode ops := by
          intro hhe hran
          have hax := (ih .ax).mpr (.inr ⟨hasked, hhe, hran, rfl⟩)
          rw [hheld] at hax
          cases hax
        cases hhe : isHe chip with
        | false => simp [hasked]
        | true =>
          cases n.mode.isHe20 <;> simp [hasked, hran hhe, eq_comm]

/-- What a run settles on is what it is to use, unless an earlier run's protocol leaked: then it is
AX. -/
theorem settle_run (chip : Chip) (mode : Mode) (ops : List Op) :
    (Leaked chip mode ops → (run (step chip) (new mode) ops).settle chip = some .ax) ∧
      (¬ Leaked chip mode ops → (run (step chip) (new mode) ops).settle chip =
        intended chip (asked ops) (run (step chip) (new mode) ops).mode) := by
  have hheld := protocol_run_iff chip mode ops
  unfold Leaked
  generalize run (step chip) (new mode) ops = n at hheld ⊢
  constructor
  · rintro ⟨hhe, hasked, hran, hmode⟩
    have hax : n.protocol = some .ax := (hheld .ax).mpr (.inr ⟨hasked, hhe, hran, rfl⟩)
    simp [settle, hax]
  · intro hkept
    cases hasked : asked ops with
    | some p =>
      have hp : n.protocol = some p := (hheld p).mpr (.inl hasked)
      simp [settle, intended, hp]
    | none =>
      cases hprotocol : n.protocol with
      | none => simp [settle, intended, hprotocol]
      | some p =>
        rcases (hheld p).mp hprotocol with hp | ⟨-, hhe, hran, rfl⟩
        · rw [hasked] at hp
          cases hp
        · have hmode : n.mode.isHe20 = true := by
            by_contra hmode
            exact hkept ⟨hhe, hasked, hran, by simpa using hmode⟩
          simp [settle, intended, hprotocol, hhe, hmode]

theorem Leaked.intended {chip : Chip} {mode : Mode} {ops : List Op} (h : Leaked chip mode ops) :
    ProtocolNode.intended chip (asked ops) (run (step chip) (new mode) ops).mode = none := by
  obtain ⟨hhe, hasked, hran, hmode⟩ := h
  simp [ProtocolNode.intended, hasked, hmode]

/-- After any calls, a run brings the radio up with the protocol it is to use exactly when none
leaked into it, and two nodes of one mode whose user made the same choice bring it up alike exactly
when a protocol leaked into both or into neither. -/
theorem bringup_iff_not_leaked {Protocols : Type} (chip : Chip)
    (profile : RadioProfile Protocols) (base : List Protocol → Protocols) :
    (∀ mode ops, let n := run (step chip) (new mode) ops
      n.bringup chip profile base = .of profile base n.mode (intended chip (asked ops) n.mode) ↔
        ¬ Leaked chip mode ops) ∧
    ∀ mode ops mode' ops', let n := run (step chip) (new mode) ops
      let n' := run (step chip) (new mode') ops'
      asked ops = asked ops' → n.mode = n'.mode →
        (n.bringup chip profile base = n'.bringup chip profile base ↔
          (Leaked chip mode ops ↔ Leaked chip mode' ops')) := by
  constructor
  · intro mode ops n
    rw [bringup, Bringup.of_inj]
    constructor
    · intro heq hleaked
      rw [(settle_run chip mode ops).1 hleaked, hleaked.intended] at heq
      cases heq
    · exact (settle_run chip mode ops).2
  · intro mode ops mode' ops' n n' hasked hmode
    rw [bringup, bringup, ← hmode, Bringup.of_inj]
    have hsame : intended chip (asked ops) n.mode = intended chip (asked ops') n'.mode := by
      rw [hasked, hmode]
    -- two runs that are to use the same differ exactly when one of them leaked
    by_cases hl : Leaked chip mode ops
    · have hax : n.settle chip = some .ax := (settle_run chip mode ops).1 hl
      have hnone : intended chip (asked ops') n'.mode = none := hsame ▸ hl.intended
      by_cases hl' : Leaked chip mode' ops'
      · have hax' : n'.settle chip = some .ax := (settle_run chip mode' ops').1 hl'
        exact iff_of_true (hax.trans hax'.symm) (iff_of_true hl hl')
      · have hnone' : n'.settle chip = none := ((settle_run chip mode' ops').2 hl').trans hnone
        rw [hax, hnone']
        simp [hl, hl']
    · have hown : n.settle chip = intended chip (asked ops) n.mode := (settle_run chip mode ops).2 hl
      by_cases hl' : Leaked chip mode' ops'
      · have hax' : n'.settle chip = some .ax := (settle_run chip mode' ops').1 hl'
        rw [hown, hsame, hl'.intended, hax']
        simp [hl, hl']
      · have hown' : n'.settle chip = intended chip (asked ops') n'.mode :=
          (settle_run chip mode' ops').2 hl'
        exact iff_of_true (hown.trans (hsame.trans hown'.symm)) (iff_of_false hl hl')

/-- A protocol that was asked for holds across runs and modes. -/
theorem bringup_iff_not_leaked_asked :
    let profile := StandardProfile .esp32C6 ⟨[.b, .g, .n], []⟩
    let base := fun band24 => Protocols.mk band24 []
    (run (step .esp32C6) (new (.sniffer ⟨1⟩)) [.setProtocol .n, .run,
        .setMode (.station ⟨none, none⟩)]).bringup .esp32C6 profile base =
      (run (step .esp32C6) (new (.station ⟨none, none⟩)) [.setProtocol .n]).bringup .esp32C6
        profile base :=
  ((bringup_iff_not_leaked .esp32C6 (StandardProfile .esp32C6 ⟨[.b, .g, .n], []⟩)
    fun band24 => ⟨band24, []⟩).2 (.sniffer ⟨1⟩)
      [.setProtocol .n, .run, .setMode (.station ⟨none, none⟩)] (.station ⟨none, none⟩)
      [.setProtocol .n] rfl rfl).mpr
    (iff_of_false (fun h => Option.some_ne_none _ h.2.1) fun h => Option.some_ne_none _ h.2.1)

def he20Mode : Mode := .espNow ⟨.default, 1, .initiator, true⟩

/-- A station runs with the protocol that an earlier ESP-NOW run implied, and is brought up for
HE20, where a node that has been a station throughout runs with none. -/
theorem protocol_leaks :
    let profile := StandardProfile .esp32C6 ⟨[.b, .g, .n], []⟩
    let base := fun band24 => Protocols.mk band24 []
    (run (step .esp32C6) (new he20Mode) [.run, .setMode (.station ⟨none, none⟩)]).bringup .esp32C6
        profile base = ⟨some .ax, true, some ⟨[.n, .ax], []⟩⟩ ∧
      (run (step .esp32C6) (new (.station ⟨none, none⟩)) []).bringup .esp32C6 profile base =
        ⟨none, false, none⟩ ∧
      asked [.run, .setMode (.station ⟨none, none⟩)] = asked [] :=
  ⟨rfl, rfl, rfl⟩

end ProtocolNode

end EspCsi.Setup
