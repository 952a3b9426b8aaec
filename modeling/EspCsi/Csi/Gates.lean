import EspCsi.Csi.Esp
import EspCsi.Model

/-!
# Delivery gates

The atomics of `csi/delivery.rs` that its public functions write and the CSI callback only reads:
who consumes, whether the node publishes, which frames pass, and the reporting in force.
-/

namespace EspCsi.Csi

open Wire

inductive OverflowPolicy where
  | dropNewest
  | dropOldest
deriving DecidableEq, Repr

inductive CsiDeliveryMode where
  | off
  | callback
  | async
deriving DecidableEq, Repr

inductive PolicyKind where
  | none
  | report
  | threshold
  | decimate
deriving DecidableEq, Repr

abbrev CallbackId := ℕ

structure Gates where
  overflowDropOldest : Bool
  reports : Bool
  csiOutputEnabled : Bool
  userPublishIntent : Bool
  csiPublishEnabled : Bool
  csiDeliveryMode : CsiDeliveryMode
  csiCallback : Option CallbackId
  csiRawCallback : Option CallbackId
  csiInlineLogEnabled : Bool
  csiPeerFilter : UInt64
  csiMinSigMode : UInt8
  csiFilterActive : Bool
  policyKind : PolicyKind
  policyA : UInt16
  policyB : UInt16
  policyVariation : Bool
  reportLocal : Bool
deriving DecidableEq, Repr

namespace Gates

def boot : Gates where
  overflowDropOldest := false
  reports := false
  csiOutputEnabled := true
  userPublishIntent := false
  csiPublishEnabled := false
  csiDeliveryMode := .off
  csiCallback := none
  csiRawCallback := none
  csiInlineLogEnabled := false
  csiPeerFilter := 0
  csiMinSigMode := 0
  csiFilterActive := false
  policyKind := .none
  policyA := 0
  policyB := 0
  policyVariation := false
  reportLocal := false

def setCsiQueueOverflow (g : Gates) (policy : OverflowPolicy) : Gates :=
  { g with overflowDropOldest := policy == .dropOldest }

/-! ## Publishing -/

/-- Recompute the publish gate: a consumer is installed, the node reports, and output is on. -/
def applyPublishGate (g : Gates) : Gates :=
  { g with csiPublishEnabled := g.userPublishIntent && g.reports && g.csiOutputEnabled }

/-- Enable or disable inline logging. The consumer intent follows it. -/
def setCsiLoggingEnabled (g : Gates) (enabled : Bool) : Gates :=
  { g with csiInlineLogEnabled := enabled, userPublishIntent := enabled }.applyPublishGate

def setCsiDeliveryMode (g : Gates) (mode : CsiDeliveryMode) : Gates :=
  { g with csiDeliveryMode := mode }

def setCsiCallback (g : Gates) (cb : CallbackId) : Gates :=
  { g with
    csiCallback := some cb
    csiDeliveryMode := .callback
    userPublishIntent := true }.applyPublishGate

def clearCsiCallback (g : Gates) : Gates :=
  { g with csiDeliveryMode := .off, csiCallback := none }

def setCsiRawCallback (g : Gates) (cb : CallbackId) : Gates :=
  { g with csiRawCallback := some cb, userPublishIntent := true }.applyPublishGate

def setCsiOutputEnabled (g : Gates) (enabled : Bool) : Gates :=
  { g with csiOutputEnabled := enabled }.applyPublishGate

/-- What `next_csi_packet` does before it first polls: the async mode is entered from `Off` only. -/
def enterAsync (g : Gates) : Gates :=
  if g.csiDeliveryMode = .off then
    { g with csiDeliveryMode := .async, userPublishIntent := true }.applyPublishGate
  else g

/-- Reset the delivery gates between runs. The filters are user configuration and stay. -/
def reset (g : Gates) : Gates :=
  { g with
    csiInlineLogEnabled := false
    userPublishIntent := false
    csiPublishEnabled := false
    csiOutputEnabled := true
    csiDeliveryMode := .off
    csiCallback := none }

/-! ## Attribution filter -/

/-- Big-endian in the low 48 bits. -/
def packMac (mac : Mac) : UInt64 := mac.bytes.foldl (fun v b => (v <<< 8) ||| b.toUInt64) 0

def refreshFilterActive (g : Gates) : Gates :=
  { g with csiFilterActive := g.csiPeerFilter != 0 || g.csiMinSigMode != 0 }

def setCsiPeerFilter (g : Gates) (mac : Mac) : Gates :=
  { g with csiPeerFilter := packMac mac }.refreshFilterActive

def setCsiMinSigMode (g : Gates) (min : UInt8) : Gates :=
  { g with csiMinSigMode := min }.refreshFilterActive

/-- Whether a frame passes the attribution filters. The PHY half exists on the classic MACs only. -/
def csiPassesFilter (g : Gates) (chip : Chip) (info : WifiCsiInfo) : Bool :=
  if !g.csiFilterActive then true
  else if g.csiPeerFilter != 0 && packMac info.mac != g.csiPeerFilter then false
  else if !isHe chip && g.csiMinSigMode != 0 && info.packetMode < g.csiMinSigMode then false
  else true

/-! ## Reporting -/

def runtimeReporting (g : Gates) : Reporting :=
  match g.policyKind with
  | .report => .report (if g.reportLocal then .localOnly else .host)
  | .threshold => .thresholdBased ⟨g.policyA, g.policyB, g.policyVariation⟩
  | .decimate => .decimate g.policyA
  | .none => .none

/-- The kind, `level` or factor, `hold_ms` and `variation_only` a policy decomposes into. -/
def decompose : Reporting → PolicyKind × UInt16 × UInt16 × Bool
  | .report _ => (.report, 0, 0, false)
  | .none => (.none, 0, 0, false)
  | .thresholdBased t => (.threshold, t.level, t.holdMs, t.variationOnly)
  | .decimate n => (.decimate, max n 1, 0, false)

def setRuntimeReporting (g : Gates) (policy : Reporting) : Gates :=
  { g with
    reportLocal := policy == Reporting.report .localOnly
    policyA := (decompose policy).2.1
    policyB := (decompose policy).2.2.1
    policyVariation := (decompose policy).2.2.2
    policyKind := (decompose policy).1
    reports := policy.reports }.applyPublishGate

/-! ## The cached gates -/

/-- The publish gate is the conjunction of its three inputs, and the filter gate says whether
either filter is set. -/
structure Cached (g : Gates) : Prop where
  publish : g.csiPublishEnabled = (g.userPublishIntent && g.reports && g.csiOutputEnabled)
  filter : g.csiFilterActive = (g.csiPeerFilter != 0 || g.csiMinSigMode != 0)

theorem cached_boot : boot.Cached := ⟨rfl, rfl⟩

theorem Cached.applyPublishGate {g : Gates}
    (h : g.csiFilterActive = (g.csiPeerFilter != 0 || g.csiMinSigMode != 0)) :
    g.applyPublishGate.Cached :=
  ⟨rfl, h⟩

theorem Cached.enterAsync {g : Gates} (h : g.Cached) : g.enterAsync.Cached := by
  unfold Gates.enterAsync
  split_ifs
  · exact .applyPublishGate h.filter
  · exact h

/-- The reporting in force is the one last asked for, a decimation by 0 being one by 1. -/
theorem runtimeReporting_setRuntimeReporting (g : Gates) (policy : Reporting) :
    (g.setRuntimeReporting policy).runtimeReporting =
      match policy with
      | .decimate n => .decimate (max n 1)
      | policy => policy := by
  cases policy with
  | report dest => cases dest <;> rfl
  | thresholdBased t => rfl
  | decimate n => rfl
  | none => rfl

theorem Cached.csiPassesFilter_iff {g : Gates} (h : g.Cached) (chip : Chip) (info : WifiCsiInfo) :
    g.csiPassesFilter chip info = true ↔
      (g.csiPeerFilter = 0 ∨ packMac info.mac = g.csiPeerFilter) ∧
        (isHe chip = true ∨ g.csiMinSigMode = 0 ∨ g.csiMinSigMode ≤ info.packetMode) := by
  unfold csiPassesFilter
  rw [h.filter]
  by_cases hpeer : g.csiPeerFilter = 0 <;> by_cases hmin : g.csiMinSigMode = 0 <;>
    cases isHe chip <;> simp [hpeer, hmin]

end Gates

end EspCsi.Csi
