import EspCsi.Model
import Mathlib.Algebra.Ring.Nat
import Mathlib.Data.UInt

/-!
# Reporting policies

The state behind threshold-based reporting and decimation (`csi/policy.rs`), in the machine
arithmetic of the source.
-/

namespace EspCsi.Csi

def SAMPLED : ℕ := 32

def FRAC : UInt32 := 4

def EWMA_SHIFT : UInt32 := 4

/-- How far measurements depart from a slow running average of the channel. -/
structure ThresholdState where
  base : Vector UInt32 SAMPLED
  bufLen : ℕ
  holdUntilUs : UInt64
deriving DecidableEq

namespace ThresholdState

def new : ThresholdState where
  base := Vector.replicate SAMPLED 0
  bufLen := 0
  holdUntilUs := 0

def amplitude (buf : List Int8) (i : ℕ) : UInt32 :=
  (UInt32.ofNat (buf.getD i 0).toInt.natAbs + UInt32.ofNat (buf.getD (i + 1) 0).toInt.natAbs) <<<
    FRAC

def ewma (b a : UInt32) : UInt32 :=
  if a ≥ b then b + ((a - b) >>> EWMA_SHIFT) else b - ((b - a) >>> EWMA_SHIFT)

def absDiff (x y : UInt64) : UInt64 := if x < y then y - x else x - y

def saturatingMul (x y : UInt64) : UInt64 :=
  if x.toNat * y.toNat < 2 ^ 64 then x * y else 0xffffffffffffffff

/-- Score `buf` against the running average on a `0..=65535` scale, and fold it into the average.
The first buffer of a layout scores 0. -/
def score (t : ThresholdState) (buf : List Int8) : UInt16 × ThresholdState :=
  let pairs := buf.length / 2
  if pairs = 0 then (0, t)
  else
    let n := min pairs SAMPLED
    let step := pairs / n
    let restart := buf.length ≠ t.bufLen
    let amp := fun k => amplitude buf (2 * (k * step))
    let old := fun k => t.base.getD k 0
    let aTot := ((List.range n).map fun k => (amp k).toUInt64).sum
    let bTot := ((List.range n).map fun k => (old k).toUInt64).sum
    let dist := ((List.range n).map fun k =>
      absDiff ((amp k).toUInt64 * bTot) ((old k).toUInt64 * aTot)).sum
    -- a new layout takes the amplitudes over as they are; entries past `n` stay
    let base := Vector.ofFn fun k : Fin SAMPLED =>
      if k.val < n then (if restart then amp k else ewma (old k) (amp k)) else old k
    let next := { t with base, bufLen := buf.length }
    if restart ∨ aTot = 0 ∨ bTot = 0 then (0, next)
    else ((min (saturatingMul dist (65535 / 2) / (aTot * bTot)) 65535).toUInt16, next)

/-- Whether to report a measurement that scored `score` at `nowUs`. Crossing `level` opens a window
of `holdMs` in which everything is reported. -/
def decide (t : ThresholdState) (score level holdMs : UInt16) (nowUs : UInt64) :
    Bool × ThresholdState :=
  if score ≥ level then (true, { t with holdUntilUs := nowUs + holdMs.toUInt64 * 1000 })
  else (nowUs < t.holdUntilUs, t)

end ThresholdState

/-- Passes every `n`th measurement. -/
structure Decimator where
  count : UInt16
deriving DecidableEq

namespace Decimator

def new : Decimator := ⟨0⟩

/-- Whether this measurement is one to keep. The first of every `n` is kept. -/
def tick (d : Decimator) (n : UInt16) : Bool × Decimator :=
  (d.count == 0, ⟨if d.count + 1 ≥ max n 1 then 0 else d.count + 1⟩)

end Decimator

end EspCsi.Csi
