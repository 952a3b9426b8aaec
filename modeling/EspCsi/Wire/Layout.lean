import Mathlib.Algebra.Ring.Nat
import Mathlib.Data.List.Basic
import Mathlib.Data.Int.Basic

/-!
# How an Espressif CSI buffer maps onto subcarriers

The layout tables of `wire/layout.rs` and the two classifiers that pick a layout from a frame's
receive metadata and buffer length.
-/

namespace EspCsi.Wire

/-- A training field within a CSI buffer. -/
inductive Ltf where
  | lltf
  | htLtf
  | htLtf2
  | heLtf
deriving DecidableEq, Repr

/-- One training field's run of subcarriers: inclusive index ranges, in buffer order. -/
structure Segment where
  ltf : Ltf
  ranges : List (ℤ × ℤ)
deriving DecidableEq, Repr

def Segment.len (s : Segment) : ℕ := (s.ranges.map fun r => (r.2 - r.1 + 1).toNat).sum

/-- The layout of a raw Espressif CSI buffer. -/
inductive LayoutId where
  | unknown
  | classicNoneNonHt
  | classicNoneHt20
  | classicNoneHt20Stbc
  | classicBelowNonHt
  | classicBelowHt20
  | classicBelowHt20Stbc
  | classicBelowHt40
  | classicBelowHt40Stbc
  | classicAboveNonHt
  | classicAboveHt20
  | classicAboveHt20Stbc
  | classicAboveHt40
  | classicAboveHt40Stbc
  | c5LltfNone
  | c5LltfBelow
  | c5LltfAbove
  | c5Ht20None
  | c5Ht20NoneStbc
  | c5Ht20Below
  | c5Ht20BelowStbc
  | c5Ht20Above
  | c5Ht20AboveStbc
  | c5Ht40
  | c5Ht40Stbc
  | c5He20Su
deriving DecidableEq, Repr

def r0To31M32ToM1 : List (ℤ × ℤ) := [(0, 31), (-32, -1)]
def r0To63 : List (ℤ × ℤ) := [(0, 63)]
def r0To62 : List (ℤ × ℤ) := [(0, 62)]
def rM64ToM1 : List (ℤ × ℤ) := [(-64, -1)]
def rM62ToM1 : List (ℤ × ℤ) := [(-62, -1)]
def r0To63M64ToM1 : List (ℤ × ℤ) := [(0, 63), (-64, -1)]
def r0To60M60ToM1 : List (ℤ × ℤ) := [(0, 60), (-60, -1)]
def r0To26M26ToM1 : List (ℤ × ℤ) := [(0, 26), (-26, -1)]
def r0To52 : List (ℤ × ℤ) := [(0, 52)]
def rM53ToM1 : List (ℤ × ℤ) := [(-53, -1)]
def r0To28M28ToM1 : List (ℤ × ℤ) := [(0, 28), (-28, -1)]
def r0To56 : List (ℤ × ℤ) := [(0, 56)]
def rM57ToM1 : List (ℤ × ℤ) := [(-57, -1)]
def r0To58M58ToM1 : List (ℤ × ℤ) := [(0, 58), (-58, -1)]
def r0To122M122ToM1 : List (ℤ × ℤ) := [(0, 122), (-122, -1)]

namespace LayoutId

/-- The buffer's training-field segments, in order. -/
def segments : LayoutId → List Segment
  | unknown => []
  | classicNoneNonHt => [⟨.lltf, r0To31M32ToM1⟩]
  | classicNoneHt20 => [⟨.lltf, r0To31M32ToM1⟩, ⟨.htLtf, r0To31M32ToM1⟩]
  | classicNoneHt20Stbc =>
    [⟨.lltf, r0To31M32ToM1⟩, ⟨.htLtf, r0To31M32ToM1⟩, ⟨.htLtf2, r0To31M32ToM1⟩]
  | classicBelowNonHt => [⟨.lltf, r0To63⟩]
  | classicBelowHt20 => [⟨.lltf, r0To63⟩, ⟨.htLtf, r0To63⟩]
  | classicBelowHt20Stbc => [⟨.lltf, r0To63⟩, ⟨.htLtf, r0To62⟩, ⟨.htLtf2, r0To62⟩]
  | classicBelowHt40 => [⟨.lltf, r0To63⟩, ⟨.htLtf, r0To63M64ToM1⟩]
  | classicBelowHt40Stbc =>
    [⟨.lltf, r0To63⟩, ⟨.htLtf, r0To60M60ToM1⟩, ⟨.htLtf2, r0To60M60ToM1⟩]
  | classicAboveNonHt => [⟨.lltf, rM64ToM1⟩]
  | classicAboveHt20 => [⟨.lltf, rM64ToM1⟩, ⟨.htLtf, rM64ToM1⟩]
  | classicAboveHt20Stbc => [⟨.lltf, rM64ToM1⟩, ⟨.htLtf, rM62ToM1⟩, ⟨.htLtf2, rM62ToM1⟩]
  | classicAboveHt40 => [⟨.lltf, rM64ToM1⟩, ⟨.htLtf, r0To63M64ToM1⟩]
  | classicAboveHt40Stbc =>
    [⟨.lltf, rM64ToM1⟩, ⟨.htLtf, r0To60M60ToM1⟩, ⟨.htLtf2, r0To60M60ToM1⟩]
  | c5LltfNone => [⟨.lltf, r0To26M26ToM1⟩]
  | c5LltfBelow => [⟨.lltf, r0To52⟩]
  | c5LltfAbove => [⟨.lltf, rM53ToM1⟩]
  | c5Ht20None => [⟨.htLtf, r0To28M28ToM1⟩]
  | c5Ht20NoneStbc => [⟨.htLtf, r0To28M28ToM1⟩, ⟨.htLtf2, r0To28M28ToM1⟩]
  | c5Ht20Below => [⟨.htLtf, r0To56⟩]
  | c5Ht20BelowStbc => [⟨.htLtf, r0To56⟩, ⟨.htLtf2, r0To56⟩]
  | c5Ht20Above => [⟨.htLtf, rM57ToM1⟩]
  | c5Ht20AboveStbc => [⟨.htLtf, rM57ToM1⟩, ⟨.htLtf2, rM57ToM1⟩]
  | c5Ht40 => [⟨.htLtf, r0To58M58ToM1⟩]
  | c5Ht40Stbc => [⟨.htLtf, r0To58M58ToM1⟩, ⟨.htLtf2, r0To58M58ToM1⟩]
  | c5He20Su => [⟨.heLtf, r0To122M122ToM1⟩]

/-- Bytes a buffer of this layout occupies: two for each subcarrier. -/
def byteLen (id : LayoutId) : Option ℕ :=
  if id.segments.isEmpty then none else some ((id.segments.map Segment.len).sum * 2)

/-- The layout itself if the buffer has its length, else `unknown`. -/
def checked (id : LayoutId) (len : ℕ) : LayoutId := if id.byteLen = some len then id else unknown

/-- The classic MAC's table. `secondary` is 0 none, 1 above, 2 below; `sigMode` 0 non-HT, 1 HT. -/
def classifyClassic (secondary sigMode : UInt8) (forty stbc : Bool) (len : ℕ) : LayoutId :=
  let id :=
    match secondary.toNat, sigMode.toNat, forty, stbc with
    | 0, 0, _, _ => classicNoneNonHt
    | 0, 1, false, false => classicNoneHt20
    | 0, 1, false, true => classicNoneHt20Stbc
    | 2, 0, _, _ => classicBelowNonHt
    | 2, 1, false, false => classicBelowHt20
    | 2, 1, false, true => classicBelowHt20Stbc
    | 2, 1, true, false => classicBelowHt40
    | 2, 1, true, true => classicBelowHt40Stbc
    | 1, 0, _, _ => classicAboveNonHt
    | 1, 1, false, false => classicAboveHt20
    | 1, 1, false, true => classicAboveHt20Stbc
    | 1, 1, true, false => classicAboveHt40
    | 1, 1, true, true => classicAboveHt40Stbc
    | _, _, _, _ => unknown
  id.checked len

/-- The C5's table. It reports no bandwidth or STBC bit: both are read off the length. -/
def classifyC5 (bbFormat secondary : UInt8) (len : ℕ) : LayoutId :=
  -- an L-LTF buffer has one length under every format
  if len = 106 then
    match secondary.toNat with
    | 0 => c5LltfNone
    | 2 => c5LltfBelow
    | 1 => c5LltfAbove
    | _ => unknown
  else
    match bbFormat.toNat, secondary.toNat, len with
    | 2, 0, 114 | 3, 0, 114 => c5Ht20None
    | 2, 0, 228 | 3, 0, 228 => c5Ht20NoneStbc
    | 2, 2, 114 => c5Ht20Below
    | 2, 2, 228 => c5Ht20BelowStbc
    | 2, 1, 114 => c5Ht20Above
    | 2, 1, 228 => c5Ht20AboveStbc
    | 2, 1, 234 | 2, 2, 234 => c5Ht40
    | 2, 1, 468 | 2, 2, 468 => c5Ht40Stbc
    | 4, 0, 490 => c5He20Su
    | _, _, _ => unknown

end LayoutId

end EspCsi.Wire
