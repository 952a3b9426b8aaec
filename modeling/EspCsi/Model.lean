import Mathlib.Data.List.Basic

/-!
# The node model

The reporting attribute of `model.rs`: whether, where and how often a node's measurements leave it.
-/

namespace EspCsi

inductive ReportTo where
  | host
  | localOnly
deriving DecidableEq, Repr, Inhabited

structure Threshold where
  level : UInt16
  holdMs : UInt16
  variationOnly : Bool
deriving DecidableEq, Repr

/-- Whether, and how often, a node's measurements leave it. -/
inductive Reporting where
  | report (dest : ReportTo)
  | thresholdBased (t : Threshold)
  | decimate (n : UInt16)
  | none
deriving DecidableEq, Repr

namespace Reporting

def HOST : Reporting := .report .host

/-- Whether this reports anything at all. -/
def reports : Reporting → Bool
  | .none => false
  | _ => true

end Reporting

end EspCsi
