import LteMac.Numeric.Print
import LteMac.Radio.LinkAdaptation
import LteMac.Scenario.Basic
import LteMac.Text.Quoted

/-!
# Refused scenarios

Why a file does not describe a scenario.
-/

namespace LteMac

/-- The causes of a refusal. -/
inductive ScenarioError where
  /-- The file is not a document of the right form. -/
  | unreadable
  /-- One of the carriers is not possible. -/
  | carrier (index : Nat) (cause : CarrierError)
  /-- The carriers are, but not together. -/
  | carrierSet (cause : CarrierError)
  /-- There is no algorithm of this name. -/
  | unknownAlgorithm (name : String)
  /-- Throughput is averaged over less than a subframe. -/
  | shortWindow (window : Float)
  /-- There is no such scheme. -/
  | highMcs (mcs : Nat)
  /-- The rule needs a band that is not given. -/
  | missingBand (field : BandField)
  /-- The reuse plan does not suit one of the carriers. -/
  | plan (carrier : Nat) (cause : ReusePlanError)
  /-- The RNTI is no UE's, but stands for nobody or for everybody. -/
  | reservedRnti (rnti : Rnti)
  /-- A UE is on a carrier that is not there. -/
  | unknownCarrier (rnti : Rnti) (carrier : Nat)
  /-- Two UEs of a carrier have one RNTI. -/
  | duplicateUe (rnti : Rnti) (carrier : Nat)
  /-- There is no such transmission mode. -/
  | unknownMode (rnti : Rnti) (mode : Nat)
  /-- There is no such quality. -/
  | highCqi (rnti : Rnti)
  /-- A UE receives one layer at least. -/
  | zeroRank (rnti : Rnti)

namespace ScenarioError

/-- The names of the algorithms, quoted, as a list. -/
def algorithmNames : String := ", ".intercalate (Algorithm.all.map fun a => Text.quoted a.name)

/-- What is said about a refused scenario. -/
def message : ScenarioError → String
  | unreadable => "Failed to parse YAML"
  | carrier i cause => s!"carrier {i}: {cause.message}"
  | carrierSet cause => s!"carrier set: {cause.message}"
  | unknownAlgorithm n =>
    s!"unknown scheduler.algorithm '{n}' (expected one of [{algorithmNames}])"
  | shortWindow w =>
    s!"scheduler.time_window must be at least 1 TTI, got {Numeric.exact w}"
  | highMcs m => s!"scheduler.ul_grant_mcs {m} exceeds {LinkAdaptation.maxMcs}"
  | missingBand f => s!"ffr.{f.key} is required for this algorithm"
  | plan i cause => s!"carrier {i}: {cause.message}"
  | reservedRnti r => s!"UE RNTI 0x{Numeric.hexadecimal 4 r.toNat} is reserved"
  | unknownCarrier r c => s!"UE {r}: carrier {c} does not exist"
  | duplicateUe r c => s!"UE {r}: duplicate RNTI on carrier {c}"
  | unknownMode r m => s!"UE {r}: invalid tx_mode {m}"
  | highCqi r => s!"UE {r}: CQI above {LinkAdaptation.maxCqi}"
  | zeroRank r => s!"UE {r}: rank must be at least 1"

end ScenarioError

end LteMac
