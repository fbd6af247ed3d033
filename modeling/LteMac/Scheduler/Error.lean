import LteMac.Radio.Carrier
import LteMac.Radio.Identity

/-!
# Refusals

Why a scheduler refuses a request. A refused request changes nothing.
-/

namespace LteMac

/-- The two directions of a cell. -/
inductive Direction where
  | downlink
  | uplink
deriving DecidableEq

/-- A short name of a direction. -/
def Direction.name : Direction → String
  | downlink => "DL"
  | uplink => "UL"

/-- The two users a scheduler answers to. -/
inductive ServiceUser where
  /-- Configures the cell and its UEs. -/
  | control
  /-- Runs the subframes. -/
  | data
deriving DecidableEq

/-- The name of the interface a user sits at. -/
def ServiceUser.name : ServiceUser → String
  | control => "CSCHED"
  | data => "SCHED"

/-- The causes of a refusal. -/
inductive SchedulerError where
  /-- The bandwidth is not one of the standard ones. -/
  | carrier (cause : CarrierError)
  /-- The carrier of a cell is never replaced. -/
  | cellAlreadyConfigured
  /-- There is no carrier yet. -/
  | cellNotConfigured
  /-- A UE is named that is not configured. -/
  | unknownUe (rnti : Rnti)
  /-- A UE that is configured is added once more. -/
  | ueAlreadyConfigured (rnti : Rnti)
  /-- A channel is named that its UE has no bearer for. -/
  | unknownChannel (rnti : Rnti) (lcid : Lcid)
  /-- Feedback is about a process that no UE has. -/
  | invalidProcess (rnti : Rnti) (process : Nat)
  /-- Bearers are replaced by adding them anew. -/
  | bearerReconfiguration
  /-- The reuse policy is for a grid of another size. -/
  | reuseMismatch (direction : Direction) (expected actual : Nat)
  /-- Sounding is measured, but not whose it is. -/
  | missingSoundingUe
  /-- Nobody would hear the answer. -/
  | notConnected (user : ServiceUser)
  /-- There is no algorithm of this name. -/
  | unknownAlgorithm (name : String)
deriving DecidableEq

namespace SchedulerError

/-- What the scheduler says about a refusal. -/
def message : SchedulerError → String
  | carrier cause => s!"invalid cell configuration: {cause.message}"
  | cellAlreadyConfigured => "cell is already configured, reconfiguration is not supported"
  | cellNotConfigured => "cell is not configured"
  | unknownUe r => s!"RNTI {r} is not configured"
  | ueAlreadyConfigured r => s!"RNTI {r} is already configured"
  | unknownChannel r l => s!"logical channel {l} of RNTI {r} is not configured"
  | invalidProcess r p => s!"HARQ process {p} of RNTI {r} is out of range"
  | bearerReconfiguration => "logical channel reconfiguration is not implemented"
  | reuseMismatch d expected actual =>
    s!"FFR {d.name} availability has {actual} entries, the cell has {expected}"
  | missingSoundingUe => "SRS UL CQI report carries no RNTI"
  | notConnected u => s!"{u.name} SAP user is not connected"
  | unknownAlgorithm n =>
    s!"unknown scheduling algorithm: '{n}' (valid: cqa, fdbet, tdbet, tta)"

end SchedulerError

end LteMac
