import LteMac.Scenario.Draft
import LteMac.Scenario.Error
import LteMac.Text.Lowercase

/-!
# From a draft to a scenario

A draft is checked part by part, in the order carriers, scheduler, reuse plan, UEs, and each list
from its first entry on; the first thing that is wrong is what is reported. What is kept stays in
the order of the file.
-/

namespace LteMac

/-- The carrier a draft describes. -/
def CarrierDraft.carrier (d : CarrierDraft) : Except CarrierError Carrier := do
  let c ← Carrier.default.setDownlinkBandwidth d.downlinkBandwidth
  let c ← c.setUplinkBandwidth d.uplinkBandwidth
  let c ← c.setDownlinkChannel d.downlinkChannel
  let c ← c.setUplinkChannel d.uplinkChannel
  return (c.setSubscriberGroup d.subscriberGroup d.closedGroup).setPrimary d.primary

namespace SchedulerDraft

/-- The algorithm a draft names, in any case. -/
def algorithmOrDefault (d : SchedulerDraft) : Except ScenarioError Algorithm :=
  let name := Text.lowercase (d.algorithm.getD Algorithm.tdBet.name)
  match Algorithm.ofName? name with
  | some algorithm => .ok algorithm
  | none => .error (.unknownAlgorithm name)

/-- The parameters of a draft, with the usual ones where it is silent. -/
def parameters (d : SchedulerDraft) : SchedulerConfig :=
  let usual := SchedulerConfig.default
  { cqiThreshold := d.cqiThreshold.getD usual.cqiThreshold
    harqEnabled := d.harqEnabled.getD usual.harqEnabled
    sinrSource := d.sinrSource.getD usual.sinrSource
    timeWindow := d.timeWindow.getD usual.timeWindow
    accessMcs := d.accessMcs.getD usual.accessMcs
    metric := d.metric.getD usual.metric
    delayGroup := d.delayGroup.getD usual.delayGroup
    requestBytes := d.requestBytes.getD usual.requestBytes
    rankAdaptation := d.rankAdaptation.getD usual.rankAdaptation }

/-- The parameters of a draft, if they are in range. -/
def config (d : SchedulerDraft) : Except ScenarioError SchedulerConfig :=
  let c := d.parameters
  if c.timeWindow < 1.0 then .error (.shortWindow c.timeWindow)
  else if LinkAdaptation.maxMcs < c.accessMcs then .error (.highMcs c.accessMcs)
  else .ok c

end SchedulerDraft

namespace PlanDraft

/-- A band the rule cannot do without. -/
def require (field : BandField) : Option Band → Except ScenarioError Band
  | some band => .ok band
  | none => .error (.missingBand field)

/-- The plan a draft describes. Bands its rule does not speak of are passed over. -/
def plan (d : PlanDraft) : Except ScenarioError ReusePlan := do
  match d.rule with
  | .full => return .full
  | .hard =>
    return .hard (← require .downlink d.downlink) (← require .uplink d.uplink)
  | .soft =>
    return .soft (← require .downlink d.downlink) (← require .uplink d.uplink) d.threshold
  | .enhanced =>
    return .enhanced (← require .downlink d.downlink)
      (← require .downlinkSecondary d.downlinkSecondary) (← require .uplink d.uplink)
      (← require .uplinkSecondary d.uplinkSecondary) d.threshold
  | .distributed => return .distributed d.threshold d.announcements

end PlanDraft

namespace UeDraft

/-- The UE a draft describes, on a station with `carriers` carriers that already has the UEs
`seen`, by carrier and RNTI. -/
def profile (d : UeDraft) (carriers : Nat) (seen : List (Nat × Rnti)) :
    Except ScenarioError UeProfile :=
  if d.rnti = 0 ∨ d.rnti = pagingRnti then .error (.reservedRnti d.rnti)
  else if carriers ≤ d.carrier then .error (.unknownCarrier d.rnti d.carrier)
  else if (d.carrier, d.rnti) ∈ seen then .error (.duplicateUe d.rnti d.carrier)
  else match TransmissionMode.ofIndex? d.mode with
    | none => .error (.unknownMode d.rnti d.mode)
    | some mode =>
      if LinkAdaptation.maxCqi < d.widebandCqi ∨
          d.subbandCqi.any (LinkAdaptation.maxCqi < ·) then .error (.highCqi d.rnti)
      else if d.rank = 0 then .error (.zeroRank d.rnti)
      else .ok
        { rnti := d.rnti, carrier := d.carrier, mode, qci := d.qci, guaranteed := d.guaranteed
          downlinkLoad := d.downlinkLoad, uplinkLoad := d.uplinkLoad
          widebandCqi := d.widebandCqi, subbandCqi := d.subbandCqi, sinr := d.sinr
          rank := d.rank, nackEvery := d.nackEvery }

/-- The UEs a list of drafts describes, after those already seen. -/
def profiles (carriers : Nat) (seen : List (Nat × Rnti)) :
    List UeDraft → Except ScenarioError (List UeProfile)
  | [] => .ok []
  | d :: ds => do
    let ue ← d.profile carriers seen
    return ue :: (← profiles carriers ((d.carrier, d.rnti) :: seen) ds)

end UeDraft

namespace Scenario

/-- The carriers drafts describe, counted from `index` on. -/
def carriersFrom (index : Nat) : List CarrierDraft → Except ScenarioError (List Carrier)
  | [] => .ok []
  | d :: ds => do
    let c ← d.carrier.mapError (.carrier index)
    return c :: (← carriersFrom (index + 1) ds)

/-- The carriers of a station: one, if none is described, and otherwise exactly one primary. -/
def carriersOf : List CarrierDraft → Except ScenarioError (List Carrier)
  | [] => .ok [defaultCarrier]
  | ds => do
    let carriers ← carriersFrom 0 ds
    let _ ← (Carrier.primaryIndex carriers).mapError .carrierSet
    return carriers

/-- Refuses a plan that does not suit the grid of every carrier, counted from `index` on. -/
def checkPlan (plan : ReusePlan) (index : Nat) : List Carrier → Except ScenarioError Unit
  | [] => .ok ()
  | c :: cs => do
    (plan.check (rbgCount c.downlinkBandwidth) c.uplinkBandwidth).mapError (.plan index)
    checkPlan plan (index + 1) cs

/-- The scenario a draft describes. -/
def ofDraft (d : ScenarioDraft) : Except ScenarioError Scenario := do
  let carriers ← carriersOf d.carriers
  let algorithm ← d.scheduler.algorithmOrDefault
  let config ← d.scheduler.config
  let plan ← d.plan.plan
  checkPlan plan 0 carriers
  let ues ← UeDraft.profiles carriers.length [] d.ues
  return { carriers, algorithm, config, plan, ues, subframes := d.subframes }

end Scenario

end LteMac
