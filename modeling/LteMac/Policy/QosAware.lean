import LteMac.Policy.Basic

/-!
# Channel and QoS aware scheduling

Candidates are put in groups by the age of their oldest byte, and the oldest group is served
first. Within a group every free resource block group goes to the UE with the best channel
metric, raised for a UE that runs below its guaranteed rate. A UE stops receiving once what it has
got covers what waits for it, which leaves the rest to the younger groups.
-/

namespace LteMac

/-- The record of a UE: its throughput, the rate it is guaranteed, and the averages of the last
two subframes but one. -/
structure QosRecord where
  /-- What was sent. -/
  throughput : Throughput
  /-- Guaranteed rate over all bearers, in bytes per second. -/
  target : Float
  /-- The average before the latest subframe. -/
  lastAverage : Float
  /-- The average before the one before. -/
  secondLastAverage : Float

namespace QosRecord

/-- The record of a UE that has just been configured. -/
def fresh (start : Nat) : QosRecord :=
  let throughput := Throughput.fresh start
  ⟨throughput, 0.0, throughput.average, throughput.average⟩

/-- The guaranteed rate of a list of bearers, in bytes per second. -/
def targetOf (bearers : List Bearer) : Float :=
  floatSum <| (bearers.filterMap (·.guaranteed)).map fun rate => Float.ofNat rate / 8.0

/-- Takes in the bearers of the UE. -/
def setBearers (bearers : List Bearer) (r : QosRecord) : QosRecord :=
  { r with target := targetOf bearers }

/-- Takes in one subframe. -/
def record (bytes : Nat) (window : Float) (r : QosRecord) : QosRecord :=
  { r with
    secondLastAverage := r.lastAverage
    lastAverage := r.throughput.average
    throughput := r.throughput.record bytes window }

/-- How much a UE below its guaranteed rate is raised. -/
def weight (r : QosRecord) : Float :=
  if r.target ≤ 0.0 then 1.0
  else
    let recent := (r.lastAverage + r.secondLastAverage) / 2.0
    if recent < r.target then r.target / floatMax recent 1.0 else 1.0

end QosRecord

namespace QosAware

/-- The channel metric of a UE on a group. -/
def metric (kind : ChannelMetric) (ctx : AllocationContext) (record : Option QosRecord)
    (rnti : Rnti) (rbg : Nat) : Float :=
  let base := match kind with
    | .frequencySelective => ctx.relativeRate rnti rbg
    | .proportionalFair =>
      ctx.subbandRate rnti rbg / record.elim 1.0 fun r => floatMax r.throughput.average 1.0
  base * record.elim 1.0 (·.weight)

/-- The group of a UE by the age of its oldest byte. -/
def delayGroup (width : Nat) (ctx : AllocationContext) (rnti : Rnti) : Nat :=
  ctx.headDelay rnti / max width 1

/-- The groups that have a candidate, the oldest first. -/
def delayGroups (width : Nat) (ctx : AllocationContext) (candidates : List Rnti) : List Nat :=
  ((candidates.map (delayGroup width ctx)).mergeSort (· ≥ ·)).eraseDups

/-- What is not yet covered of the bytes of each candidate, and which group went to whom. -/
structure Round where
  /-- Bytes of each candidate that no group carries yet. -/
  uncovered : Table Rnti Float
  /-- Which group went to whom, the first one first. -/
  assignment : List (Nat × Rnti)

/-- Nothing is covered yet. A UE that only waits for control elements needs room too. -/
def start (ctx : AllocationContext) (candidates : List Rnti) : Round where
  uncovered := candidates.foldl
    (fun t rnti => t.insert rnti (floatMax (Float.ofNat (ctx.bufferedBytes rnti)) 1.0)) ∅
  assignment := []

namespace Round

/-- Whether a group is still to be had. -/
def isOpen (round : Round) (rbg : Nat) : Bool := !round.assignment.any (·.1 == rbg)

/-- Whether a UE needs more. -/
def needs (round : Round) (rnti : Rnti) : Bool := round.uncovered.getD rnti 0.0 > 0.0

/-- Gives a group to a UE. -/
def give (ctx : AllocationContext) (round : Round) (rbg : Nat) (rnti : Rnti) : Round where
  uncovered := round.uncovered.modify rnti (· - ctx.subbandRate rnti rbg * subframeSeconds)
  assignment := round.assignment ++ [(rbg, rnti)]

end Round

/-- The member of a delay group that a resource block group goes to. -/
def winner (kind : ChannelMetric) (ctx : AllocationContext)
    (records : Rnti → Option QosRecord) (members : List Rnti) (round : Round) (rbg : Nat) :
    Option Rnti :=
  firstMax <| (members.filter fun rnti => round.needs rnti && ctx.allowed rbg rnti).map fun rnti =>
    (rnti, metric kind ctx (records rnti) rnti rbg)

/-- Hands out one group to a delay group, if it is open and somebody needs it. -/
def hand (kind : ChannelMetric) (ctx : AllocationContext) (records : Rnti → Option QosRecord)
    (members : List Rnti) (round : Round) (rbg : Nat) : Round :=
  if round.isOpen rbg then
    match winner kind ctx records members round rbg with
    | none => round
    | some rnti => round.give ctx rbg rnti
  else round

/-- Serves one delay group. -/
def serve (kind : ChannelMetric) (width : Nat) (ctx : AllocationContext)
    (records : Rnti → Option QosRecord) (candidates : List Rnti) (round : Round) (group : Nat) :
    Round :=
  let members := candidates.filter (delayGroup width ctx · == group)
  (List.range ctx.rbgs).foldl (hand kind ctx records members) round

/-- Serves the delay groups, the oldest first. -/
def allocate (kind : ChannelMetric) (width : Nat) (ctx : AllocationContext)
    (candidates : List Rnti) (records : Rnti → Option QosRecord) : Allocation :=
  .ofAssignment ((delayGroups width ctx candidates).foldl
    (serve kind width ctx records candidates) (start ctx candidates)).assignment

end QosAware

/-- Channel and QoS aware scheduling. -/
def Policy.cqa (kind : ChannelMetric) (width : Nat) : Policy QosRecord where
  name := Algorithm.cqa.name
  fresh := .fresh
  setBearers := QosRecord.setBearers
  record := QosRecord.record
  allocate := QosAware.allocate kind width

end LteMac
