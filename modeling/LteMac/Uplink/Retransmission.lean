import LteMac.Scheduler.Request

/-!
# Uplink retransmissions

The outcomes reported in a subframe concern the blocks granted seven subframes ago. A delivered
block frees its process. A failed one moves to the process of the present subframe and is granted
the same blocks again, unless they are taken.
-/

namespace LteMac.UplinkRetry

/-- A pass over the outcomes. -/
structure Round where
  /-- The UEs, with their processes as the outcomes leave them. -/
  ues : Table Rnti UplinkUe
  /-- The blocks still free. -/
  occupancy : Occupancy
  /-- Who is given which block. -/
  map : BlockMap
  /-- The grants so far. -/
  sent : List UplinkGrant

namespace Round

/-- Whether a UE was served in this pass. -/
def served (round : Round) (rnti : Rnti) : Bool := round.sent.any (·.rnti == rnti)

/-- The number of UEs served in this pass. -/
def servedCount (round : Round) : Nat := ((round.sent.map (·.rnti)).eraseDups).length

/-- Sets the processes of a UE. -/
def setEntity (round : Round) (rnti : Rnti) (u : UplinkUe) (harq : UplinkEntity) : Round :=
  { round with ues := round.ues.insert rnti { u with harq } }

/-- Grants the blocks of a failed block again, if all of them are free. -/
def send (round : Round) (grant : UplinkGrant) (rnti : Rnti) : Round :=
  if grant.blocks.all round.occupancy.isFree then
    { round with
      occupancy := round.occupancy.occupy grant.blocks
      map := round.map.assign grant.blocks rnti
      sent := round.sent ++ [{ grant with ndi := 0 }] }
  else round

/-- Acts upon an outcome. -/
def handle (round : Round) (o : UplinkOutcome) : Round :=
  match round.ues[o.rnti]?, o.reception with
  | none, _ | _, .notValid => round
  | some u, .ok => round.setEntity o.rnti u u.harq.acknowledge
  | some u, .notOk =>
    let (retry, harq) := u.harq.retry
    let round := round.setEntity o.rnti u harq
    match retry with
    | .noBlock | .dropped => round
    | .again grant => round.send grant o.rnti

end Round

end LteMac.UplinkRetry
