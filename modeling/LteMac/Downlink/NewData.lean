import LteMac.Downlink.Retransmission
import LteMac.Radio.LinkAdaptation

/-!
# New downlink data

The policy proposes which candidate gets which free group, and the candidates are served in the
order of their turns: the groups are checked and taken, the scheme is chosen for the worst of
them on each layer, the block is shared evenly among the channels with something to send, and a
process carries it. A UE that cannot be served, because a layer has no usable quality or no
process is available, gives its groups back.
-/

namespace LteMac

namespace RlcQueue

/-- Header bytes of a segment: the acknowledged mode of the first signalling channel has the
longer one. -/
def overhead (lcid : Lcid) : Nat := if lcid = 1 then 4 else 2

/-- What is left in a queue once its channel was given `size` bytes: they go to a waiting status
report, if it fits, else to a waiting retransmission, if it fits, else to new data. -/
def drain (lcid : Lcid) (q : RlcQueue) (size : Nat) : RlcQueue :=
  if 0 < q.status && q.status ≤ size then { q with status := 0 }
  else if 0 < q.retransmission && q.retransmission ≤ size then { q with retransmission := 0 }
  else { q with transmission := q.transmission - (size - overhead lcid) }

end RlcQueue

namespace NewData

/-- A pass over the candidates. -/
structure Round (Record : Type) where
  /-- The UEs, with what still waits for them. -/
  ues : Table Rnti (DownlinkUe Record)
  /-- The processes, with the blocks sent so far. -/
  harq : DownlinkHarq
  /-- Feedback that waits. -/
  feedback : List HarqFeedback
  /-- The groups still free. -/
  occupancy : Occupancy
  /-- The blocks sent so far. -/
  sent : List DataGrant

/-- What stays the same during a pass. -/
structure Setting where
  /-- Whether the cell retransmits. -/
  harqEnabled : Bool
  /-- The grid of the cell. -/
  grid : Grid
  /-- Who may have which group. -/
  reuse : ReusePolicy
  /-- How well the UEs receive. -/
  quality : DownlinkQuality
  /-- Layers of a grant to a UE. -/
  layers : Rnti → Nat

variable {Record : Type}

/-- Takes those of the proposed groups that a UE may have. -/
def claim (reuse : ReusePolicy) (rnti : Rnti) (occupancy : Occupancy) :
    List Nat → Occupancy × List Nat
  | [] => (occupancy, [])
  | rbg :: rest =>
    if Retransmission.usable reuse occupancy rnti rbg then
      let (occupancy, rbgs) := claim reuse rnti (occupancy.occupy [rbg]) rest
      (occupancy, rbg :: rbgs)
    else claim reuse rnti occupancy rest

/-- The channels with something to send, ascending. -/
def activeChannels (queues : Table Lcid RlcQueue) : List Lcid :=
  (queues.filter fun _ q => q.pending).keys

/-- The shares of the active channels, by channel, then layer. -/
def share (channels : List Lcid) (tbs : List Nat) : List (List Pdu) :=
  channels.map fun lcid => tbs.map fun tb => ⟨lcid, tb / channels.length⟩

/-- What is left in the queues once each channel was given its shares. -/
def drainAll (queues : Table Lcid RlcQueue) (channels : List Lcid) (tbs : List Nat) :
    Table Lcid RlcQueue :=
  let drainChannel (queues : Table Lcid RlcQueue) (lcid : Lcid) : Table Lcid RlcQueue :=
    queues.modify lcid fun q =>
      (tbs.map (· / channels.length)).foldl (RlcQueue.drain lcid) q
  channels.foldl drainChannel queues

namespace Setting

variable (setting : Setting)

/-- The worst quality of a layer over the given groups. -/
def layerCqi (rnti : Rnti) (rbgs : List Nat) (layer : Nat) : Nat :=
  (rbgs.map fun rbg => (setting.quality.effective? rnti rbg layer).getD defaultCqi).min?.getD
    defaultCqi

/-- The worst quality of each layer. -/
def layerCqis (rnti : Rnti) (rbgs : List Nat) : List Nat :=
  (List.range (setting.layers rnti)).map (setting.layerCqi rnti rbgs)

/-- The process for a new block, with the processes after its assignment. -/
def process? (harq : DownlinkHarq) (rnti : Rnti) : Option (Nat × DownlinkHarq) :=
  if setting.harqEnabled then harq.advance? rnti else some (0, harq)

/-- The grant of a new block on the given groups, at a quality for each layer. -/
def grant (rnti : Rnti) (rbgs cqis : List Nat) (process : Nat) : DownlinkGrant :=
  let mcs := cqis.map LinkAdaptation.mcsOfCqi
  { rnti
    bitmap := .ofIndices rbgs
    tbs := mcs.map (LinkAdaptation.downlinkBytes · (rbgs.length * setting.grid.rbgSize))
    mcs
    ndi := cqis.map fun _ => 1
    rv := cqis.map fun _ => 0
    process
    tpc := setting.reuse.powerCommand rnti }

/-- Sends new data to a UE on groups it has taken: the pass afterwards, or `none` if the UE cannot
be served. Feedback on the former block of the process says nothing any more. -/
def send? (round : Round Record) (rnti : Rnti) (u : DownlinkUe Record) (rbgs : List Nat) :
    Option (Round Record) :=
  let cqis := setting.layerCqis rnti rbgs
  if cqis.contains 0 then none
  else
    match setting.process? round.harq rnti with
    | none => none
    | some (process, harq) =>
      let grant := setting.grant rnti rbgs cqis process
      let channels := activeChannels u.queues
      let pdus := share channels grant.tbs
      let block : DataGrant := ⟨rnti, grant, u.elements.getD .empty, pdus⟩
      let u := { u with queues := drainAll u.queues channels grant.tbs, elements := none }
      some
        { ues := round.ues.insert rnti u
          harq := if setting.harqEnabled then harq.set rnti process (.start grant pdus) else harq
          feedback :=
            if setting.harqEnabled then
              round.feedback.filter fun f => f.rnti ≠ rnti || f.process ≠ process
            else round.feedback
          occupancy := round.occupancy
          sent := round.sent ++ [block] }

/-- Serves a candidate with the groups proposed for it. -/
def serve (proposal : Allocation) (round : Round Record) (rnti : Rnti) : Round Record :=
  let (occupancy, claimed) :=
    claim setting.reuse rnti round.occupancy (proposal.getD rnti [])
  let rbgs := claimed.mergeSort
  match round.ues[rnti]? with
  | none => round
  | some u =>
    if rbgs.isEmpty then round
    else (setting.send? { round with occupancy } rnti u rbgs).getD round

end Setting

end NewData

end LteMac
