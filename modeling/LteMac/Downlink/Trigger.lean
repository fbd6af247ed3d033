import LteMac.Downlink.Access
import LteMac.Downlink.NewData
import LteMac.Downlink.Paging
import LteMac.Numeric.Sum

/-!
# A downlink subframe

One downlink trigger ages what the cell knows and then hands out the subframe in order of
priority: answers to random accesses (in blocks of the uplink), paging, retransmissions, and last
new data, as the policy sees fit. Each stage takes its groups from what the ones before it left.
The averages of all UEs take in the subframe, and the turn moves on behind the first candidate.
-/

namespace LteMac.DownlinkTrigger

variable {Record : Type}

/-- Refuses feedback of an unknown UE or process. -/
def requireFeedback (s : SchedulerState Record) (f : HarqFeedback) :
    Except SchedulerError Unit := do
  s.requireUe f.rnti
  if harqProcesses ≤ f.process then throw (.invalidProcess f.rnti f.process)

/-- The downlink one subframe later: reports and processes are a subframe older, and feedback on
blocks that were given up is dropped. -/
def age (d : DownlinkState Record) : DownlinkState Record :=
  let gone := d.harq.expiring
  { d with
    tti := d.tti + 1
    quality := d.quality.refresh
    harq := d.harq.refresh
    feedback := d.feedback.filter fun f => !gone.contains (f.rnti, f.process) }

/-- Retransmissions, if there are any in this cell. -/
def retransmit (s : SchedulerState Record) (occupancy : Occupancy)
    (feedback : List HarqFeedback) : Retransmission.Round :=
  let d := s.downlink
  if s.config.harqEnabled then
    Retransmission.handleAll s.reuse d.harq occupancy (d.feedback ++ feedback)
  else ⟨d.harq, occupancy, d.feedback, []⟩

/-- The UEs that may get new data, in the order of their turns: those that were not served yet,
have something to receive and a process to carry it. -/
def candidates (s : SchedulerState Record) (harq : DownlinkHarq) (served : Rnti → Bool) :
    List Rnti :=
  (SchedulerState.rotation s.ues.keys s.downlink.cursor).filter fun rnti =>
    !served rnti && s.downlink.ues[rnti]?.any (·.hasData) &&
      (!s.config.harqEnabled || harq.isAvailable rnti)

/-- What the policy sees. -/
def context (s : SchedulerState Record) (grid : Grid) (occupancy : Occupancy) :
    AllocationContext where
  rbgSize := grid.rbgSize
  window := s.config.timeWindow
  free := occupancy.free.toList
  reuse := s.reuse
  quality := s.downlink.quality
  layers := s.layers
  queues rnti := s.downlink.ues[rnti]?.elim [] (·.queues.values)

/-- What the policy proposes. -/
def proposal (policy : Policy Record) (s : SchedulerState Record) (grid : Grid)
    (occupancy : Occupancy) (candidates : List Rnti) : Allocation :=
  policy.allocate (context s grid occupancy) candidates fun rnti =>
    s.downlink.ues[rnti]?.map (·.record)

/-- What new data can be sent with. -/
def setting (s : SchedulerState Record) (grid : Grid) : NewData.Setting where
  harqEnabled := s.config.harqEnabled
  grid
  reuse := s.reuse
  quality := s.downlink.quality
  layers := s.layers

/-- New data for the candidates, on what the retransmissions left. -/
def sendNew (policy : Policy Record) (s : SchedulerState Record) (grid : Grid)
    (retries : Retransmission.Round) (candidates : List Rnti) : NewData.Round Record :=
  let start : NewData.Round Record :=
    ⟨s.downlink.ues, retries.harq, retries.kept, retries.occupancy, []⟩
  if candidates.isEmpty || retries.occupancy.freeBlocks.isEmpty then start
  else
    let proposal := proposal policy s grid retries.occupancy candidates
    candidates.foldl ((setting s grid).serve proposal) start

/-- The bytes of new data that a UE was sent. -/
def bytesOf (sent : List DataGrant) (rnti : Rnti) : Nat :=
  (sent.find? (·.rnti == rnti)).elim 0 fun g => sumBy id g.grant.tbs

/-- Every UE after its record took in the subframe. -/
def recordAll (policy : Policy Record) (window : Float) (sent : List DataGrant)
    (ues : Table Rnti (DownlinkUe Record)) : Table Rnti (DownlinkUe Record) :=
  ues.map fun rnti u => { u with record := policy.record (bytesOf sent rnti) window u.record }

/-- The turn after a subframe with the given candidates. -/
def nextTurn (cursor : Rnti) (candidates : List Rnti) : Rnti :=
  candidates.head?.elim cursor (· + 1)

/-- Decides a downlink subframe. -/
def decide (policy : Policy Record) (s : SchedulerState Record) (grid : Grid)
    (feedback : List HarqFeedback) : Outcome Record :=
  let (uplink, access) := Access.answerAll s grid
  let s := { s with preambles := [], downlink := age s.downlink, uplink }
  let paged := Paging.sendAll grid (.ofFlags grid.rbgCount s.reuse.downlinkFlags)
    s.downlink.paging
  let retries := retransmit s paged.occupancy feedback
  let candidates := candidates s retries.harq retries.served
  let new := sendNew policy s grid retries candidates
  let downlink := { s.downlink with
    ues := recordAll policy s.config.timeWindow new.sent new.ues
    harq := new.harq
    feedback := new.feedback
    paging := paged.waiting
    cursor := nextTurn s.downlink.cursor candidates }
  ({ s with downlink }, [.downlink ⟨retries.sent ++ new.sent, access, paged.sent, 1⟩])

/-- Runs a downlink trigger. -/
def run (policy : Policy Record) (s : SchedulerState Record) (feedback : List HarqFeedback) :
    Except SchedulerError (Outcome Record) := do
  s.requireData
  let grid ← s.requireGrid
  feedback.forM (requireFeedback s)
  return decide policy s grid feedback

end LteMac.DownlinkTrigger
