import LteMac.Scheduler.Intake
import LteMac.Uplink.NewData
import LteMac.Uplink.Retransmission

/-!
# An uplink subframe

One uplink trigger ages the quality reports, tells every UE what became of its block, and hands
out the subframe: the blocks that answer random accesses are taken already, retransmissions come
next, then new data. Who was given which block is kept for the quality reports that come in
later. The averages of all UEs take in the subframe, the synchronous processes move on, and so
does the turn.
-/

namespace LteMac.UplinkTrigger

variable {Record : Type}

/-- What a UE is told about its block, if anything can be said. -/
def acknowledgement? (o : UplinkOutcome) : Option (Rnti × Bool) :=
  match o.reception with
  | .ok => some (o.rnti, true)
  | .notOk => some (o.rnti, false)
  | .notValid => none

/-- A UE that asked to send is taken to hold a little, unless it said how much it holds. -/
def noteRequest (bytes : Nat) (u : UplinkUe) : UplinkUe :=
  if u.requested then
    { u with
      requested := false
      buffer := some (if u.pending = 0 then bytes else u.pending) }
  else u

/-- The uplink blocks that are usable cell-wide and not reserved. -/
def occupancy (grid : Grid) (usable : List Bool) (reserved : BlockMap) : Occupancy :=
  .ofFlags grid.uplink (flags grid.uplink fun i => flagAt usable i && reserved.isFree i)

/-- Retransmissions, if there are any in this cell. -/
def retransmit (harqEnabled : Bool) (round : UplinkRetry.Round) (outcomes : List UplinkOutcome) :
    UplinkRetry.Round :=
  if harqEnabled then outcomes.foldl UplinkRetry.Round.handle round else round

/-- The UEs that may get new blocks, in the order of their turns. -/
def candidates (s : SchedulerState Record) (round : UplinkRetry.Round) : List Rnti :=
  (SchedulerState.rotation s.ues.keys s.uplink.cursor).filter fun rnti =>
    !round.served rnti && round.ues[rnti]?.any (0 < ·.pending)

/-- The length of a stretch: the usable blocks shared evenly among all UEs of the subframe, but
no less than the minimum and no more than the reuse policy has room for. -/
def stretchLength (s : SchedulerState Record) (grid : Grid) (usable : List Bool) (flows : Nat) :
    Nat :=
  min (min (max (usable.count true / flows) UplinkNew.minLength) s.reuse.contiguousBlocks)
    grid.uplink

/-- The block maps kept after a subframe: the latest ones, one for each subframe. -/
def remember (history : List (Subframe × BlockMap)) (time : Subframe) (map : BlockMap) :
    List (Subframe × BlockMap) :=
  let kept := history.filter (·.1 ≠ time) ++ [(time, map)]
  kept.drop (kept.length - historyDepth)

/-- The bytes of new blocks that a UE was granted. -/
def bytesOf (sent : List UplinkGrant) (rnti : Rnti) : Nat :=
  (sent.find? (·.rnti == rnti)).elim 0 (·.tbs)

/-- A UE at the end of a subframe. -/
def close (config : SchedulerConfig) (sent : List UplinkGrant) (rnti : Rnti) (u : UplinkUe) :
    UplinkUe :=
  { u with
    throughput := u.throughput.record (bytesOf sent rnti) config.timeWindow
    harq := if config.harqEnabled then u.harq.advance else u.harq }

/-- New blocks for the candidates, on what the retransmissions left. -/
def sendNew (s : SchedulerState Record) (grid : Grid) (usable : List Bool)
    (quality : UplinkQuality) (retries : UplinkRetry.Round) (candidates : List Rnti) :
    UplinkNew.Round :=
  let start : UplinkNew.Round := ⟨retries.ues, quality, retries.occupancy, retries.map, 0, []⟩
  if candidates.isEmpty then start
  else
    let flows := candidates.length + retries.servedCount
    let setting : UplinkNew.Setting :=
      ⟨s.config.harqEnabled, s.reuse, stretchLength s grid usable flows⟩
    setting.serveAll start candidates

/-- The turn after a subframe with the given candidates. -/
def nextTurn (cursor : Rnti) (candidates : List Rnti) : Rnti :=
  candidates.head?.elim cursor (· + 1)

/-- Decides an uplink subframe. -/
def decide (s : SchedulerState Record) (grid : Grid) (time : Subframe)
    (outcomes : List UplinkOutcome) : Outcome Record :=
  let usable := s.reuse.uplinkFlags
  let ues := s.uplink.ues.map fun _ u => noteRequest s.config.requestBytes u
  let retries := retransmit s.config.harqEnabled
    ⟨ues, occupancy grid usable s.uplink.reserved, s.uplink.reserved, []⟩ outcomes
  let candidates := candidates s retries
  let new := sendNew s grid usable s.uplink.quality.refresh retries candidates
  let uplink : UplinkState :=
    { ues := new.ues.map (close s.config new.sent)
      quality := new.quality
      reserved := .empty grid.uplink
      history := remember s.uplink.history time new.map
      cursor := nextTurn s.uplink.cursor candidates }
  ({ s with uplink },
    [.uplink ⟨retries.sent ++ new.sent, outcomes.filterMap acknowledgement?⟩])

/-- Runs an uplink trigger. -/
def run (s : SchedulerState Record) (time : Subframe) (outcomes : List UplinkOutcome) :
    Except SchedulerError (Outcome Record) := do
  s.requireData
  let grid ← s.requireGrid
  s.requireUes (outcomes.map (·.rnti))
  return decide s grid time outcomes

end LteMac.UplinkTrigger
