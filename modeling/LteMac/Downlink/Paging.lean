import LteMac.Radio.LinkAdaptation
import LteMac.Scheduler.Request

/-!
# Paging

Paging messages go out at the most robust scheme, in the order in which they were queued. Each
takes the least number of the lowest free groups that carries it; a message that does not fit
waits for the next subframe, while shorter ones behind it may go out.
-/

namespace LteMac.Paging

/-- The scheme of every paging message. -/
def mcs : Nat := 0

/-- The least number of groups, of `available`, that carries a message. -/
def fit? (grid : Grid) (available size : Nat) : Option Nat :=
  (List.range' 1 available).find? fun n =>
    size ≤ LinkAdaptation.downlinkBits mcs (n * grid.rbgSize) / 8

/-- The grant of a message on the given groups. -/
def grant (grid : Grid) (rbgs : List Nat) : DownlinkGrant where
  rnti := pagingRnti
  bitmap := .ofIndices rbgs
  tbs := [LinkAdaptation.downlinkBytes mcs (rbgs.length * grid.rbgSize)]
  mcs := [mcs]
  ndi := [1]
  rv := [0]
  process := 0
  tpc := tpcNeutral

/-- A pass over the queue: the groups still free, the messages sent and those that wait. -/
structure Round where
  /-- The groups still free. -/
  occupancy : Occupancy
  /-- The messages sent so far. -/
  sent : List PagingGrant
  /-- The messages that did not fit. -/
  waiting : List PagingMessage

/-- Sends a message, or lets it wait. -/
def Round.send (grid : Grid) (round : Round) (message : PagingMessage) : Round :=
  let available := round.occupancy.freeBlocks
  match fit? grid available.length message.size with
  | none => { round with waiting := round.waiting ++ [message] }
  | some n =>
    let rbgs := available.take n
    { round with
      occupancy := round.occupancy.occupy rbgs
      sent := round.sent ++ [⟨message.index, grant grid rbgs⟩] }

/-- Goes through the queue. -/
def sendAll (grid : Grid) (occupancy : Occupancy) (queue : List PagingMessage) : Round :=
  queue.foldl (Round.send grid) ⟨occupancy, [], []⟩

end LteMac.Paging
