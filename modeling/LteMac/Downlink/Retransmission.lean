import LteMac.Scheduler.Request

/-!
# Downlink retransmissions

Feedback is acted upon in the order in which it came in, at most one block for each UE in a
subframe. A delivered block frees its process, a failed one is sent again: on its former groups if
all of them are usable, else on as many others. What cannot be sent now waits with its feedback for
the next subframe; a block that failed in its last version is given up.
-/

namespace LteMac.Retransmission

/-- A pass over the feedback: the processes, the groups still free, the feedback that waits and
the blocks sent again. -/
structure Round where
  /-- The processes, as the feedback leaves them. -/
  harq : DownlinkHarq
  /-- The groups still free. -/
  occupancy : Occupancy
  /-- The feedback that waits. -/
  kept : List HarqFeedback
  /-- The blocks sent again so far. -/
  sent : List DataGrant

/-- Whether a group can be given to a UE. -/
def usable (reuse : ReusePolicy) (occupancy : Occupancy) (rnti : Rnti) (rbg : Nat) : Bool :=
  occupancy.isFree rbg && reuse.downlinkAllowed rbg rnti

/-- The groups for a block that was on `former`. -/
def place? (reuse : ReusePolicy) (occupancy : Occupancy) (rnti : Rnti) (former : List Nat) :
    Option (List Nat) :=
  if former.all (usable reuse occupancy rnti) then some former
  else
    let others :=
      ((List.range occupancy.size).filter (usable reuse occupancy rnti)).take former.length
    if others.length < former.length then none else some others

/-- The grant of a block that is sent again on the given groups. -/
def again (grant : DownlinkGrant) (rbgs : List Nat) : DownlinkGrant :=
  { grant with
    bitmap := .ofIndices rbgs
    ndi := grant.ndi.map fun _ => 0
    rv := grant.rv.map (· + 1) }

/-- Whether a block was sent in its last version. -/
def exhausted (grant : DownlinkGrant) : Bool := maxRedundancyVersion ≤ grant.rv.foldl max 0

namespace Round

/-- Whether a UE was served in this pass. -/
def served (round : Round) (rnti : Rnti) : Bool := round.sent.any (·.rnti == rnti)

/-- Frees a process. -/
def free (round : Round) (rnti : Rnti) (id : Nat) : Round :=
  { round with harq := round.harq.set rnti id .free }

/-- Lets feedback wait. -/
def keep (round : Round) (f : HarqFeedback) : Round :=
  { round with kept := round.kept ++ [f] }

/-- Sends the block of a process again. -/
def send (round : Round) (rnti : Rnti) (id : Nat) (p : DownlinkProcess) (grant : DownlinkGrant)
    (rbgs : List Nat) : Round :=
  let grant := again grant rbgs
  { round with
    harq := round.harq.set rnti id ⟨p.status + 1, 0, some grant, p.pdus⟩
    occupancy := round.occupancy.occupy rbgs
    sent := round.sent ++ [⟨rnti, grant, .empty, p.pdus⟩] }

/-- Acts upon a failed block. -/
def retry (reuse : ReusePolicy) (round : Round) (f : HarqFeedback) (p : DownlinkProcess) :
    Round :=
  if round.served f.rnti then round.keep f
  else
    match p.grant with
    | none => round.free f.rnti f.process
    | some grant =>
      if exhausted grant then round.free f.rnti f.process
      else
        match place? reuse round.occupancy f.rnti grant.bitmap.indices with
        | none => round.keep f
        | some rbgs => round.send f.rnti f.process p grant rbgs

/-- Acts upon feedback. -/
def handle (reuse : ReusePolicy) (round : Round) (f : HarqFeedback) : Round :=
  match round.harq.process? f.rnti f.process with
  | none => round
  | some p =>
    if p.isFree then round
    else if p.isOverdue || !f.isNack then round.free f.rnti f.process
    else round.retry reuse f p

end Round

/-- Acts upon a list of feedback. -/
def handleAll (reuse : ReusePolicy) (harq : DownlinkHarq) (occupancy : Occupancy)
    (feedback : List HarqFeedback) : Round :=
  feedback.foldl (Round.handle reuse) ⟨harq, occupancy, [], []⟩

end LteMac.Retransmission
