import LteMac.Policy.Choice
import LteMac.Scheduler.Step
import LteMac.Simulation.Player

/-!
# Cells of a run

A cell of a run is a scheduler together with the UEs it serves, who answer its decisions: what a
downlink block met is reported `feedbackDelay` subframes later, what an uplink block met
`outcomeDelay` subframes later, and the quality of the uplink blocks of a subframe in the next
one. A subframe is first the reports, then a downlink trigger, then an uplink trigger.
-/

namespace LteMac

/-- Subframes between a downlink block and its feedback. -/
def feedbackDelay : Nat := 4

/-- Bits asked for in the first random access of a UE. -/
def firstAccessBits : Nat := 56

/-- Preambles of a cell. -/
def preambleCount : Nat := 64

/-- A cell of a run. -/
structure Cell (Record : Type) where
  /-- Its scheduler. -/
  scheduler : SchedulerState Record
  /-- Its UEs. -/
  players : Table Rnti Player
  /-- Uplink blocks of its grid. -/
  blocks : Nat
  /-- The present subframe. -/
  time : Subframe
  /-- Subframes so far. -/
  tick : Nat
  /-- Feedback that is on its way, with the subframe in which it arrives. -/
  feedback : List (Nat × HarqFeedback)
  /-- Outcomes that are on their way. -/
  outcomes : List (Nat × UplinkOutcome)
  /-- The quality of the uplink blocks of the last subframe. -/
  samples : Option (Subframe × List UInt16)
  /-- Random accesses that were answered. -/
  accesses : Nat

/-- What is due in a subframe. -/
def dueAt {α : Type} (tick : Nat) (pending : List (Nat × α)) : List α :=
  (pending.filter (·.1 ≤ tick)).map (·.2)

/-- What is due later. -/
def dueAfter {α : Type} (tick : Nat) (pending : List (Nat × α)) : List (Nat × α) :=
  pending.filter (tick < ·.1)

namespace Cell

variable {Record : Type}

/-- A list in a request, unless it is empty. -/
def ifAny {α : Type} (request : List α → Request) (list : List α) : List Request :=
  if list.isEmpty then [] else [request list]

/-- Whether this is a subframe of periodic reports. -/
def isReporting (c : Cell Record) : Bool := c.tick % reportPeriod == 0

/-! ## Reports -/

/-- In the first subframe every UE makes itself heard. -/
def accessRequests (c : Cell Record) : List Request :=
  if c.tick = 0 then
    [.randomAccess (c.players.keys.zipIdx.map fun (rnti, i) =>
      ⟨rnti, i % preambleCount, firstAccessBits⟩)]
  else []

/-- What waits for each UE. -/
def queueRequests (c : Cell Record) : List Request :=
  c.players.values.filterMap (Player.queueReport? c.tick)

/-- The UEs that ask to send, because something arrived at an empty buffer. -/
def asking (c : Cell Record) : List Rnti :=
  if c.isReporting then []
  else (c.players.filter fun _ p => 0 < p.profile.uplinkLoad && p.uplinkQueue == 0).keys

/-- The buffers that are reported. -/
def buffers (c : Cell Record) : List (Rnti × UplinkControl) :=
  if c.isReporting then
    (c.players.values.filter (0 < ·.profile.uplinkLoad)).map Player.bufferReport
  else []

/-- The qualities that are reported. -/
def channelRequests (c : Cell Record) : List Request :=
  if c.isReporting then
    ifAny .quality (c.players.values.map Player.qualityReport) ++
      c.players.values.map (Player.soundingReport c.blocks c.time)
  else []

/-- The quality of the uplink blocks of the last subframe. -/
def sampleRequests (c : Cell Record) : List Request :=
  c.samples.toList.map fun (time, codes) => .sinr time .data codes none

/-- Noise is reported once in a frame. -/
def noiseRequests (c : Cell Record) : List Request :=
  if c.time.index = 0 then [.noise] else []

/-- The cell after the arrivals of a subframe. -/
def arrive (c : Cell Record) : Cell Record :=
  { c with players := c.players.map fun _ => Player.arrive c.tick }

/-- All reports of a subframe, in order. -/
def reports (c : Cell Record) : List Request :=
  let after := c.arrive
  c.accessRequests ++ after.queueRequests ++ ifAny .schedulingRequests c.asking ++
    ifAny .uplinkControls after.buffers ++ c.channelRequests ++ c.sampleRequests ++
    c.noiseRequests

/-! ## Decisions -/

/-- Acts on a downlink block. -/
def takeBlock (c : Cell Record) (g : DataGrant) : Cell Record :=
  match c.players[g.rnti]? with
  | none => c
  | some p =>
    { c with
      players := c.players.insert g.rnti (p.receive g)
      feedback := c.feedback ++ [(c.tick + feedbackDelay, p.feedback g)] }

/-- Acts on the decisions for a downlink subframe. -/
def takeDownlink (c : Cell Record) (d : DownlinkDecision) : Cell Record :=
  d.data.foldl takeBlock { c with accesses := c.accesses + d.access.length }

/-- The codes of the blocks of a subframe after those of a grant were measured. -/
def measure (code : UInt16) (g : UplinkGrant) (codes : List UInt16) : List UInt16 :=
  codes.mapIdx fun i old => if g.start ≤ i ∧ i < g.start + g.length then code else old

/-- Acts on an uplink block. -/
def takeGrant (state : Cell Record × List UInt16) (g : UplinkGrant) :
    Cell Record × List UInt16 :=
  let (c, codes) := state
  match c.players[g.rnti]? with
  | none => (c, codes)
  | some p =>
    ({ c with
      players := c.players.insert g.rnti (p.send g)
      outcomes := c.outcomes ++ [(c.tick + outcomeDelay, p.outcome g)] },
      measure p.sinrCode g codes)

/-- Acts on the decisions for an uplink subframe. -/
def takeUplink (c : Cell Record) (d : UplinkDecision) : Cell Record :=
  let unmeasured := List.replicate c.blocks Sinr.unmeasuredCode
  let (c, codes) := d.grants.foldl takeGrant (c, unmeasured)
  { c with samples := some (c.time, codes) }

/-- Acts on what the scheduler says. -/
def take (c : Cell Record) : Indication → Cell Record
  | .downlink d => c.takeDownlink d
  | .uplink d => c.takeUplink d
  | _ => c

/-! ## Subframes -/

/-- Tells the scheduler something. -/
def tell (policy : Policy Record) (s : SchedulerState Record) (r : Request) :
    Except SchedulerError (SchedulerState Record) :=
  (s.step policy r).map (·.1)

/-- Tells the scheduler several things, in order. -/
def tellAll (policy : Policy Record) (s : SchedulerState Record) (rs : List Request) :
    Except SchedulerError (SchedulerState Record) :=
  rs.foldlM (tell policy) s

/-- The cell after one more subframe. -/
def subframe (policy : Policy Record) (c : Cell Record) :
    Except SchedulerError (Cell Record) := do
  let s ← tellAll policy c.scheduler c.reports
  let (s, downlink) ← s.step policy (.downlinkTrigger (dueAt c.tick c.feedback))
  let (s, uplink) ← s.step policy (.uplinkTrigger c.time (dueAt c.tick c.outcomes))
  let waiting := { c.arrive with
    scheduler := s
    feedback := dueAfter c.tick c.feedback
    outcomes := dueAfter c.tick c.outcomes
    samples := none }
  let c := (downlink ++ uplink).foldl take waiting
  return { c with time := c.time.next, tick := c.tick + 1 }

/-- The cell after some more subframes. -/
def run (policy : Policy Record) : Nat → Cell Record → Except SchedulerError (Cell Record)
  | 0, c => .ok c
  | n + 1, c =>
    match c.subframe policy with
    | .error e => .error e
    | .ok c => run policy n c

end Cell

end LteMac
