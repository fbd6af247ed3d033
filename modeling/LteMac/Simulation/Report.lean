import LteMac.Simulation.Cell

/-!
# Runs and their reports

A run configures each cell, lets it serve its UEs for a number of subframes, releases them, and
reports what was sent. After the release nothing is left in the scheduler, so whatever it still
holds is reported as well.
-/

namespace LteMac

/-- What a cell reports after a run. -/
structure CellReport where
  cell : Nat
  primary : Bool
  algorithm : String
  subframes : Nat
  /-- Random accesses that were answered. -/
  accesses : Nat
  ues : List (Rnti × Tally)
  /-- What the scheduler holds after the release. -/
  residual : TableSizes
deriving DecidableEq

namespace Cell

variable {Record : Type}

/-- The UEs of a carrier of a scenario, by RNTI. -/
def playersOf (s : Scenario) (index : Nat) : Table Rnti Player :=
  (s.ues.filter (·.carrier == index)).foldl (fun t ue => t.insert ue.rnti (.start ue)) ∅

/-- The bearer of a UE. -/
def bearerOf (ue : UeProfile) : Bearer :=
  ⟨playedLcid, ue.guaranteed.map (· * 1000)⟩

/-- How a cell is set up. -/
def setup (s : Scenario) (carrier : Carrier) (players : Table Rnti Player) : List Request :=
  let rbgs := rbgCount carrier.downlinkBandwidth
  [.connect true true,
    .configureCell carrier.downlinkBandwidth carrier.uplinkBandwidth,
    .installReuse (s.plan.policy rbgs carrier.uplinkBandwidth)] ++
  players.values.flatMap fun p =>
    [.configureUe p.profile.rnti p.profile.mode,
      .configureBearers p.profile.rnti [bearerOf p.profile]]

/-- A cell of a scenario at the beginning of a run. -/
def start (policy : Policy Record) (s : Scenario) (carrier : Carrier) (index : Nat) :
    Except SchedulerError (Cell Record) := do
  let players := playersOf s index
  return {
    scheduler := ← tellAll policy (.initial s.config) (setup s carrier players)
    players
    blocks := carrier.uplinkBandwidth
    time := ⟨0⟩
    tick := 0
    feedback := []
    outcomes := []
    samples := none
    accesses := 0 }

/-- A cell after its UEs were released. -/
def release (policy : Policy Record) (c : Cell Record) : Except SchedulerError (Cell Record) := do
  return { c with
    scheduler := ← tellAll policy c.scheduler (c.players.keys.map .releaseUe) }

/-- What a cell reports. -/
def report (c : Cell Record) (s : Scenario) (carrier : Carrier) (index : Nat) : CellReport where
  cell := index + 1
  primary := carrier.primary
  algorithm := s.algorithm.name
  subframes := s.subframes
  accesses := c.accesses
  ues := c.players.toList.map fun (rnti, p) => (rnti, p.tally)
  residual := c.scheduler.sizes

end Cell

namespace Scenario

/-- Runs the cell of one carrier. -/
def runCell (s : Scenario) (carrier : Carrier) (index : Nat) :
    Except SchedulerError CellReport := do
  let policy := s.algorithm.policy s.config
  let c ← Cell.start policy s carrier index
  let c ← c.run policy s.subframes
  let c ← c.release policy
  return c.report s carrier index

/-- Runs all cells. They do not influence each other. -/
def run (s : Scenario) : List (Except SchedulerError CellReport) :=
  s.carriers.zipIdx.map fun (carrier, index) => s.runCell carrier index

end Scenario

end LteMac
