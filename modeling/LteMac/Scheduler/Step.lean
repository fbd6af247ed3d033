import LteMac.Downlink.Trigger
import LteMac.Policy.EqualThroughput
import LteMac.Policy.QosAware
import LteMac.Policy.ThroughputToAverage
import LteMac.Scheduler.Intake
import LteMac.Uplink.Trigger

/-!
# Schedulers at work

A scheduler answers one request after the other. `SchedulerState.step` either refuses a request,
and then there is no new state, or gives the state afterwards and what was said.
-/

namespace LteMac.SchedulerState

variable {Record : Type}

/-- Answers a request. -/
def step (policy : Policy Record) (s : SchedulerState Record) :
    Request → Except SchedulerError (Outcome Record)
  | .connect control data =>
    .ok ({ s with
      controlConnected := s.controlConnected || control
      dataConnected := s.dataConnected || data }, [])
  | .installReuse reuse => s.installReuse reuse
  | .configureCell downlink uplink => s.configureCell downlink uplink
  | .configureUe rnti mode => s.configureUe policy rnti mode
  | .reconfigureUe rnti mode => s.reconfigureUe rnti mode
  | .configureBearers rnti bearers => s.configureBearers policy rnti bearers
  | .reconfigureBearers rnti => s.reconfigureBearers rnti
  | .releaseBearers rnti lcids => s.releaseBearers policy rnti lcids
  | .releaseUe rnti => s.releaseUe rnti
  | .queue rnti lcid queue => s.setQueue rnti lcid queue
  | .paging messages => s.queuePaging messages
  | .controlElements rnti elements => s.addElements rnti elements
  | .randomAccess preambles => s.hearPreambles preambles
  | .quality reports => s.takeQuality reports
  | .downlinkTrigger feedback => DownlinkTrigger.run policy s feedback
  | .uplinkTrigger time outcomes => UplinkTrigger.run s time outcomes
  | .noise => s.takeNoise
  | .schedulingRequests rntis => s.takeRequests rntis
  | .uplinkControls controls => s.takeControls controls
  | .sinr time source codes rnti => s.takeSinr time source codes rnti

end LteMac.SchedulerState

namespace LteMac

/-- The algorithm with a given name, or a refusal. -/
def chooseAlgorithm (name : String) : Except SchedulerError Algorithm :=
  match Algorithm.ofName? name with
  | some algorithm => .ok algorithm
  | none => .error (.unknownAlgorithm name)

/-- A carrier as its station serves it. -/
structure ServedCarrier where
  carrier : Carrier
  cell : Nat
  algorithm : Algorithm
deriving DecidableEq

/-- Serves a carrier with the algorithm of a given name. -/
def serveCarrier (carrier : Carrier) (cell : Nat) (algorithm : String) :
    Except SchedulerError ServedCarrier :=
  (chooseAlgorithm algorithm).map fun algorithm => ⟨carrier, cell, algorithm⟩

end LteMac
