import LteMac.Harq.Downlink
import LteMac.Harq.Uplink
import LteMac.Numeric.Sum
import LteMac.Policy.Basic
import LteMac.Quality.Downlink
import LteMac.Quality.Uplink
import LteMac.Radio.Subframe
import LteMac.Radio.TransmissionMode
import LteMac.Reuse.Policy
import LteMac.Scheduler.Error
import LteMac.Scheduler.Occupancy

/-!
# The state of a scheduler

The state of a cell falls into three parts. What the control plane sets up (grid, reuse policy,
UEs and their bearers) is shared; the downlink and the uplink each keep what they need to decide
their subframes. The only traffic between the directions is a random access: it is answered in a
downlink subframe with blocks of the next uplink subframe.
-/

namespace LteMac

/-- A UE as the control plane set it up. -/
structure Ue where
  /-- Its transmission mode. -/
  mode : TransmissionMode
  /-- Its bearers, by channel. -/
  bearers : Table Lcid Bearer

/-- A UE as the downlink sees it. -/
structure DownlinkUe (Record : Type) where
  /-- What the policy ranks the UE by. -/
  record : Record
  /-- What waits, by channel. -/
  queues : Table Lcid RlcQueue
  /-- Control elements to send, once some were asked for. -/
  elements : Option ControlElements

namespace DownlinkUe

variable {Record : Type}

/-- A UE with nothing to receive. -/
def idle (record : Record) : DownlinkUe Record := ⟨record, ∅, none⟩

/-- Whether anything waits for the UE. -/
def hasData (u : DownlinkUe Record) : Bool :=
  u.elements.any (!·.isEmpty) || u.queues.values.any (·.pending)

end DownlinkUe

/-- A preamble heard on the random access channel. -/
structure Preamble where
  /-- The identity that the answer is to give the UE. -/
  rnti : Rnti
  /-- Which preamble was sent. -/
  id : Nat
  /-- Bits the UE wants to send. -/
  size : Nat
deriving DecidableEq

/-- A message for the paging channel. -/
structure PagingMessage where
  index : Nat
  /-- Bytes. -/
  size : Nat
deriving DecidableEq

/-- The downlink of a cell. -/
structure DownlinkState (Record : Type) where
  /-- Downlink triggers so far. -/
  tti : Nat
  /-- The configured UEs. -/
  ues : Table Rnti (DownlinkUe Record)
  /-- How well they receive. -/
  quality : DownlinkQuality
  /-- Their processes. -/
  harq : DownlinkHarq
  /-- Feedback that still has to be acted upon, the oldest first. -/
  feedback : List HarqFeedback
  /-- Messages that wait to be broadcast, the oldest first. -/
  paging : List PagingMessage
  /-- Whose turn it is. -/
  cursor : Rnti

/-- A UE as the uplink sees it. -/
structure UplinkUe where
  /-- What it sent. -/
  throughput : Throughput
  /-- Its processes. -/
  harq : UplinkEntity
  /-- Bytes the UE is taken to hold, once it has said so. -/
  buffer : Option Nat
  /-- Whether the UE asked to send. -/
  requested : Bool

namespace UplinkUe

/-- A UE with nothing to send. -/
def idle (start : Nat) : UplinkUe := ⟨.fresh start, .fresh, none, false⟩

/-- Bytes the UE is taken to hold. -/
def pending (u : UplinkUe) : Nat := u.buffer.getD 0

end UplinkUe

/-- Subframes whose block maps are kept. -/
def historyDepth : Nat := 16

/-- The uplink of a cell. -/
structure UplinkState where
  /-- The configured UEs. -/
  ues : Table Rnti UplinkUe
  /-- How well they are received. -/
  quality : UplinkQuality
  /-- Blocks of the next subframe that answer a random access. -/
  reserved : BlockMap
  /-- Who was given which block in past subframes, the latest last. -/
  history : List (Subframe × BlockMap)
  /-- Whose turn it is. -/
  cursor : Rnti

/-- The state of a scheduler whose policy keeps records of type `Record`. -/
structure SchedulerState (Record : Type) where
  /-- The parameters. -/
  config : SchedulerConfig
  /-- Whether somebody listens to the answers of the control plane. -/
  controlConnected : Bool
  /-- Whether somebody listens to the decisions. -/
  dataConnected : Bool
  /-- The grid, once the cell is configured. -/
  grid : Option Grid
  /-- How the grid is shared with the neighbours. -/
  reuse : ReusePolicy
  /-- Whether the reuse policy was installed, rather than made up with the cell. -/
  reuseInstalled : Bool
  /-- The configured UEs. -/
  ues : Table Rnti Ue
  /-- Preambles that still have to be answered. -/
  preambles : List Preamble
  /-- The downlink. -/
  downlink : DownlinkState Record
  /-- The uplink. -/
  uplink : UplinkState

namespace SchedulerState

variable {Record : Type}

/-- A scheduler before its first request. -/
def initial (config : SchedulerConfig) : SchedulerState Record where
  config
  controlConnected := false
  dataConnected := false
  grid := none
  reuse := .full 0 0
  reuseInstalled := false
  ues := ∅
  preambles := []
  downlink :=
    { tti := 0, ues := ∅, quality := .empty config.cqiThreshold, harq := .empty, feedback := []
      paging := [], cursor := 0 }
  uplink :=
    { ues := ∅, quality := .empty config.cqiThreshold, reserved := .empty 0, history := []
      cursor := 0 }

/-- The grid, or a refusal. -/
def requireGrid (s : SchedulerState Record) : Except SchedulerError Grid :=
  match s.grid with
  | some grid => .ok grid
  | none => .error .cellNotConfigured

/-- Refuses a UE that is not configured. -/
def requireUe (s : SchedulerState Record) (rnti : Rnti) : Except SchedulerError Unit :=
  if s.ues.contains rnti then .ok () else .error (.unknownUe rnti)

/-- Refuses while nobody listens to the answers of the control plane. -/
def requireControl (s : SchedulerState Record) : Except SchedulerError Unit :=
  if s.controlConnected then .ok () else .error (.notConnected .control)

/-- Refuses while nobody listens to the decisions. -/
def requireData (s : SchedulerState Record) : Except SchedulerError Unit :=
  if s.dataConnected then .ok () else .error (.notConnected .data)

/-- Layers of a grant to a UE. -/
def layers (s : SchedulerState Record) (rnti : Rnti) : Nat :=
  s.ues[rnti]?.elim 1 (·.mode.layers)

/-- The RNTIs of a list from the cursor on, then those before it. -/
def rotation (rntis : List Rnti) (cursor : Rnti) : List Rnti :=
  rntis.filter (cursor ≤ ·) ++ rntis.filter (· < cursor)

end SchedulerState

/-- How much each part of a scheduler holds. -/
structure TableSizes where
  ues : Nat
  logicalChannels : Nat
  rlcBuffers : Nat
  downlinkHarq : Nat
  uplinkHarq : Nat
  downlinkQuality : Nat
  uplinkQuality : Nat
  downlinkFlows : Nat
  uplinkFlows : Nat
  uplinkBuffers : Nat
  requests : Nat
  controlElements : Nat
  bufferedFeedback : Nat
  preambles : Nat
  /-- Blocks that answer a random access. -/
  accessBlocks : Nat
  /-- Blocks in the kept block maps that belong to somebody. -/
  assignedBlocks : Nat
deriving DecidableEq

namespace TableSizes

/-- Nothing is held. -/
def zero : TableSizes := ⟨0, 0, 0, 0, 0, 0, 0, 0, 0, 0, 0, 0, 0, 0, 0, 0⟩

end TableSizes

/-- How much a scheduler holds. -/
def SchedulerState.sizes {Record : Type} (s : SchedulerState Record) : TableSizes where
  ues := s.ues.size
  logicalChannels := sumBy (·.bearers.size) s.ues.values
  rlcBuffers := sumBy (·.queues.size) s.downlink.ues.values
  downlinkHarq := s.downlink.harq.size
  uplinkHarq := s.uplink.ues.size
  downlinkQuality := s.downlink.quality.size
  uplinkQuality := s.uplink.quality.size
  downlinkFlows := s.downlink.ues.size
  uplinkFlows := s.uplink.ues.size
  uplinkBuffers := s.uplink.ues.values.countP (·.buffer.isSome)
  requests := s.uplink.ues.values.countP (·.requested)
  controlElements := s.downlink.ues.values.countP (·.elements.isSome)
  bufferedFeedback := s.downlink.feedback.length
  preambles := s.preambles.length
  accessBlocks := s.uplink.reserved.held
  assignedBlocks := sumBy (·.2.held) s.uplink.history

end LteMac
