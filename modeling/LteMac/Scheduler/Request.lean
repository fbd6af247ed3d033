import LteMac.Radio.Grant
import LteMac.Radio.Subframe
import LteMac.Scheduler.State

/-!
# Requests and indications

Everything a scheduler is asked or told is a `Request`; everything it says in return is an
`Indication`. Both are plain data, so that a run is a list of the one and its outcome a list of
the other.
-/

namespace LteMac

/-- What a scheduler can be asked or told. -/
inductive Request where
  /-- Connects the users that are `true`. -/
  | connect (control data : Bool)
  /-- Replaces the reuse policy. -/
  | installReuse (policy : ReusePolicy)
  /-- Bandwidths, in resource blocks. -/
  | configureCell (downlink uplink : Nat)
  /-- Adds a UE. -/
  | configureUe (rnti : Rnti) (mode : TransmissionMode)
  /-- Replaces the transmission mode of a UE. -/
  | reconfigureUe (rnti : Rnti) (mode : TransmissionMode)
  /-- Adds bearers to a UE, or replaces those of the same channels. -/
  | configureBearers (rnti : Rnti) (bearers : List Bearer)
  /-- Is always refused. -/
  | reconfigureBearers (rnti : Rnti)
  /-- Drops bearers of a UE. -/
  | releaseBearers (rnti : Rnti) (lcids : List Lcid)
  /-- Removes a UE and everything that is known of it. -/
  | releaseUe (rnti : Rnti)
  /-- Tells what waits on a channel of a UE, in place of what was told before. -/
  | queue (rnti : Rnti) (lcid : Lcid) (queue : RlcQueue)
  /-- Adds messages to the paging channel. -/
  | paging (messages : List PagingMessage)
  /-- Asks for control elements to be sent to a UE. -/
  | controlElements (rnti : Rnti) (elements : ControlElements)
  /-- Tells the preambles that were heard. -/
  | randomAccess (preambles : List Preamble)
  /-- Tells the downlink qualities that UEs report. -/
  | quality (reports : List CqiReport)
  /-- Asks for the decisions of a downlink subframe, and tells what became of earlier ones. -/
  | downlinkTrigger (feedback : List HarqFeedback)
  /-- Asks for the decisions of an uplink subframe, and tells what became of earlier ones. -/
  | uplinkTrigger (time : Subframe) (outcomes : List UplinkOutcome)
  /-- Noise and interference; they are not used. -/
  | noise
  /-- Tells which UEs ask for a grant. -/
  | schedulingRequests (rntis : List Rnti)
  /-- Tells the control elements that UEs sent. -/
  | uplinkControls (controls : List (Rnti × UplinkControl))
  /-- Tells what was measured of the uplink in a subframe, and whose sounding it was, if it was
  that. -/
  | sinr (time : Subframe) (source : SinrSource) (codes : List UInt16) (rnti : Option Rnti)

/-- A downlink block for one UE. -/
structure DataGrant where
  /-- The UE that it is for. -/
  rnti : Rnti
  /-- How it is sent. -/
  grant : DownlinkGrant
  /-- The control elements it carries. -/
  elements : ControlElements
  /-- What the block carries, by channel, then layer. -/
  pdus : List (List Pdu)
deriving DecidableEq

/-- The answer to a random access: blocks of the next uplink subframe. -/
structure AccessGrant where
  rnti : Rnti
  preamble : Nat
  start : Nat
  length : Nat
  /-- Transport block size, in bytes. -/
  tbs : Nat
  mcs : Nat
  hopping : Bool
  /-- Power command. -/
  tpc : Nat
  cqiRequest : Bool
  delayed : Bool
deriving DecidableEq

/-- The blocks an access grant occupies. -/
def AccessGrant.blocks (g : AccessGrant) : List Nat := List.range' g.start g.length

/-- A block on the paging channel. -/
structure PagingGrant where
  index : Nat
  grant : DownlinkGrant
deriving DecidableEq

/-- The decisions for a downlink subframe. -/
structure DownlinkDecision where
  /-- Data blocks, those that are sent again first. -/
  data : List DataGrant
  /-- Answers to random accesses. -/
  access : List AccessGrant
  /-- Messages on the paging channel. -/
  paging : List PagingGrant
  /-- Symbols of the control region. -/
  controlSymbols : Nat
deriving DecidableEq

/-- The decisions for an uplink subframe. -/
structure UplinkDecision where
  /-- Grants, those that are granted again first. -/
  grants : List UplinkGrant
  /-- Who is told that a block was received, and who that it was not. -/
  acknowledgements : List (Rnti × Bool)
deriving DecidableEq

/-- What a scheduler says. -/
inductive Indication where
  /-- The cell is configured, with so many groups of such a size. -/
  | cellConfigured (rbgSize rbgs : Nat)
  /-- The UE is configured. -/
  | ueConfigured (rnti : Rnti)
  /-- The bearers of these channels are configured. -/
  | bearersConfigured (rnti : Rnti) (lcids : List Lcid)
  /-- The bearers of these channels are released. -/
  | bearersReleased (rnti : Rnti) (lcids : List Lcid)
  /-- The UE is released. -/
  | ueReleased (rnti : Rnti)
  /-- The UE is to use another transmission mode. -/
  | modeChanged (rnti : Rnti) (mode : TransmissionMode)
  /-- What is sent in a downlink subframe. -/
  | downlink (decision : DownlinkDecision)
  /-- Who sends what in an uplink subframe. -/
  | uplink (decision : UplinkDecision)

/-- The state after a request, and what was said. -/
abbrev Outcome (Record : Type) := SchedulerState Record × List Indication

end LteMac
