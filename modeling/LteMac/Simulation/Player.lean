import LteMac.Numeric.Sum
import LteMac.Radio.BufferStatus
import LteMac.Radio.Sinr
import LteMac.Scenario.Basic
import LteMac.Scheduler.Request

/-!
# Played UEs

A UE of a scenario as the run plays it: what has arrived for it and at it, what it reports about
that, and which of its blocks fail. Every `nackEvery`-th block is lost, the others are received.
-/

namespace LteMac

/-- What was sent to and by a UE. -/
structure Tally where
  /-- Bytes received. -/
  downlinkBytes : Nat
  /-- Bytes sent and received by the cell. -/
  uplinkBytes : Nat
  downlinkBlocks : Nat
  uplinkBlocks : Nat
  downlinkRetransmissions : Nat
  uplinkRetransmissions : Nat
  downlinkLosses : Nat
  uplinkLosses : Nat
deriving DecidableEq

/-- Nothing was sent. -/
def Tally.zero : Tally := ⟨0, 0, 0, 0, 0, 0, 0, 0⟩

/-- Subframes between two reports of a UE. -/
def reportPeriod : Nat := 5

/-- Bytes that wait at most; what arrives beyond that is lost. -/
def queueLimit : Nat := 1000000

/-- The greatest age that can be reported, in milliseconds. -/
def maxReportedDelay : Nat := 65535

/-- The bearer of every played UE. -/
def playedLcid : Lcid := 3

/-- A UE of a run. -/
structure Player where
  /-- How it behaves. -/
  profile : UeProfile
  /-- Bytes that wait for it. -/
  downlinkQueue : Nat
  /-- When the oldest of them arrived. -/
  downlinkSince : Option Nat
  /-- Bytes that it has to send. -/
  uplinkQueue : Nat
  /-- What was sent to it and by it. -/
  tally : Tally

namespace Player

/-- A UE at the beginning of a run. -/
def start (profile : UeProfile) : Player := ⟨profile, 0, none, 0, .zero⟩

/-- Layers of its reports: no UE tells more than two apart. -/
def layers (p : Player) : Nat := max 1 (min 2 p.profile.rank)

/-- Whether a block is lost, by its place among those of its direction. -/
def loses (p : Player) (block : Nat) : Bool :=
  0 < p.profile.nackEvery && block % p.profile.nackEvery == 0

/-! ## What arrives -/

/-- A queue after an arrival. -/
def fill (queue load : Nat) : Nat := min (queue + load) queueLimit

/-- The UE after the arrivals of a subframe. -/
def arrive (tick : Nat) (p : Player) : Player :=
  let downlinkQueue := fill p.downlinkQueue p.profile.downlinkLoad
  { p with
    downlinkQueue
    downlinkSince := if 0 < downlinkQueue then some (p.downlinkSince.getD tick)
      else p.downlinkSince
    uplinkQueue :=
      if 0 < p.profile.uplinkLoad then fill p.uplinkQueue p.profile.uplinkLoad
      else p.uplinkQueue }

/-! ## What is reported -/

/-- The queue that waits for the UE, if anything does. -/
def queueReport? (tick : Nat) (p : Player) : Option Request :=
  if p.downlinkQueue = 0 then none
  else
    let age := min (tick - p.downlinkSince.getD tick) maxReportedDelay
    some (.queue p.profile.rnti playedLcid ⟨p.downlinkQueue, age, 0, 0, 0⟩)

/-- What the UE says about its own buffer. -/
def bufferReport (p : Player) : Rnti × UplinkControl :=
  (p.profile.rnti, .bufferStatus [0, BufferStatus.index p.uplinkQueue, 0, 0])

/-- The downlink quality that the UE reports. -/
def qualityReport (p : Player) : CqiReport where
  rnti := p.profile.rnti
  rank := p.profile.rank
  kind := if p.profile.subbandCqi.isEmpty then .wideband else .subband
  wideband := List.replicate p.layers p.profile.widebandCqi
  subband := p.profile.subbandCqi.map (List.replicate p.layers ·)

/-- The code of the SINR with which the UE is received. -/
def sinrCode (p : Player) : UInt16 := Sinr.encode p.profile.sinr

/-- The sounding report about the UE, over all blocks. -/
def soundingReport (blocks : Nat) (time : Subframe) (p : Player) : Request :=
  .sinr time .sounding (List.replicate blocks p.sinrCode) p.profile.rnti

/-! ## What is sent -/

/-- Bytes that a downlink block takes from the queues. -/
def payload (g : DataGrant) : Nat := sumBy (·.size) g.pdus.flatten

/-- The UE after its queue was served. -/
def drain (bytes : Nat) (p : Player) : Player :=
  let downlinkQueue := p.downlinkQueue - bytes
  { p with
    downlinkQueue
    downlinkSince := if downlinkQueue = 0 then none else p.downlinkSince }

/-- Whether the next downlink block is lost. -/
def losesDownlink (p : Player) : Bool := p.loses (p.tally.downlinkBlocks + 1)

/-- Whether the next uplink block is lost. -/
def losesUplink (p : Player) : Bool := p.loses (p.tally.uplinkBlocks + 1)

/-- The tally after a downlink block. -/
def countDownlink (fresh lost : Bool) (bytes : Nat) (t : Tally) : Tally :=
  { t with
    downlinkBlocks := t.downlinkBlocks + 1
    downlinkRetransmissions := t.downlinkRetransmissions + if fresh then 0 else 1
    downlinkLosses := t.downlinkLosses + if lost then 1 else 0
    downlinkBytes := t.downlinkBytes + if lost then 0 else bytes }

/-- The tally after an uplink block. -/
def countUplink (fresh lost : Bool) (bytes : Nat) (t : Tally) : Tally :=
  { t with
    uplinkBlocks := t.uplinkBlocks + 1
    uplinkRetransmissions := t.uplinkRetransmissions + if fresh then 0 else 1
    uplinkLosses := t.uplinkLosses + if lost then 1 else 0
    uplinkBytes := t.uplinkBytes + if lost then 0 else bytes }

/-- The UE after a downlink block. -/
def receive (g : DataGrant) (p : Player) : Player :=
  let fresh := g.grant.ndi.head? == some 1
  let served := if fresh then p.drain (payload g) else p
  { served with tally := countDownlink fresh p.losesDownlink (sumBy id g.grant.tbs) p.tally }

/-- The feedback on a downlink block. -/
def feedback (g : DataGrant) (p : Player) : HarqFeedback where
  rnti := g.rnti
  process := g.grant.process
  layers :=
    List.replicate (max 1 g.grant.ndi.length) (if p.losesDownlink then .nack else .ack)

/-- The UE after an uplink block. -/
def send (g : UplinkGrant) (p : Player) : Player :=
  let fresh := g.ndi == 1
  { p with
    uplinkQueue := if fresh then p.uplinkQueue - g.tbs else p.uplinkQueue
    tally := countUplink fresh p.losesUplink g.tbs p.tally }

/-- How an uplink block was received. -/
def outcome (g : UplinkGrant) (p : Player) : UplinkOutcome where
  rnti := g.rnti
  reception := if p.losesUplink then .notOk else .ok

end Player

end LteMac
