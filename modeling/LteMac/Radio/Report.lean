import LteMac.Radio.Identity

/-!
# Reports

What a UE and its upper layers tell the cell: channel quality, queue sizes, delivery of blocks.
-/

namespace LteMac

/-- Which table a downlink quality report feeds. -/
inductive CqiKind where
  /-- Periodic, one quality for the whole band. -/
  | wideband
  /-- On request, one quality for each group and layer. -/
  | subband
deriving DecidableEq

/-- A downlink quality report. -/
structure CqiReport where
  /-- The UE that reports. -/
  rnti : Rnti
  /-- The number of layers the UE can tell apart. -/
  rank : Nat
  /-- Which of the qualities it is about. -/
  kind : CqiKind
  /-- Quality of the whole band, by layer. -/
  wideband : List Nat
  /-- Quality by group, then layer. -/
  subband : List (List Nat)
deriving DecidableEq

/-- What waits for one logical channel of a UE: sizes in bytes, delays of the oldest byte in
milliseconds. -/
structure RlcQueue where
  /-- New data. -/
  transmission : Nat
  /-- How long it has waited. -/
  transmissionDelay : Nat
  /-- What is to be sent again. -/
  retransmission : Nat
  /-- How long that has waited. -/
  retransmissionDelay : Nat
  /-- The status report. -/
  status : Nat
deriving DecidableEq

namespace RlcQueue

/-- Bytes waiting. -/
def bytes (q : RlcQueue) : Nat := q.status + q.retransmission + q.transmission

/-- Whether anything waits. -/
def pending (q : RlcQueue) : Bool :=
  0 < q.status || 0 < q.retransmission || 0 < q.transmission

/-- The age of the oldest byte. -/
def delay (q : RlcQueue) : Nat := max q.transmissionDelay q.retransmissionDelay

end RlcQueue

/-- How a layer of a downlink block was received. -/
inductive Reception where
  /-- The layer was received. -/
  | ack
  /-- The layer was not received. -/
  | nack
  /-- The UE missed the grant. -/
  | dtx
deriving DecidableEq

/-- Feedback on a downlink block, by layer. -/
structure HarqFeedback where
  /-- The UE that reports. -/
  rnti : Rnti
  /-- The process that the block was sent on. -/
  process : Nat
  /-- How each layer was received. -/
  layers : List Reception
deriving DecidableEq

namespace HarqFeedback

/-- A block failed if one of its layers did. -/
def isNack (f : HarqFeedback) : Bool := f.layers.contains .nack

end HarqFeedback

/-- How the cell received an uplink block. -/
inductive UplinkReception where
  /-- The block was received. -/
  | ok
  /-- The block was not received. -/
  | notOk
  /-- Nothing can be said. -/
  | notValid
deriving DecidableEq

/-- The outcome of an uplink block. -/
structure UplinkOutcome where
  /-- The UE that sent it. -/
  rnti : Rnti
  /-- How it was received. -/
  reception : UplinkReception
deriving DecidableEq

/-- A control element a UE sent. -/
inductive UplinkControl where
  /-- Indices of buffer sizes, by group of channels. -/
  | bufferStatus (indices : List Nat)
  /-- How much louder the UE could send, which nothing uses. -/
  | powerHeadroom (value : Nat)
  /-- The RNTI that the UE had before, which nothing uses. -/
  | identity (rnti : Nat)
deriving DecidableEq

/-- The source of an uplink quality report. -/
inductive SinrSource where
  /-- A sounding signal over the whole band. -/
  | sounding
  /-- The data blocks of a past subframe. -/
  | data
deriving DecidableEq

end LteMac
