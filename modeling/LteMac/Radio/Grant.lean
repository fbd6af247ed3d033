import LteMac.Radio.ControlElements
import LteMac.Radio.Grid
import LteMac.Radio.Identity

/-!
# Grants

What the cell tells a UE: where to listen for a block (`DownlinkGrant`) and where to send one
(`UplinkGrant`). Lists in a downlink grant have one entry for each layer.
-/

namespace LteMac

/-- Power command for no change. -/
def tpcNeutral : Nat := 1

/-- Power command for one step up. -/
def tpcBoost : Nat := 2

/-- A downlink control message: the groups a transport block occupies and how it is coded. -/
structure DownlinkGrant where
  /-- The UE that it is for. -/
  rnti : Rnti
  /-- The occupied groups. -/
  bitmap : RbgBitmap
  /-- Transport block sizes, in bytes. -/
  tbs : List Nat
  /-- Schemes, by layer. -/
  mcs : List Nat
  /-- 1 for new data, 0 for a retransmission. -/
  ndi : List Nat
  /-- Redundancy versions. -/
  rv : List Nat
  /-- The process that the block is on. -/
  process : Nat
  /-- Power command. -/
  tpc : Nat
deriving DecidableEq

/-- An uplink grant: `length` contiguous blocks from `start` on. -/
structure UplinkGrant where
  /-- The UE that it is for. -/
  rnti : Rnti
  /-- The first block. -/
  start : Nat
  /-- The number of blocks. -/
  length : Nat
  /-- Transport block size, in bytes. -/
  tbs : Nat
  /-- The scheme. -/
  mcs : Nat
  /-- 1 for new data, 0 for a retransmission. -/
  ndi : Nat
  /-- Power command. -/
  tpc : Nat
  /-- Whether a quality report is asked for. -/
  cqiRequest : Bool
  /-- Whether the blocks change within the subframe. -/
  hopping : Bool
deriving DecidableEq

/-- A share of a transport block, given to one logical channel. -/
structure Pdu where
  lcid : Lcid
  size : Nat
deriving DecidableEq

/-- The blocks an uplink grant occupies. -/
def UplinkGrant.blocks (g : UplinkGrant) : List Nat := List.range' g.start g.length

end LteMac
