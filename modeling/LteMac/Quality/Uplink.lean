import LteMac.Quality.Aging
import LteMac.Radio.Sinr

/-!
# Uplink channel quality

The cell measures, for each UE, the SINR of each uplink block. A sounding report covers the whole
band and replaces what was known; a data report covers the blocks the UE was granted. A block
that was never measured is estimated as the mean of the measured ones, and the estimate stays.
-/

namespace LteMac

/-- The live uplink quality reports, by block. -/
structure UplinkQuality where
  /-- Uplink blocks of the cell. -/
  bandwidth : Nat
  /-- What was measured, by block. -/
  sinr : AgingTable (List Float)

namespace UplinkQuality

/-- No report; the bandwidth comes with the cell. -/
def empty (threshold : Nat) : UplinkQuality := ⟨0, .empty threshold⟩

/-- Sets the bandwidth. -/
def setBandwidth (q : UplinkQuality) (bandwidth : Nat) : UplinkQuality := { q with bandwidth }

/-- A list made at least `length` long by blocks without a measurement. -/
def padded (samples : List Float) (length : Nat) : List Float :=
  samples ++ List.replicate (length - samples.length) Sinr.unmeasured

/-- Stores a report on the whole band. -/
def replace (q : UplinkQuality) (rnti : Rnti) (samples : List Float) : UplinkQuality :=
  { q with sinr := q.sinr.report rnti (padded samples q.bandwidth) }

/-- Stores the measurement of one block; the other blocks keep what is known of them. -/
def setBlock (q : UplinkQuality) (rnti : Rnti) (block : Nat) (value : Float) : UplinkQuality :=
  let known := (q.sinr.get? rnti).getD (padded [] q.bandwidth)
  { q with sinr := q.sinr.report rnti ((padded known (block + 1)).set block value) }

/-- The samples of a list that were measured. -/
def measured (samples : List Float) : List Float := samples.filter (· != Sinr.unmeasured)

/-- The largest number there is: what is assumed of a UE without any measurement. -/
def unlimited : Float := Float.ofBits 0x7FEFFFFFFFFFFFFF

/-- The mean of the measured samples, added up from the first on. -/
def estimate (samples : List Float) : Float :=
  match measured samples with
  | [] => unlimited
  | known => known.foldl (· + ·) (-0.0) / Float.ofNat known.length

/-- The SINR of a block: as measured, or else the estimate. -/
def blockSinr (samples : List Float) (block : Nat) : Float :=
  match samples[block]? with
  | some value => if value != Sinr.unmeasured then value else estimate samples
  | none => estimate samples

/-- The SINR to assume for a block of a UE that has a report. -/
def sinr? (q : UplinkQuality) (rnti : Rnti) (block : Nat) : Option Float :=
  (q.sinr.get? rnti).map (blockSinr · block)

/-- Keeps what was assumed for a block. -/
def settle (q : UplinkQuality) (rnti : Rnti) (block : Nat) : UplinkQuality :=
  { q with sinr := q.sinr.revise rnti fun samples => samples.set block (blockSinr samples block) }

/-- The UEs that the next refresh takes a report from, ascending. -/
def expiring (q : UplinkQuality) : List Rnti := q.sinr.expiring

/-- Ages every report by one subframe. -/
def refresh (q : UplinkQuality) : UplinkQuality := { q with sinr := q.sinr.refresh }

/-- Forgets a UE. -/
def erase (q : UplinkQuality) (rnti : Rnti) : UplinkQuality := { q with sinr := q.sinr.erase rnti }

/-- Whether a UE has a report. -/
def contains (q : UplinkQuality) (rnti : Rnti) : Bool := q.sinr.contains rnti

/-- The number of UEs with a report. -/
def size (q : UplinkQuality) : Nat := q.sinr.size

end UplinkQuality

end LteMac
