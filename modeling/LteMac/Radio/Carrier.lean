/-!
# Component carriers

A component carrier is a validated value: two bandwidths, two channel numbers, the settings of a
closed subscriber group and the primary flag. Every setter refuses a value outside its range and
then keeps the old one, so a carrier is always consistent; of the carriers of one station exactly
one is primary.
-/

namespace LteMac

/-- Why a carrier, or a set of them, was refused. -/
inductive CarrierError where
  /-- The bandwidth is not one of the standard ones. -/
  | invalidBandwidth (value : Nat)
  /-- The downlink channel number is too large. -/
  | invalidDownlinkChannel (value : Nat)
  /-- The uplink channel number is outside of its range. -/
  | invalidUplinkChannel (value : Nat)
  /-- None of the carriers is the primary one. -/
  | noPrimary
  /-- More than one is. -/
  | severalPrimaries (count : Nat)
deriving DecidableEq

namespace CarrierError

/-- What the station says about a refused carrier. -/
def message : CarrierError → String
  | invalidBandwidth v => s!"invalid bandwidth {v} RBs (valid: 6, 15, 25, 50, 75, 100)"
  | invalidDownlinkChannel v => s!"invalid DL EARFCN {v} (valid: 0..=262143)"
  | invalidUplinkChannel v => s!"invalid UL EARFCN {v} (valid: 18000..=262143)"
  | noPrimary => "no primary component carrier configured"
  | severalPrimaries n => s!"{n} carriers flagged primary, exactly one is allowed"

end CarrierError

/-- The standard bandwidths, in resource blocks. -/
def standardBandwidths : List Nat := [6, 15, 25, 50, 75, 100]

/-- The highest channel number. -/
def maxChannel : Nat := 262143

/-- The lowest uplink channel number. -/
def minUplinkChannel : Nat := 18000

/-- A bandwidth, if it is a standard one. -/
def checkBandwidth (value : Nat) : Except CarrierError Nat :=
  if value ∈ standardBandwidths then .ok value else .error (.invalidBandwidth value)

/-- A component carrier; channels are given by their number (EARFCN). -/
structure Carrier where
  downlinkBandwidth : Nat
  uplinkBandwidth : Nat
  downlinkChannel : Nat
  uplinkChannel : Nat
  subscriberGroup : Nat
  closedGroup : Bool
  primary : Bool
deriving DecidableEq

namespace Carrier

/-- A carrier before anything is set. -/
def default : Carrier := ⟨25, 25, 100, 18100, 0, false, false⟩

/-- Sets the downlink bandwidth. -/
def setDownlinkBandwidth (c : Carrier) (value : Nat) : Except CarrierError Carrier := do
  return { c with downlinkBandwidth := ← checkBandwidth value }

/-- Sets the uplink bandwidth. -/
def setUplinkBandwidth (c : Carrier) (value : Nat) : Except CarrierError Carrier := do
  return { c with uplinkBandwidth := ← checkBandwidth value }

/-- Sets the downlink channel number. -/
def setDownlinkChannel (c : Carrier) (value : Nat) : Except CarrierError Carrier :=
  if value ≤ maxChannel then .ok { c with downlinkChannel := value }
  else .error (.invalidDownlinkChannel value)

/-- Sets the uplink channel number. -/
def setUplinkChannel (c : Carrier) (value : Nat) : Except CarrierError Carrier :=
  if minUplinkChannel ≤ value ∧ value ≤ maxChannel then .ok { c with uplinkChannel := value }
  else .error (.invalidUplinkChannel value)

/-- Sets the closed subscriber group. -/
def setSubscriberGroup (c : Carrier) (group : Nat) (closed : Bool) : Carrier :=
  { c with subscriberGroup := group, closedGroup := closed }

/-- Sets the primary flag. -/
def setPrimary (c : Carrier) (primary : Bool) : Carrier := { c with primary }

/-- The places of the primary carriers in a list. -/
def primaries (carriers : List Carrier) : List Nat :=
  (carriers.zipIdx.filter (·.1.primary)).map (·.2)

/-- The place of the one primary carrier of a station. -/
def primaryIndex (carriers : List Carrier) : Except CarrierError Nat :=
  match primaries carriers with
  | [] => .error .noPrimary
  | [i] => .ok i
  | is => .error (.severalPrimaries is.length)

end Carrier

end LteMac
