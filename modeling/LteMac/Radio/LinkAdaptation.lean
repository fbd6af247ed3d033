/-!
# Link adaptation

How much a resource block carries on a channel of a given quality. A UE reports a channel
quality indicator (CQI, 0 to 15); each stands for a spectral efficiency, as does each modulation
and coding scheme (MCS, 0 to 28). The cell picks the highest scheme that is no more demanding than
the reported quality, and the efficiency of the scheme times the data elements of the granted
blocks, in whole bytes, is the transport block.

Efficiencies are kept in hundredths of bit/s/Hz, so the choice of a scheme is a comparison of
whole numbers; a block size multiplies out in binary floating point, from left to right.
-/

namespace LteMac.LinkAdaptation

/-- The highest scheme that carries new data. -/
def maxMcs : Nat := 28

/-- The highest channel quality. -/
def maxCqi : Nat := 15

/-- Efficiency of each channel quality, in hundredths of bit/s/Hz. -/
def cqiEfficiency : List Nat :=
  [0, 15, 23, 38, 60, 88, 118, 148, 191, 241, 273, 332, 390, 452, 512, 555]

/-- Efficiency of each scheme, in hundredths of bit/s/Hz. -/
def mcsEfficiency : List Nat := [
  15, 19, 23, 31, 38, 49, 60, 74, 88, 103, 118, 133, 148, 170, 191, 216, 241, 257, 273, 303, 332,
  361, 390, 421, 452, 482, 512, 533, 555]

/-- An efficiency in bit/s/Hz. -/
def hundredths (n : Nat) : Float := Float.ofScientific n true 2

/-- The scheme for a channel quality: of the schemes above 0, those no more demanding than the
quality are the first ones, and the last of them is taken. -/
def mcsOfCqi (cqi : Nat) : Nat :=
  let limit := cqiEfficiency.getD (min cqi maxCqi) 0
  (mcsEfficiency.tail.takeWhile (· ≤ limit)).length

/-- The channel quality that a spectral efficiency reaches: the last one whose own efficiency
lies below it. -/
def cqiOfEfficiency (efficiency : Float) : Nat :=
  (cqiEfficiency.tail.takeWhile (hundredths · < efficiency)).length

/-- Data elements of a block pair: twelve subcarriers by eleven symbols downlink. -/
def downlinkElements : Float := 132.0

/-- Data elements of a block pair: twelve subcarriers by twelve symbols uplink. -/
def uplinkElements : Float := 144.0

/-- Bits of a transport block on `blocks` block pairs, in whole bytes. Reserved schemes count as
the highest one that carries data. -/
def transportBits (elements : Float) (mcs blocks : Nat) : Nat :=
  let efficiency := hundredths (mcsEfficiency.getD (min mcs maxMcs) 0)
  (efficiency * elements * Float.ofNat blocks).toUInt32.toNat / 8 * 8

/-- Bits of a downlink transport block. -/
def downlinkBits (mcs blocks : Nat) : Nat := transportBits downlinkElements mcs blocks

/-- Bits of an uplink transport block. -/
def uplinkBits (mcs blocks : Nat) : Nat := transportBits uplinkElements mcs blocks

/-- The largest size that a grant can state, in bytes. -/
def maxBlockBytes : Nat := 65535

/-- Bytes of a downlink transport block as a grant states it. -/
def downlinkBytes (mcs blocks : Nat) : Nat := min (downlinkBits mcs blocks / 8) maxBlockBytes

/-- Bytes of an uplink transport block as a grant states it. -/
def uplinkBytes (mcs blocks : Nat) : Nat := min (uplinkBits mcs blocks / 8) maxBlockBytes

/-- The bit error rate the uplink aims at. -/
def targetErrorRate : Float := 0.00005

/-- The channel quality an uplink SINR (dB) is worth: the efficiency that the capacity formula
gives at the distance from capacity which the target error rate costs. -/
def cqiOfSinr (sinr : Float) : Nat :=
  let gap := -(Float.log (5.0 * targetErrorRate)) / 1.5
  cqiOfEfficiency (Float.log2 (1.0 + Float.pow 10.0 (sinr / 10.0) / gap))

end LteMac.LinkAdaptation
