import LteMac.Proofs.Checked.Basic
import LteMac.Radio.BufferStatus
import LteMac.Radio.Grid
import LteMac.Radio.LinkAdaptation

/-!
# Checked look-ups in tables

The tables of link adaptation and of buffer sizes have a fixed length, and whoever looks something
up first brings the index into their range. So these look-ups, like the division into groups, do not
stop for any argument.

Two things bring an index into range here: the argument is cut off at the last entry, or a search
goes up the table from its first entry and asks before each step whether there is a next one
(`LinkAdaptation.climbChecked`). What the plain look-up measures as a prefix of the
table, the search finds one entry after the other, and the equations say that they find the same.

* `LinkAdaptation.climbChecked_eq`: a search in a table;
* `LinkAdaptation.mcsOfCqiChecked_eq`, `downlinkBytesChecked_eq`, `uplinkBytesChecked_eq`: link
  adaptation;
* `BufferStatus.totalChecked_eq`, `rbgCountChecked_eq`: buffer sizes and groups.
-/

namespace LteMac

namespace LinkAdaptation

/-- Goes up a table from index `i`, as long as the next entry meets a condition. -/
def climbChecked (table : List Nat) (top : Nat) (meets : Nat → Bool) (i : Nat) : Checked Nat := do
  if i < top then
    if meets (← Checked.read table (i + 1)) then climbChecked table top meets (i + 1)
    else return i
  else return i
termination_by top - i

/-- A search that begins in the table does not leave it, and stops behind the entries that meet the
condition. -/
theorem climbChecked_eq {table : List Nat} {top : Nat} (htop : table.length = top + 1)
    (meets : Nat → Bool) {i : Nat} (hi : i ≤ top) :
    climbChecked table top meets i =
      pure (i + ((table.drop (i + 1)).takeWhile meets).length) := by
  induction hn : top - i generalizing i with
  | zero =>
    have hlast : table.drop (i + 1) = [] := List.drop_eq_nil_of_le (by omega)
    rw [climbChecked, if_neg (by omega), hlast]
    rfl
  | succ n ih =>
    have hlt : i + 1 < table.length := by omega
    rw [climbChecked, if_pos (by omega), Checked.read_eq hlt, pure_bind,
      List.drop_eq_getElem_cons hlt, List.takeWhile_cons]
    split
    · rw [ih (by omega) (by omega), List.length_cons]
      exact congrArg pure (by omega)
    · rfl

/-- The scheme for a channel quality. -/
def mcsOfCqiChecked (cqi : Nat) : Checked Nat := do
  let limit ← Checked.read cqiEfficiency (min cqi maxCqi)
  climbChecked mcsEfficiency maxMcs (· ≤ limit) 0

/-- The scheme for any channel quality is found. -/
theorem mcsOfCqiChecked_eq (cqi : Nat) : mcsOfCqiChecked cqi = pure (mcsOfCqi cqi) := by
  have hlt : min cqi maxCqi < cqiEfficiency.length := Nat.lt_succ_of_le (Nat.min_le_right _ _)
  rw [mcsOfCqiChecked, Checked.read_eq_getD hlt 0, pure_bind,
    climbChecked_eq rfl _ (Nat.zero_le _), Nat.zero_add, List.drop_one, mcsOfCqi]

/-- The channel quality that a spectral efficiency reaches. -/
def cqiOfEfficiencyChecked (efficiency : Float) : Checked Nat :=
  climbChecked cqiEfficiency maxCqi (hundredths · < efficiency) 0

/-- The channel quality for any spectral efficiency is found. -/
theorem cqiOfEfficiencyChecked_eq (efficiency : Float) :
    cqiOfEfficiencyChecked efficiency = pure (cqiOfEfficiency efficiency) := by
  rw [cqiOfEfficiencyChecked, climbChecked_eq rfl _ (Nat.zero_le _), Nat.zero_add, List.drop_one,
    cqiOfEfficiency]

/-- The channel quality an uplink SINR is worth. -/
def cqiOfSinrChecked (sinr : Float) : Checked Nat :=
  let gap := -(Float.log (5.0 * targetErrorRate)) / 1.5
  cqiOfEfficiencyChecked (Float.log2 (1.0 + Float.pow 10.0 (sinr / 10.0) / gap))

/-- The channel quality for any SINR is found. -/
theorem cqiOfSinrChecked_eq (sinr : Float) : cqiOfSinrChecked sinr = pure (cqiOfSinr sinr) :=
  cqiOfEfficiencyChecked_eq _

/-- Bits of a transport block. -/
def transportBitsChecked (elements : Float) (mcs blocks : Nat) : Checked Nat := do
  let efficiency := hundredths (← Checked.read mcsEfficiency (min mcs maxMcs))
  return (efficiency * elements * Float.ofNat blocks).toUInt32.toNat / 8 * 8

/-- Any transport block has a size. -/
theorem transportBitsChecked_eq (elements : Float) (mcs blocks : Nat) :
    transportBitsChecked elements mcs blocks = pure (transportBits elements mcs blocks) := by
  have hlt : min mcs maxMcs < mcsEfficiency.length := Nat.lt_succ_of_le (Nat.min_le_right _ _)
  rw [transportBitsChecked, Checked.read_eq_getD hlt 0, pure_bind, transportBits]

/-- Bits of a downlink transport block. -/
def downlinkBitsChecked (mcs blocks : Nat) : Checked Nat :=
  transportBitsChecked downlinkElements mcs blocks

/-- Bits of an uplink transport block. -/
def uplinkBitsChecked (mcs blocks : Nat) : Checked Nat :=
  transportBitsChecked uplinkElements mcs blocks

/-- Any downlink transport block has a size in bits. -/
theorem downlinkBitsChecked_eq (mcs blocks : Nat) :
    downlinkBitsChecked mcs blocks = pure (downlinkBits mcs blocks) := transportBitsChecked_eq ..

/-- Any uplink transport block has a size in bits. -/
theorem uplinkBitsChecked_eq (mcs blocks : Nat) :
    uplinkBitsChecked mcs blocks = pure (uplinkBits mcs blocks) := transportBitsChecked_eq ..

/-- Bytes of a downlink transport block as a grant states it. -/
def downlinkBytesChecked (mcs blocks : Nat) : Checked Nat :=
  (fun bits => min (bits / 8) maxBlockBytes) <$> downlinkBitsChecked mcs blocks

/-- Bytes of an uplink transport block as a grant states it. -/
def uplinkBytesChecked (mcs blocks : Nat) : Checked Nat :=
  (fun bits => min (bits / 8) maxBlockBytes) <$> uplinkBitsChecked mcs blocks

/-- Any downlink transport block has a size that a grant can state. -/
theorem downlinkBytesChecked_eq (mcs blocks : Nat) :
    downlinkBytesChecked mcs blocks = pure (downlinkBytes mcs blocks) := by
  rw [downlinkBytesChecked, downlinkBitsChecked_eq, map_pure, downlinkBytes]

/-- Any uplink transport block has a size that a grant can state. -/
theorem uplinkBytesChecked_eq (mcs blocks : Nat) :
    uplinkBytesChecked mcs blocks = pure (uplinkBytes mcs blocks) := by
  rw [uplinkBytesChecked, uplinkBitsChecked_eq, map_pure, uplinkBytes]

end LinkAdaptation

namespace BufferStatus

/-- What a report adds up to. -/
def totalChecked (indices : List Nat) : Checked Nat :=
  sumBy id <$> (indices.take 4).mapM fun index => Checked.read sizes (index % 64)

/-- Any buffer status report adds up to something. -/
theorem totalChecked_eq (indices : List Nat) : totalChecked indices = pure (total indices) := by
  have hread : ∀ index ∈ indices.take 4,
      Checked.read sizes (index % 64) = pure (size index) := fun index _ =>
    Checked.read_eq_getD (Nat.mod_lt _ (by decide)) 0
  rw [totalChecked, Checked.mapM_eq hread, map_pure, total, sumBy, List.foldr_map]
  rfl

end BufferStatus

/-- Whole groups in a bandwidth. -/
def rbgCountChecked (bandwidth : Nat) : Checked Nat := Checked.divide bandwidth (rbgSize bandwidth)

/-- A group of any bandwidth has blocks, so there is a number of groups. -/
theorem rbgCountChecked_eq (bandwidth : Nat) :
    rbgCountChecked bandwidth = pure (rbgCount bandwidth) := by
  refine Checked.divide_eq ?_
  unfold rbgSize
  split_ifs <;> decide

end LteMac
