/-!
# The resource grid

A carrier is divided into resource blocks (RBs). Downlink grants speak of resource block groups
(RBGs), whose size grows with the bandwidth, and name them by a bitmap; uplink grants speak of
the blocks themselves.

* `RbgBitmap.getLsbD_ofIndices`: bit `i` of the bitmap of a list of groups says whether group
  `i` is in the list.
-/

namespace LteMac

/-- Resource blocks in a group, for a bandwidth in blocks. -/
def rbgSize (bandwidth : Nat) : Nat :=
  if bandwidth ≤ 10 then 1 else if bandwidth ≤ 26 then 2 else if bandwidth ≤ 63 then 3 else 4

/-- Whole groups in a bandwidth. -/
def rbgCount (bandwidth : Nat) : Nat := bandwidth / rbgSize bandwidth

/-- The grid of a configured cell: both bandwidths, in resource blocks. -/
structure Grid where
  downlink : Nat
  uplink : Nat
deriving DecidableEq

namespace Grid

/-- Resource blocks in a downlink group. -/
def rbgSize (g : Grid) : Nat := LteMac.rbgSize g.downlink

/-- Downlink groups. -/
def rbgCount (g : Grid) : Nat := LteMac.rbgCount g.downlink

end Grid

/-- A set of downlink groups, bit `i` for group `i`. -/
abbrev RbgBitmap := BitVec 32

namespace RbgBitmap

/-- The bitmap of a list of groups. -/
def ofIndices (rbgs : List Nat) : RbgBitmap :=
  rbgs.foldl (fun b i => b ||| BitVec.twoPow 32 i) 0

/-- The groups of a bitmap, ascending. -/
def indices (b : RbgBitmap) : List Nat := (List.range 32).filter (b.getLsbD ·)

theorem getLsbD_foldl (rbgs : List Nat) (b : RbgBitmap) (i : Nat) :
    (rbgs.foldl (fun b i => b ||| BitVec.twoPow 32 i) b).getLsbD i =
      (b.getLsbD i || decide (i < 32 ∧ i ∈ rbgs)) := by
  induction rbgs generalizing b with
  | nil => simp
  | cons j js ih =>
    rw [List.foldl_cons, ih, BitVec.getLsbD_or, BitVec.getLsbD_twoPow]
    grind

theorem getLsbD_ofIndices (rbgs : List Nat) (i : Nat) :
    (ofIndices rbgs).getLsbD i = decide (i < 32 ∧ i ∈ rbgs) := by
  simp [ofIndices, getLsbD_foldl]

theorem mem_indices (b : RbgBitmap) (i : Nat) : i ∈ b.indices ↔ b.getLsbD i = true := by
  simp only [indices, List.mem_filter, List.mem_range, and_iff_right_iff_imp]
  exact BitVec.lt_of_getLsbD

end RbgBitmap

end LteMac
