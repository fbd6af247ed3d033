import LteMac.Numeric.Sum

/-!
# Buffer status reports

A UE tells how much it has to send by an index into a table of buffer sizes. The cell reads the
index as the size it stands for, an upper bound of what the UE holds.
-/

namespace LteMac.BufferStatus

/-- The buffer size (bytes) each index stands for. -/
def sizes : List Nat := [
  0, 10, 12, 14, 17, 19, 22, 26, 31, 36, 42, 49, 57, 67, 78, 91, 107, 125, 146, 171, 200, 234,
  274, 321, 376, 440, 515, 603, 706, 826, 967, 1132, 1326, 1552, 1817, 2127, 2490, 2915, 3413,
  3995, 4677, 5476, 6411, 7505, 8787, 10287, 12043, 14099, 16507, 19325, 22624, 26487, 31009,
  36304, 42502, 49759, 58255, 68201, 79846, 93479, 109439, 128125, 150000, 150000]

/-- The size an index stands for; only its lower six bits count. -/
def size (index : Nat) : Nat := sizes.getD (index % 64) 0

/-- The least index whose size covers `bytes`, or the last one. -/
def index (bytes : Nat) : Nat := (sizes.findIdx? (bytes ≤ ·)).getD 63

/-- What a report adds up to: the sizes of its first four groups of channels. -/
def total (indices : List Nat) : Nat := sumBy size (indices.take 4)

end LteMac.BufferStatus
