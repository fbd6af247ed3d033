/-!
# Bands

A contiguous part of the resource grid, and the lists of flags that say of each block of a grid
whether it may be used.
-/

namespace LteMac

/-- `width` blocks from `offset` on. -/
structure Band where
  offset : Nat
  width : Nat
deriving DecidableEq

namespace Band

/-- Whether block `i` lies in the band. -/
def contains (b : Band) (i : Nat) : Bool := b.offset ≤ i && i < b.offset + b.width

/-- Whether the band is not empty and lies in a grid of `length` blocks. -/
def fits (b : Band) (length : Nat) : Bool := 0 < b.width && b.offset + b.width ≤ length

end Band

/-- The flags of a grid of `length` blocks, by a rule for each block. -/
def flags (length : Nat) (rule : Nat → Bool) : List Bool := (List.range length).map rule

/-- The flag of block `i`; a block outside the grid is not usable. -/
def flagAt (flags : List Bool) (i : Nat) : Bool := flags.getD i false

/-- The length of the longest run of usable blocks, given the length of the run that ends just
before the list. -/
def longestRunFrom (run : Nat) : List Bool → Nat
  | [] => run
  | true :: rest => longestRunFrom (run + 1) rest
  | false :: rest => max run (longestRunFrom 0 rest)

/-- The length of the longest run of usable blocks. -/
def longestRun (flags : List Bool) : Nat := longestRunFrom 0 flags

theorem length_flags (n : Nat) (rule : Nat → Bool) : (flags n rule).length = n := by
  simp [flags]

theorem flagAt_flags (n : Nat) (rule : Nat → Bool) (i : Nat) :
    flagAt (flags n rule) i = (decide (i < n) && rule i) := by
  by_cases h : i < n <;> simp [flagAt, flags, h]

end LteMac
