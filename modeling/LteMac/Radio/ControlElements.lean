/-!
# MAC control elements

The short orders a cell may add to a downlink block (timing advance, discontinuous reception,
contention resolution), as a set with one bit for each kind.
-/

namespace LteMac

/-- A set of control elements. -/
structure ControlElements where
  bits : BitVec 8
deriving DecidableEq

namespace ControlElements

/-- No control element. -/
def empty : ControlElements := ⟨0⟩

/-- The elements of either set. -/
def union (a b : ControlElements) : ControlElements := ⟨a.bits ||| b.bits⟩

/-- Whether every element of `b` is in `a`. -/
def contains (a b : ControlElements) : Bool := a.bits &&& b.bits == b.bits

/-- Whether there is no element. -/
def isEmpty (a : ControlElements) : Bool := a.bits == 0

end ControlElements

end LteMac
