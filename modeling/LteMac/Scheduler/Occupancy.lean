import LteMac.Radio.Identity
import LteMac.Reuse.Band

/-!
# Occupancy of the grid

Two maps over the blocks of a grid: an `Occupancy` says which blocks can still be handed out in
this subframe, a `BlockMap` says to whom an uplink block was given.

* `Occupancy.isFree_occupy`, `isFree_vacate`: taking and giving back;
* `BlockMap.owner_assign`, `owner_release`: assigning and withdrawing.
-/

namespace LteMac

/-- The blocks of a grid that can still be handed out, as `true`. -/
structure Occupancy where
  free : Array Bool
deriving DecidableEq

namespace Occupancy

/-- A grid of `size` blocks on which the blocks with a flag are free. -/
def ofFlags (size : Nat) (flags : List Bool) : Occupancy :=
  ⟨Array.ofFn fun i : Fin size => flagAt flags i⟩

/-- Blocks of the grid. -/
def size (o : Occupancy) : Nat := o.free.size

/-- Whether a block can be handed out. A block outside the grid cannot. -/
def isFree (o : Occupancy) (i : Nat) : Bool := o.free.getD i false

/-- Marks one block. -/
def mark (o : Occupancy) (free : Bool) (i : Nat) : Occupancy := ⟨o.free.setIfInBounds i free⟩

/-- Takes blocks. -/
def occupy (o : Occupancy) (blocks : List Nat) : Occupancy := blocks.foldl (·.mark false ·) o

/-- Gives blocks back. -/
def vacate (o : Occupancy) (blocks : List Nat) : Occupancy := blocks.foldl (·.mark true ·) o

/-- The free blocks, ascending. -/
def freeBlocks (o : Occupancy) : List Nat := (List.range o.size).filter o.isFree

theorem size_mark (o : Occupancy) (b : Bool) (i : Nat) : (o.mark b i).size = o.size := by
  simp [mark, size]

theorem isFree_mark (o : Occupancy) (b : Bool) (i j : Nat) :
    (o.mark b i).isFree j = if i = j ∧ j < o.size then b else o.isFree j := by
  simp only [mark, isFree, size, Array.getD_eq_getD_getElem?, Array.getElem?_setIfInBounds]
  grind

theorem size_occupy (o : Occupancy) (blocks : List Nat) : (o.occupy blocks).size = o.size := by
  induction blocks generalizing o with
  | nil => rfl
  | cons i is ih => exact (ih _).trans (size_mark o false i)

theorem isFree_occupy (o : Occupancy) (blocks : List Nat) (j : Nat) :
    (o.occupy blocks).isFree j = (o.isFree j && !blocks.contains j) := by
  induction blocks generalizing o with
  | nil => simp [occupy]
  | cons i is ih =>
    have hout : o.size ≤ j → o.isFree j = false := fun h => by
      simp [isFree, Array.getD_eq_getD_getElem?, Array.getElem?_eq_none h]
    refine (ih _).trans ?_
    rw [isFree_mark]
    grind

theorem size_vacate (o : Occupancy) (blocks : List Nat) : (o.vacate blocks).size = o.size := by
  induction blocks generalizing o with
  | nil => rfl
  | cons i is ih => exact (ih _).trans (size_mark o true i)

theorem isFree_vacate (o : Occupancy) (blocks : List Nat) (j : Nat) :
    (o.vacate blocks).isFree j = (o.isFree j || decide (j < o.size) && blocks.contains j) := by
  induction blocks generalizing o with
  | nil => simp [vacate]
  | cons i is ih =>
    refine (ih _).trans ?_
    rw [isFree_mark, size_mark]
    grind

end Occupancy

/-- To whom each uplink block was given; 0 stands for nobody. -/
structure BlockMap where
  owners : Array Rnti
deriving DecidableEq

namespace BlockMap

/-- A grid of `size` blocks, none of them given to anybody. -/
def empty (size : Nat) : BlockMap := ⟨Array.replicate size 0⟩

/-- Blocks of the grid. -/
def size (m : BlockMap) : Nat := m.owners.size

/-- The owner of a block of the grid. -/
def owner? (m : BlockMap) (i : Nat) : Option Rnti := m.owners[i]?

/-- Whether a block of the grid is given to nobody. -/
def isFree (m : BlockMap) (i : Nat) : Bool := m.owner? i == some 0

/-- Gives blocks to a UE. -/
def assign (m : BlockMap) (blocks : List Nat) (rnti : Rnti) : BlockMap :=
  ⟨blocks.foldl (·.setIfInBounds · rnti) m.owners⟩

/-- Takes every block of a UE away. -/
def release (m : BlockMap) (rnti : Rnti) : BlockMap :=
  ⟨m.owners.map fun r => if r = rnti then 0 else r⟩

/-- The number of blocks given to somebody. -/
def held (m : BlockMap) : Nat := m.owners.countP (· != 0)

theorem owner_assign (m : BlockMap) (blocks : List Nat) (rnti : Rnti) (j : Nat) :
    (m.assign blocks rnti).owner? j =
      if j ∈ blocks ∧ j < m.size then some rnti else m.owner? j := by
  obtain ⟨owners⟩ := m
  simp only [assign, owner?, size]
  induction blocks generalizing owners with
  | nil => simp
  | cons i is ih =>
    simp only [List.foldl_cons, ih, Array.size_setIfInBounds, Array.getElem?_setIfInBounds]
    grind

theorem owner_release (m : BlockMap) (rnti : Rnti) (j : Nat) :
    (m.release rnti).owner? j = (m.owner? j).map fun r => if r = rnti then 0 else r := by
  simp [release, owner?]

end BlockMap

end LteMac
