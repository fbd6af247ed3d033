import LteMac.Proofs.Checked.Basic
import LteMac.Proofs.Scheduler.Allotment
import LteMac.Radio.Grid

/-!
# Checked maps of blocks

Looking a block up, taking it or giving it away is an access to an array, and putting a group in a
bitmap or finding it there is a shift. They do not stop as long as the blocks lie in the grid and
the groups in the bitmap. Those whose turn it is to get blocks are two slices of an ascending list.

For each of these operations there is a checked one, which stops where the plain one has to make up
an answer, and an equation that says under which condition the two come to the same. Whoever uses
the operation has to prove the condition, and gets rid of the check by rewriting.

* `Occupancy.occupyChecked_eq`, `BlockMap.assignChecked_eq`: blocks of the grid;
* `RbgBitmap.ofIndicesChecked_eq`, `indicesChecked_eq`: groups of a bitmap;
* `SchedulerState.rotationChecked_keys`: the turns of the UEs.
-/

namespace LteMac

namespace Occupancy

variable {o : Occupancy} {blocks : List Nat} {i : Nat}

/-- Whether a block can be handed out. -/
def isFreeChecked (o : Occupancy) (i : Nat) : Checked Bool := Checked.readArray o.free i

/-- Marks one block. -/
def markChecked (o : Occupancy) (free : Bool) (i : Nat) : Checked Occupancy :=
  mk <$> Checked.writeArray o.free i free

/-- Takes blocks. -/
def occupyChecked (o : Occupancy) (blocks : List Nat) : Checked Occupancy :=
  blocks.foldlM (·.markChecked false ·) o

/-- Gives blocks back. -/
def vacateChecked (o : Occupancy) (blocks : List Nat) : Checked Occupancy :=
  blocks.foldlM (·.markChecked true ·) o

/-- The free blocks, ascending. -/
def freeBlocksChecked (o : Occupancy) : Checked (List Nat) :=
  (List.range o.size).filterM o.isFreeChecked

/-- A block of the grid can be looked up. -/
theorem isFreeChecked_eq (h : i < o.size) : o.isFreeChecked i = pure (o.isFree i) := by
  rw [isFreeChecked, Checked.readArray_eq (Array.getElem?_eq_getElem h), isFree,
    Array.getD_eq_getD_getElem?, Array.getElem?_eq_getElem h, Option.getD_some]

/-- A block of the grid can be marked. -/
theorem markChecked_eq (h : i < o.size) (free : Bool) :
    o.markChecked free i = pure (o.mark free i) := by
  rw [markChecked, Checked.writeArray_eq h, map_pure, mark]

/-- Marking blocks of the grid one after the other. -/
theorem foldlM_markChecked (h : ∀ i ∈ blocks, i < o.size) (free : Bool) :
    blocks.foldlM (·.markChecked free ·) o = pure (blocks.foldl (·.mark free ·) o) :=
  Checked.foldlM_eq (fun o' => o'.size = o.size)
    (fun _ hsize i hi => markChecked_eq (hsize ▸ h i hi) free)
    (fun o' hsize i _ => (size_mark o' free i).trans hsize) rfl

/-- Blocks of the grid can be taken. -/
theorem occupyChecked_eq (h : ∀ i ∈ blocks, i < o.size) :
    o.occupyChecked blocks = pure (o.occupy blocks) := foldlM_markChecked h false

/-- Blocks of the grid can be given back. -/
theorem vacateChecked_eq (h : ∀ i ∈ blocks, i < o.size) :
    o.vacateChecked blocks = pure (o.vacate blocks) := foldlM_markChecked h true

/-- The free blocks are looked for in the grid only. -/
theorem freeBlocksChecked_eq (o : Occupancy) : o.freeBlocksChecked = pure o.freeBlocks :=
  Checked.filterM_eq fun _ hi => isFreeChecked_eq (List.mem_range.1 hi)

/-- Giving back what was taken leaves everything as it was. -/
theorem vacate_occupy (h : ∀ i ∈ blocks, o.isFree i = true) :
    (o.occupy blocks).vacate blocks = o := by
  refine eq_of_isFree ((size_vacate _ _).trans (size_occupy _ _)) fun i => ?_
  rw [isFree_vacate, isFree_occupy, size_occupy]
  by_cases hi : i ∈ blocks
  · simp [hi, h i hi, lt_size_of_isFree (h i hi)]
  · simp [hi]

end Occupancy

namespace BlockMap

variable {m : BlockMap} {blocks : List Nat} {i : Nat}

/-- The owner of a block. -/
def ownerChecked (m : BlockMap) (i : Nat) : Checked Rnti := Checked.readArray m.owners i

/-- Gives blocks to a UE, one by one. -/
def assignChecked (m : BlockMap) (blocks : List Nat) (rnti : Rnti) : Checked BlockMap :=
  mk <$> blocks.foldlM (Checked.writeArray · · rnti) m.owners

/-- Gives a slice of blocks to a UE. -/
def assignSliceChecked (m : BlockMap) (start length : Nat) (rnti : Rnti) : Checked BlockMap := do
  Checked.checkSlice m.size start (start + length)
  return m.assign (List.range' start length) rnti

/-- A block with an owner can be looked up. -/
theorem ownerChecked_eq {r : Rnti} (h : m.owner? i = some r) : m.ownerChecked i = pure r :=
  Checked.readArray_eq h

/-- Blocks of the grid can be given away. -/
theorem assignChecked_eq (h : ∀ i ∈ blocks, i < m.size) (rnti : Rnti) :
    m.assignChecked blocks rnti = pure (m.assign blocks rnti) := by
  rw [assignChecked, Checked.foldlM_eq (fun owners => owners.size = m.size)
    (fun _ hsize i hi => Checked.writeArray_eq (hsize ▸ h i hi))
    (fun _ hsize i _ => Array.size_setIfInBounds.trans hsize) rfl, map_pure, assign]

/-- So can a slice of them. -/
theorem assignSliceChecked_eq {start length : Nat} (h : start + length ≤ m.size) (rnti : Rnti) :
    m.assignSliceChecked start length rnti =
      pure (m.assign (List.range' start length) rnti) := by
  rw [assignSliceChecked, Checked.checkSlice_eq (Nat.le_add_right _ _) h, pure_bind]

end BlockMap

namespace RbgBitmap

/-- The bitmap of a list of groups. -/
def ofIndicesChecked (rbgs : List Nat) : Checked RbgBitmap :=
  rbgs.foldlM (fun b i => (b ||| ·) <$> Checked.bit i) 0

/-- The groups of a bitmap, ascending. -/
def indicesChecked (b : RbgBitmap) : Checked (List Nat) :=
  (List.range 32).filterM fun i => (fun w => b &&& w != 0) <$> Checked.bit i

/-- A bitmap has room for 32 groups. -/
theorem ofIndicesChecked_eq {rbgs : List Nat} (h : ∀ i ∈ rbgs, i < 32) :
    ofIndicesChecked rbgs = pure (ofIndices rbgs) :=
  Checked.foldlM_eq (fun _ => True)
    (fun b _ i hi => by rw [Checked.bit_eq (h i hi), map_pure]) (fun _ _ _ _ => trivial) trivial

/-- A bit is set if the word that has only this one set shares it. -/
theorem shares_twoPow (b : RbgBitmap) {i : Nat} (hi : i < 32) :
    (b &&& .twoPow 32 i != 0) = b.getLsbD i := by
  have hne : BitVec.twoPow 32 i ≠ 0 := fun h => by
    simpa [hi] using congrArg (·.getLsbD i) h
  rw [BitVec.and_twoPow]
  cases b.getLsbD i with
  | false => rfl
  | true => simpa using hne

/-- The groups of a bitmap are looked for among those that it has room for. -/
theorem indicesChecked_eq (b : RbgBitmap) : b.indicesChecked = pure b.indices :=
  Checked.filterM_eq fun i hi => by
    rw [Checked.bit_eq (List.mem_range.1 hi), map_pure, shares_twoPow b (List.mem_range.1 hi)]

end RbgBitmap

namespace SchedulerState

/-- The RNTIs from the cursor on, then those before it, as two slices of an ascending list. -/
def rotationChecked (rntis : List Rnti) (cursor : Rnti) : Checked (List Rnti) := do
  let split := (rntis.takeWhile (· < cursor)).length
  let behind ← Checked.slice rntis split rntis.length
  let before ← Checked.slice rntis 0 split
  return behind ++ before

/-- In an ascending list, those before the cursor are the first ones. -/
theorem takeWhile_eq_filter {rntis : List Rnti} (h : rntis.Pairwise (· < ·)) (cursor : Rnti) :
    rntis.takeWhile (· < cursor) = rntis.filter (· < cursor) ∧
      rntis.drop (rntis.takeWhile (· < cursor)).length = rntis.filter (cursor ≤ ·) := by
  induction rntis with
  | nil => exact ⟨rfl, rfl⟩
  | cons r rest ih =>
    obtain ⟨hr, hrest⟩ := List.pairwise_cons.1 h
    by_cases hlt : r < cursor
    · obtain ⟨hbefore, hbehind⟩ := ih hrest
      have hnot : ¬cursor ≤ r := UInt16.not_le.2 hlt
      simp [hlt, hnot, ← hbefore, hbehind]
    · have hle : cursor ≤ r := UInt16.not_lt.1 hlt
      have hall : ∀ r' ∈ rest, cursor ≤ r' := fun r' hr' =>
        UInt16.le_trans hle (UInt16.le_of_lt (hr r' hr'))
      have hnone : rest.filter (· < cursor) = [] :=
        List.filter_eq_nil_iff.2 fun r' hr' => by simpa using hall r' hr'
      have hsome : rest.filter (cursor ≤ ·) = rest :=
        List.filter_eq_self.2 fun r' hr' => by simpa using hall r' hr'
      simp [hlt, hle, hnone, hsome]

/-- The place where an ascending list is cut lies in the list. -/
theorem rotationChecked_eq {rntis : List Rnti} (h : rntis.Pairwise (· < ·)) (cursor : Rnti) :
    rotationChecked rntis cursor = pure (rotation rntis cursor) := by
  have hle : (rntis.takeWhile (· < cursor)).length ≤ rntis.length :=
    (List.takeWhile_sublist _).length_le
  obtain ⟨hbefore, hbehind⟩ := takeWhile_eq_filter h cursor
  rw [rotationChecked, Checked.slice_eq hle (Nat.le_refl _), pure_bind,
    Checked.slice_eq (Nat.zero_le _) hle, pure_bind, List.take_length, hbehind, List.drop_zero,
    ← List.prefix_iff_eq_take.1 (List.takeWhile_prefix _), hbefore, rotation]

/-- The UEs of a table in turn. -/
theorem rotationChecked_keys {α : Type} (t : Table Rnti α) (cursor : Rnti) :
    rotationChecked t.keys cursor = pure (rotation t.keys cursor) :=
  rotationChecked_eq t.pairwise_keys cursor

end SchedulerState

end LteMac
