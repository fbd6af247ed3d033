import LteMac.Scheduler.State
import Mathlib.Data.List.Basic

/-!
# Allotments

Every pass over a subframe takes blocks from a shared `Occupancy` and gives them away, one list of
blocks for each grant. `Occupancy.Allots` says of a pass that this is all it does to the
occupancy: each list is made of blocks that were free before the pass, no block is in two lists,
and exactly the blocks of the lists are taken afterwards.

* `Occupancy.Allots.single`: taking free blocks for one grant;
* `Occupancy.Allots.trans`: one pass after another;
* `SchedulerState.nodup_rotation`: no UE has two turns in a pass.
-/

namespace LteMac

namespace Occupancy

/-- From `o` to `o'`, the lists of `taken` were given away, and nothing else happened. -/
structure Allots (o o' : Occupancy) (taken : List (List Nat)) : Prop where
  /-- The grid is the same. -/
  size : o'.size = o.size
  /-- What is free afterwards was free before and was not given away. -/
  isFree : ∀ i, o'.isFree i = true ↔ o.isFree i = true ∧ ∀ t ∈ taken, i ∉ t
  /-- Nobody was given nothing. -/
  nonempty : ∀ t ∈ taken, t ≠ []
  /-- What was given away was free. -/
  wasFree : ∀ t ∈ taken, ∀ i ∈ t, o.isFree i = true
  /-- Nothing was given away twice. -/
  disjoint : taken.Pairwise List.Disjoint

namespace Allots

variable {o o' o'' : Occupancy} {taken taken' : List (List Nat)}

theorem refl (o : Occupancy) : o.Allots o [] where
  size := rfl
  isFree i := by simp
  nonempty := by simp
  wasFree := by simp
  disjoint := .nil

/-- Free blocks are taken for one grant. -/
theorem single {blocks : List Nat} (hne : blocks ≠ [])
    (hfree : ∀ i ∈ blocks, o.isFree i = true) : o.Allots (o.occupy blocks) [blocks] where
  size := size_occupy o blocks
  isFree i := by simp [isFree_occupy]
  nonempty := by simpa using hne
  wasFree := by simpa using hfree
  disjoint := List.pairwise_singleton _ _

/-- What a second pass takes was left free by the first one. -/
theorem trans (h : o.Allots o' taken) (h' : o'.Allots o'' taken') :
    o.Allots o'' (taken ++ taken') where
  size := h'.size.trans h.size
  isFree i := by
    rw [h'.isFree, h.isFree, List.forall_mem_append, and_assoc]
  nonempty := List.forall_mem_append.2 ⟨h.nonempty, h'.nonempty⟩
  wasFree := by
    -- What the second pass took was free after the first one, and so before it.
    refine List.forall_mem_append.2 ⟨h.wasFree, fun t ht i hi => ?_⟩
    exact ((h.isFree i).1 (h'.wasFree t ht i hi)).1
  disjoint := by
    refine List.pairwise_append.2 ⟨h.disjoint, h'.disjoint, fun t ht t' ht' i hi hi' => ?_⟩
    exact ((h.isFree i).1 (h'.wasFree t' ht' i hi')).2 t ht hi

end Allots

/-- A block outside the grid is not free. -/
theorem lt_size_of_isFree {o : Occupancy} {i : Nat} (h : o.isFree i = true) : i < o.size := by
  by_contra hout
  rw [isFree, Array.getD_eq_getD_getElem?, Array.getElem?_eq_none (Nat.not_lt.1 hout)] at h
  cases h

/-- An occupancy is told by its size and its free blocks. -/
theorem eq_of_isFree {o o' : Occupancy} (hsize : o.size = o'.size)
    (hfree : ∀ i, o.isFree i = o'.isFree i) : o = o' := by
  obtain ⟨free⟩ := o
  obtain ⟨free'⟩ := o'
  congr 1
  refine Array.ext hsize fun i hi hi' => ?_
  simpa [isFree, Array.getD, hi, hi'] using hfree i

/-- The order in which blocks are taken does not matter. -/
theorem occupy_perm {blocks blocks' : List Nat} (h : blocks.Perm blocks') (o : Occupancy) :
    o.occupy blocks = o.occupy blocks' := by
  refine eq_of_isFree ?_ fun i => ?_
  · rw [size_occupy, size_occupy]
  · rw [isFree_occupy, isFree_occupy, h.contains_eq]

theorem size_ofFlags (n : Nat) (flags : List Bool) : (ofFlags n flags).size = n := by
  simp [ofFlags, size]

theorem isFree_ofFlags (n : Nat) (flags : List Bool) (i : Nat) :
    (ofFlags n flags).isFree i = true ↔ i < n ∧ flagAt flags i = true := by
  rw [isFree, ofFlags, Array.getD_eq_getD_getElem?, Array.getElem?_ofFn]
  by_cases h : i < n <;> simp [h]

theorem mem_freeBlocks {o : Occupancy} {i : Nat} : i ∈ o.freeBlocks ↔ o.isFree i = true := by
  simp only [freeBlocks, List.mem_filter, List.mem_range, and_iff_right_iff_imp]
  exact lt_size_of_isFree

end Occupancy

/-- Every UE has its turn once. -/
theorem SchedulerState.nodup_rotation {rntis : List Rnti} (h : rntis.Nodup) (cursor : Rnti) :
    (rotation rntis cursor).Nodup := by
  refine List.nodup_append.2 ⟨h.filter _, h.filter _, fun a ha b hb hab => ?_⟩
  -- The turns from the cursor on and those before it have no UE in common.
  have hle : cursor ≤ a := by simpa using (List.mem_filter.1 ha).2
  have hlt : b < cursor := by simpa using (List.mem_filter.1 hb).2
  exact UInt16.not_le.2 (hab ▸ hlt) hle

end LteMac
