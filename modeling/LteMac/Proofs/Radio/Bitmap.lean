import LteMac.Radio.Grid
import Mathlib.Data.List.Dedup

/-!
# Bitmaps and their groups

A grant names its groups by a bitmap of 32 bits. Nothing is lost in that: the groups of a bitmap
come back from it, and so does every ascending list of groups below 32. Any other list comes back in
ascending order, with each group once, so a bitmap is a set of groups and two of them overlap
exactly if they share a group.

A cell never has more than 25 groups, so the width of the bitmap is no restriction there; but a
bitmap that is made of a group from 32 on loses it, which is why every lemma about lists asks for
the bound. The proofs go through membership: a group is in the list of a bitmap if its bit is set
(`RbgBitmap.mem_indices_ofIndices`), and ascending lists with the same members are equal.

* `RbgBitmap.ofIndices_indices`: a bitmap is the bitmap of its groups;
* `RbgBitmap.indices_ofIndices`: an ascending list is the groups of its bitmap;

* `RbgBitmap.names_sets`: bitmaps and sets of groups are the same thing.
-/

namespace LteMac

/-- Different groups are in ascending order once they are sorted. -/
theorem pairwise_mergeSort_of_nodup {rbgs : List Nat} (h : rbgs.Nodup) :
    rbgs.mergeSort.Pairwise (· < ·) := by
  have hle : rbgs.mergeSort.Pairwise fun a b => decide (a ≤ b) = true :=
    List.pairwise_mergeSort (fun a b c hab hbc => by simp_all; omega)
      (fun a b => by simpa using Nat.le_total a b) rbgs
  have hne : rbgs.mergeSort.Nodup := (List.mergeSort_perm ..).nodup_iff.2 h
  exact (hle.and hne).imp fun h => Nat.lt_of_le_of_ne (by simpa using h.1) h.2

namespace RbgBitmap

/-- Neither the order of a list counts nor how often it has a group. -/
theorem ofIndices_congr {rbgs rbgs' : List Nat} (h : ∀ i, i ∈ rbgs ↔ i ∈ rbgs') :
    ofIndices rbgs = ofIndices rbgs' := by
  refine BitVec.eq_of_getLsbD_eq fun i _ => ?_
  simp only [getLsbD_ofIndices, h]

/-- The groups of a bitmap are listed in ascending order. -/
theorem pairwise_indices (b : RbgBitmap) : b.indices.Pairwise (· < ·) :=
  List.Pairwise.filter _ List.pairwise_lt_range

/-- A group comes back from the bitmap of a list if it is in the list, and if the bitmap is wide
enough for it. -/
theorem mem_indices_ofIndices {rbgs : List Nat} {i : Nat} :
    i ∈ (ofIndices rbgs).indices ↔ i < 32 ∧ i ∈ rbgs := by
  rw [mem_indices, getLsbD_ofIndices, decide_eq_true_iff]

/-- A bitmap is the bitmap of its groups. -/
theorem ofIndices_indices (b : RbgBitmap) : ofIndices b.indices = b := by
  refine BitVec.eq_of_getLsbD_eq fun i hi => ?_
  rw [getLsbD_ofIndices, Bool.eq_iff_iff, decide_eq_true_iff, mem_indices]
  exact and_iff_right hi

/-- An ascending list of groups is the groups of its bitmap. -/
theorem indices_ofIndices {rbgs : List Nat} (hsorted : rbgs.Pairwise (· < ·))
    (hlt : ∀ i ∈ rbgs, i < 32) : (ofIndices rbgs).indices = rbgs := by
  refine List.Perm.eq_of_pairwise (fun a b _ _ hab hba => absurd hab (Nat.lt_asymm hba))
    (pairwise_indices _) hsorted ?_
  refine (List.perm_ext_iff_of_nodup ?_ ?_).2 fun i => ?_
  · exact (pairwise_indices _).imp Nat.ne_of_lt
  · exact hsorted.imp Nat.ne_of_lt
  · rw [mem_indices_ofIndices, and_iff_right_iff_imp]
    exact hlt i

/-- Any list of groups comes back in ascending order, with each group once. -/
theorem indices_ofIndices_of_lt {rbgs : List Nat} (hlt : ∀ i ∈ rbgs, i < 32) :
    (ofIndices rbgs).indices = rbgs.dedup.mergeSort := by
  have hmem : ∀ i, i ∈ rbgs ↔ i ∈ rbgs.dedup.mergeSort := by simp
  rw [ofIndices_congr hmem]
  exact indices_ofIndices (pairwise_mergeSort_of_nodup (List.nodup_dedup rbgs))
    fun i hi => hlt i ((hmem i).2 hi)

/-- Two bitmaps have no bit in common exactly if their groups are different ones. -/
theorem and_ofIndices_eq_zero_iff {rbgs rbgs' : List Nat} (hlt : ∀ i ∈ rbgs, i < 32) :
    ofIndices rbgs &&& ofIndices rbgs' = 0 ↔ ∀ i ∈ rbgs, i ∉ rbgs' := by
  have hbit : ∀ i, (ofIndices rbgs &&& ofIndices rbgs').getLsbD i = true ↔
      i < 32 ∧ i ∈ rbgs ∧ i ∈ rbgs' := by
    intro i
    rw [BitVec.getLsbD_and, getLsbD_ofIndices, getLsbD_ofIndices, Bool.and_eq_true,
      decide_eq_true_iff, decide_eq_true_iff]
    tauto
  constructor
  · intro h i hi hi'
    simpa [h] using (hbit i).2 ⟨hlt i hi, hi, hi'⟩
  · intro h
    refine BitVec.eq_of_getLsbD_eq fun i _ => (Bool.eq_false_iff.2 fun hset => ?_).trans
      BitVec.getLsbD_zero.symm
    obtain ⟨-, hi, hi'⟩ := (hbit i).1 hset
    exact h i hi hi'

/-- Bitmaps and sets of groups are the same thing. The groups of the bitmap of a list are those of
the list, ascending and each once; every bitmap is the bitmap of its groups; and the bitmaps of two
lists overlap exactly if the lists share a group. -/
theorem names_sets :
    (∀ rbgs : List Nat, (∀ i ∈ rbgs, i < 32) →
      (ofIndices rbgs).indices = rbgs.dedup.mergeSort) ∧
    (∀ b : RbgBitmap, ofIndices b.indices = b) ∧
    ∀ rbgs rbgs' : List Nat, (∀ i ∈ rbgs, i < 32) → (∀ i ∈ rbgs', i < 32) →
      (ofIndices rbgs &&& ofIndices rbgs' = 0 ↔ ∀ i ∈ rbgs, i ∉ rbgs') :=
  ⟨fun _ => indices_ofIndices_of_lt, ofIndices_indices,
    fun _ _ hlt _ => and_ofIndices_eq_zero_iff hlt⟩

/-- A list in no order, with the last group twice, and one that shares a group with it. -/
theorem names_sets_lastGroupTwice :
    (∀ i ∈ [31, 3, 31, 0], i < 32) ∧ (∀ i ∈ [5, 3], i < 32) ∧
      (ofIndices [31, 3, 31, 0]).indices = [0, 3, 31] ∧
      ofIndices [31, 3, 31, 0] &&& ofIndices [5, 3] ≠ 0 := by
  obtain ⟨hlist, -, hshare⟩ := names_sets
  have hfirst : ∀ i ∈ [31, 3, 31, 0], i < 32 := by decide
  have hsecond : ∀ i ∈ [5, 3], i < 32 := by decide
  refine ⟨hfirst, hsecond, (hlist _ hfirst).trans ?_, fun hzero => ?_⟩
  · simp [List.mergeSort, List.MergeSort.Internal.splitInTwo]
  · exact (hshare _ _ hfirst hsecond).1 hzero 3 (by decide) (by decide)

end RbgBitmap

end LteMac
