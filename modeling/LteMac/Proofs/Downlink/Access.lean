import LteMac.Downlink.Access
import Mathlib.Data.List.Basic
import Mathlib.Data.List.TakeWhile
import Mathlib.Order.Bounds.Basic

/-!
# Reserved blocks

The answers to random accesses own uplink blocks until the next uplink subframe. `BlockMap.Reserves`
says that the map of reserved blocks knows all answers of a list, and that no two of them meet.

A round goes through the preambles from the lowest block up, and gives each of them the shortest
stretch that carries what it asks for, from the first block that is still free. So a new answer lies
behind those of its own round. It may well lie below blocks that an earlier round reserved, and the
length of a stretch is therefore limited by the next block that is taken.

What a round does is written down as a relation (`Access.Round.Answers`) with one constructor for
each thing that can happen to a preamble. One of them ends the round: where the first preamble does
not fit, those behind it are not tried.

* `BlockMap.Reserves.assign`, `release`: what one answer and the release of a UE do;
* `Access.Round.fit?_eq_some_iff`, `fit?_eq_none_iff`: what fits at a block;
* `Access.Round.Answers`: a round, preamble by preamble;
* `Access.Round.Answers.reserves`: a round adds its answers to those that stand.
-/

namespace LteMac

/-- The blocks of each answer belong to its UE, and to no other answer. -/
structure BlockMap.Reserves (m : BlockMap) (answers : List AccessGrant) : Prop where
  /-- The map has the blocks of an answer under the name of its UE. -/
  owned : ∀ a ∈ answers, ∀ i ∈ a.blocks, m.owner? i = some a.rnti
  /-- No answer goes to UE 0, as which nobody is entered in a map. -/
  named : ∀ a ∈ answers, a.rnti ≠ 0
  /-- No block is in two of the answers. -/
  disjoint : (answers.map (·.blocks)).Pairwise List.Disjoint

namespace BlockMap

variable {m : BlockMap} {answers : List AccessGrant} {a : AccessGrant} {r : Rnti} {i : Nat}

/-- A block is free if it has no owner but nobody. -/
theorem isFree_iff : m.isFree i = true ↔ m.owner? i = some 0 := by
  simp [isFree]

namespace Reserves

/-- No answers stand. -/
theorem nil (m : BlockMap) : m.Reserves [] := ⟨by simp, by simp, .nil⟩

/-- A reserved block is not free. -/
theorem not_isFree (h : m.Reserves answers) (ha : a ∈ answers) (hi : i ∈ a.blocks) :
    m.isFree i = false := by
  rw [Bool.eq_false_iff, ne_eq, isFree_iff, h.owned a ha i hi, Option.some.injEq]
  exact h.named a ha

/-- Free blocks are given to one more answer. -/
theorem assign (h : m.Reserves answers) (hname : a.rnti ≠ 0)
    (hfree : ∀ i ∈ a.blocks, m.isFree i = true) :
    (m.assign a.blocks a.rnti).Reserves (answers ++ [a]) := by
  have hother : ∀ b ∈ answers, ∀ i ∈ b.blocks, i ∉ a.blocks := by
    intro b hb i hi hia
    have htaken := h.not_isFree hb hi
    rw [hfree i hia] at htaken
    cases htaken
  refine ⟨?_, List.forall_mem_append.2 ⟨h.named, by simpa using hname⟩, ?_⟩
  · intro b hb i hi
    rcases List.mem_append.1 hb with hb | hb
    · -- An older answer keeps its blocks: the new one has none of them.
      rw [owner_assign, if_neg fun hia => hother b hb i hi hia.1]
      exact h.owned b hb i hi
    · obtain rfl := List.mem_singleton.1 hb
      have howner := isFree_iff.1 (hfree i hi)
      rw [owner_assign, if_pos ⟨hi, (Array.getElem?_eq_some_iff.1 howner).1⟩]
  · rw [List.map_append, List.map_singleton, List.pairwise_append]
    refine ⟨h.disjoint, List.pairwise_singleton _ _, ?_⟩
    simp only [List.mem_map, List.mem_singleton, forall_eq]
    rintro _ ⟨b, hb, rfl⟩
    exact fun i hi => hother b hb i hi

/-- The blocks of a released UE are free again, and its answers void. -/
theorem release (h : m.Reserves answers) (r : Rnti) :
    (m.release r).Reserves (answers.filter (·.rnti ≠ r)) where
  owned a ha i hi := by
    obtain ⟨ha, hne⟩ := List.mem_filter.1 ha
    rw [owner_release, h.owned a ha i hi, Option.map_some, if_neg (by simpa using hne)]
  named a ha := h.named a (List.mem_filter.1 ha).1
  disjoint := h.disjoint.sublist (List.filter_sublist.map _)

end Reserves

end BlockMap

namespace Access

variable {round : Round} {reserved : BlockMap} {start size length : Nat}

namespace Round

/-- There is room for as many blocks as are free from a block on, up to the longest answer. -/
theorem le_room_iff {n : Nat} :
    n ≤ round.room reserved start ↔
      n ≤ round.longest ∧ ∀ i ∈ List.range' start n, round.isFree reserved i = true := by
  constructor
  · intro hle
    -- The room is the length of the longest beginning of the blocks that is free.
    have hprefix : (List.range' start round.longest).takeWhile (round.isFree reserved) <+:
        List.range' start round.longest := List.takeWhile_prefix _
    have hlongest : round.room reserved start ≤ round.longest := by
      simpa [room] using hprefix.length_le
    have hfirst : (List.range' start round.longest).takeWhile (round.isFree reserved) =
        List.range' start (round.room reserved start) := by
      rw [List.prefix_iff_eq_take.1 hprefix, ← room, List.take_range'_of_length_ge hlongest]
    refine ⟨Nat.le_trans hle hlongest, fun i hi => ?_⟩
    have hmem : i ∈ (List.range' start round.longest).takeWhile (round.isFree reserved) := by
      rw [hfirst]
      exact List.range'_subset_right_1.2 hle hi
    exact List.mem_takeWhile_imp hmem
  · rintro ⟨hlongest, hfree⟩
    -- If the first `n` are free, that beginning has all of them.
    have hcut : List.range' start round.longest =
        List.range' start n ++ List.range' (start + n) (round.longest - n) := by
      rw [List.range'_append_1, Nat.add_sub_cancel' hlongest]
    rw [room, hcut, List.takeWhile_append_of_pos hfree, List.length_append, List.length_range']
    exact Nat.le_add_right _ _

/-- An answer that fits is the shortest one that carries what is wanted. -/
theorem fit?_eq_some_iff :
    round.fit? reserved start size = some length ↔
      IsLeast {n | 0 < n ∧ size ≤ LinkAdaptation.uplinkBits round.mcs n} length ∧
        length ≤ round.room reserved start := by
  rw [fit?, List.find?_range'_eq_some]
  simp only [decide_eq_true_eq, List.mem_range'_1, Bool.not_eq_true', decide_eq_false_iff_not]
  constructor
  · rintro ⟨hcarries, ⟨hpos, hroom⟩, hshorter⟩
    refine ⟨⟨⟨hpos, hcarries⟩, fun n hn => ?_⟩, by omega⟩
    by_contra hlt
    exact hshorter n hn.1 (Nat.lt_of_not_le hlt) hn.2
  · rintro ⟨⟨⟨hpos, hcarries⟩, hleast⟩, hroom⟩
    refine ⟨hcarries, ⟨hpos, by omega⟩, fun n hn hlt hle => ?_⟩
    exact Nat.not_le.2 hlt (hleast ⟨hn, hle⟩)

/-- Nothing fits if what is wanted is more than any stretch carries for which there is room. -/
theorem fit?_eq_none_iff :
    round.fit? reserved start size = none ↔ ∀ n, 0 < n → n ≤ round.room reserved start →
      LinkAdaptation.uplinkBits round.mcs n < size := by
  rw [fit?, List.find?_range'_eq_none]
  simp only [Bool.not_eq_true', decide_eq_false_iff_not, Nat.not_le]
  exact forall₂_congr fun n hn => by rw [Nat.add_comm, Nat.lt_add_one_iff]

/-- The search for a free block goes upwards. -/
theorem le_firstFree (round : Round) (reserved : BlockMap) (start : Nat) :
    start ≤ round.firstFree reserved start := by
  rw [firstFree]
  cases hfind : (List.range' start (round.blocks - start)).find? (round.isFree reserved) with
  | none => exact Nat.le_max_left ..
  | some first => exact (List.mem_range'_1.1 (List.mem_of_find?_eq_some hfind)).1

/-- No block before the first free one is free. -/
theorem not_isFree_of_lt_firstFree {i : Nat} (hstart : start ≤ i)
    (hlt : i < round.firstFree reserved start) (hblocks : i < round.blocks) :
    round.isFree reserved i = false := by
  rw [firstFree] at hlt
  cases hfind : (List.range' start (round.blocks - start)).find? (round.isFree reserved) with
  | none =>
    have hnone := List.find?_range'_eq_none.1 hfind i hstart (by omega)
    simpa using hnone
  | some first =>
    rw [hfind, Option.getD_some] at hlt
    simpa using (List.find?_range'_eq_some.1 hfind).2.2 i hstart hlt

/-- The first free block is free, if any block is. -/
theorem isFree_firstFree {i : Nat} (hstart : start ≤ i) (hfree : round.isFree reserved i = true)
    (hblocks : i < round.blocks) :
    round.isFree reserved (round.firstFree reserved start) = true ∧
      round.firstFree reserved start ≤ i := by
  refine ⟨?_, ?_⟩
  · rw [firstFree]
    cases hfind : (List.range' start (round.blocks - start)).find? (round.isFree reserved) with
    | none =>
      have hnone := List.find?_range'_eq_none.1 hfind i hstart (by omega)
      simp [hfree] at hnone
    | some first => exact List.find?_some hfind
  · by_contra hlt
    have hnot := not_isFree_of_lt_firstFree hstart (Nat.lt_of_not_le hlt) hblocks
    rw [hfree] at hnot
    cases hnot

end Round

/-- The stretch of an answer is not empty, and all of it is free. -/
theorem free_of_fit? (h : round.fit? reserved start size = some length) :
    0 < length ∧ ∀ i ∈ List.range' start length, round.isFree reserved i = true := by
  obtain ⟨hleast, hroom⟩ := Round.fit?_eq_some_iff.1 h
  exact ⟨hleast.1.1, (Round.le_room_iff.1 hroom).2⟩

namespace Round

/-- What a round makes of the preambles of a list, one after the other: the blocks that are reserved
afterwards, and the answers. -/
inductive Answers (round : Round) :
    BlockMap → Nat → List Preamble → BlockMap → List AccessGrant → Prop
  /-- Nobody is left. -/
  | done {reserved : BlockMap} {start : Nat} : Answers round reserved start [] reserved []
  /-- A preamble that was sent twice gets no answer, and the round goes on where it was. -/
  | collided {reserved reserved' : BlockMap} {start : Nat} {p : Preamble} {ps : List Preamble}
      {answers : List AccessGrant} (hcollides : round.collides p = true)
      (hrest : Answers round reserved start ps reserved' answers) :
      Answers round reserved start (p :: ps) reserved' answers
  /-- The first one that does not fit ends the round. -/
  | ended {reserved : BlockMap} {start : Nat} {p : Preamble} {ps : List Preamble}
      (halone : round.collides p = false)
      (hfit : round.fit? reserved (round.firstFree reserved start) p.size = none) :
      Answers round reserved start (p :: ps) reserved []
  /-- The round goes on behind an answer. -/
  | granted {reserved reserved' : BlockMap} {start length : Nat} {p : Preamble}
      {ps : List Preamble} {answers : List AccessGrant} (halone : round.collides p = false)
      (hfit : round.fit? reserved (round.firstFree reserved start) p.size = some length)
      (hrest : Answers round
        (reserved.assign (round.grant p (round.firstFree reserved start) length).blocks p.rnti)
        (round.firstFree reserved start + length) ps reserved' answers) :
      Answers round reserved start (p :: ps) reserved'
        (round.grant p (round.firstFree reserved start) length :: answers)

/-- A round does one of these things for each preamble. -/
theorem answers_answer (round : Round) (reserved : BlockMap) (start : Nat) (ps : List Preamble) :
    round.Answers reserved start ps (round.answer reserved start ps).1
      (round.answer reserved start ps).2 := by
  induction ps generalizing reserved start with
  | nil => exact .done
  | cons p ps ih =>
    rw [answer]
    split
    next hcollides => exact .collided hcollides (ih reserved start)
    next halone =>
      dsimp only
      split
      next hfit => exact .ended (Bool.eq_false_iff.2 halone) hfit
      next length hfit => exact .granted (Bool.eq_false_iff.2 halone) hfit (ih _ _)

namespace Answers

variable {reserved' : BlockMap} {ps : List Preamble} {answers : List AccessGrant}

/-- The blocks of all answers to named preambles are reserved, besides those of earlier answers. UE
0 has to be left out, as its blocks would count as nobody's. -/
theorem reserves (h : round.Answers reserved start ps reserved' answers)
    (hname : ∀ p ∈ ps, p.rnti ≠ 0) {before : List AccessGrant}
    (hbefore : reserved.Reserves before) : reserved'.Reserves (before ++ answers) := by
  induction h generalizing before with
  | done => rwa [List.append_nil]
  | collided _ _ ih => exact ih (List.forall_mem_cons.1 hname).2 hbefore
  | ended => rwa [List.append_nil]
  | @granted reserved _ start length p _ _ _ hfit _ ih =>
    -- The answer takes blocks that are free, and the rest of the round goes on from there.
    have hfree := (free_of_fit? hfit).2
    have hgrant := hbefore.assign (a := round.grant p (round.firstFree reserved start) length)
      (List.forall_mem_cons.1 hname).1 fun i hi => (Bool.and_eq_true_iff.1 (hfree i hi)).2
    rw [List.append_cons]
    exact ih (List.forall_mem_cons.1 hname).2 hgrant

/-- No answer is empty. -/
theorem pos (h : round.Answers reserved start ps reserved' answers) :
    ∀ a ∈ answers, 0 < a.length := by
  induction h with
  | done | ended => simp
  | collided _ _ ih => exact ih
  | granted _ hfit _ ih => exact List.forall_mem_cons.2 ⟨(free_of_fit? hfit).1, ih⟩

end Answers

end Round

end Access

end LteMac
