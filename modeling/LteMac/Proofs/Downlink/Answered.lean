import LteMac.Proofs.Downlink.Access
import LteMac.Proofs.Downlink.Conservation

/-!
# Answered preambles

A round of answers goes through the preambles in the order in which they were heard, and through the
uplink blocks from the lowest one on. What it answers are the first of the preambles that no two UEs
sent, each by the shortest stretch that carries what the UE wants to send. The stretches lie one
behind the other on blocks that nobody has, so that nothing which was reserved before is touched.

Both halves are inductions over the round, as it goes on from one preamble to the next: which
preambles it answers, in their order (`Answers.covers`), and where the answers are
(`Answers.places`). The second one also says what lies between the answers. As each of them is
placed in the first free blocks, the blocks that it skips are not free.

* `Access.Round.Covers`, `Answers.covers`: which preambles are answered, and how;
* `Access.Round.Places`, `Answers.places`: where the answers are;
* `SchedulerState.preambles_answered`: the answers of a downlink trigger.
-/

namespace LteMac

namespace Access

namespace Round

variable {round : Round} {reserved reserved' : BlockMap} {start length : Nat} {p : Preamble}
  {a : AccessGrant} {answers : List AccessGrant}

/-! ## Which preambles are answered -/

/-- An answer to a preamble is the shortest one that carries what the UE wants to send. -/
structure Covers (round : Round) (p : Preamble) (a : AccessGrant) : Prop where
  /-- The answer is the one that the round makes on these blocks. -/
  eq : a = round.grant p a.start a.length
  /-- No shorter stretch would carry what the UE wants to send. -/
  least : IsLeast {n | 0 < n ∧ p.size ≤ LinkAdaptation.uplinkBits round.mcs n} a.length
  /-- No answer is longer than the cell allows. -/
  le : a.length ≤ round.longest
  /-- A UE states what it wants to send in 16 bits. -/
  carries : p.size < 2 ^ 16 → p.size ≤ 8 * a.tbs

/-- The stretch that a preamble fits in is the shortest one. -/
theorem covers_grant (hfit : round.fit? reserved start p.size = some length) :
    round.Covers p (round.grant p start length) := by
  obtain ⟨hleast, hroom⟩ := fit?_eq_some_iff.1 hfit
  refine ⟨rfl, hleast, (le_room_iff.1 hroom).1, fun hsize => ?_⟩
  -- A block is made of whole bytes, so they hold all of its bits, up to the largest size there is.
  have hcarried := hleast.1.2
  have hbytes : (round.grant p start length).tbs =
      min (LinkAdaptation.uplinkBits round.mcs length / 8) LinkAdaptation.maxBlockBytes := rfl
  have hwhole : 8 ∣ LinkAdaptation.uplinkBits round.mcs length := Nat.dvd_mul_left ..
  simp only [LinkAdaptation.maxBlockBytes] at hbytes
  omega

/-- The block behind the last of some answers, which follow each other from a block on. -/
def edge (start : Nat) (answers : List AccessGrant) : Nat :=
  answers.foldl (fun _ a => a.start + a.length) start

/-- A round answers the first of the preambles, but for those that several UEs sent. It ends at a
preamble that does not fit in the first free blocks behind the last answer. -/
theorem Answers.covers {ps : List Preamble}
    (h : round.Answers reserved start ps reserved' answers) :
    ∃ served rest, ps = served ++ rest ∧
      List.Forall₂ round.Covers (served.filter (!round.collides ·)) answers ∧
      ∀ q later, rest = q :: later → round.collides q = false ∧
        round.fit? reserved' (round.firstFree reserved' (edge start answers)) q.size = none := by
  -- The place where the round ends is the same, seen from behind the first answer.
  induction h with
  | done => exact ⟨[], [], rfl, .nil, by simp⟩
  | @collided _ _ _ p _ _ hcollides _ ih =>
    obtain ⟨served, rest, rfl, hcovers, hrest⟩ := ih
    refine ⟨p :: served, rest, rfl, ?_, hrest⟩
    rwa [List.filter_cons_of_neg (by simp [hcollides])]
  | @ended _ _ p ps halone hfit =>
    refine ⟨[], p :: ps, rfl, .nil, fun q later heq => ?_⟩
    obtain ⟨rfl, rfl⟩ := List.cons.inj heq
    exact ⟨halone, hfit⟩
  | @granted _ _ _ _ p _ _ halone hfit _ ih =>
    obtain ⟨served, rest, rfl, hcovers, hrest⟩ := ih
    refine ⟨p :: served, rest, rfl, ?_, hrest⟩
    rw [List.filter_cons_of_pos (by simp [halone])]
    exact .cons (covers_grant hfit) hcovers

/-! ## Where the answers are -/

/-- Some answers take blocks that are free in a map, one behind the other from a block on, and make
of it another map. -/
structure Places (round : Round) (reserved : BlockMap) (start : Nat) (answers : List AccessGrant)
    (reserved' : BlockMap) : Prop where
  /-- No answer begins before the given block. -/
  behind : ∀ a ∈ answers, start ≤ a.start
  /-- Each answer ends before the next one begins. -/
  ascending : answers.Pairwise fun a b => a.start + a.length ≤ b.start
  /-- The answers take free blocks only. -/
  free : ∀ a ∈ answers, ∀ i ∈ a.blocks, round.isFree reserved i = true
  /-- They have their blocks in the new map. -/
  owned : ∀ a ∈ answers, ∀ i ∈ a.blocks, reserved'.owner? i = some a.rnti
  /-- All other blocks are as they were. -/
  kept : ∀ i, (∀ a ∈ answers, i ∉ a.blocks) → reserved'.owner? i = reserved.owner? i
  /-- Between them there is nothing that could have been part of an answer. -/
  skipped : ∀ i, start ≤ i → i < edge start answers → i < round.blocks →
    (∀ a ∈ answers, i ∉ a.blocks) → round.isFree reserved i = false

namespace Places

/-- No answers take nothing. -/
theorem nil (round : Round) (reserved : BlockMap) (start : Nat) :
    round.Places reserved start [] reserved :=
  ⟨by simp, .nil, by simp, by simp, fun _ _ => rfl,
    fun _ hstart hlt _ _ => absurd hlt (Nat.not_lt.2 hstart)⟩

/-- One more answer in front of the others. -/
theorem cons (hstart : start ≤ a.start) (hfree : ∀ i ∈ a.blocks, round.isFree reserved i = true)
    (hskip : ∀ i, start ≤ i → i < a.start → i < round.blocks → round.isFree reserved i = false)
    (h : round.Places (reserved.assign a.blocks a.rnti) (a.start + a.length) answers reserved') :
    round.Places reserved start (a :: answers) reserved' := by
  have hbefore : ∀ i ∈ a.blocks, i < a.start + a.length := fun i hi => (List.mem_range'_1.1 hi).2
  have hbehind : ∀ b ∈ answers, ∀ i ∈ b.blocks, a.start + a.length ≤ i := fun b hb i hi =>
    Nat.le_trans (h.behind b hb) (List.mem_range'_1.1 hi).1
  have hother : ∀ i, i ∉ a.blocks →
      (reserved.assign a.blocks a.rnti).owner? i = reserved.owner? i := by
    intro i hi
    rw [BlockMap.owner_assign, if_neg fun h => hi h.1]
  have hsame : ∀ i, i ∉ a.blocks →
      round.isFree (reserved.assign a.blocks a.rnti) i = round.isFree reserved i := by
    intro i hi
    rw [isFree, isFree, BlockMap.isFree, BlockMap.isFree, hother i hi]
  refine ⟨List.forall_mem_cons.2 ⟨hstart, fun b hb => ?_⟩,
    List.pairwise_cons.2 ⟨h.behind, h.ascending⟩,
    List.forall_mem_cons.2 ⟨hfree, fun b hb i hi => ?_⟩,
    List.forall_mem_cons.2 ⟨fun i hi => ?_, h.owned⟩, fun i hi => ?_,
    fun i hstart hlt hblocks hi => ?_⟩
  · exact Nat.le_trans (Nat.le_trans hstart (Nat.le_add_right ..)) (h.behind b hb)
  · rw [← hsame i fun ha => Nat.not_le.2 (hbefore i ha) (hbehind b hb i hi)]
    exact h.free b hb i hi
  · -- The answers that follow lie behind this one, so they leave its blocks alone.
    have hlt : i < reserved.size := by
      have howner := BlockMap.isFree_iff.1 (Bool.and_eq_true_iff.1 (hfree i hi)).2
      exact (Array.getElem?_eq_some_iff.1 howner).1
    rw [h.kept i fun b hb hib => Nat.not_le.2 (hbefore i hi) (hbehind b hb i hib),
      BlockMap.owner_assign, if_pos ⟨hi, hlt⟩]
  · obtain ⟨ha, hanswers⟩ := List.forall_mem_cons.1 hi
    rw [h.kept i hanswers, hother i ha]
  · obtain ⟨ha, hanswers⟩ := List.forall_mem_cons.1 hi
    by_cases hfirst : i < a.start
    · exact hskip i hstart hfirst hblocks
    -- The block is not in the first answer and not before it, so it lies behind.
    · have hbehind : a.start + a.length ≤ i := Nat.le_of_not_lt fun hlt =>
        ha (List.mem_range'_1.2 ⟨Nat.le_of_not_lt hfirst, hlt⟩)
      rw [← hsame i ha]
      exact h.skipped i hbehind hlt hblocks hanswers

/-- No block is in two of the answers. -/
theorem disjoint (h : round.Places reserved start answers reserved') :
    (answers.map (·.blocks)).Pairwise List.Disjoint := by
  refine List.pairwise_map.2 (h.ascending.imp fun {a b} hle i hi hi' => ?_)
  exact Nat.not_lt.2 (Nat.le_trans hle (List.mem_range'_1.1 hi').1) (List.mem_range'_1.1 hi).2

end Places

/-- The answers of a round lie one behind the other on free blocks. -/
theorem Answers.places {ps : List Preamble}
    (h : round.Answers reserved start ps reserved' answers) :
    round.Places reserved start answers reserved' := by
  induction h with
  | done => exact .nil ..
  | collided _ _ ih => exact ih
  | ended => exact .nil ..
  | @granted reserved _ start _ _ _ _ _ hfit _ ih =>
    exact .cons (round.le_firstFree reserved start) (free_of_fit? hfit).2
      (fun i => not_isFree_of_lt_firstFree) ih

end Round

end Access

/-! ## The answers of a trigger -/

/-- What a downlink trigger makes of the preambles that were heard: some of them are answered, and
none is left. -/
structure SchedulerState.Answered {Record : Type} (s s' : SchedulerState Record) (grid : Grid)
    (answered : List Preamble) (answers : List AccessGrant) : Prop where
  /-- The answered preambles stand in the order in which they were heard. -/
  sublist : answered.Sublist s.preambles
  /-- Each of them was sent by a single UE. -/
  once : ∀ p ∈ answered, s.preambles.countP (·.id == p.id) = 1
  /-- They are answered one by one, each by the shortest stretch. -/
  covered : List.Forall₂ (Access.roundOf s grid).Covers answered answers
  /-- The answers are on blocks that the cell may use and that were not reserved. -/
  free : ∀ a ∈ answers, ∀ i ∈ a.blocks,
    flagAt s.reuse.uplinkFlags i = true ∧ s.uplink.reserved.isFree i = true
  /-- No block is in two of them. -/
  disjoint : (answers.map (·.blocks)).Pairwise List.Disjoint
  /-- Their blocks are reserved afterwards. -/
  owned : ∀ a ∈ answers, ∀ i ∈ a.blocks, s'.uplink.reserved.owner? i = some a.rnti
  /-- Every other block is reserved afterwards if it was before, and for the same UE. -/
  kept : ∀ i, (∀ a ∈ answers, i ∉ a.blocks) →
    s'.uplink.reserved.owner? i = s.uplink.reserved.owner? i
  /-- No preamble waits any longer, whether it was answered or not. -/
  heard : s'.preambles = []

/-- An accepted downlink trigger has a round of answers. -/
theorem SchedulerState.answers_of_step {Record : Type} {policy : Policy Record}
    {s s' : SchedulerState Record} {feedback : List HarqFeedback} {said : List Indication}
    (hstep : s.step policy (.downlinkTrigger feedback) = .ok (s', said)) :
    ∃ grid d, s.grid = some grid ∧ said = [.downlink d] ∧ s'.preambles = [] ∧
      (Access.roundOf s grid).Answers s.uplink.reserved 0 s.preambles s'.uplink.reserved
        d.access := by
  cases effect_of_step hstep with
  | quiet hq => cases hq
  | downlink hgrid => exact ⟨_, _, hgrid, rfl, rfl, Access.Round.answers_answer ..⟩

/-- Which preambles a downlink trigger answers, on which blocks, and what it leaves of the preambles
and of the reserved blocks. Nothing is asked of the state: whatever was reserved before is left
alone. -/
theorem SchedulerState.preambles_answered {Record : Type} {policy : Policy Record}
    {s s' : SchedulerState Record} {feedback : List HarqFeedback} {said : List Indication}
    (hstep : s.step policy (.downlinkTrigger feedback) = .ok (s', said)) :
    ∃ grid d answered, s.grid = some grid ∧ said = [.downlink d] ∧
      s.Answered s' grid answered d.access := by
  obtain ⟨grid, d, hgrid, hsaid, hheard, hround⟩ := answers_of_step hstep
  have hplaces := hround.places
  obtain ⟨served, rest, hcut, hcovers, -⟩ := hround.covers
  have hsublist : (served.filter (!(Access.roundOf s grid).collides ·)).Sublist s.preambles :=
    List.filter_sublist.trans (hcut ▸ List.sublist_append_left ..)
  refine ⟨grid, d, _, hgrid, hsaid, hsublist, fun p hp => ?_, hcovers,
    fun a ha i hi => Bool.and_eq_true_iff.1 (hplaces.free a ha i hi), hplaces.disjoint,
    hplaces.owned, hplaces.kept, hheard⟩
  have hheard : 0 < s.preambles.countP (·.id == p.id) :=
    List.countP_pos_iff.2 ⟨p, hsublist.subset hp, by simp⟩
  have halone := (List.mem_filter.1 hp).2
  simp only [Access.Round.collides, Bool.not_eq_true', decide_eq_false_iff_not] at halone
  exact Nat.le_antisymm (Nat.le_of_not_lt halone) hheard

/-- Of four UEs, two send the same preamble. -/
def fourPreambles : List Preamble := [⟨11, 5, 56⟩, ⟨12, 5, 56⟩, ⟨13, 7, 100⟩, ⟨14, 8, 56⟩]

/-- The two others are answered, the one that wants to send more on more blocks. -/
theorem preambles_answered_fourPreambles :
    ∃ (s s' : SchedulerState Throughput) (said : List Indication) (grid : Grid)
      (d : DownlinkDecision) (answered : List Preamble),
      Reachable .tdBet .default s ∧ s.preambles = fourPreambles ∧
      s.step .tdBet (.downlinkTrigger []) = .ok (s', said) ∧ said = [.downlink d] ∧
      s.Answered s' grid answered d.access ∧
      d.access.map (fun a => (a.rnti, a.start, a.length)) = [(13, 0, 5), (14, 5, 3)] := by
  obtain ⟨es, e, hrun, hstep, hcheck⟩ := Run.of_replay_step .tdBet .default
    [.connect true true, .configureCell 15 15, .randomAccess fourPreambles] (.downlinkTrigger [])
    (fun _ e => e.before.preambles == fourPreambles &&
      (e.said.flatMap (·.answers)).map (fun a => (a.rnti, a.start, a.length)) ==
        [(13, 0, 5), (14, 5, 3)])
    (by decide +kernel)
  simp only [Bool.and_eq_true, beq_iff_eq] at hcheck
  obtain ⟨grid, d, answered, -, hsaid, hanswered⟩ := SchedulerState.preambles_answered hstep
  refine ⟨e.before, e.after, e.said, grid, d, answered, hrun.reachable, hcheck.1, hstep, hsaid,
    hanswered, ?_⟩
  simpa [hsaid, Indication.answers] using hcheck.2

end LteMac
