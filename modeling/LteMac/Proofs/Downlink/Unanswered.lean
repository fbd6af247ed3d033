import LteMac.Proofs.Downlink.Answered
import LteMac.Proofs.Scheduler.Consistency

/-!
# Preambles without an answer

A round of answers ends at the first preamble that does not fit. Neither this preamble nor any of
those behind it is answered, whatever these want to send. And whether it fits is tried at one place
only, in the first free blocks behind the last answer: a stretch that would carry it is overlooked
if there is a gap before it.

So a preamble is left without an answer for its place in the order, and not for its size. The
statement says which ones are (`SchedulerState.Ended`), for any state that can be reached and
whatever the preambles: they are those from the first misfit on, which only had to fail at the one
place where it was tried. That this is less than one would ask for is shown by a small cell, in
which three blocks stay free beside a preamble that three blocks would carry.

* `Access.Round.Suits`: a stretch of free blocks that would carry a preamble;
* `SchedulerState.Ended`, `Reachable.unanswered_of_step`: where a round ends, and what is
  overlooked;
* `preamble_overlooked`: free blocks beside a preamble that they would carry.
-/

namespace LteMac

namespace Access

namespace Round

variable {round : Round} {reserved reserved' : BlockMap} {start first length : Nat} {p : Preamble}

/-- A stretch of free blocks, no longer than the longest answer, that carries a preamble. -/
structure Suits (round : Round) (reserved : BlockMap) (p : Preamble) (start length : Nat) :
    Prop where
  /-- It is not empty. -/
  pos : 0 < length
  /-- It is no longer than an answer may be. -/
  le : length ≤ round.longest
  /-- It carries what the UE wants to send. -/
  carries : p.size ≤ LinkAdaptation.uplinkBits round.mcs length
  /-- Its blocks are free. -/
  free : ∀ i ∈ List.range' start length, round.isFree reserved i = true

/-- Where a stretch begins that carries a preamble, the preamble fits. -/
theorem Suits.fit?_ne_none (h : round.Suits reserved p start length) :
    round.fit? reserved start p.size ≠ none := fun hnone =>
  Nat.not_lt.2 h.carries (fit?_eq_none_iff.1 hnone length h.pos (le_room_iff.2 ⟨h.le, h.free⟩))

/-- What does not fit in the first free blocks fits only behind a gap. -/
theorem exists_gap_of_suits (hblocks : ∀ i, round.isFree reserved i = true → i < round.blocks)
    (hnone : round.fit? reserved (round.firstFree reserved start) p.size = none)
    (h : round.Suits reserved p first length) (hstart : start ≤ first) :
    ∃ low gap, start ≤ low ∧ low < gap ∧ gap < first ∧ round.isFree reserved low = true ∧
      round.isFree reserved gap = false := by
  have hfirst : round.isFree reserved first = true :=
    h.free first (List.mem_range'_1.2 ⟨Nat.le_refl _, Nat.lt_add_of_pos_right h.pos⟩)
  obtain ⟨hlow, hle⟩ := isFree_firstFree hstart hfirst (hblocks first hfirst)
  by_contra hgap
  -- Without a gap, a stretch of the same length could begin at the first free block.
  refine Suits.fit?_ne_none ⟨h.pos, h.le, h.carries, fun i hi => ?_⟩ hnone
  obtain ⟨hfrom, hto⟩ := List.mem_range'_1.1 hi
  by_cases hi : first ≤ i
  · exact h.free i (List.mem_range'_1.2 ⟨hi, by omega⟩)
  · by_contra hnot
    have hne : round.firstFree reserved start ≠ i := fun heq => hnot (heq ▸ hlow)
    exact hgap ⟨_, i, le_firstFree .., by omega, by omega, hlow, by simpa using hnot⟩

/-- Every answer is to one of the preambles that are answered. -/
theorem exists_of_covers {ps : List Preamble} {answers : List AccessGrant}
    (h : List.Forall₂ round.Covers ps answers) {a : AccessGrant} (ha : a ∈ answers) :
    ∃ p ∈ ps, a.rnti = p.rnti ∧ a.preamble = p.id := by
  induction h with
  | nil => cases ha
  | @cons p b ps answers hcover _ ih =>
    rcases List.mem_cons.1 ha with rfl | ha
    · exact ⟨p, List.mem_cons_self, by rw [hcover.eq]; exact ⟨rfl, rfl⟩⟩
    · obtain ⟨q, hq, hnames⟩ := ih ha
      exact ⟨q, List.mem_cons_of_mem _ hq, hnames⟩

/-- Each of the preambles that are answered has an answer. -/
theorem exists_answer_of_covers {ps : List Preamble} {answers : List AccessGrant}
    (h : List.Forall₂ round.Covers ps answers) (hp : p ∈ ps) :
    ∃ a ∈ answers, a.preamble = p.id := by
  induction h with
  | nil => cases hp
  | @cons q a ps answers hcover _ ih =>
    rcases List.mem_cons.1 hp with rfl | hp
    · exact ⟨a, List.mem_cons_self, by rw [hcover.eq]; rfl⟩
    · obtain ⟨b, hb, hid⟩ := ih hp
      exact ⟨b, List.mem_cons_of_mem _ hb, hid⟩

/-- A preamble that a single UE sent is in one part of a round. -/
theorem not_same_of_alone {served rest : List Preamble} (hcut : round.batch = served ++ rest)
    (halone : round.collides p = false) {q q' : Preamble} (hq : q ∈ served) (hq' : q' ∈ rest)
    (hid : q.id = p.id) : q'.id ≠ p.id := by
  intro hid'
  have hserved : 0 < served.countP (·.id == p.id) :=
    List.countP_pos_iff.2 ⟨q, hq, by simpa using hid⟩
  have hrest : 0 < rest.countP (·.id == p.id) :=
    List.countP_pos_iff.2 ⟨q', hq', by simpa using hid'⟩
  simp only [collides, hcut, List.countP_append, decide_eq_false_iff_not] at halone
  omega

/-- What a single UE sent is answered in the first part of a round, and denied an answer in the
second one. -/
theorem denied_iff {served rest : List Preamble} {answers : List AccessGrant}
    (hcut : round.batch = served ++ rest)
    (hcovers : List.Forall₂ round.Covers (served.filter (!round.collides ·)) answers)
    (hp : p ∈ round.batch) (halone : round.collides p = false) :
    (∀ a ∈ answers, a.preamble ≠ p.id) ↔ p ∈ rest := by
  constructor
  · intro hnone
    refine (List.mem_append.1 (hcut ▸ hp)).resolve_left fun hserved => ?_
    obtain ⟨a, ha, hid⟩ := exists_answer_of_covers hcovers
      (List.mem_filter.2 ⟨hserved, by simp [halone]⟩)
    exact hnone a ha hid
  · intro hrest a ha hid
    obtain ⟨q, hq, -, hsame⟩ := exists_of_covers hcovers ha
    exact not_same_of_alone hcut halone (List.mem_filter.1 hq).1 hrest (hsame.symm.trans hid) rfl

end Round

end Access

/-! ## Where the round of a trigger ends -/

section Trigger

open Access

variable {Record : Type} {policy : Policy Record} {config : SchedulerConfig}
  {s s' : SchedulerState Record} {feedback : List HarqFeedback} {said : List Indication}

/-- A preamble that a round ends at: it came from a single UE, and it does not fit in the first free
blocks behind the last answer. What would still carry it lies before the end of that answer or
behind a gap. -/
structure Access.Round.Stuck (round : Round) (reserved : BlockMap) (edge : Nat) (q : Preamble) :
    Prop where
  /-- A single UE sent it. -/
  alone : round.collides q = false
  /-- It was tried at one place, where it does not fit. -/
  misfit : round.fit? reserved (round.firstFree reserved edge) q.size = none
  /-- The places where it would fit are not tried. -/
  behind : ∀ start length, round.Suits reserved q start length →
    start < edge ∨ ∃ low gap, edge ≤ low ∧ low < gap ∧ gap < start ∧
      round.isFree reserved low = true ∧ round.isFree reserved gap = false

/-- Where the answers of a downlink trigger end: it comes to the first preambles only, and answers
those of them that a single UE sent. -/
structure SchedulerState.Ended (s s' : SchedulerState Record) (grid : Grid)
    (served rest : List Preamble) (answers : List AccessGrant) : Prop where
  /-- The preambles are cut in two, those that had their turn and those that had not. -/
  cut : s.preambles = served ++ rest
  /-- What a single UE sent is denied an answer if it had no turn. -/
  denied_iff : ∀ p ∈ s.preambles, (roundOf s grid).collides p = false →
    ((∀ a ∈ answers, a.preamble ≠ p.id) ↔ p ∈ rest)
  /-- The first one without a turn is where the round got stuck. -/
  stuck : ∀ q later, rest = q :: later →
    (roundOf s grid).Stuck s'.uplink.reserved (Round.edge 0 answers) q
  /-- Nothing lies before the end of the last answer, unless somebody is named 0. -/
  taken : (∀ p ∈ s.preambles, p.rnti ≠ 0) → ∀ i < Round.edge 0 answers,
    (roundOf s grid).isFree s'.uplink.reserved i = false

/-- Every free block of a round is a block of the cell. -/
theorem Reachable.lt_of_isFree (h : Reachable policy config s) {grid : Grid}
    (hgrid : s.grid = some grid) {reserved : BlockMap}
    (hsize : reserved.size = s.uplink.reserved.size) {i : Nat}
    (hi : (roundOf s grid).isFree reserved i = true) : i < (roundOf s grid).blocks := by
  have howner := BlockMap.isFree_iff.1 (Bool.and_eq_true_iff.1 hi).2
  have hlt : i < reserved.size := (Array.getElem?_eq_some_iff.1 howner).1
  rw [hsize, h.consistent.uplink.reserved, SchedulerState.blocks, hgrid] at hlt
  exact hlt

/-- A preamble that a single UE sent is denied an answer in a downlink trigger if and only if it is
not among the first ones, those before the first one that does not fit at the one place where it is
tried. -/
theorem Reachable.unanswered_of_step (h : Reachable policy config s)
    (hstep : s.step policy (.downlinkTrigger feedback) = .ok (s', said)) :
    ∃ grid d served rest, s.grid = some grid ∧ said = [.downlink d] ∧
      s.Ended s' grid served rest d.access := by
  obtain ⟨grid, d, hgrid, hsaid, -, hround⟩ := SchedulerState.answers_of_step hstep
  have hplaces := hround.places
  have hsize := hround.size
  obtain ⟨served, rest, hcut, hcovers, hrest⟩ := hround.covers
  refine ⟨grid, d, served, rest, hgrid, hsaid, hcut, fun p hp halone => ?_, fun q later heq => ?_,
    fun hnamed i hlt => ?_⟩
  · exact Round.denied_iff hcut hcovers hp halone
  · obtain ⟨halone, hnone⟩ := hrest q later heq
    refine ⟨halone, hnone, fun start length hsuits => ?_⟩
    by_cases hedge : start < Round.edge 0 d.access
    · exact .inl hedge
    · exact .inr (Round.exists_gap_of_suits (fun i => h.lt_of_isFree hgrid hsize) hnone hsuits
        (Nat.le_of_not_lt hedge))
  -- A free block before the end of the last answer would be in an answer or between two of them.
  · by_contra hfree
    rw [Bool.not_eq_false] at hfree
    have hnobody := BlockMap.isFree_iff.1 (Bool.and_eq_true_iff.1 hfree).2
    by_cases hanswer : ∃ a ∈ d.access, i ∈ a.blocks
    · -- A block of an answer belongs to the UE that is answered.
      obtain ⟨a, ha, hi⟩ := hanswer
      obtain ⟨p, hp, hname, -⟩ := Round.exists_of_covers hcovers ha
      have howner := (hplaces.owned a ha i hi).symm.trans hnobody
      refine hnamed p (hcut ▸ List.mem_append_left _ (List.mem_filter.1 hp).1) ?_
      rw [← hname, Option.some.inj howner]
    · push Not at hanswer
      have hskipped := hplaces.skipped i (Nat.zero_le i) hlt
        (h.lt_of_isFree hgrid hsize hfree) hanswer
      rw [Round.isFree, BlockMap.isFree, ← hplaces.kept i hanswer] at hskipped
      exact Bool.false_ne_true (hskipped.symm.trans hfree)

/-- Three UEs want to send something, the second one more than the cell can carry. -/
def oversizedBetweenSmall : List Preamble := [⟨11, 1, 56⟩, ⟨12, 2, 60000⟩, ⟨13, 3, 56⟩]

/-- The first one is answered, and the third one is not, for which there would be blocks. -/
theorem exists_oversizedBetweenSmall :
    ∃ (s s' : SchedulerState Throughput) (grid : Grid) (d : DownlinkDecision),
      Reachable .tdBet .default s ∧ s.grid = some grid ∧ s.preambles = oversizedBetweenSmall ∧
      s.step .tdBet (.downlinkTrigger []) = .ok (s', [.downlink d]) ∧
      d.access.map (·.preamble) = [1] ∧
      (roundOf s grid).Suits s'.uplink.reserved ⟨13, 3, 56⟩ 3 3 := by
  obtain ⟨es, e, hrun, hstep, hcheck⟩ := Run.of_replay_step .tdBet .default
    [.connect true true, .configureCell 15 15, .randomAccess oversizedBetweenSmall]
    (.downlinkTrigger [])
    (fun _ e => e.before.preambles == oversizedBetweenSmall &&
      (e.said.flatMap (·.answers)).map (·.preamble) == [1] &&
      e.before.grid.any fun grid => 3 ≤ (roundOf e.before grid).longest &&
        56 ≤ LinkAdaptation.uplinkBits (roundOf e.before grid).mcs 3 &&
        (List.range' 3 3).all ((roundOf e.before grid).isFree e.after.uplink.reserved))
    (by decide +kernel)
  obtain ⟨grid, d, hgrid, hsaid, -⟩ := SchedulerState.answers_of_step hstep
  simp only [hgrid, hsaid, Option.any_some, Bool.and_eq_true, beq_iff_eq, decide_eq_true_eq,
    List.all_eq_true] at hcheck
  obtain ⟨⟨hheard, hanswers⟩, ⟨hlongest, hcarries⟩, hfree⟩ := hcheck
  exact ⟨e.before, e.after, grid, d, hrun.reachable, hgrid, hheard, hsaid ▸ hstep,
    by simpa [Indication.answers] using hanswers, by decide, hlongest, hcarries, hfree⟩

/-- A preamble that a single UE sent is denied an answer although free blocks would carry it. It is
heard behind one that wants to send more than the whole cell carries, and the round ends there. -/
theorem preamble_overlooked :
    ¬∀ (s s' : SchedulerState Throughput) (grid : Grid) (d : DownlinkDecision),
      Reachable .tdBet .default s → s.grid = some grid →
      s.step .tdBet (.downlinkTrigger []) = .ok (s', [.downlink d]) →
      ∀ p ∈ s.preambles, (roundOf s grid).collides p = false →
        (∀ a ∈ d.access, a.preamble ≠ p.id) →
        ∀ start length, ¬(roundOf s grid).Suits s'.uplink.reserved p start length := by
  intro hcomplete
  obtain ⟨s, s', grid, d, hreach, hgrid, hheard, hstep, hanswers, hsuits⟩ :=
    exists_oversizedBetweenSmall
  have hthird : ⟨13, 3, 56⟩ ∈ s.preambles := by
    rw [hheard]
    decide
  refine hcomplete s s' grid d hreach hgrid hstep ⟨13, 3, 56⟩ hthird ?_ (fun a ha hid => ?_) 3 3
    hsuits
  · rw [Round.collides, show (roundOf s grid).batch = s.preambles from rfl, hheard]
    decide
  · have hfirst : a.preamble ∈ d.access.map (·.preamble) := List.mem_map_of_mem ha
    rw [hanswers, hid] at hfirst
    simp at hfirst

/-- The round ended at the second one. -/
theorem unanswered_oversizedBetweenSmall :
    ∃ (s s' : SchedulerState Throughput) (said : List Indication) (grid : Grid)
      (d : DownlinkDecision) (served rest : List Preamble),
      Reachable .tdBet .default s ∧ s.preambles = oversizedBetweenSmall ∧
      s.step .tdBet (.downlinkTrigger []) = .ok (s', said) ∧ said = [.downlink d] ∧
      s.Ended s' grid served rest d.access ∧ d.access.map (·.preamble) = [1] := by
  obtain ⟨s, s', -, d, hreach, -, hheard, hstep, hanswers, -⟩ := exists_oversizedBetweenSmall
  obtain ⟨grid, d', served, rest, -, hsaid, hended⟩ := hreach.unanswered_of_step hstep
  obtain rfl : d = d' := by simpa using hsaid
  exact ⟨s, s', _, grid, d, served, rest, hreach, hheard, hstep, rfl, hended, hanswers⟩

end Trigger

end LteMac
