import LteMac.Proofs.Downlink.Conservation
import Mathlib.Data.List.Perm.Subperm

/-!
# Retransmissions first

The retransmission stage of a downlink trigger goes through the feedback in the order in which it
came in. A block that failed is sent again at once, unless its UE has been sent one in this
subframe, or there are not as many groups left for the UE as the block was on. In both cases the
feedback waits for the next subframe. Only what is left then is for new data, whatever it is worth
to the policy.

Since each piece of feedback finds what the ones before it left, a statement about it has to be made
at its place in the pass. It is made about the pass as far as it has come (`DownlinkTrigger.pass`),
for every list of feedback acted upon so far, so that the pieces of an actual pass are instances.
What waits at the end is then exactly what was deferred, each piece at its own place
(`kept_handleAll`), less what a new block clears because it takes the process over.

* `Retransmission.place?_eq_none_iff`: when a block has no place;
* `Retransmission.Round.Retried`, `retried_handle`: what becomes of a block that failed;
* `Retransmission.Round.defers_iff`, `kept_handleAll`: which feedback waits;
* `DownlinkTrigger.Prioritized`, `Reachable.retransmissions_first`: the stages of a trigger in order
  of priority.
-/

namespace LteMac

namespace Retransmission

variable {reuse : ReusePolicy} {o : Occupancy} {r : Rnti}

/-! ## Places -/

/-- The groups that can be given to a UE. -/
def room (reuse : ReusePolicy) (o : Occupancy) (r : Rnti) : List Nat :=
  (List.range o.size).filter (usable reuse o r)

/-- A group is room for a UE if it can be used for it. -/
theorem mem_room {i : Nat} : i ∈ room reuse o r ↔ usable reuse o r i = true := by
  rw [room, List.mem_filter, List.mem_range, and_iff_right_iff_imp]
  exact fun h => Occupancy.lt_size_of_isFree (usable_iff.1 h).1

/-- A block on usable groups has room. -/
theorem length_le_room {former : List Nat} (hsorted : former.Pairwise (· < ·))
    (hall : ∀ i ∈ former, usable reuse o r i = true) :
    former.length ≤ (room reuse o r).length :=
  (List.subperm_of_subset (hsorted.imp Nat.ne_of_lt) fun i hi =>
    mem_room.2 (hall i hi)).length_le

/-- A block has no place if there is not as much room as it had groups. -/
theorem place?_eq_none_iff {former : List Nat} (hsorted : former.Pairwise (· < ·)) :
    place? reuse o r former = none ↔ (room reuse o r).length < former.length := by
  simp only [place?]
  split
  next hall =>
    have hroom := length_le_room hsorted (List.all_eq_true.1 hall)
    exact iff_of_false (Option.some_ne_none _) (Nat.not_lt.2 hroom)
  next =>
    rw [← room, List.length_take]
    split
    next hlt => exact iff_of_true rfl (by omega)
    next hlt => exact iff_of_false (Option.some_ne_none _) (by omega)

/-- A block stays on its groups if all of them are usable. -/
theorem place?_of_usable {former : List Nat} (hall : ∀ i ∈ former, usable reuse o r i = true) :
    place? reuse o r former = some former := by
  rw [place?, if_pos (List.all_eq_true.2 hall)]

/-! ## Failures -/

namespace Round

variable {round round' : Round} {f : HarqFeedback} {p : DownlinkProcess} {g : DownlinkGrant}

/-- Feedback reports in time that the block of a process failed. -/
structure Reports (round : Round) (f : HarqFeedback) (p : DownlinkProcess) : Prop where
  /-- There is the process that is named. -/
  found : round.harq.process? f.rnti f.process = some p
  /-- It carries a block. -/
  flight : p.isFree = false
  /-- The block did not wait too long. -/
  due : p.isOverdue = false
  /-- A layer failed. -/
  nack : f.isNack = true

/-- What becomes of the block `g` of a process that failed, where its UE was not served before. -/
structure Retried (reuse : ReusePolicy) (round : Round) (f : HarqFeedback) (p : DownlinkProcess)
    (g : DownlinkGrant) (round' : Round) : Prop where
  /-- With enough room it is sent again on as many groups as before, and on the same ones if it can
  be. -/
  again : exhausted g = false →
    g.bitmap.indices.length ≤ (room reuse round.occupancy f.rnti).length →
    ∃ rbgs, round'.sent = round.sent ++ [repetition f.rnti p (again g rbgs)] ∧
      (repetition f.rnti p (again g rbgs)).rbgs = rbgs ∧
      rbgs.length = g.bitmap.indices.length ∧
      (∀ i ∈ rbgs, i ∈ room reuse round.occupancy f.rnti) ∧
      ((∀ i ∈ g.bitmap.indices, i ∈ room reuse round.occupancy f.rnti) →
        rbgs = g.bitmap.indices)
  /-- Without, it is not. -/
  lacking : exhausted g = false →
    (room reuse round.occupancy f.rnti).length < g.bitmap.indices.length →
    round'.sent = round.sent
  /-- In its last version it is given up. -/
  exhausted : exhausted g = true → round'.sent = round.sent

/-- What becomes of a block that failed, read off how its feedback was handled. -/
theorem Handled.retried (hf : round.Handled reuse f round') (hsize : round.occupancy.size ≤ 32)
    (h : round.Reports f p) (hserved : round.served f.rnti = false) (hg : p.grant = some g) :
    round.Retried reuse f p g round' := by
  have hsorted := RbgBitmap.pairwise_indices g.bitmap
  have hsame : ∀ q, round.harq.process? f.rnti f.process = some q → q = p := fun q hq =>
    Option.some.inj (hq.symm.trans h.found)
  cases hf with
  | dropped hidle => exact absurd (hidle p h.found) (by simp [h.flight])
  | @freed q hq hflight hwhy =>
    obtain rfl := hsame q hq
    -- The failure came in time, so it is the last version that is given up.
    have hlast : exhausted g = true := by
      rcases hwhy with hdue | hack | ⟨-, -, hlast⟩
      · simp [h.due] at hdue
      · simp [h.nack] at hack
      · exact hlast g hg
    exact ⟨fun hleft => by simp [hlast] at hleft, fun hleft => by simp [hlast] at hleft,
      fun _ => rfl⟩
  | @kept q hq hflight hdue hnack hwhy =>
    obtain rfl := hsame q hq
    obtain ⟨g', hg', -, hplace⟩ := hwhy.resolve_left (by simp [hserved])
    obtain rfl : g = g' := Option.some.inj (hg.symm.trans hg')
    have hlack := (place?_eq_none_iff hsorted).1 hplace
    exact ⟨fun _ hroom => absurd hlack (Nat.not_lt.2 hroom), fun _ _ => rfl, fun _ => rfl⟩
  | @again q g' rbgs hq hflight hdue hnack _ hg' hleft hplace =>
    obtain rfl := hsame q hq
    obtain rfl : g = g' := Option.some.inj (hg.symm.trans hg')
    obtain ⟨hlen, hascending, husable⟩ := place?_eq_some hplace hsorted
    refine ⟨fun _ _ => ⟨rbgs, rfl, ?_, hlen, fun i hi => mem_room.2 (husable i hi), fun hall => ?_⟩,
      fun _ hlack => ?_, fun hlast => ?_⟩
    · exact RbgBitmap.indices_ofIndices hascending fun i hi =>
        Nat.lt_of_lt_of_le (Occupancy.lt_size_of_isFree (usable_iff.1 (husable i hi)).1) hsize
    · rw [place?_of_usable fun i hi => mem_room.1 (hall i hi)] at hplace
      exact (Option.some.inj hplace).symm
    · rw [(place?_eq_none_iff hsorted).2 hlack] at hplace
      cases hplace
    · simp [hleft] at hlast

/-! ## What waits -/

/-- Whether feedback waits once a pass has come to it. -/
def defers (reuse : ReusePolicy) (round : Round) (f : HarqFeedback) : Bool :=
  (round.harq.process? f.rnti f.process).any fun p =>
    !p.isFree && !p.isOverdue && f.isNack &&
      (round.served f.rnti || p.grant.any fun g => !Retransmission.exhausted g &&
        decide ((room reuse round.occupancy f.rnti).length < g.bitmap.indices.length))

/-- A failure waits if its UE was served already, or if there is no room for the block. -/
theorem defers_iff :
    round.defers reuse f = true ↔ ∃ p, round.Reports f p ∧ (round.served f.rnti = true ∨
      ∃ g, p.grant = some g ∧ Retransmission.exhausted g = false ∧
        (room reuse round.occupancy f.rnti).length < g.bitmap.indices.length) := by
  simp only [defers, Option.any_eq_true, Bool.and_eq_true, Bool.or_eq_true, Bool.not_eq_true',
    decide_eq_true_eq]
  refine exists_congr fun p => ⟨?_, ?_⟩
  · rintro ⟨hfound, ⟨⟨hflight, hdue⟩, hnack⟩, hwhy⟩
    exact ⟨⟨hfound, hflight, hdue, hnack⟩, hwhy⟩
  · rintro ⟨⟨hfound, hflight, hdue, hnack⟩, hwhy⟩
    exact ⟨hfound, ⟨⟨hflight, hdue⟩, hnack⟩, hwhy⟩

/-- A piece of feedback waits if it is deferred. -/
theorem Handled.kept_eq (hf : round.Handled reuse f round') :
    round'.kept = round.kept ++ [f].filter (round.defers reuse) := by
  have hkept : round.defers reuse f = true →
      (round.keep f).kept = round.kept ++ [f].filter (round.defers reuse) := by
    intro hdefers
    rw [List.filter_cons_of_pos hdefers, List.filter_nil]
    rfl
  have hother : ¬round.defers reuse f = true →
      round.kept = round.kept ++ [f].filter (round.defers reuse) := by
    intro hdefers
    rw [List.filter_cons_of_neg hdefers, List.filter_nil, List.append_nil]
  -- In each case but that of what is kept, the reason to wait is ruled out.
  cases hf with
  | dropped hidle =>
    refine hother fun hdefers => ?_
    obtain ⟨p, h, -⟩ := defers_iff.1 hdefers
    have hidle := hidle p h.found
    rw [h.flight] at hidle
    cases hidle
  | @freed p hp hflight hwhy =>
    refine hother fun hdefers => ?_
    obtain ⟨q, h, hdeferred⟩ := defers_iff.1 hdefers
    obtain rfl : p = q := Option.some.inj (hp.symm.trans h.found)
    rcases hwhy with hdue | hack | ⟨-, hserved, hlast⟩
    · simp [h.due] at hdue
    · simp [h.nack] at hack
    · obtain ⟨g, hg, hleft, -⟩ := hdeferred.resolve_left (by simp [hserved])
      simp [hlast g hg] at hleft
  | @kept p hp hflight hdue hnack hwhy =>
    refine hkept (defers_iff.2 ⟨p, ⟨hp, hflight, hdue, hnack⟩, hwhy.imp_right ?_⟩)
    rintro ⟨g, hg, hleft, hplace⟩
    exact ⟨g, hg, hleft, (place?_eq_none_iff (RbgBitmap.pairwise_indices _)).1 hplace⟩
  | @again p g rbgs hp hflight hdue hnack hserved hg hleft hplace =>
    refine hother fun hdefers => ?_
    obtain ⟨q, h, hdeferred⟩ := defers_iff.1 hdefers
    obtain rfl : p = q := Option.some.inj (hp.symm.trans h.found)
    obtain ⟨g', hg', -, hlack⟩ := hdeferred.resolve_left (by simp [hserved])
    obtain rfl : g = g' := Option.some.inj (hg.symm.trans hg')
    rw [(place?_eq_none_iff (RbgBitmap.pairwise_indices _)).2 hlack] at hplace
    cases hplace

end Round

/-- The feedback of a list that a pass lets wait: what it defers as it comes to it. -/
def deferred (reuse : ReusePolicy) (harq : DownlinkHarq) (o : Occupancy)
    (pending : List HarqFeedback) : List HarqFeedback :=
  (pending.zipIdx.filter fun x =>
    (handleAll reuse harq o (pending.take x.2)).defers reuse x.1).map (·.1)

/-- One more piece, on what the others left. -/
theorem deferred_concat (reuse : ReusePolicy) (harq : DownlinkHarq) (o : Occupancy)
    (pending : List HarqFeedback) (f : HarqFeedback) :
    deferred reuse harq o (pending ++ [f]) = deferred reuse harq o pending ++
      [f].filter ((handleAll reuse harq o pending).defers reuse) := by
  have hbefore : ∀ x ∈ pending.zipIdx, (pending ++ [f]).take x.2 = pending.take x.2 := by
    intro x hx
    exact List.take_append_of_le_length (Nat.le_of_lt (List.snd_lt_of_mem_zipIdx hx))
  -- One more piece of feedback does not change what the pass had come to at the ones before it.
  rw [deferred, List.zipIdx_append, List.filter_append, List.map_append, List.zipIdx_singleton]
  refine congrArg₂ (· ++ ·) ?_ ?_
  · refine congrArg (List.map _) (List.filter_congr fun x hx => ?_)
    rw [hbefore x hx]
  · rw [Nat.zero_add, List.filter_singleton, List.filter_singleton, List.take_left]
    cases (handleAll reuse harq o pending).defers reuse f <;> rfl

/-- What waits after a pass is what it deferred, in the order in which it came in. -/
theorem kept_handleAll (reuse : ReusePolicy) (harq : DownlinkHarq) (o : Occupancy)
    (pending : List HarqFeedback) :
    (handleAll reuse harq o pending).kept = deferred reuse harq o pending := by
  induction pending using List.reverseRecOn with
  | nil => rfl
  | append_singleton pending f ih =>
    rw [handleAll_concat, (Round.handled_handle ..).kept_eq, ih, deferred_concat]

/-- A pass sends more and more blocks. -/
theorem sent_prefix_handleAll (reuse : ReusePolicy) (harq : DownlinkHarq) (o : Occupancy)
    (acted rest : List HarqFeedback) :
    (handleAll reuse harq o acted).sent <+: (handleAll reuse harq o (acted ++ rest)).sent := by
  induction rest using List.reverseRecOn with
  | nil => exact (List.append_nil acted).symm ▸ List.prefix_rfl
  | append_singleton rest f ih =>
    rw [← List.append_assoc, handleAll_concat]
    refine ih.trans ?_
    have hf := Round.handled_handle reuse (handleAll reuse harq o (acted ++ rest)) f
    generalize Round.handle reuse (handleAll reuse harq o (acted ++ rest)) f = round' at hf
    cases hf with
    | dropped | freed | kept => exact List.prefix_rfl
    | again => exact List.prefix_append ..

end Retransmission

/-! ## The feedback that a subframe leaves -/

namespace NewData

variable {Record : Type} {setting : Setting}

/-- A new block clears the feedback on its process, and nothing else. -/
theorem feedback_eq_filter (henabled : setting.harqEnabled = true) (cs : List Rnti)
    (proposal : Allocation) (round : Round Record) :
    ∃ new, (cs.foldl (setting.serve proposal) round).sent = round.sent ++ new ∧
      (cs.foldl (setting.serve proposal) round).feedback =
        round.feedback.filter fun f => !new.any (·.isOn f.rnti f.process) := by
  induction cs generalizing round with
  | nil => exact ⟨[], by simp, by simp⟩
  | cons c cs ih =>
    obtain ⟨new, hsent, hfeedback⟩ := ih (setting.serve proposal round c)
    rw [List.foldl_cons, hsent, hfeedback]
    have hserved := served_serve setting proposal round c
    generalize setting.serve proposal round c = next at hserved
    cases hserved with
    | skipped => exact ⟨new, rfl, rfl⟩
    | @sent _ _ b _ hrnti =>
      refine ⟨b :: new, by simp, ?_⟩
      simp only [henabled, if_true, List.filter_filter]
      refine List.filter_congr fun f _ => ?_
      -- The block clears what is on its process, which no other block of the pass is on.
      have hother : (!b.isOn f.rnti f.process) =
          (decide (f.rnti ≠ c) || decide (f.process ≠ b.grant.process)) := by
        grind [DataGrant.isOn]
      rw [List.any_cons, Bool.not_or, hother, Bool.and_comm]

end NewData

/-! ## The stages of a trigger -/

namespace DownlinkTrigger

variable {Record : Type} {policy : Policy Record} {s : SchedulerState Record} {grid : Grid}
  {feedback : List HarqFeedback}

/-- In a trigger that takes `s` to `s'`, the retransmission stage goes through the feedback in its
order, on what paging left, and new data is sent on what that stage left. -/
structure Prioritized (s s' : SchedulerState Record) (grid : Grid) (feedback : List HarqFeedback)
    (d : DownlinkDecision) : Prop where
  /-- A group is left if the cell can use it and neither paging nor a block sent before is on it. -/
  left_iff : ∀ acted i, (pass s grid acted).occupancy.isFree i = true ↔
    i < grid.rbgCount ∧ flagAt s.reuse.downlinkFlags i = true ∧
      (∀ message ∈ d.paging, i ∉ message.grant.bitmap.indices) ∧
      ∀ b ∈ (pass s grid acted).sent, i ∉ b.rbgs
  /-- A failed block whose UE was not served yet is sent again if there is room. -/
  retried : ∀ acted f p, (pass s grid acted).Reports f p →
    (pass s grid acted).served f.rnti = false →
    ∃ g, p.grant = some g ∧ g.rnti = f.rnti ∧ g.process = f.process ∧
      (pass s grid acted).Retried s.reuse f p g (pass s grid (acted ++ [f]))
  /-- The blocks of each part of the stage are sent in this subframe, before all others. -/
  first : ∀ acted rest, pending s grid feedback = acted ++ rest →
    (pass s grid acted).sent <+: d.data
  /-- Feedback waits on where it could not be acted upon now. -/
  waiting : (pass s grid (pending s grid feedback)).kept =
    Retransmission.deferred s.reuse (opened s grid).downlink.harq (paged s grid).occupancy
      (pending s grid feedback)
  /-- New data is sent on the groups that are left, and clears the feedback on its processes. -/
  leftover : ∃ new, d.data = (pass s grid (pending s grid feedback)).sent ++ new ∧
    (∀ b ∈ new, b.isNew = true ∧
      ∀ i ∈ b.rbgs, (pass s grid (pending s grid feedback)).occupancy.isFree i = true) ∧
    s'.downlink.feedback = (pass s grid (pending s grid feedback)).kept.filter fun f =>
      !new.any (·.isOn f.rnti f.process)

/-- The stage is fair as far as it has come. -/
theorem fair_pass (hsound : s.downlink.harq.Sound) (hgrid : grid.rbgCount ≤ 32)
    (acted : List HarqFeedback) :
    (pass s grid acted).Fair s.reuse (paged s grid).occupancy :=
  Retransmission.fair_handleAll s.reuse hsound.refresh (size_paged s grid hgrid) acted

/-- The stages of a trigger in order of priority. -/
theorem prioritized_decide (policy : Policy Record) (feedback : List HarqFeedback)
    (henabled : s.config.harqEnabled = true) (hsound : s.downlink.harq.Sound)
    (hgrid : grid.rbgCount ≤ 32) :
    Prioritized s (decide policy s grid feedback).1 grid feedback
      (decision policy s grid feedback) := by
  -- Everything is said of the two passes of the trigger: the one over the feedback, which comes
  -- first and finds the groups that paging left, and the one over the candidates, which finds what
  -- the first one left.
  have hretries := retries_eq s grid feedback henabled
  have hfresh := fair_fresh policy s grid feedback hsound hgrid
  rw [hretries] at hfresh
  refine ⟨fun acted i => ?_, fun acted f p hreports hserved => ?_, fun acted rest hcut => ?_,
    Retransmission.kept_handleAll .., (fresh policy s grid feedback).sent, ?_,
    fun b hb => ⟨(hfresh.first b hb).isNew, fun i hi => ?_⟩, ?_⟩
  · have hpaged := (allots_paged s grid hgrid).isFree i
    rw [(fair_pass hsound hgrid acted).handout.allots.isFree, hpaged, Occupancy.isFree_ofFlags]
    simp only [List.forall_mem_map, and_assoc]
    rfl
  · have hfair := fair_pass hsound hgrid acted
    obtain ⟨g, hg, hrnti, hprocess, -⟩ := hfair.sound.carries hreports.found hreports.flight
    have hsize : (pass s grid acted).occupancy.size ≤ 32 := by
      rw [hfair.handout.allots.size]
      exact size_paged s grid hgrid
    refine ⟨g, hg, hrnti, hprocess, ?_⟩
    have hstep : pass s grid (acted ++ [f]) = (pass s grid acted).handle s.reuse f :=
      Retransmission.handleAll_concat ..
    rw [hstep]
    exact (Retransmission.Round.handled_handle ..).retried hsize hreports hserved hg
  · have hsent := Retransmission.sent_prefix_handleAll s.reuse (opened s grid).downlink.harq
      (paged s grid).occupancy acted rest
    rw [← hcut] at hsent
    refine hsent.trans ?_
    rw [decision, data, hretries]
    exact List.prefix_append ..
  · rw [decision, data, hretries]
  · exact hfresh.handout.allots.wasFree b.rbgs (List.mem_map_of_mem hb) i hi
  · obtain ⟨cs, -, -, proposal, heq⟩ := fresh_eq policy s grid feedback
    have henabled : (setting (opened s grid) grid).harqEnabled = true := henabled
    obtain ⟨new, hsent, hfeedback⟩ :=
      NewData.feedback_eq_filter henabled cs proposal (start s grid feedback)
    rw [← heq] at hsent hfeedback
    have hnew : (fresh policy s grid feedback).sent = new := by
      rw [hsent]
      rfl
    rw [hnew, ← hretries]
    exact hfeedback

end DownlinkTrigger

variable {Record : Type} {policy : Policy Record} {config : SchedulerConfig}
  {s s' : SchedulerState Record} {feedback : List HarqFeedback} {said : List Indication}

/-- In every reachable state, an accepted downlink trigger of a cell that has retransmissions puts
them before new data: a block that failed is sent again at once, unless its UE was sent one before
or there is no room for it, and only in these cases does the feedback wait. Room is counted in what
paging and the retransmissions before it left, so no new block can be in the way. -/
theorem Reachable.retransmissions_first (h : Reachable policy config s)
    (henabled : s.config.harqEnabled = true)
    (hstep : s.step policy (.downlinkTrigger feedback) = .ok (s', said)) :
    ∃ grid d, s.grid = some grid ∧ said = [.downlink d] ∧
      DownlinkTrigger.Prioritized s s' grid feedback d := by
  have hinv := h.invariant
  cases SchedulerState.effect_of_step hstep with
  | quiet hq => cases hq
  | @downlink _ grid hgrid =>
    exact ⟨grid, _, hgrid, rfl, DownlinkTrigger.prioritized_decide policy feedback henabled
      hinv.sound (hinv.rbgCount_le hgrid)⟩

/-- Two UEs were sent something on one of two groups each, and somebody is to be paged. -/
def pagingBehindTwoBlocks : List Request :=
  [.connect true true, .configureCell 6 6, .installReuse (.hard 6 6 ⟨0, 2⟩ ⟨0, 6⟩),
    .configureUe 1 .singleAntenna, .configureUe 2 .singleAntenna, .queue 1 0 ⟨50, 0, 0, 0, 0⟩,
    .queue 2 0 ⟨50, 0, 0, 0, 0⟩, .downlinkTrigger [], .paging [⟨0, 2⟩]]

/-- Both blocks failed, and the message takes the group of the first one. This block is sent again
on the other group, and the second one waits. -/
theorem retransmissions_first_behindPaging :
    ∃ (s s' : SchedulerState Throughput) (said : List Indication) (grid : Grid)
      (d : DownlinkDecision),
      Reachable (Algorithm.fdBet.policy .default) .default s ∧ s.config.harqEnabled = true ∧
      s.step (Algorithm.fdBet.policy .default)
        (.downlinkTrigger [⟨1, 1, [.nack]⟩, ⟨2, 1, [.nack]⟩]) = .ok (s', said) ∧
      said = [.downlink d] ∧
      DownlinkTrigger.Prioritized s s' grid [⟨1, 1, [.nack]⟩, ⟨2, 1, [.nack]⟩] d ∧
      d.data.map (fun b => (b.rnti, b.rbgs)) = [(1, [1])] ∧
      s'.downlink.feedback = [⟨2, 1, [.nack]⟩] := by
  obtain ⟨es, e, hrun, hstep, hcheck⟩ := Run.of_replay_step (Algorithm.fdBet.policy .default)
    .default pagingBehindTwoBlocks (.downlinkTrigger [⟨1, 1, [.nack]⟩, ⟨2, 1, [.nack]⟩])
    (fun _ e => e.before.config.harqEnabled &&
      e.blocks.map (fun b => (b.rnti, b.rbgs)) == [(1, [1])] &&
      e.after.downlink.feedback == [⟨2, 1, [.nack]⟩])
    (by decide +kernel)
  simp only [Bool.and_eq_true, beq_iff_eq] at hcheck
  obtain ⟨⟨henabled, hblocks⟩, hfeedback⟩ := hcheck
  obtain ⟨grid, d, -, hsaid, hprioritized⟩ := hrun.reachable.retransmissions_first henabled hstep
  refine ⟨e.before, e.after, e.said, grid, d, hrun.reachable, henabled, hstep, hsaid, hprioritized,
    ?_, hfeedback⟩
  simpa [Event.blocks, hsaid, Indication.blocks] using hblocks

end LteMac
