import LteMac.Proofs.Policy.Sharing

/-!
# The contract of the policies

Beyond sharing the free groups, each policy offers them to a UE in ascending order. What else it
promises depends on its kind: those that give the groups away in turn leave none that somebody may
have, and the one that ranks UEs in the time domain gives one of them everything it may have. None
of this depends on the metrics, which may be infinite or no numbers at all.

That groups ascend is plain where they are gone through once. The policy with delay groups goes
through them again for each delay group, so it assigns low groups after high ones; but a UE is in
one delay group only, and what it was offered before the lowest group comes around again was offered
in the same round. This needs that no delay group is served twice, hence that repetitions were
erased from their list.

* `Ascends`: an assignment in which nobody is given a group after a higher one;
* `QosAware.ascends_allocate`: the delay groups are served one after the other, and no UE is in two
  of them;
* `Algorithm.honours_policy`: the policy of every algorithm keeps its contract.
-/

namespace LteMac

variable {ctx : AllocationContext} {candidates : List Rnti} {a : Allocation} {r : Rnti}
  {assignment : List (Nat × Rnti)}

/-! ## Groups in ascending order -/

/-- Nobody is given a group after a higher one. -/
def Ascends (assignment : List (Nat × Rnti)) : Prop :=
  assignment.Pairwise fun g g' => g.2 = g'.2 → g.1 < g'.1

namespace Ascends

/-- One more group, above all that its UE has got so far. -/
theorem give (h : Ascends assignment) {i : Nat} (hlt : ∀ g ∈ assignment, g.2 = r → g.1 < i) :
    Ascends (assignment ++ [(i, r)]) := by
  refine List.pairwise_append.2 ⟨h, List.pairwise_singleton _ _, fun g hg g' hg' hr => ?_⟩
  obtain rfl := List.mem_singleton.1 hg'
  exact hlt g hg hr

/-- The groups offered to a UE are in the order in which it was given them. -/
theorem pairwise_offer (h : Ascends assignment) (r : Rnti) :
    ((Allocation.ofAssignment assignment).offer r).Pairwise (· < ·) := by
  rw [Allocation.offer_ofAssignment, List.pairwise_map, List.pairwise_filter]
  refine h.imp fun hlt hr hr' => hlt ?_
  rw [of_decide_eq_true hr, of_decide_eq_true hr']

end Ascends

/-- A UE is offered what it was given. -/
theorem Allocation.mem_offer_ofAssignment {i : Nat} :
    i ∈ (ofAssignment assignment).offer r ↔ (i, r) ∈ assignment := by
  rw [offer_ofAssignment, List.mem_map]
  constructor
  · rintro ⟨g, hg, rfl⟩
    obtain ⟨hg, hr⟩ := List.mem_filter.1 hg
    exact of_decide_eq_true hr ▸ hg
  · intro hg
    exact ⟨(i, r), List.mem_filter.2 ⟨hg, decide_eq_true rfl⟩, rfl⟩

/-! ## Groups in turn -/

namespace AllocationContext

namespace Turns

variable {assigned : Nat → List (Nat × Rnti)} {winner : Nat → Option Rnti}

/-- What was assigned in the turns so far lies below the next one. -/
theorem lt_of_mem (h : ctx.Turns candidates assigned winner) {n : Nat} {g : Nat × Rnti}
    (hg : g ∈ assigned n) : g.1 < n := by
  induction n with
  | zero =>
    rw [h.start] at hg
    cases hg
  | succ n ih =>
    rw [h.turn, List.mem_append, List.mem_map] at hg
    obtain hg | ⟨r, -, rfl⟩ := hg
    · exact Nat.lt_succ_of_lt (ih hg)
    · exact Nat.lt_succ_self n

/-- Groups that have their turns in order ascend. -/
theorem ascends (h : ctx.Turns candidates assigned winner) (n : Nat) : Ascends (assigned n) := by
  induction n with
  | zero =>
    rw [h.start]
    exact .nil
  | succ n ih =>
    rw [h.turn]
    cases winner n with
    | none => simpa using ih
    | some r => exact ih.give fun g hg _ => h.lt_of_mem hg

/-- A group that somebody may have is assigned once it had its turn. -/
theorem exists_mem (h : ctx.Turns candidates assigned winner) {i n : Nat} (hi : i < n)
    (hr : r ∈ candidates) (hallowed : ctx.allowed i r = true) : ∃ r', (i, r') ∈ assigned n := by
  induction n with
  | zero => exact absurd hi (Nat.not_lt_zero i)
  | succ n ih =>
    rw [h.turn]
    rcases Nat.lt_succ_iff_lt_or_eq.1 hi with hi | rfl
    · obtain ⟨r', hmem⟩ := ih hi
      exact ⟨r', List.mem_append_left _ hmem⟩
    · obtain ⟨r', hwinner⟩ := h.won i r hr hallowed
      exact ⟨r', List.mem_append_right _ (by simp [hwinner])⟩

end Turns

namespace ByTurns

/-- So they do for each UE. -/
theorem ascending (h : ctx.ByTurns candidates a) (r : Rnti) :
    (a.offer r).Pairwise (· < ·) := by
  obtain ⟨assigned, winner, hturns, rfl⟩ := h
  exact (hturns.ascends ctx.rbgs).pairwise_offer r

/-- None is left that somebody may have. -/
theorem complete (h : ctx.ByTurns candidates a) {i : Nat} (hr : r ∈ candidates)
    (hallowed : ctx.allowed i r = true) : ∃ r', i ∈ a.offer r' := by
  obtain ⟨assigned, winner, hturns, rfl⟩ := h
  obtain ⟨r', hmem⟩ := hturns.exists_mem (lt_of_allowed hallowed) hr hallowed
  exact ⟨r', Allocation.mem_offer_ofAssignment.2 hmem⟩

end ByTurns

/-- The groups that a UE may have are listed in ascending order. -/
theorem pairwise_allowedRbgs (ctx : AllocationContext) (r : Rnti) :
    (ctx.allowedRbgs r).Pairwise (· < ·) :=
  List.Pairwise.filter _ List.pairwise_lt_range

end AllocationContext

/-! ## Delay groups in turn -/

/-- What is left once repetitions are erased is different. -/
theorem nodup_eraseDups (groups : List Nat) : groups.eraseDups.Nodup := by
  cases groups with
  | nil => exact .nil
  | cons group groups =>
    rw [List.eraseDups_cons]
    refine List.nodup_cons.2 ⟨fun hmem => ?_, nodup_eraseDups _⟩
    simpa using (List.mem_filter.1 (List.mem_eraseDups.1 hmem)).2
termination_by groups.length
decreasing_by simpa using Nat.lt_succ_of_le (List.length_filter_le _ groups)

namespace QosAware

variable {kind : ChannelMetric} {width : Nat} {records : Rnti → Option QosRecord}
  {members : List Rnti} {round : Round} {n : Nat}

/-- A delay group is being served and had the groups below `n`: nobody was given a group after a
higher one, and its members got theirs below `n`. -/
structure Round.Upward (members : List Rnti) (round : Round) (n : Nat) : Prop where
  /-- Nobody was given a group after a higher one. -/
  ascends : Ascends round.assignment
  /-- The members got theirs below `n`. -/
  below : ∀ g ∈ round.assignment, g.2 ∈ members → g.1 < n

/-- The next group lies above all that the members have got. -/
theorem Round.Upward.hand (h : round.Upward members n) :
    (hand kind ctx records members round n).Upward members (n + 1) := by
  have hbelow : ∀ g ∈ round.assignment, g.2 ∈ members → g.1 < n + 1 :=
    fun g hg hr => Nat.lt_succ_of_lt (h.below g hg hr)
  obtain heq | ⟨r, hr, -, -, heq⟩ := hand_cases kind ctx records members round n
  · rw [heq]
    exact ⟨h.ascends, hbelow⟩
  · -- The winner is a member, so all that it has got is below the present group.
    refine ⟨?_, ?_⟩
    · rw [heq]
      exact h.ascends.give fun g hg hname => h.below g hg (hname ▸ hr)
    · rw [heq]
      exact List.forall_mem_append.2 ⟨hbelow, by simp⟩

/-- Nothing is given to others than the members of the delay group. -/
theorem mem_hand {g : Nat × Rnti} {rbg : Nat}
    (hg : g ∈ (hand kind ctx records members round rbg).assignment) :
    g ∈ round.assignment ∨ g.2 ∈ members := by
  obtain heq | ⟨r, hr, -, -, heq⟩ := hand_cases kind ctx records members round rbg
  · exact .inl (heq ▸ hg)
  · rw [heq, List.mem_append, List.mem_singleton] at hg
    exact hg.imp_right fun hg => by rwa [hg]

/-- Some delay groups have been served: nobody was given a group after a higher one, and only UEs
of those delay groups were given any. -/
structure Round.Served (width : Nat) (ctx : AllocationContext) (delayGroups : List Nat)
    (round : Round) : Prop where
  /-- Nobody was given a group after a higher one. -/
  ascends : Ascends round.assignment
  /-- Only UEs of these delay groups got any. -/
  named : ∀ g ∈ round.assignment, delayGroup width ctx g.2 ∈ delayGroups

/-- To serve one more delay group starts again with the lowest group, but no member of it has got
anything before. -/
theorem Round.Served.serve {delayGroups : List Nat} (h : round.Served width ctx delayGroups)
    {group : Nat} (hnew : group ∉ delayGroups) :
    (serve kind width ctx records candidates round group).Served width ctx
      (delayGroups ++ [group]) := by
  let members := candidates.filter (delayGroup width ctx · == group)
  have hmembers : ∀ r ∈ members, delayGroup width ctx r = group :=
    fun r hr => eq_of_beq (List.mem_filter.1 hr).2
  have hstart : round.Upward members 0 :=
    ⟨h.ascends, fun g hg hr => absurd (hmembers _ hr ▸ h.named g hg) hnew⟩
  -- Over the groups from the lowest on; who has got something is a member or was served before.
  have hturns : ∀ n, ((List.range n).foldl (QosAware.hand kind ctx records members) round).Upward
      members n ∧
      ∀ g ∈ ((List.range n).foldl (QosAware.hand kind ctx records members) round).assignment,
        g ∈ round.assignment ∨ g.2 ∈ members := by
    intro n
    induction n with
    | zero => exact ⟨hstart, fun g hg => .inl hg⟩
    | succ n ih =>
      rw [List.range_succ, List.foldl_append, List.foldl_cons, List.foldl_nil]
      exact ⟨ih.1.hand, fun g hg => (mem_hand hg).elim (ih.2 g) .inr⟩
  obtain ⟨hupward, hnamed⟩ := hturns ctx.rbgs
  refine ⟨hupward.ascends, fun g hg => List.mem_append.2 ?_⟩
  exact (hnamed g hg).imp (h.named g) fun hr => List.mem_singleton.2 (hmembers _ hr)

/-- Nobody is offered a group after a higher one. -/
theorem ascends_allocate (kind : ChannelMetric) (width : Nat) (ctx : AllocationContext)
    (candidates : List Rnti) (records : Rnti → Option QosRecord) (r : Rnti) :
    ((allocate kind width ctx candidates records).offer r).Pairwise (· < ·) := by
  have hserved : ∀ groups : List Nat, groups.Nodup →
      (groups.foldl (serve kind width ctx records candidates)
        (start ctx candidates)).Served width ctx groups := by
    intro groups hgroups
    induction groups using List.reverseRecOn with
    | nil => exact ⟨.nil, fun g hg => nomatch hg⟩
    | append_singleton groups group ih =>
      obtain ⟨hgroups, -, hnew⟩ := List.nodup_append.1 hgroups
      rw [List.foldl_append, List.foldl_cons, List.foldl_nil]
      exact (ih hgroups).serve fun hmem => hnew group hmem group (by simp) rfl
  exact (hserved _ (nodup_eraseDups _)).ascends.pairwise_offer r

end QosAware

/-! ## All policies -/

namespace Algorithm

/-- What the policy of an algorithm promises about the free groups. -/
structure Honours (algorithm : Algorithm) (ctx : AllocationContext) (candidates : List Rnti)
    (a : Allocation) : Prop where
  /-- The groups are shared among the candidates. -/
  shares : ctx.Shares candidates a
  /-- The groups of a UE are offered in ascending order. -/
  ascending : ∀ r, (a.offer r).Pairwise (· < ·)
  /-- Where the groups go out one after the other, none is left that somebody may have. -/
  complete : algorithm = fdBet ∨ algorithm = tta →
    ∀ i, ∀ r ∈ candidates, ctx.allowed i r = true → ∃ r', i ∈ a.offer r'
  /-- In the time domain one candidate gets all it may have, unless none may have anything. -/
  single : algorithm = tdBet →
    (∀ r ∈ candidates, ctx.allowedRbgs r = []) ∧ (∀ r, a.offer r = []) ∨
      ∃ w ∈ candidates, ctx.allowedRbgs w ≠ [] ∧ a.offer w = ctx.allowedRbgs w ∧
        ∀ r ≠ w, a.offer r = []

end Algorithm

/-- The winner is offered its groups in order. -/
theorem TimeDomain.pairwise_allocate (ctx : AllocationContext) (candidates : List Rnti)
    (records : Rnti → Option Throughput) (r : Rnti) :
    ((allocate ctx candidates records).offer r).Pairwise (· < ·) := by
  rw [offer_allocate]
  split
  · exact ctx.pairwise_allowedRbgs r
  · exact .nil

/-- The winner is offered all it may have, and the others nothing. -/
theorem TimeDomain.single_allocate (ctx : AllocationContext) (candidates : List Rnti)
    (records : Rnti → Option Throughput) :
    (∀ r ∈ candidates, ctx.allowedRbgs r = []) ∧
        (∀ r, (allocate ctx candidates records).offer r = []) ∨
      ∃ w ∈ candidates, ctx.allowedRbgs w ≠ [] ∧
        (allocate ctx candidates records).offer w = ctx.allowedRbgs w ∧
        ∀ r ≠ w, (allocate ctx candidates records).offer r = [] := by
  simp only [offer_allocate]
  cases hw : winner (eligible ctx candidates) records with
  | none =>
    refine .inl ⟨fun r hr => ?_, fun r => if_neg (by simp)⟩
    by_contra hne
    obtain ⟨w, hw'⟩ := exists_winner records hr hne
    rw [hw] at hw'
    cases hw'
  | some w =>
    obtain ⟨hcandidate, hne⟩ := of_winner hw
    exact .inr ⟨w, hcandidate, hne, if_pos rfl, fun r hr => if_neg fun h =>
      hr (Option.some.inj h).symm⟩

/-- Whatever the channels and the records, the policy of every algorithm keeps its contract. -/
theorem Algorithm.honours_policy (config : SchedulerConfig) (algorithm : Algorithm)
    (ctx : AllocationContext) (candidates : List Rnti)
    (records : Rnti → Option algorithm.Record) :
    algorithm.Honours ctx candidates
      ((algorithm.policy config).allocate ctx candidates records) := by
  have hshares := shares_policy config algorithm ctx candidates records
  cases algorithm with
  | cqa => exact ⟨hshares, QosAware.ascends_allocate _ _ _ _ _, by simp, by simp⟩
  | fdBet =>
    have hturns := FrequencyDomain.byTurns_allocate ctx candidates records
    exact ⟨hshares, hturns.ascending, fun _ _ _ => hturns.complete, by simp⟩
  | tdBet =>
    exact ⟨hshares, TimeDomain.pairwise_allocate ctx candidates records, by simp,
      fun _ => TimeDomain.single_allocate ctx candidates records⟩
  | tta =>
    have hturns := ThroughputToAverage.byTurns_allocate ctx candidates
    exact ⟨hshares, hturns.ascending, fun _ _ _ => hturns.complete, by simp⟩

end LteMac
