import LteMac.Proofs.Downlink.Conservation
import LteMac.Proofs.Policy.Contract

/-!
# What is proposed is sent

The cell does not trust a proposal: at its turn every UE claims its groups once more, and is refused
those that are taken or that it may not have. A policy that keeps its contract offers no such
groups, so the pass takes everything that is offered, and each block of new data is on exactly what
its UE was offered.

The contract is about the allocation alone, whatever context, candidates and records the policy is
given; what the trigger does with it depends on the groups that are taken by the time a UE has its
turn. By induction over the turns these are the groups taken before new data, and those offered to
the UEs that had their turns already (`NewData.Round.AsOffered`). Offers are disjoint, so nobody
finds its own groups taken by somebody else, and no claim is ever cut short.

* `NewData.asOffered_foldl_serve`: what a pass over a proper proposal sends;
* `Algorithm.contract_kept`: the policy of every algorithm keeps its contract, and an accepted
  trigger sends what the policy proposes.
-/

namespace LteMac

namespace NewData

open Retransmission (usable usable_iff)

variable {Record : Type} {setting : Setting} {a : Allocation} {r : Rnti}
  {round start : Round Record} {cs : List Rnti}

/-- A UE is skipped, or sent a block on what it claims. -/
theorem serve_of_claim {o : Occupancy} {rbgs : List Nat}
    (h : claim setting.reuse r round.occupancy (a.offer r) = (o, rbgs)) :
    setting.serve a round r = round ∨
      ∃ b : DataGrant, b.rnti = r ∧ b.grant.bitmap = .ofIndices rbgs ∧
        (setting.serve a round r).sent = round.sent ++ [b] ∧
        (setting.serve a round r).occupancy = o := by
  have hbitmap : RbgBitmap.ofIndices rbgs.mergeSort = .ofIndices rbgs :=
    RbgBitmap.ofIndices_congr fun _ => List.mem_mergeSort
  obtain heq | ⟨u, process, harq, -, -, -, heq⟩ := setting.skips_or_carries a round r
  · exact .inl heq
  · rw [show claim setting.reuse r round.occupancy (a.getD r []) = (o, rbgs) from h] at heq
    rw [heq]
    exact .inr ⟨_, rfl, hbitmap, rfl, rfl⟩

/-- A pass once the candidates `cs` had their turns: the groups that were offered to none of them
are as they were, and what was sent is on what was offered. -/
structure Round.AsOffered (a : Allocation) (round start : Round Record) (cs : List Rnti) :
    Prop where
  /-- The groups that were offered to nobody yet are as they were. -/
  untouched : ∀ i, (∀ c ∈ cs, i ∉ a.offer c) →
    round.occupancy.isFree i = start.occupancy.isFree i
  /-- A block is on what its UE was offered. -/
  sent : ∀ b ∈ round.sent, b.rnti ∈ cs ∧ b.grant.bitmap = .ofIndices (a.offer b.rnti)

/-- The next candidate finds all that it was offered. -/
theorem Round.AsOffered.claim_eq (h : round.AsOffered a start cs)
    (hproper : Proper setting start.occupancy a) (hnew : r ∉ cs) :
    claim setting.reuse r round.occupancy (a.offer r) =
      (round.occupancy.occupy (a.offer r), a.offer r) := by
  refine claim_of_usable (hproper.nodup r) fun i hi => ?_
  obtain ⟨hfree, hallowed⟩ := usable_iff.1 (hproper.usable r i hi)
  refine usable_iff.2 ⟨?_, hallowed⟩
  -- Those who had their turns were offered other groups.
  rw [h.untouched i fun c hc hi' => hproper.apart c r (fun heq => hnew (heq ▸ hc)) hi' hi]
  exact hfree

/-- One more candidate, who had no turn before. -/
theorem Round.AsOffered.serve (h : round.AsOffered a start cs)
    (hproper : Proper setting start.occupancy a) (hnew : r ∉ cs) :
    (setting.serve a round r).AsOffered a start (cs ++ [r]) := by
  have huntouched : ∀ i, (∀ c ∈ cs ++ [r], i ∉ a.offer c) →
      round.occupancy.isFree i = start.occupancy.isFree i :=
    fun i hi => h.untouched i (List.forall_mem_append.1 hi).1
  have hsent : ∀ b ∈ round.sent,
      b.rnti ∈ cs ++ [r] ∧ b.grant.bitmap = .ofIndices (a.offer b.rnti) :=
    fun b hb => ⟨List.mem_append_left _ (h.sent b hb).1, (h.sent b hb).2⟩
  obtain heq | ⟨b, rfl, hbitmap, hb, ho⟩ := serve_of_claim (h.claim_eq hproper hnew)
  · rw [heq]
    exact ⟨huntouched, hsent⟩
  · refine ⟨fun i hi => ?_, ?_⟩
    · have hother : i ∉ a.offer b.rnti := hi b.rnti (by simp)
      rw [ho, Occupancy.isFree_occupy, huntouched i hi]
      simp [hother]
    · rw [hb]
      exact List.forall_mem_append.2 ⟨hsent, by simp [hbitmap]⟩

/-- A pass over different candidates sends what a proper proposal offers them. -/
theorem asOffered_foldl_serve (hproper : Proper setting start.occupancy a)
    (hsent : start.sent = []) (hcs : cs.Nodup) :
    (cs.foldl (setting.serve a) start).AsOffered a start cs := by
  induction cs using List.reverseRecOn with
  | nil => exact ⟨fun _ _ => rfl, by simp [hsent]⟩
  | append_singleton cs r ih =>
    obtain ⟨hcs, -, hnew⟩ := List.nodup_append.1 hcs
    rw [List.foldl_append, List.foldl_cons, List.foldl_nil]
    exact (ih hcs).serve hproper fun hr => hnew r hr r (by simp) rfl

end NewData

/-! ## A trigger -/

namespace DownlinkTrigger

section Stage

variable {Record : Type} (policy : Policy Record) (s : SchedulerState Record) (grid : Grid)
  (feedback : List HarqFeedback)

/-- The stage of new data once some UEs had their turns. -/
def freshAfter (cs : List Rnti) : NewData.Round Record :=
  cs.foldl ((terms s grid).serve (offers policy s grid feedback)) (start s grid feedback)

/-- New data as the policy proposes. -/
structure Follows : Prop where
  /-- The stage gives every UE its turn. -/
  pass : fresh policy s grid feedback = freshAfter policy s grid feedback (turns s grid feedback)
  /-- At its turn a UE claims all that it was offered. -/
  claims : ∀ before r after, turns s grid feedback = before ++ r :: after →
    (NewData.claim s.reuse r (freshAfter policy s grid feedback before).occupancy
      ((offers policy s grid feedback).offer r)).2 = (offers policy s grid feedback).offer r
  /-- A block of new data is on what its UE was offered. -/
  sent : ∀ b ∈ data policy s grid feedback, b.isNew = true →
    b.rnti ∈ turns s grid feedback ∧ b.rbgs = (offers policy s grid feedback).offer b.rnti

end Stage

variable {algorithm : Algorithm} {config : SchedulerConfig} {s : SchedulerState algorithm.Record}
  {grid : Grid} (feedback : List HarqFeedback)

/-- What the policy offers is ascending, so it is what its bitmap says. -/
theorem indices_offer (hsound : s.downlink.harq.Sound) (hgrid : grid.rbgCount ≤ 32) (r : Rnti) :
    (RbgBitmap.ofIndices ((offers (algorithm.policy config) s grid feedback).offer r)).indices =
      (offers (algorithm.policy config) s grid feedback).offer r := by
  refine RbgBitmap.indices_ofIndices
    ((Algorithm.honours_policy config algorithm _ _ _).ascending r) fun i hi => ?_
  have hfree := (Retransmission.usable_iff.1 ((proper_offers feedback config).usable r i hi)).1
  exact Nat.lt_of_lt_of_le (Occupancy.lt_size_of_isFree hfree)
    (size_start s grid feedback hsound hgrid)

/-- The stage of new data does as the policy proposes, since no proposal breaks the contract. -/
theorem follows_decide (hsound : s.downlink.harq.Sound) (hgrid : grid.rbgCount ≤ 32) :
    Follows (algorithm.policy config) s grid feedback := by
  have hpass : fresh (algorithm.policy config) s grid feedback =
      freshAfter (algorithm.policy config) s grid feedback (turns s grid feedback) :=
    fresh_eq_pass feedback config
  refine ⟨hpass, fun before r after hturns => ?_, fun b hb hnew => ?_⟩
  · have hnodup : (before ++ r :: after).Nodup := hturns ▸ nodup_turns s grid feedback
    obtain ⟨hbefore, -, hother⟩ := List.nodup_append.1 hnodup
    have hround : (freshAfter (algorithm.policy config) s grid feedback before).AsOffered
        (offers (algorithm.policy config) s grid feedback) (start s grid feedback) before :=
      NewData.asOffered_foldl_serve (proper_offers feedback config) rfl hbefore
    have hclaim := hround.claim_eq (proper_offers feedback config)
      fun hr => hother r hr r List.mem_cons_self rfl
    exact congrArg (·.2) hclaim
  · -- What is sent again is not new, and what is new was sent in the pass.
    replace hb := mem_fresh_of_new hsound hgrid hb hnew
    rw [hpass] at hb
    obtain ⟨hturn, hbitmap⟩ := (NewData.asOffered_foldl_serve (proper_offers feedback config) rfl
      (nodup_turns s grid feedback)).sent b hb
    exact ⟨hturn, by rw [DataGrant.rbgs, hbitmap, indices_offer feedback hsound hgrid]⟩

end DownlinkTrigger

/-- Whatever the context, the candidates and the records, the policy of every algorithm keeps its
contract. So an accepted trigger takes all that is offered, and sends new data on exactly what was
offered to their UE. -/
theorem Algorithm.contract_kept (config : SchedulerConfig) (algorithm : Algorithm) :
    (∀ (ctx : AllocationContext) (candidates : List Rnti)
        (records : Rnti → Option algorithm.Record),
      algorithm.Honours ctx candidates
        ((algorithm.policy config).allocate ctx candidates records)) ∧
    ∀ (s s' : SchedulerState algorithm.Record) (feedback : List HarqFeedback)
        (said : List Indication), Reachable (algorithm.policy config) config s →
      s.step (algorithm.policy config) (.downlinkTrigger feedback) = .ok (s', said) →
      ∃ grid, s.grid = some grid ∧
        said = [.downlink (DownlinkTrigger.decision (algorithm.policy config) s grid feedback)] ∧
        DownlinkTrigger.Follows (algorithm.policy config) s grid feedback := by
  refine ⟨honours_policy config algorithm, fun s s' feedback said hreachable hstep => ?_⟩
  have hinv := hreachable.invariant
  obtain ⟨grid, hgrid, hsaid⟩ := SchedulerState.decision_of_step hstep
  exact ⟨grid, hgrid, hsaid,
    DownlinkTrigger.follows_decide feedback hinv.sound (hinv.rbgCount_le hgrid)⟩

/-- Two UEs share in turn what a paging message leaves of a band. -/
theorem contract_kept_after_paging :
    ∃ (s s' : SchedulerState Throughput) (grid : Grid) (said : List Indication),
      Reachable (Algorithm.fdBet.policy .default) .default s ∧
      s.step (Algorithm.fdBet.policy .default) (.downlinkTrigger []) = .ok (s', said) ∧
      s.grid = some grid ∧
      said = [.downlink (DownlinkTrigger.decision .fdBet s grid [])] ∧
      DownlinkTrigger.Follows (Algorithm.fdBet.policy .default) s grid [] ∧
      (DownlinkTrigger.decision .fdBet s grid []).groups = [[0], [1], [2]] ∧
      (DownlinkTrigger.offers .fdBet s grid []).offer 1 = [1] ∧
      (DownlinkTrigger.offers .fdBet s grid []).offer 2 = [2] := by
  obtain ⟨es, e, hrun, hstep, hcheck⟩ := Run.of_replay_step (Algorithm.fdBet.policy .default)
    .default
    [.connect true true, .configureCell 6 6, .installReuse (.hard 6 6 ⟨0, 3⟩ ⟨0, 6⟩),
      .configureUe 1 .singleAntenna, .configureUe 2 .singleAntenna,
      .queue 1 0 ⟨400, 0, 0, 0, 0⟩, .queue 2 0 ⟨400, 0, 0, 0, 0⟩, .paging [⟨0, 1⟩]]
    (.downlinkTrigger [])
    (fun _ e => e.before.grid.any fun grid =>
      (DownlinkTrigger.decision .fdBet e.before grid []).groups == [[0], [1], [2]] &&
      (DownlinkTrigger.offers .fdBet e.before grid []).offer 1 == [1] &&
      (DownlinkTrigger.offers .fdBet e.before grid []).offer 2 == [2])
    (by decide +kernel)
  obtain ⟨grid, hgrid, hsaid, hfollows⟩ :=
    (Algorithm.contract_kept .default .fdBet).2 _ _ _ _ hrun.reachable hstep
  simp only [hgrid, Option.any_some, Bool.and_eq_true, beq_iff_eq] at hcheck
  obtain ⟨⟨hgroups, hfirst⟩, hsecond⟩ := hcheck
  exact ⟨e.before, e.after, grid, e.said, hrun.reachable, hstep, hgrid, hsaid, hfollows, hgroups,
    hfirst, hsecond⟩

end LteMac
