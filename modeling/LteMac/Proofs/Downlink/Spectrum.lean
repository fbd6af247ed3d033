import LteMac.Proofs.Scheduler.Invariant

/-!
# The downlink spectrum

Four stages hand out the groups of a downlink subframe: paging, retransmissions on their former
groups or on others, and new data as the policy proposes. No two of them give the same group away,
and none gives away what the reuse policy keeps back.

The answers to random accesses, which make the fourth, take uplink blocks and none of these groups.
Of the others, each stage begins with what the one before it left, and what a stage hands out was
free at its beginning (`Occupancy.Allots`); such handouts add up, and their sum says that the groups
are pairwise disjoint. What has to be shown besides is that no UE gets two data blocks, one of them
sent again and one new, since then the two could name the same process.

Nothing is asked of the policy: a proposal that names groups twice, taken ones, or groups outside of
the grid is cut down to what may be given away before any of it is used.

* `DownlinkDecision.Separate`: what a decision owes to the grid and to the reuse policy;
* `Reachable.separate_downlink`: in every reachable state, whatever the policy and the reuse rule,
  the decision of an accepted trigger meets it.
-/

namespace LteMac

namespace DownlinkDecision

/-- The groups of each control message of a decision: paging, then data. -/
def groups (d : DownlinkDecision) : List (List Nat) :=
  d.paging.map (·.grant.bitmap.indices) ++ d.data.map (·.rbgs)

/-- The control messages of a decision share the groups that are usable in a cell, and at most one
data block goes to each UE. Each message names at least one group, no group is named by two
messages, and all of them are groups of the grid that are usable cell-wide. A data block is on
groups which its UE may have, and is addressed to that UE. -/
structure Separate (d : DownlinkDecision) (grid : Grid) (reuse : ReusePolicy) : Prop where
  /-- Each control message names a group. -/
  nonempty : ∀ rbgs ∈ d.groups, rbgs ≠ []
  /-- No group is named by two of them. -/
  disjoint : d.groups.Pairwise List.Disjoint
  /-- The groups are those of the grid. -/
  inside : ∀ rbgs ∈ d.groups, ∀ i ∈ rbgs, i < grid.rbgCount
  /-- The cell may use them. -/
  usable : ∀ rbgs ∈ d.groups, ∀ i ∈ rbgs, flagAt reuse.downlinkFlags i = true
  /-- The UE of a data block may have its groups. -/
  allowed : ∀ b ∈ d.data, ∀ i ∈ b.rbgs, reuse.downlinkAllowed i b.rnti = true
  /-- A grant names the UE that its block is for. -/
  addressed : ∀ b ∈ d.data, b.grant.rnti = b.rnti
  /-- No UE is sent two data blocks. -/
  nodup : (d.data.map (·.rnti)).Nodup

end DownlinkDecision

namespace DownlinkTrigger

variable {Record : Type} (policy : Policy Record) (s : SchedulerState Record) (grid : Grid)
  (feedback : List HarqFeedback)

/-- What a trigger decides. -/
def decision : DownlinkDecision :=
  ⟨data policy s grid feedback, (Access.answerAll s grid).2, (paged s grid).sent, 1⟩

variable {s grid}

/-- Every stage takes its groups from what the ones before it left. -/
theorem separate_decision (hsound : s.downlink.harq.Sound) (hgrid : grid.rbgCount ≤ 32) :
    (decision policy s grid feedback).Separate grid s.reuse := by
  have hdata := handout_data policy s grid feedback hsound hgrid
  have hall := (allots_paged s grid hgrid).trans hdata.allots
  have hfree : ∀ rbgs ∈ (decision policy s grid feedback).groups, ∀ i ∈ rbgs,
      i < grid.rbgCount ∧ flagAt s.reuse.downlinkFlags i = true := by
    intro rbgs hrbgs i hi
    exact (Occupancy.isFree_ofFlags ..).1 (hall.wasFree rbgs hrbgs i hi)
  exact
    { nonempty := hall.nonempty
      disjoint := hall.disjoint
      inside := fun rbgs hrbgs i hi => (hfree rbgs hrbgs i hi).1
      usable := fun rbgs hrbgs i hi => (hfree rbgs hrbgs i hi).2
      allowed := hdata.allowed
      addressed := hdata.addressed
      nodup := hdata.nodup }

end DownlinkTrigger

/-- The groups of each control message of an indication. -/
def Indication.groups : Indication → List (List Nat)
  | .downlink d => d.groups
  | _ => []

variable {Record : Type} {policy : Policy Record} {config : SchedulerConfig}
  {s s' : SchedulerState Record} {feedback : List HarqFeedback} {said : List Indication}

/-- The decision of every accepted downlink trigger keeps its blocks apart, on groups that the reuse
policy of that moment offers, and offers to the UE of the block. This holds in every reachable
state, for any policy whatsoever and any reuse rule: it rests on what the scheduler checks, not on
what the policy proposes. -/
theorem Reachable.separate_downlink (h : Reachable policy config s)
    (hstep : s.step policy (.downlinkTrigger feedback) = .ok (s', said)) :
    ∃ grid d, s.grid = some grid ∧ said = [.downlink d] ∧ d.Separate grid s.reuse := by
  have hinv := h.invariant
  cases SchedulerState.effect_of_step hstep with
  | quiet hq => cases hq
  | downlink hgrid =>
    exact ⟨_, _, hgrid, rfl,
      DownlinkTrigger.separate_decision policy feedback hinv.sound (hinv.rbgCount_le hgrid)⟩

/-- A run in which a paging message and a block for a UE share a band of two groups. -/
theorem separate_downlink_paging_beside_data :
    ∃ (s s' : SchedulerState Throughput) (grid : Grid) (d : DownlinkDecision),
      Reachable .tdBet .default s ∧
      s.step .tdBet (.downlinkTrigger []) = .ok (s', [.downlink d]) ∧
      d.groups = [[0], [1]] ∧ d.Separate grid s.reuse := by
  obtain ⟨es, e, hrun, hstep, hcheck⟩ := Run.of_replay_step .tdBet .default
    [.connect true true, .configureCell 6 6, .installReuse (.hard 6 6 ⟨0, 2⟩ ⟨0, 6⟩),
      .configureUe 1 .singleAntenna, .queue 1 0 ⟨400, 0, 0, 0, 0⟩, .paging [⟨0, 1⟩]]
    (.downlinkTrigger [])
    (fun _ e => e.said.map (·.groups) == [[[0], [1]]]) (by decide +kernel)
  obtain ⟨grid, d, -, hsaid, hsep⟩ := hrun.reachable.separate_downlink hstep
  rw [hsaid] at hstep hcheck
  have hgroups : d.groups = [[0], [1]] := by simpa [Indication.groups] using hcheck
  exact ⟨e.before, e.after, grid, d, hrun.reachable, hstep, hgroups, hsep⟩

end LteMac
