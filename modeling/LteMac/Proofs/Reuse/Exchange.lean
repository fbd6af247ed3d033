import LteMac.Policy.Choice
import LteMac.Proofs.Downlink.Trigger
import LteMac.Proofs.Reuse.Answers
import LteMac.Proofs.Uplink.Trigger
import LteMac.Scheduler.Step

/-!
# Exchanging reuse policies

A trigger depends on its reuse policy only through the policy's answers: with another one that gives
the same answers (`ReusePolicy.Agrees`), every stage does the same, and so does the whole trigger.
What the other policy has learned does not show.

The answers are functions of a group or block and a UE, and two policies agree in a direction if
these functions are equal. So each function of the scheduler that takes a policy is shown equal, as
a function, for both of them; a stage that is a fold of such a function then needs no induction, and
the chain of lemmas follows the calls from the policies of the algorithms up to the trigger.

* `Algorithm.allocate_congr`: the policies of all algorithms;
* `SchedulerState.step_congr`: a trigger with the other policy says the same, and leaves the same
  cell but for the policy.
-/

namespace LteMac

variable {p : ReusePolicy}

/-! ## Scheduling policies

A scheduling policy asks the reuse policy nothing but which groups are allowed to whom.
-/

section Policies

variable (ctx : AllocationContext) (h : p.downlinkAllowed = ctx.reuse.downlinkAllowed)

include h

/-- Which groups a UE may have, of those that are free. -/
theorem AllocationContext.allowed_congr : { ctx with reuse := p }.allowed = ctx.allowed := by
  funext i r
  simp only [allowed, h]

/-- A policy asks for that and for nothing else of a reuse policy; so do the ones below. -/
theorem TimeDomain.allocate_congr : allocate { ctx with reuse := p } = allocate ctx := by
  have hallowed := ctx.allowed_congr h
  funext candidates records
  simp only [allocate, eligible, AllocationContext.allowedRbgs, hallowed]
  rfl

theorem FrequencyDomain.allocate_congr : allocate { ctx with reuse := p } = allocate ctx := by
  have hallowed := ctx.allowed_congr h
  have hhand : hand { ctx with reuse := p } = hand ctx := by
    funext candidates records round i
    simp only [hand, winner, hallowed]
    rfl
  funext candidates records
  simp only [allocate, hhand]
  rfl

theorem ThroughputToAverage.allocate_congr : allocate { ctx with reuse := p } = allocate ctx := by
  have hallowed := ctx.allowed_congr h
  funext candidates
  simp only [allocate, winner, hallowed]
  rfl

theorem QosAware.allocate_congr (kind : ChannelMetric) (width : Nat) :
    allocate kind width { ctx with reuse := p } = allocate kind width ctx := by
  have hallowed := ctx.allowed_congr h
  have hhand : hand kind { ctx with reuse := p } = hand kind ctx := by
    funext records members round i
    simp only [hand, winner, hallowed]
    rfl
  -- The delay groups are formed by what waits, whatever the reuse policy says.
  have hserve : serve kind width { ctx with reuse := p } = serve kind width ctx := by
    funext records candidates round group
    simp only [serve, hhand]
    rfl
  funext candidates records
  simp only [allocate, hserve]
  rfl

/-- A scheduling policy sees of a reuse policy which groups the UEs may have. -/
theorem Algorithm.allocate_congr (config : SchedulerConfig) (algorithm : Algorithm) :
    (algorithm.policy config).allocate { ctx with reuse := p } =
      (algorithm.policy config).allocate ctx := by
  cases algorithm with
  | cqa => exact QosAware.allocate_congr ctx h config.metric config.delayGroup
  | fdBet => exact FrequencyDomain.allocate_congr ctx h
  | tdBet => exact TimeDomain.allocate_congr ctx h
  | tta => exact funext fun candidates =>
      funext fun _ => congrFun (ThroughputToAverage.allocate_congr ctx h) candidates

end Policies

/-! ## A downlink trigger

The trigger asks which groups are usable, which of them are allowed to whom, and how loud to send.
For its answers to random accesses it asks about the blocks of the uplink as well.
-/

section Blocks

variable {p' : ReusePolicy} (h : p'.downlinkAllowed = p.downlinkAllowed)

include h

/-- A group can be used for a block that is sent again if it is free and allowed. -/
theorem Retransmission.usable_congr : usable p' = usable p := by
  funext o r i
  simp only [usable, h]

/-- So the pass over the feedback is the same. -/
theorem Retransmission.handleAll_congr : handleAll p' = handleAll p := by
  have hplace : place? p' = place? p := by
    funext o r former
    simp only [place?, usable_congr h]
  have hhandle : Round.handle p' = Round.handle p := by
    funext round f
    simp only [Round.handle, Round.retry, hplace]
  funext harq o feedback
  rw [handleAll, hhandle, handleAll]

/-- A candidate claims the groups that it may have. -/
theorem NewData.claim_congr : claim p' = claim p := by
  funext r o proposed
  induction proposed generalizing o with
  | nil => rfl
  | cons i rest ih => simp only [claim, Retransmission.usable_congr h, ih]

end Blocks

/-- Serving a candidate asks which groups it may have and how its power is controlled. -/
theorem NewData.Setting.serve_congr {Record : Type} (setting : Setting)
    (h : p.downlinkAllowed = setting.reuse.downlinkAllowed)
    (hpower : p.powerCommand = setting.reuse.powerCommand) (a : Allocation) :
    ({ setting with reuse := p }.serve a : Round Record → Rnti → Round Record) =
      setting.serve a := by
  funext round r
  simp only [serve, claim_congr h, send?, grant, hpower]
  rfl

/-- The answers to random accesses ask in the direction of the trigger only. -/
theorem Access.answerAll_congr {Record : Type} {s : SchedulerState Record} {d : Direction}
    (h : s.reuse.Agrees d p) (grid : Grid) :
    answerAll { s with reuse := p } grid = answerAll s grid := by
  simp only [answerAll, roundOf, h.uplinkFlags, h.contiguousBlocks]

namespace DownlinkTrigger

variable {algorithm : Algorithm} {config : SchedulerConfig} {s : SchedulerState algorithm.Record}

/-- The stage of new data, of a cell that has aged. -/
theorem sendNew_congr (h : p.downlinkAllowed = s.reuse.downlinkAllowed)
    (hpower : p.powerCommand = s.reuse.powerCommand) (grid : Grid)
    (retries : Retransmission.Round) (cs : List Rnti) :
    sendNew (algorithm.policy config) { s with reuse := p } grid retries cs =
      sendNew (algorithm.policy config) s grid retries cs := by
  -- What the policy sees and what the pass is set to differ in the reuse policy only.
  have hallocate :=
    Algorithm.allocate_congr (context s grid retries.occupancy) h config algorithm
  have hproposal : proposal (algorithm.policy config) { s with reuse := p } grid retries.occupancy
      cs = proposal (algorithm.policy config) s grid retries.occupancy cs :=
    congrFun (congrFun hallocate cs) _
  have hsetting : setting { s with reuse := p } grid = { setting s grid with reuse := p } := rfl
  rw [sendNew, hproposal, hsetting]
  dsimp only
  rw [NewData.Setting.serve_congr (setting s grid) h hpower]
  rfl

variable (h : s.reuse.Agrees .downlink p) (grid : Grid) (feedback : List HarqFeedback)

include h

/-- Ageing does not ask the policy, and keeps it. -/
theorem opened_congr : opened { s with reuse := p } grid = { opened s grid with reuse := p } := by
  rw [opened, Access.answerAll_congr h]
  rfl

/-- Paging asks which groups are usable cell-wide. -/
theorem paged_congr : paged { s with reuse := p } grid = paged s grid := by
  simp only [paged, h.downlinkFlags]

/-- The retransmissions are the same. -/
theorem retries_congr :
    retries { s with reuse := p } grid feedback = retries s grid feedback := by
  have hhandle : Retransmission.handleAll p = Retransmission.handleAll s.reuse :=
    Retransmission.handleAll_congr h.allowed
  rw [retries, opened_congr h, paged_congr h]
  simp only [retransmit, hhandle]
  rfl

/-- Whose turn it is does not depend on the policy, but for who was served already. -/
theorem turns_congr : turns { s with reuse := p } grid feedback = turns s grid feedback := by
  rw [turns, retries_congr h, opened_congr h]
  rfl

/-- The new data are the same. -/
theorem fresh_congr : fresh (algorithm.policy config) { s with reuse := p } grid feedback =
    fresh (algorithm.policy config) s grid feedback := by
  rw [fresh, opened_congr h, retries_congr h, turns_congr h]
  exact sendNew_congr (s := opened s grid) h.allowed h.powerCommand ..

/-- A downlink subframe is decided alike. -/
theorem decide_congr : decide (algorithm.policy config) { s with reuse := p } grid feedback =
    ({ (decide (algorithm.policy config) s grid feedback).1 with reuse := p },
      (decide (algorithm.policy config) s grid feedback).2) := by
  rw [decide_eq, data, fresh_congr h, turns_congr h, retries_congr h, opened_congr h,
    paged_congr h, Access.answerAll_congr h]
  rfl

end DownlinkTrigger

/-! ## An uplink trigger

The trigger asks the same about blocks, and how many of them in a row there is always room for.
-/

/-- Serving a candidate asks which blocks it may have and how its power is controlled. -/
theorem UplinkNew.Setting.serve_congr (setting : Setting)
    (h : p.uplinkAllowed = setting.reuse.uplinkAllowed)
    (hpower : p.powerCommand = setting.reuse.powerCommand) :
    { setting with reuse := p }.serve = setting.serve := by
  have hopen : { setting with reuse := p }.isOpen = setting.isOpen := by
    funext o r start length
    simp only [isOpen, h]
  funext round r
  simp only [serve, stretch?, window?, hopen, hpower]
  rfl

/-- So the pass over the candidates is the same. -/
theorem UplinkNew.Setting.serveAll_congr (setting : Setting)
    (h : p.uplinkAllowed = setting.reuse.uplinkAllowed)
    (hpower : p.powerCommand = setting.reuse.powerCommand) :
    { setting with reuse := p }.serveAll = setting.serveAll := by
  funext round cs
  rw [serveAll, setting.serve_congr h hpower, serveAll]

namespace UplinkTrigger

variable {Record : Type} {s : SchedulerState Record}

/-- The stage of new blocks. -/
theorem sendNew_congr (h : s.reuse.Agrees .uplink p) (grid : Grid) (usable : List Bool)
    (quality : UplinkQuality) (retries : UplinkRetry.Round) (cs : List Rnti) :
    sendNew { s with reuse := p } grid usable quality retries cs =
      sendNew s grid usable quality retries cs := by
  have hlength : stretchLength { s with reuse := p } = stretchLength s := by
    funext grid usable flows
    rw [stretchLength, h.contiguousBlocks, stretchLength]
  have hserve : ∀ length, (⟨s.config.harqEnabled, p, length⟩ : UplinkNew.Setting).serveAll =
      (⟨s.config.harqEnabled, s.reuse, length⟩ : UplinkNew.Setting).serveAll :=
    fun length => UplinkNew.Setting.serveAll_congr ⟨_, s.reuse, length⟩ h.allowed h.powerCommand
  simp only [sendNew, hlength, hserve]

/-- An uplink subframe is decided alike. -/
theorem decide_congr (h : s.reuse.Agrees .uplink p) (grid : Grid) (time : Subframe)
    (outcomes : List UplinkOutcome) :
    decide { s with reuse := p } grid time outcomes =
      ({ (decide s grid time outcomes).1 with reuse := p }, (decide s grid time outcomes).2) := by
  rw [decide, h.uplinkFlags]
  dsimp only
  rw [sendNew_congr h]
  rfl

end UplinkTrigger

/-! ## Any trigger

Policies that give the same answers in a direction can be exchanged in a trigger of that direction.
What differs afterwards is the policy itself, which is carried along.
-/

/-- The direction that a trigger decides. -/
def Request.trigger? : Request → Option Direction
  | .downlinkTrigger _ => some .downlink
  | .uplinkTrigger .. => some .uplink
  | _ => none

namespace SchedulerState

variable {algorithm : Algorithm} {s : SchedulerState algorithm.Record} {q : Request}
  {d : Direction}

/-- What follows a check that does not depend on the policy. -/
theorem bind_eq_map {ε α β γ : Type} {x : Except ε α} {f : α → Except ε β} {g : α → Except ε γ}
    {change : γ → β} (h : ∀ a, f a = (g a).map change) : x >>= f = (x >>= g).map change :=
  (bind_congr h).trans (map_bind change x g).symm

/-- A trigger meets another reuse policy with the same answers: it says the same, or is refused for
the same reason, and leaves the same cell but for the policy. -/
theorem step_congr (config : SchedulerConfig) (hq : q.trigger? = some d) (h : s.reuse.Agrees d p) :
    { s with reuse := p }.step (algorithm.policy config) q =
      (s.step (algorithm.policy config) q).map fun out =>
        ({ out.1 with reuse := p }, out.2) := by
  cases q <;> cases hq
  case downlinkTrigger feedback =>
    refine bind_eq_map fun _ => bind_eq_map fun grid => bind_eq_map fun _ => ?_
    exact congrArg Except.ok (DownlinkTrigger.decide_congr h grid feedback)
  case uplinkTrigger time outcomes =>
    refine bind_eq_map fun _ => bind_eq_map fun grid => bind_eq_map fun _ => ?_
    exact congrArg Except.ok (UplinkTrigger.decide_congr h grid time outcomes)

end SchedulerState

end LteMac
