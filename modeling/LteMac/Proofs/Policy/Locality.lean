import LteMac.Policy.Choice
import LteMac.Proofs.Policy.Sharing

/-!
# What the policies look at

A policy ranks the candidates and nobody else: what waits for other UEs, in how many layers they are
served and what is recorded of them makes no difference (`Policy.Local`).

That is more than that a policy gives groups to candidates only. A policy could well look at the
averages of everybody to decide how much a candidate should get, and then a UE that has nothing to
send would still be felt by the others. None of them does, which is why an idle UE goes unnoticed.

A policy reads the context through a few quantities only: the rate of a UE on a group or on the
carrier, the ratio of the two, and the delay of the head of its queues. Each of them reads the
layers or the queues of the UE it is about; the rest follows by congruence over the list of
candidates.

* `Algorithm.local_policy`: so it is for the policy of every algorithm.
-/

namespace LteMac

/-- A policy looks at nobody but the candidates: contexts and records that agree on the candidates
lead to the same allocation. The candidates themselves are the same on both sides, and so is their
order. -/
def Policy.Local {Record : Type} (policy : Policy Record) : Prop :=
  ∀ (ctx : AllocationContext) (layers : Rnti → Nat) (queues : Rnti → List RlcQueue)
    (candidates : List Rnti) (records records' : Rnti → Option Record),
    (∀ c ∈ candidates, layers c = ctx.layers c) → (∀ c ∈ candidates, queues c = ctx.queues c) →
    (∀ c ∈ candidates, records' c = records c) →
    policy.allocate { ctx with layers, queues } candidates records' =
      policy.allocate ctx candidates records

variable {ctx : AllocationContext} {layers : Rnti → Nat} {queues : Rnti → List RlcQueue}
  {candidates : List Rnti} {r : Rnti}

namespace AllocationContext

/-- The rate of a UE depends on its own layers only. -/
theorem rate_local (hr : layers r = ctx.layers r) (cqi : Nat → Nat) :
    { ctx with layers, queues }.rate r cqi = ctx.rate r cqi := by
  simp only [rate, hr]

/-- So does its rate on a group. -/
theorem subbandRate_local (hr : layers r = ctx.layers r) (rbg : Nat) :
    { ctx with layers, queues }.subbandRate r rbg = ctx.subbandRate r rbg := rate_local hr _

/-- So does the ratio of the two. -/
theorem relativeRate_local (hr : layers r = ctx.layers r) (rbg : Nat) :
    { ctx with layers, queues }.relativeRate r rbg = ctx.relativeRate r rbg := by
  simp only [relativeRate, widebandRate, subbandRate_local hr, rate_local hr]
  rfl

end AllocationContext

/-- The policy that serves one UE per subframe compares the averages of the candidates. -/
theorem TimeDomain.local_tdBet : Policy.tdBet.Local := by
  intro ctx layers queues cs records records' _ _ hrecords
  have heligible : eligible { ctx with layers, queues } cs = eligible ctx cs := rfl
  have hwinner : winner (eligible ctx cs) records' = winner (eligible ctx cs) records := by
    refine congrArg firstMax (List.map_congr_left fun e he => ?_)
    rw [averageOf, averageOf, hrecords e.1 (mem_eligible.1 he).1]
  change allocate _ cs records' = allocate ctx cs records
  rw [allocate, heligible, hwinner]
  rfl

/-- The policy that serves one UE per group compares them for each group anew, with what the earlier
groups would bring to the candidates. -/
theorem FrequencyDomain.local_fdBet : Policy.fdBet.Local := by
  intro ctx layers queues cs records records' hlayers _ hrecords
  have hwinner : winner { ctx with layers, queues } cs records' = winner ctx cs records := by
    funext round rbg
    refine congrArg firstMax (List.map_congr_left fun c hc => ?_)
    have hrecord := hrecords c (List.mem_filter.1 hc).1
    simp only [estimate, averageOf, hrecord]
  have hhand : hand { ctx with layers, queues } cs records' = hand ctx cs records := by
    funext round rbg
    rw [hand, hwinner, hand]
    cases hr : winner ctx cs records round rbg with
    | none => rfl
    | some r =>
      have hlayer := hlayers r (winner_iff.1 r hr).1
      simp only [AllocationContext.widebandRate, AllocationContext.rate_local hlayer]
      rfl
  change allocate _ cs records' = allocate ctx cs records
  rw [allocate, hhand]
  rfl

/-- The policy that compares ratios of rates reads no records at all. -/
theorem ThroughputToAverage.local_tta : Policy.tta.Local := by
  intro ctx layers queues cs records records' hlayers _ _
  have hwinner : winner { ctx with layers, queues } cs = winner ctx cs := by
    funext rbg
    refine congrArg firstMax (List.map_congr_left fun c hc => ?_)
    rw [AllocationContext.relativeRate_local (hlayers c (List.mem_filter.1 hc).1)]
  change allocate _ cs = allocate ctx cs
  rw [allocate, hwinner]
  rfl

namespace QosAware

variable {kind : ChannelMetric} {width : Nat} {records records' : Rnti → Option QosRecord}

/-- The delay group of a UE depends on its own queues only. -/
theorem delayGroup_local (hr : queues r = ctx.queues r) :
    delayGroup width { ctx with layers, queues } r = delayGroup width ctx r := by
  simp only [delayGroup, AllocationContext.headDelay, hr]

/-- Its metric on a group depends on its own layers and record only. -/
theorem metric_local (hr : layers r = ctx.layers r) (record : Option QosRecord) (rbg : Nat) :
    metric kind { ctx with layers, queues } record r rbg = metric kind ctx record r rbg := by
  simp only [metric, AllocationContext.relativeRate_local hr,
    AllocationContext.subbandRate_local hr]

/-- A delay group is served as the layers and the records of its members say. -/
theorem hand_local {members : List Rnti} (hlayers : ∀ c ∈ members, layers c = ctx.layers c)
    (hrecords : ∀ c ∈ members, records' c = records c) :
    hand kind { ctx with layers, queues } records' members = hand kind ctx records members := by
  have hwinner : winner kind { ctx with layers, queues } records' members =
      winner kind ctx records members := by
    funext round rbg
    refine congrArg firstMax (List.map_congr_left fun c hc => ?_)
    have hmem := (List.mem_filter.1 hc).1
    rw [metric_local (hlayers c hmem), hrecords c hmem]
  funext round rbg
  rw [hand, hwinner, hand]
  cases hr : winner kind ctx records members round rbg with
  | none => rfl
  | some r =>
    have hlayer := hlayers r (winner_iff.1 r hr).1
    simp only [Round.give, AllocationContext.subbandRate_local hlayer]

/-- The policy with delay groups sorts the candidates into groups first. It looks at the same
members in both contexts, as the delays of the candidates are the same, and then serves each group
alike. -/
theorem local_cqa : (Policy.cqa kind width).Local := by
  intro ctx layers queues cs records records' hlayers hqueues hrecords
  -- The delay of a candidate is that of its own queues, so the groups are the same.
  have hgroup : ∀ c ∈ cs,
      delayGroup width { ctx with layers, queues } c = delayGroup width ctx c :=
    fun c hc => delayGroup_local (hqueues c hc)
  have hgroups : delayGroups width { ctx with layers, queues } cs = delayGroups width ctx cs := by
    rw [delayGroups, List.map_congr_left hgroup, delayGroups]
  have hstart : start { ctx with layers, queues } cs = start ctx cs := by
    refine congrArg (Round.mk · []) (List.foldl_ext _ _ _ fun t c hc => ?_)
    simp only [AllocationContext.bufferedBytes, hqueues c hc]
  have hserve : serve kind width { ctx with layers, queues } records' cs =
      serve kind width ctx records cs := by
    funext round group
    have hmembers : cs.filter (delayGroup width { ctx with layers, queues } · == group) =
        cs.filter (delayGroup width ctx · == group) :=
      List.filter_congr fun c hc => by rw [hgroup c hc]
    have hsub : ∀ c ∈ cs.filter (delayGroup width ctx · == group), c ∈ cs :=
      fun c hc => (List.mem_filter.1 hc).1
    rw [serve, hmembers, hand_local (fun c hc => hlayers c (hsub c hc))
      fun c hc => hrecords c (hsub c hc)]
    rfl
  change allocate kind width _ cs records' = allocate kind width ctx cs records
  rw [allocate, hgroups, hstart, hserve, allocate]

end QosAware

/-- The policies look at the candidates only. -/
theorem Algorithm.local_policy (config : SchedulerConfig) (algorithm : Algorithm) :
    (algorithm.policy config).Local := by
  cases algorithm with
  | cqa => exact QosAware.local_cqa
  | fdBet => exact FrequencyDomain.local_fdBet
  | tdBet => exact TimeDomain.local_tdBet
  | tta => exact ThroughputToAverage.local_tta

end LteMac
