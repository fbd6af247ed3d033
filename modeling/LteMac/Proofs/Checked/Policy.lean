import LteMac.Policy.Choice
import LteMac.Proofs.Checked.LinkTables

/-!
# Checked policies

A policy looks up what it keeps of a candidate during its round: what is not covered yet, or the
average so far. Every candidate has an entry from the start, and no entry is ever taken away, so the
look-ups find what they look for, whoever the candidates are.

The checked policies are closer to a scheduler in memory than the policies are. Under equal
throughput in the frequency domain, a policy would have to compute the average that a UE has after
each group; the checked one keeps the averages in a table, and writes only that of the UE which got
the group. So the proof that it proposes the same has an invariant of its own: what the table says
of a candidate is the average that the policy computes (`FrequencyDomain.Estimated`).

In the time domain a policy looks nothing up but the records that it is given, which may be missing.

* `QosAware.Round.Covers`, `FrequencyDomain.Estimated`: the entries there are;
* `Algorithm.allocateChecked_eq`: the policies do not stop.
-/

namespace LteMac

variable {ctx : AllocationContext} {candidates : List Rnti}

/-! ## Rates -/

namespace AllocationContext

variable (ctx : AllocationContext)

/-- The rate of one group, at a quality for each layer. -/
def rateChecked (rnti : Rnti) (cqi : Nat → Nat) : Checked Float :=
  floatSum <$> (List.range (ctx.layers rnti)).mapM fun layer => do
    let mcs ← LinkAdaptation.mcsOfCqiChecked (cqi layer)
    let bits ← LinkAdaptation.downlinkBitsChecked mcs ctx.rbgSize
    return Float.ofNat bits / 8.0 / subframeSeconds

/-- The rate of a group at its own quality. -/
def subbandRateChecked (rnti : Rnti) (rbg : Nat) : Checked Float :=
  ctx.rateChecked rnti (ctx.subbandCqi rnti rbg)

/-- The rate of a group at the quality of the whole band. -/
def widebandRateChecked (rnti : Rnti) : Checked Float :=
  ctx.rateChecked rnti fun _ => ctx.widebandCqi rnti

/-- How much better than the whole band a group is for a UE. -/
def relativeRateChecked (rnti : Rnti) (rbg : Nat) : Checked Float := do
  let band ← ctx.widebandRateChecked rnti
  if band > 0.0 then (· / band) <$> ctx.subbandRateChecked rnti rbg else return 0.0

/-- Every quality has a scheme, and every scheme a size for a group. -/
theorem rateChecked_eq (rnti : Rnti) (cqi : Nat → Nat) :
    ctx.rateChecked rnti cqi = pure (ctx.rate rnti cqi) := by
  rw [rateChecked, rate, Checked.mapM_eq fun layer _ => ?_, map_pure]
  rw [LinkAdaptation.mcsOfCqiChecked_eq, pure_bind, LinkAdaptation.downlinkBitsChecked_eq,
    pure_bind]

/-- The rate of a group at its own quality can be looked up. -/
theorem subbandRateChecked_eq (rnti : Rnti) (rbg : Nat) :
    ctx.subbandRateChecked rnti rbg = pure (ctx.subbandRate rnti rbg) := ctx.rateChecked_eq ..

/-- The rate of a group at the quality of the whole band can be looked up. -/
theorem widebandRateChecked_eq (rnti : Rnti) :
    ctx.widebandRateChecked rnti = pure (ctx.widebandRate rnti) := ctx.rateChecked_eq ..

/-- The two rates are divided only if the second one is positive. -/
theorem relativeRateChecked_eq (rnti : Rnti) (rbg : Nat) :
    ctx.relativeRateChecked rnti rbg = pure (ctx.relativeRate rnti rbg) := by
  rw [relativeRateChecked, widebandRateChecked_eq, pure_bind, subbandRateChecked_eq, map_pure,
    relativeRate]
  split <;> rfl

end AllocationContext

/-! ## Channel and QoS aware scheduling -/

namespace QosAware

variable {kind : ChannelMetric} {records : Rnti → Option QosRecord} {round : Round}

/-- The channel metric of a UE on a group. -/
def metricChecked (kind : ChannelMetric) (ctx : AllocationContext) (record : Option QosRecord)
    (rnti : Rnti) (rbg : Nat) : Checked Float :=
  (· * record.elim 1.0 (·.weight)) <$>
    match kind with
    | .frequencySelective => ctx.relativeRateChecked rnti rbg
    | .proportionalFair =>
      (· / record.elim 1.0 fun r => floatMax r.throughput.average 1.0) <$>
        ctx.subbandRateChecked rnti rbg

/-- The group of a UE by the age of its oldest byte. -/
def delayGroupChecked (width : Nat) (ctx : AllocationContext) (rnti : Rnti) : Checked Nat :=
  Checked.divide (ctx.headDelay rnti) (max width 1)

/-- Whether a UE needs more. -/
def Round.needsChecked (round : Round) (rnti : Rnti) : Checked Bool :=
  (fun left => decide (left > 0.0)) <$> Checked.lookup round.uncovered rnti

/-- The member of a delay group that a resource block group goes to. -/
def winnerChecked (kind : ChannelMetric) (ctx : AllocationContext)
    (records : Rnti → Option QosRecord) (members : List Rnti) (round : Round) (rbg : Nat) :
    Checked (Option Rnti) := do
  let needy ← members.filterM fun rnti =>
    (· && ctx.allowed rbg rnti) <$> round.needsChecked rnti
  firstMax <$> needy.mapM fun rnti =>
    (fun value => (rnti, value)) <$> metricChecked kind ctx (records rnti) rnti rbg

/-- Hands out one group to a delay group. -/
def handChecked (kind : ChannelMetric) (ctx : AllocationContext)
    (records : Rnti → Option QosRecord) (members : List Rnti) (round : Round) (rbg : Nat) :
    Checked Round := do
  if round.isOpen rbg then
    match ← winnerChecked kind ctx records members round rbg with
    | none => return round
    | some rnti =>
      let rate ← ctx.subbandRateChecked rnti rbg
      return ⟨round.uncovered.modify rnti (· - rate * subframeSeconds),
        round.assignment ++ [(rbg, rnti)]⟩
  else return round

/-- Serves the delay groups, the oldest first. -/
def allocateChecked (kind : ChannelMetric) (width : Nat) (ctx : AllocationContext)
    (candidates : List Rnti) (records : Rnti → Option QosRecord) : Checked Allocation := do
  let delayed ← candidates.mapM fun rnti =>
    (fun group => (rnti, group)) <$> delayGroupChecked width ctx rnti
  let groups := ((delayed.map (·.2)).mergeSort (· ≥ ·)).eraseDups
  let round ← groups.foldlM (fun round group =>
      let members := (delayed.filter (·.2 == group)).map (·.1)
      (List.range ctx.rbgs).foldlM (handChecked kind ctx records members) round)
    (start ctx candidates)
  return .ofAssignment round.assignment

/-- A metric looks up rates only. -/
theorem metricChecked_eq (record : Option QosRecord) (rnti : Rnti) (rbg : Nat) :
    metricChecked kind ctx record rnti rbg = pure (metric kind ctx record rnti rbg) := by
  unfold metricChecked metric
  cases kind with
  | frequencySelective =>
    dsimp only
    rw [ctx.relativeRateChecked_eq, map_pure]
  | proportionalFair =>
    dsimp only
    rw [ctx.subbandRateChecked_eq, map_pure, map_pure]

/-- The width of a delay group is at least 1, so that it can be divided by. -/
theorem delayGroupChecked_eq (width : Nat) (rnti : Rnti) :
    delayGroupChecked width ctx rnti = pure (delayGroup width ctx rnti) :=
  Checked.divide_eq (Nat.lt_of_lt_of_le Nat.zero_lt_one (Nat.le_max_right _ _))

/-- The round keeps something of each of these UEs. -/
def Round.Covers (round : Round) (rntis : List Rnti) : Prop :=
  ∀ r ∈ rntis, r ∈ round.uncovered

/-- In the beginning there is an entry for each candidate. -/
theorem covers_start : (start ctx candidates).Covers candidates := by
  intro r hr
  refine Std.ExtTreeMap.mem_iff_isSome_getElem?.2 ?_
  rw [start, Table.getElem?_foldl_insert (f := fun rnti =>
    floatMax (Float.ofNat (ctx.bufferedBytes rnti)) 1.0) fun _ _ => rfl]
  simp [hr]

/-- Handing out a group takes no entry away. -/
theorem Round.Covers.hand {rntis : List Rnti} (h : round.Covers rntis) (members : List Rnti)
    (rbg : Nat) : (hand kind ctx records members round rbg).Covers rntis := by
  unfold QosAware.hand
  split
  · split
    · exact h
    · exact fun r hr => Std.ExtTreeMap.mem_modify.2 (h r hr)
  · exact h

/-- What is not covered of a member is found. -/
theorem winnerChecked_eq {members : List Rnti} (h : round.Covers members) (rbg : Nat) :
    winnerChecked kind ctx records members round rbg =
      pure (winner kind ctx records members round rbg) := by
  have hneeds : ∀ r ∈ members, ((· && ctx.allowed rbg r) <$> round.needsChecked r : Checked Bool) =
      pure (round.needs r && ctx.allowed rbg r) := fun r hr => by
    obtain ⟨left, hleft⟩ := Table.exists_of_mem (h r hr)
    rw [Round.needsChecked, Checked.lookup_eq hleft, map_pure, map_pure, Round.needs,
      Std.ExtTreeMap.getD_eq_getD_getElem?, hleft, Option.getD_some]
  rw [winnerChecked, Checked.filterM_eq hneeds, pure_bind, Checked.mapM_eq fun r _ => ?_, map_pure,
    winner]
  rw [metricChecked_eq, map_pure]

/-- Handing out a group does not stop. -/
theorem handChecked_eq {members : List Rnti} (h : round.Covers members) (rbg : Nat) :
    handChecked kind ctx records members round rbg =
      pure (hand kind ctx records members round rbg) := by
  unfold handChecked hand
  split
  · rw [winnerChecked_eq h, pure_bind]
    cases winner kind ctx records members round rbg with
    | none => rfl
    | some rnti =>
      dsimp only
      rw [ctx.subbandRateChecked_eq, pure_bind]
      rfl
  · rfl

/-- Nor does serving the delay groups, the oldest first. -/
theorem allocateChecked_eq (kind : ChannelMetric) (width : Nat) (ctx : AllocationContext)
    (candidates : List Rnti) (records : Rnti → Option QosRecord) :
    allocateChecked kind width ctx candidates records =
      pure (allocate kind width ctx candidates records) := by
  have hmembers : ∀ group, ((candidates.map fun rnti => (rnti, delayGroup width ctx rnti)).filter
      (·.2 == group)).map (·.1) = candidates.filter (delayGroup width ctx · == group) := fun _ => by
    rw [List.filter_map, List.map_map]
    exact List.map_id _
  -- Serving a group never takes a candidate out of the table of what remains, so every look-up
  -- succeeds.
  have hkeep : ∀ round : Round, round.Covers candidates → ∀ group,
      (serve kind width ctx records candidates round group).Covers candidates :=
    fun round h group => List.foldlRecOn (motive := fun round : Round => round.Covers candidates)
      _ _ h fun round h rbg _ => h.hand _ rbg
  rw [allocateChecked, Checked.mapM_eq fun rnti _ => by rw [delayGroupChecked_eq, map_pure],
    pure_bind]
  simp only [List.map_map, hmembers]
  rw [Checked.foldlM_eq (f := serve kind width ctx records candidates)
    (fun round => round.Covers candidates) ?_ (fun round h group _ => hkeep round h group)
    covers_start, pure_bind]
  · rfl
  · intro round h group _
    refine Checked.foldlM_eq (fun round => round.Covers candidates) (fun round h rbg _ => ?_)
      (fun round h rbg _ => h.hand _ rbg) h
    exact handChecked_eq (fun r hr => h r (List.mem_filter.1 hr).1) rbg

end QosAware

/-! ## Equal throughput in the frequency domain -/

namespace FrequencyDomain

variable {records : Rnti → Option Throughput} {now : Table Rnti Float × Round}

/-- The candidate that a group goes to, by the averages kept for this subframe. -/
def winnerChecked (ctx : AllocationContext) (candidates : List Rnti)
    (estimates : Table Rnti Float) (rbg : Nat) : Checked (Option Rnti) :=
  firstMax <$> (candidates.filter (ctx.allowed rbg)).mapM fun rnti =>
    (fun average => (rnti, 1.0 / average)) <$> Checked.lookup estimates rnti

/-- Hands out one group; only the average of its UE changes. -/
def handChecked (ctx : AllocationContext) (candidates : List Rnti)
    (records : Rnti → Option Throughput) (now : Table Rnti Float × Round) (rbg : Nat) :
    Checked (Table Rnti Float × Round) := do
  match ← winnerChecked ctx candidates now.1 rbg with
  | none => return now
  | some rnti =>
    let rate ← ctx.widebandRateChecked rnti
    let round : Round :=
      { given := now.2.given.insert rnti (now.2.given.getD rnti 0.0 + rate * subframeSeconds)
        assignment := now.2.assignment ++ [(rbg, rnti)] }
    return (now.1.insert rnti (estimate ctx records round rnti), round)

/-- The averages of the candidates before anything is handed out. -/
def estimates (ctx : AllocationContext) (candidates : List Rnti)
    (records : Rnti → Option Throughput) : Table Rnti Float :=
  candidates.foldl (fun t rnti => t.insert rnti (estimate ctx records ⟨∅, []⟩ rnti)) ∅

/-- Hands out the groups one after the other. -/
def allocateChecked (ctx : AllocationContext) (candidates : List Rnti)
    (records : Rnti → Option Throughput) : Checked Allocation :=
  (fun now => .ofAssignment now.2.assignment) <$>
    (List.range ctx.rbgs).foldlM (handChecked ctx candidates records)
      (estimates ctx candidates records, ⟨∅, []⟩)

/-- What is kept for the candidates are their averages, as the round has it. -/
def Estimated (ctx : AllocationContext) (candidates : List Rnti)
    (records : Rnti → Option Throughput) (now : Table Rnti Float × Round) : Prop :=
  ∀ r ∈ candidates, now.1[r]? = some (estimate ctx records now.2 r)

/-- In the beginning the table has the average of each candidate. -/
theorem estimated_start :
    Estimated ctx candidates records (estimates ctx candidates records, ⟨∅, []⟩) := by
  intro r hr
  rw [estimates, Table.getElem?_foldl_insert (f := estimate ctx records ⟨∅, []⟩) fun _ _ => rfl]
  simp [hr]

/-- One group, handed out on the averages that are kept. -/
def handOn (ctx : AllocationContext) (candidates : List Rnti)
    (records : Rnti → Option Throughput) (now : Table Rnti Float × Round) (rbg : Nat) :
    Table Rnti Float × Round :=
  let round := hand ctx candidates records now.2 rbg
  match winner ctx candidates records now.2 rbg with
  | none => (now.1, round)
  | some rnti => (now.1.insert rnti (estimate ctx records round rnti), round)

/-- Only the average of whom a group was handed to changes. -/
theorem Estimated.handOn (h : Estimated ctx candidates records now) (rbg : Nat) :
    Estimated ctx candidates records (handOn ctx candidates records now rbg) := by
  intro r hr
  unfold FrequencyDomain.handOn
  cases hwinner : winner ctx candidates records now.2 rbg with
  | none =>
    dsimp only
    rw [hand, hwinner]
    exact h r hr
  | some rnti =>
    dsimp only
    rw [Table.getElem?_insert]
    split
    · next heq => rw [heq]
    · next hne =>
      -- Nothing was given to `r`, so its average is what it was.
      rw [h r hr, hand, hwinner, estimate, estimate]
      simp only [Std.ExtTreeMap.getD_eq_getD_getElem?, Table.getElem?_insert, if_neg hne]

/-- The averages of the candidates are found, and the same candidate wins. -/
theorem handChecked_eq (h : Estimated ctx candidates records now) (rbg : Nat) :
    handChecked ctx candidates records now rbg = pure (handOn ctx candidates records now rbg) := by
  have hwinner : winnerChecked ctx candidates now.1 rbg =
      pure (winner ctx candidates records now.2 rbg) := by
    rw [winnerChecked, Checked.mapM_eq fun r hr => ?_, map_pure, winner]
    rw [Checked.lookup_eq (h r (List.mem_filter.1 hr).1), map_pure]
  rw [handChecked, hwinner, pure_bind, handOn]
  cases hr : winner ctx candidates records now.2 rbg with
  | none =>
    dsimp only
    rw [hand, hr]
  | some rnti =>
    dsimp only
    rw [ctx.widebandRateChecked_eq, pure_bind, hand, hr]

/-- Handing out all groups on the averages that are kept. -/
theorem allocateChecked_eq (ctx : AllocationContext) (candidates : List Rnti)
    (records : Rnti → Option Throughput) :
    allocateChecked ctx candidates records = pure (allocate ctx candidates records) := by
  have hround : ∀ (rbgs : List Nat) (now : Table Rnti Float × Round),
      (rbgs.foldl (handOn ctx candidates records) now).2 =
        rbgs.foldl (hand ctx candidates records) now.2 := fun rbgs now =>
    (List.foldl_hom Prod.snd fun now rbg => by rw [handOn]; split <;> rfl).symm
  rw [allocateChecked, Checked.foldlM_eq (Estimated ctx candidates records)
    (fun _ h rbg _ => handChecked_eq h rbg) (fun _ h rbg _ => h.handOn rbg) estimated_start,
    map_pure, hround, allocate]

end FrequencyDomain

/-! ## Throughput to average -/

namespace ThroughputToAverage

/-- The candidate that a group goes to. -/
def winnerChecked (ctx : AllocationContext) (candidates : List Rnti) (rbg : Nat) :
    Checked (Option Rnti) :=
  firstMax <$> (candidates.filter (ctx.allowed rbg)).mapM fun rnti =>
    (fun rate => (rnti, rate)) <$> ctx.relativeRateChecked rnti rbg

/-- Hands out every group that somebody may use. -/
def allocateChecked (ctx : AllocationContext) (candidates : List Rnti) : Checked Allocation :=
  (fun winners => .ofAssignment (winners.filterMap id)) <$>
    (List.range ctx.rbgs).mapM fun rbg =>
      (·.map fun rnti => (rbg, rnti)) <$> winnerChecked ctx candidates rbg

/-- Every group finds its winner, or has none. -/
theorem allocateChecked_eq (ctx : AllocationContext) (candidates : List Rnti) :
    allocateChecked ctx candidates = pure (allocate ctx candidates) := by
  have hwinner : ∀ rbg, winnerChecked ctx candidates rbg = pure (winner ctx candidates rbg) :=
    fun rbg => by
      rw [winnerChecked, Checked.mapM_eq fun r _ => ?_, map_pure, winner]
      rw [ctx.relativeRateChecked_eq, map_pure]
  rw [allocateChecked, Checked.mapM_eq fun rbg _ => by rw [hwinner, map_pure], map_pure,
    List.filterMap_map, allocate]
  rfl

end ThroughputToAverage

namespace Algorithm

/-- What the policy of an algorithm proposes. In the time domain nothing is looked up. -/
def allocateChecked (config : SchedulerConfig) : (algorithm : Algorithm) →
    AllocationContext → List Rnti → (Rnti → Option algorithm.Record) → Checked Allocation
  | cqa => QosAware.allocateChecked config.metric config.delayGroup
  | fdBet => FrequencyDomain.allocateChecked
  | tdBet => fun ctx candidates records => pure (TimeDomain.allocate ctx candidates records)
  | tta => fun ctx candidates _ => ThroughputToAverage.allocateChecked ctx candidates

/-- Whatever the algorithm, its policy does not stop, and proposes what it does unchecked. -/
theorem allocateChecked_eq (config : SchedulerConfig) (algorithm : Algorithm)
    (ctx : AllocationContext) (candidates : List Rnti)
    (records : Rnti → Option algorithm.Record) :
    algorithm.allocateChecked config ctx candidates records =
      pure ((algorithm.policy config).allocate ctx candidates records) := by
  cases algorithm with
  | cqa => exact QosAware.allocateChecked_eq ..
  | fdBet => exact FrequencyDomain.allocateChecked_eq ..
  | tdBet => rfl
  | tta => exact ThroughputToAverage.allocateChecked_eq ..

end Algorithm

end LteMac
