import LteMac.Proofs.Policy.Contract
import Mathlib.Data.Nat.Find

/-!
# The most delayed first

The policy that looks at the delay serves one delay group after the other, the oldest first, and
each of them goes through all groups that are still to be had. So whoever gets a group leaves
nothing to be wished by the older delay groups: each of their UEs that might have had the group had
got enough when its own turn came. The same holds for a group that nobody gets. Within a delay group
the best metric wins, and of equal ones the one whose UE comes first.

What is to be shown is about the finished allocation, while the policy decides by what is uncovered
at the time. The two meet in the order of the turns (`QosAware.Before`): the turns are taken in this
order, so what a UE had got before its turn at a group is what it is offered below that group in the
end (`QosAware.offer_before`), and what was still to be had then is what no older UE is offered.
This is why `Lacks` can speak of the offers alone.

* `exists_split_of_firstMax`: among numbers, the first one with the largest metric is found;
* `QosAware.firstMax_rivals`: who gets a group at the turn of a delay group;
* `Policy.mostDelayedFirst_cqa`: the oldest delay group is served first, whatever the channels, the
  queues and the records;
* `QosAware.mostDelayedFirst_contended`: two ages and one group.
-/

namespace LteMac

/-! ## The first of the largest -/

/-- Of metrics that are numbers the first one of the largest wins. -/
theorem exists_split_of_firstMax {α : Type} {metric : α → Float} {members : List α} {w : α}
    (hnumber : ∀ c ∈ members, (metric c).isNaN = false)
    (h : firstMax (members.map fun c => (c, metric c)) = some w) :
    ∃ before after, members = before ++ w :: after ∧
      (∀ c ∈ before, metric c < metric w) ∧ ∀ c ∈ after, metric c ≤ metric w := by
  obtain ⟨b, hb, rfl⟩ := Option.map_eq_some_iff.1 h
  clear h
  suffices hsplit : ∃ before after, members = before ++ b.1 :: after ∧ b.2 = metric b.1 ∧
      (∀ c ∈ before, metric c < metric b.1) ∧ ∀ c ∈ after, metric c ≤ metric b.1 by
    obtain ⟨before, after, hmembers, -, hbefore, hafter⟩ := hsplit
    exact ⟨before, after, hmembers, hbefore, hafter⟩
  induction members using List.reverseRecOn generalizing b with
  | nil => cases hb
  | append_singleton rest c ih =>
    obtain ⟨hrest, hc⟩ := List.forall_mem_append.1 hnumber
    replace hc := hc c (List.mem_singleton_self c)
    rw [List.map_append, List.map_singleton, List.foldl_append, List.foldl_cons,
      List.foldl_nil] at hb
    split at hb
    next best hbest =>
      obtain ⟨before, after, hsplit, hmetric, hbefore, hafter⟩ := ih hrest best hbest
      have hbestNumber := hrest best.1 (hsplit ▸ by simp)
      split at hb
      next hle =>
        obtain rfl := Option.some.inj hb
        refine ⟨before, after ++ [c], by simp [hsplit], hmetric, hbefore, ?_⟩
        exact List.forall_mem_append.2 ⟨hafter, by simpa [← hmetric] using hle⟩
      next hlt =>
        obtain rfl := Option.some.inj hb
        rw [hmetric, float_le_iff hc hbestNumber, not_le] at hlt
        -- All before are at most as good as the best one so far, which is beaten.
        refine ⟨rest, [], rfl, rfl, fun c' hc' => ?_, by simp⟩
        have hc'Number := hrest c' hc'
        rw [float_lt_iff hc'Number hc]
        refine lt_of_le_of_lt ?_ hlt
        rw [hsplit, List.mem_append, List.mem_cons] at hc'
        obtain hc' | rfl | hc' := hc'
        · exact ((float_lt_iff hc'Number hbestNumber).1 (hbefore c' hc')).le
        · exact le_rfl
        · exact (float_le_iff hc'Number hbestNumber).1 (hafter c' hc')
    next hnone =>
      obtain rfl := Option.some.inj hb
      have hempty : rest = [] := by
        by_contra hne
        have hsome : rest.map (fun c => (c, metric c)) ≠ [] := mt List.map_eq_nil_iff.1 hne
        obtain ⟨a, ha⟩ := exists_firstMax hsome
        rw [firstMax, hnone] at ha
        cases ha
      subst hempty
      exact ⟨[], [], rfl, rfl, by simp, by simp⟩

/-- What is left once repetitions are erased stands in the list, in the same order. -/
theorem eraseDups_sublist (groups : List Nat) : groups.eraseDups.Sublist groups := by
  cases groups with
  | nil => exact .slnil
  | cons group groups =>
    rw [List.eraseDups_cons]
    exact ((eraseDups_sublist _).trans List.filter_sublist).cons_cons group
termination_by groups.length
decreasing_by simpa using Nat.lt_succ_of_le (List.length_filter_le _ groups)

namespace QosAware

variable {kind : ChannelMetric} {width : Nat} {ctx : AllocationContext} {candidates : List Rnti}
  {records : Rnti → Option QosRecord} {a : Allocation} {r : Rnti} {rbg : Nat}

/-! ## Seniority -/

/-- What waits for a UE beyond what some groups carry. -/
def uncoveredBy (ctx : AllocationContext) (r : Rnti) (rbgs : List Nat) : Float :=
  rbgs.foldl (fun left rbg => left - ctx.subbandRate r rbg * subframeSeconds)
    (floatMax (Float.ofNat (ctx.bufferedBytes r)) 1.0)

/-- The groups that a UE is offered below a group do not cover what waits for it. -/
def Lacks (ctx : AllocationContext) (a : Allocation) (rbg : Nat) (r : Rnti) : Prop :=
  uncoveredBy ctx r ((a.offer r).filter (· < rbg)) > 0.0

instance : Decidable (Lacks ctx a rbg r) := inferInstanceAs (Decidable (_ > _))

/-- The candidates whose oldest byte waits for as long as `group` says, counted in whole widths,
which may have a group of the cell and need it, in the order of their turns. -/
def rivals (width : Nat) (ctx : AllocationContext) (candidates : List Rnti) (a : Allocation)
    (group rbg : Nat) : List Rnti :=
  candidates.filter fun c =>
    ctx.headDelay c / max width 1 = group ∧ ctx.allowed rbg c = true ∧ Lacks ctx a rbg c

/-- An allocation serves the most delayed first. The age of a UE is that of its oldest byte in whole
widths, where a width of nothing counts as one millisecond. Ages, and not delays, are compared:
among UEs of one age it is the channel that decides. -/
structure MostDelayedFirst (kind : ChannelMetric) (width : Nat) (ctx : AllocationContext)
    (candidates : List Rnti) (records : Rnti → Option QosRecord) (a : Allocation) : Prop where
  /-- Of a group that goes to a younger UE, whoever might have had it had got enough before: all
  that it is offered is below, and it needs no more. -/
  senior : ∀ rbg w, rbg ∈ a.offer w → ∀ c ∈ candidates, ctx.allowed rbg c = true →
    ctx.headDelay w / max width 1 < ctx.headDelay c / max width 1 →
    ¬Lacks ctx a rbg c ∧ ∀ i ∈ a.offer c, i < rbg
  /-- So it is of a group that goes to nobody. -/
  unassigned : ∀ rbg, (∀ w, rbg ∉ a.offer w) → ∀ c ∈ candidates, ctx.allowed rbg c = true →
    ¬Lacks ctx a rbg c ∧ ∀ i ∈ a.offer c, i < rbg
  /-- A group goes to one of its age that may have it and needs it. -/
  rival : ∀ rbg w, rbg ∈ a.offer w →
    w ∈ rivals width ctx candidates a (ctx.headDelay w / max width 1) rbg
  /-- If the metrics of all of those are numbers, it is the first one with the largest. -/
  first : ∀ rbg w, rbg ∈ a.offer w →
    (∀ c ∈ rivals width ctx candidates a (ctx.headDelay w / max width 1) rbg,
      (metric kind ctx (records c) c rbg).isNaN = false) →
    ∃ before after,
      rivals width ctx candidates a (ctx.headDelay w / max width 1) rbg = before ++ w :: after ∧
      (∀ c ∈ before,
        metric kind ctx (records c) c rbg < metric kind ctx (records w) w rbg) ∧
      ∀ c ∈ after, metric kind ctx (records c) c rbg ≤ metric kind ctx (records w) w rbg

/-- The age is what the policy groups by. -/
theorem rivals_eq (width : Nat) (ctx : AllocationContext) (candidates : List Rnti) (a : Allocation)
    (group rbg : Nat) :
    rivals width ctx candidates a group rbg = candidates.filter fun c =>
      delayGroup width ctx c = group ∧ ctx.allowed rbg c = true ∧ Lacks ctx a rbg c :=
  rfl

/-! ## The turns -/

/-- The turns of the delay groups, the oldest first; each goes through the groups of the cell. -/
def turns (width : Nat) (ctx : AllocationContext) (candidates : List Rnti) : List (Nat × Nat) :=
  (delayGroups width ctx candidates).flatMap fun group => (List.range ctx.rbgs).map (group, ·)

/-- The turn of a delay group at a group of the cell. -/
def take (kind : ChannelMetric) (width : Nat) (ctx : AllocationContext)
    (records : Rnti → Option QosRecord) (candidates : List Rnti) (round : Round)
    (turn : Nat × Nat) : Round :=
  hand kind ctx records (candidates.filter (delayGroup width ctx · == turn.1)) round turn.2

/-- The one that gets the group of the cell at a turn, if it is still to be had. -/
def taker (kind : ChannelMetric) (width : Nat) (ctx : AllocationContext)
    (records : Rnti → Option QosRecord) (candidates : List Rnti) (round : Round)
    (turn : Nat × Nat) : Option Rnti :=
  winner kind ctx records (candidates.filter (delayGroup width ctx · == turn.1)) round turn.2

/-- One turn after the other. -/
theorem allocate_eq (kind : ChannelMetric) (width : Nat) (ctx : AllocationContext)
    (candidates : List Rnti) (records : Rnti → Option QosRecord) :
    allocate kind width ctx candidates records =
      .ofAssignment ((turns width ctx candidates).foldl (take kind width ctx records candidates)
        (start ctx candidates)).assignment := by
  rw [turns, List.foldl_flatMap]
  simp only [List.foldl_map]
  rfl

/-- A turn comes before another one. -/
def Before (turn turn' : Nat × Nat) : Prop :=
  turn'.1 < turn.1 ∨ turn.1 = turn'.1 ∧ turn.2 < turn'.2

/-- No two turns come before each other. -/
theorem Before.asymm {turn turn' : Nat × Nat} (h : Before turn turn') : ¬Before turn' turn := by
  simp only [Before] at h ⊢
  omega

/-- No turn comes before itself. -/
theorem Before.irrefl (turn : Nat × Nat) : ¬Before turn turn := fun h => h.asymm h

/-- Each delay group has a turn at each group of the cell. -/
theorem mem_turns {group : Nat} : (group, rbg) ∈ turns width ctx candidates ↔
    group ∈ delayGroups width ctx candidates ∧ rbg < ctx.rbgs := by
  simp [turns]

/-- The turns are taken in their order. -/
theorem pairwise_turns (width : Nat) (ctx : AllocationContext) (candidates : List Rnti) :
    (turns width ctx candidates).Pairwise Before := by
  have hsorted : (delayGroups width ctx candidates).Pairwise (· > ·) := by
    have htrans : ∀ l m n : Nat, decide (l ≥ m) = true → decide (m ≥ n) = true →
        decide (l ≥ n) = true := by simp only [decide_eq_true_eq]; omega
    have htotal : ∀ m n : Nat, (decide (m ≥ n) || decide (n ≥ m)) = true := by
      simp only [Bool.or_eq_true, decide_eq_true_eq]; omega
    have hge := (List.pairwise_mergeSort htrans htotal
      (candidates.map (delayGroup width ctx))).sublist (eraseDups_sublist _)
    exact (hge.and (nodup_eraseDups _)).imp fun ⟨hge, hne⟩ =>
      lt_of_le_of_ne (of_decide_eq_true hge) hne.symm
  refine List.pairwise_flatMap.2 ⟨fun group _ => ?_, hsorted.imp fun hlt t ht t' ht' => ?_⟩
  · exact List.pairwise_map.2 (List.pairwise_lt_range.imp fun hlt => .inr ⟨rfl, hlt⟩)
  · obtain ⟨-, -, rfl⟩ := List.mem_map.1 ht
    obtain ⟨-, -, rfl⟩ := List.mem_map.1 ht'
    exact .inl hlt

/-! ## What a turn does -/

/-- An open group goes to its taker, if there is one. -/
theorem assignment_take {round : Round} {group : Nat} (hopen : round.isOpen rbg = true) :
    (take kind width ctx records candidates round (group, rbg)).assignment =
      round.assignment ++ (taker kind width ctx records candidates round
        (group, rbg)).toList.map fun r => (rbg, r) := by
  rw [take, hand, if_pos hopen, taker]
  cases winner kind ctx records (candidates.filter (delayGroup width ctx · == group)) round rbg with
  | none => simp
  | some r => rfl

/-- The taker is of the delay group whose turn it is. -/
theorem delayGroup_taker {round : Round} {turn : Nat × Nat}
    (h : taker kind width ctx records candidates round turn = some r) :
    delayGroup width ctx r = turn.1 :=
  eq_of_beq (List.mem_filter.1 (winner_iff.1 r h).1).2

/-- What turns give away, each gives to a candidate of its delay group. -/
theorem foldl_take (kind : ChannelMetric) (width : Nat) (ctx : AllocationContext)
    (records : Rnti → Option QosRecord) (candidates : List Rnti) (ts : List (Nat × Nat))
    (round : Round) :
    ∃ given, (ts.foldl (take kind width ctx records candidates) round).assignment =
        round.assignment ++ given ∧
      ∀ g ∈ given, (delayGroup width ctx g.2, g.1) ∈ ts := by
  induction ts using List.reverseRecOn with
  | nil => exact ⟨[], by simp, by simp⟩
  | append_singleton ts t ih =>
    obtain ⟨given, hgiven, hmem⟩ := ih
    rw [List.foldl_append, List.foldl_cons, List.foldl_nil]
    have hkeep : ∀ g ∈ given, (delayGroup width ctx g.2, g.1) ∈ ts ++ [t] :=
      fun g hg => List.mem_append_left _ (hmem g hg)
    obtain heq | ⟨r, hr, -, -, heq⟩ := hand_cases kind ctx records
      (candidates.filter (delayGroup width ctx · == t.1))
      (ts.foldl (take kind width ctx records candidates) round) t.2
    · exact ⟨given, by rw [take, heq, hgiven], hkeep⟩
    -- The turn gives its group away, to a member of its own delay group.
    · refine ⟨given ++ [(t.2, r)], by rw [take, heq, hgiven, List.append_assoc], ?_⟩
      refine List.forall_mem_append.2 ⟨hkeep, List.forall_mem_singleton.2 ?_⟩
      rw [eq_of_beq (List.mem_filter.1 hr).2]
      simp

/-- What is not covered of a candidate is what its groups leave. -/
def Round.Accounts (ctx : AllocationContext) (candidates : List Rnti) (round : Round) : Prop :=
  ∀ c ∈ candidates, round.uncovered[c]? =
    some (uncoveredBy ctx c ((Allocation.ofAssignment round.assignment).offer c))

/-- At the start nobody is given anything, and all that waits is uncovered. -/
theorem accounts_start (ctx : AllocationContext) (candidates : List Rnti) :
    (start ctx candidates).Accounts ctx candidates :=
  fun _ hc => getElem?_start hc

/-- What the taker gets is subtracted from what was uncovered of it, and nobody else is concerned.
-/
theorem Round.Accounts.take {round : Round} (h : round.Accounts ctx candidates)
    (turn : Nat × Nat) :
    (take kind width ctx records candidates round turn).Accounts ctx candidates := by
  rw [QosAware.take, hand]
  split
  · split
    · exact h
    next w _ =>
      intro c hc
      rw [Round.give, Table.getElem?_modify, Allocation.offer_ofAssignment, List.filter_append,
        List.map_append, ← Allocation.offer_ofAssignment]
      by_cases hw : c = w
      · subst hw
        simp [h c hc, uncoveredBy]
      · simp [hw, Ne.symm hw, h c hc]
  · exact h

/-- What no older UE got is still to be had at the turn of a delay group. -/
theorem isOpen_of_before {round : Round} {group : Nat}
    (hbefore : ∀ g ∈ round.assignment, Before (delayGroup width ctx g.2, g.1) (group, rbg))
    (hyoung : ∀ r, (rbg, r) ∈ round.assignment → delayGroup width ctx r ≤ group) :
    round.isOpen rbg = true := by
  simp only [Round.isOpen, Bool.not_eq_true', List.any_eq_false, beq_iff_eq]
  rintro ⟨_, r⟩ hg rfl
  obtain hlt | ⟨-, hlt⟩ := hbefore _ hg
  · exact Nat.not_lt.2 (hyoung r hg) hlt
  · exact Nat.lt_irrefl _ hlt

/-- At its turn a delay group finds what the turns before left, and the turns after it find what it
leaves. -/
theorem exists_round {group : Nat} (hturn : (group, rbg) ∈ turns width ctx candidates)
    (hopen : ∀ w, rbg ∈ (allocate kind width ctx candidates records).offer w →
      delayGroup width ctx w ≤ group) :
    ∃ (round : Round) (given : List (Nat × Rnti)), round.Accounts ctx candidates ∧
      allocate kind width ctx candidates records = .ofAssignment (round.assignment ++
        ((taker kind width ctx records candidates round (group, rbg)).toList.map
          (fun r => (rbg, r)) ++ given)) ∧
      (∀ g ∈ round.assignment, Before (delayGroup width ctx g.2, g.1) (group, rbg)) ∧
      ∀ g ∈ given, Before (group, rbg) (delayGroup width ctx g.2, g.1) := by
  obtain ⟨before, after, hturns⟩ := List.append_of_mem hturn
  have hordered := pairwise_turns width ctx candidates
  rw [hturns] at hordered
  obtain ⟨-, hafter, hbefore⟩ := List.pairwise_append.1 hordered
  replace hafter := (List.pairwise_cons.1 hafter).1
  let step := take kind width ctx records candidates
  let round := before.foldl step (start ctx candidates)
  obtain ⟨earlier, hearlier, hmem⟩ :=
    foldl_take kind width ctx records candidates before (start ctx candidates)
  obtain ⟨given, hgiven, hmem'⟩ :=
    foldl_take kind width ctx records candidates after (step round (group, rbg))
  have hallocate : allocate kind width ctx candidates records =
      .ofAssignment ((step round (group, rbg)).assignment ++ given) := by
    rw [allocate_eq, hturns, List.foldl_append, List.foldl_cons, ← hgiven]
  have hround : ∀ g ∈ round.assignment, Before (delayGroup width ctx g.2, g.1) (group, rbg) := by
    intro g hg
    rw [hearlier] at hg
    exact hbefore _ (hmem g hg) _ List.mem_cons_self
  have haccounts : round.Accounts ctx candidates :=
    List.foldlRecOn before step (accounts_start ctx candidates) fun _ h turn _ => h.take turn
  have hisOpen : round.isOpen rbg = true := by
    refine isOpen_of_before hround fun r hr => hopen r ?_
    -- The turn itself only adds to what was given before it.
    obtain ⟨own, hown, -⟩ := foldl_take kind width ctx records candidates [(group, rbg)] round
    have hkeep : (step round (group, rbg)).assignment = round.assignment ++ own := hown
    rw [hallocate, Allocation.mem_offer_ofAssignment, hkeep]
    exact List.mem_append_left _ (List.mem_append_left _ hr)
  refine ⟨round, given, haccounts, ?_, hround, fun g hg => hafter _ (hmem' g hg)⟩
  rw [hallocate, ← List.append_assoc, ← assignment_take hisOpen]

/-- What a member of a delay group has got before its turn at a group is what it is offered below
that group. -/
theorem offer_before {group : Nat} {earlier later : List (Nat × Rnti)}
    (hearlier : ∀ g ∈ earlier, Before (delayGroup width ctx g.2, g.1) (group, rbg))
    (hlater : ∀ g ∈ later, ¬Before (delayGroup width ctx g.2, g.1) (group, rbg))
    (hr : delayGroup width ctx r = group) :
    ((Allocation.ofAssignment (earlier ++ later)).offer r).filter (· < rbg) =
      (Allocation.ofAssignment earlier).offer r := by
  rw [Allocation.offer_ofAssignment, Allocation.offer_ofAssignment, List.filter_append,
    List.map_append, List.filter_append]
  -- What was given before the turn lies below its group.
  have hbelow : ∀ i ∈ (earlier.filter (·.2 = r)).map (·.1), decide (i < rbg) = true := by
    intro i hi
    obtain ⟨g, hg, rfl⟩ := List.mem_map.1 hi
    obtain ⟨hg, hname⟩ := List.mem_filter.1 hg
    have hbefore := hearlier g hg
    rw [of_decide_eq_true hname, hr] at hbefore
    exact decide_eq_true (hbefore.resolve_left (Nat.lt_irrefl _)).2
  -- What is given later does not, or its owner would have had a turn at it before.
  have habove : ∀ i ∈ (later.filter (·.2 = r)).map (·.1), ¬decide (i < rbg) = true := by
    intro i hi hlt
    obtain ⟨g, hg, rfl⟩ := List.mem_map.1 hi
    obtain ⟨hg, hname⟩ := List.mem_filter.1 hg
    refine hlater g hg (.inr ⟨?_, of_decide_eq_true hlt⟩)
    rw [of_decide_eq_true hname, hr]
  rw [List.filter_eq_self.2 hbelow, List.filter_eq_nil_iff.2 habove, List.append_nil]

/-- At its turn at a group that no older UE gets, a delay group hands it to the winner among its
members that may have it and need it. -/
theorem firstMax_rivals {group : Nat} (hturn : (group, rbg) ∈ turns width ctx candidates)
    (hopen : ∀ w, rbg ∈ (allocate kind width ctx candidates records).offer w →
      delayGroup width ctx w ≤ group) (w : Rnti) :
    firstMax ((rivals width ctx candidates (allocate kind width ctx candidates records) group
        rbg).map fun c => (c, metric kind ctx (records c) c rbg)) = some w ↔
      rbg ∈ (allocate kind width ctx candidates records).offer w ∧
        delayGroup width ctx w = group := by
  obtain ⟨round, given, haccounts, hallocate, hbefore, hafter⟩ := exists_round hturn hopen
  have hlater : ∀ g ∈ (taker kind width ctx records candidates round (group, rbg)).toList.map
      (fun r => (rbg, r)) ++ given, ¬Before (delayGroup width ctx g.2, g.1) (group, rbg) := by
    refine List.forall_mem_append.2 ⟨fun g hg => ?_, fun g hg => (hafter g hg).asymm⟩
    obtain ⟨r, hr, rfl⟩ := List.mem_map.1 hg
    rw [delayGroup_taker (Option.mem_toList.1 hr)]
    exact Before.irrefl _
  -- What a member of the delay group needs at its turn is what it lacks by the finished allocation.
  have hneeds : ∀ c ∈ candidates, delayGroup width ctx c = group →
      round.needs c = decide (Lacks ctx (allocate kind width ctx candidates records) rbg c) := by
    intro c hc hgroup
    rw [Round.needs, Std.ExtTreeMap.getD_eq_getD_getElem?, haccounts c hc,
      ← offer_before hbefore hlater hgroup, ← hallocate]
    rfl
  have hrivals : rivals width ctx candidates (allocate kind width ctx candidates records) group
      rbg = (candidates.filter (delayGroup width ctx · == group)).filter fun c =>
        round.needs c && ctx.allowed rbg c := by
    rw [rivals_eq, List.filter_filter]
    refine List.filter_congr fun c hc => ?_
    by_cases hgroup : delayGroup width ctx c = group
    · simp [hgroup, hneeds c hc hgroup, Bool.and_comm]
    · simp [hgroup]
  rw [hrivals]
  change taker kind width ctx records candidates round (group, rbg) = some w ↔ _
  rw [hallocate, Allocation.mem_offer_ofAssignment]
  constructor
  · intro hw
    exact ⟨by simp [hw], delayGroup_taker hw⟩
  · -- Neither the turns before nor those after give this group to this delay group.
    rintro ⟨hmem, rfl⟩
    rw [List.mem_append, List.mem_append] at hmem
    obtain hmem | hmem | hmem := hmem
    · exact absurd (hbefore _ hmem) (Before.irrefl _)
    · obtain ⟨r, hr, heq⟩ := List.mem_map.1 hmem
      obtain rfl := (Prod.mk.inj heq).2
      exact Option.mem_toList.1 hr
    · exact absurd (hafter _ hmem) (Before.irrefl _)

/-- Who gets a group is the winner among those of its delay group that may have it and need it. -/
theorem firstMax_of_mem_offer {w : Rnti}
    (hw : rbg ∈ (allocate kind width ctx candidates records).offer w) :
    firstMax ((rivals width ctx candidates (allocate kind width ctx candidates records)
      (delayGroup width ctx w) rbg).map fun c => (c, metric kind ctx (records c) c rbg)) =
        some w := by
  have hshares := shares_allocate kind width ctx candidates records
  have hturn : (delayGroup width ctx w, rbg) ∈ turns width ctx candidates :=
    mem_turns.2 ⟨delayGroup_mem (hshares.named w (List.ne_nil_of_mem hw)),
      AllocationContext.lt_of_allowed (hshares.allowed w rbg hw)⟩
  refine (firstMax_rivals hturn (fun w' hw' => ?_) w).2 ⟨hw, rfl⟩
  rw [hshares.eq_of_mem hw' hw]

/-- The rivals, by the delay group of the policy. -/
theorem mem_rivals {c : Rnti} {group : Nat} : c ∈ rivals width ctx candidates a group rbg ↔
    c ∈ candidates ∧ delayGroup width ctx c = group ∧ ctx.allowed rbg c = true ∧
      Lacks ctx a rbg c := by
  rw [rivals_eq, List.mem_filter, decide_eq_true_iff]

/-- Whoever gets a group is among its rivals. -/
theorem rival_of_mem_offer {w : Rnti}
    (hw : rbg ∈ (allocate kind width ctx candidates records).offer w) :
    w ∈ rivals width ctx candidates (allocate kind width ctx candidates records)
      (delayGroup width ctx w) rbg := by
  obtain ⟨m, hm⟩ := mem_of_firstMax (firstMax_of_mem_offer hw)
  obtain ⟨c, hc, heq⟩ := List.mem_map.1 hm
  exact (Prod.mk.inj heq).1 ▸ hc

/-- A UE that might have had a group which goes to a younger UE or to nobody had got enough. -/
theorem enough_of_young {c : Rnti} (hc : c ∈ candidates) (hallowed : ctx.allowed rbg c = true)
    (hyoung : ∀ w, rbg ∈ (allocate kind width ctx candidates records).offer w →
      delayGroup width ctx w < delayGroup width ctx c) :
    ¬Lacks ctx (allocate kind width ctx candidates records) rbg c ∧
      ∀ i ∈ (allocate kind width ctx candidates records).offer c, i < rbg := by
  set a := allocate kind width ctx candidates records
  have hturn : (delayGroup width ctx c, rbg) ∈ turns width ctx candidates :=
    mem_turns.2 ⟨delayGroup_mem hc, AllocationContext.lt_of_allowed hallowed⟩
  have henough : ¬Lacks ctx a rbg c := by
    intro hlacks
    have hrival : c ∈ rivals width ctx candidates a (delayGroup width ctx c) rbg :=
      mem_rivals.2 ⟨hc, rfl, hallowed, hlacks⟩
    obtain ⟨w, hw⟩ := exists_firstMax (List.ne_nil_of_mem (List.mem_map_of_mem hrival))
    obtain ⟨hoffer, hgroup⟩ := (firstMax_rivals hturn (fun w hw => (hyoung w hw).le) w).1 hw
    exact (hyoung w hoffer).ne hgroup
  refine ⟨henough, ?_⟩
  by_contra! habove
  -- The lowest group above that the UE got would be one it still needed, with no more than here.
  let i := Nat.find habove
  obtain ⟨hi, hle⟩ := Nat.find_spec habove
  have hlacks := (mem_rivals.1 (rival_of_mem_offer hi)).2.2.2
  have hsame : (a.offer c).filter (· < i) = (a.offer c).filter (· < rbg) := by
    refine List.filter_congr fun j hj => decide_eq_decide.2 ⟨fun hlt => ?_, fun hlt => ?_⟩
    · by_contra hge
      exact Nat.find_min habove hlt ⟨hj, Nat.le_of_not_lt hge⟩
    · exact Nat.lt_of_lt_of_le hlt hle
  rw [Lacks, hsame] at hlacks
  exact henough hlacks

end QosAware

/-- The policy that looks at the delay serves the most delayed first, whatever the context: which
groups are free, what the reuse policy allows, what waits and for how long, how good the channels
are, and what the records of the UEs hold. -/
theorem Policy.mostDelayedFirst_cqa (kind : ChannelMetric) (width : Nat) (ctx : AllocationContext)
    (candidates : List Rnti) (records : Rnti → Option QosRecord) :
    QosAware.MostDelayedFirst kind width ctx candidates records
      ((Policy.cqa kind width).allocate ctx candidates records) where
  senior rbg w hw c hc hallowed holder := by
    refine QosAware.enough_of_young hc hallowed fun w' hw' => ?_
    rwa [(QosAware.shares_allocate kind width ctx candidates records).eq_of_mem hw' hw]
  unassigned rbg hnobody c hc hallowed :=
    QosAware.enough_of_young hc hallowed fun w hw => absurd hw (hnobody w)
  rival _ _ hw := QosAware.rival_of_mem_offer hw
  first _ _ hw hnumber :=
    exists_split_of_firstMax hnumber (QosAware.firstMax_of_mem_offer hw)

namespace QosAware

/-! ## Two ages and one group

One group is free and two UEs may have it. The first in turn has waited for five milliseconds and
has the better channel, the second for twenty-five milliseconds. -/

/-- The channel of the first UE is good, nothing is known about that of the second. -/
def contended : AllocationContext where
  rbgSize := 2
  window := 99.0
  free := [true]
  reuse := .full 1 6
  quality := (DownlinkQuality.empty 1000).reportWideband 1 15
  layers _ := 1
  queues r := [⟨100, if r = 1 then 5 else 25, 0, 0, 0⟩]

/-- Before the first group nothing is covered yet. -/
theorem lacks_first (ctx : AllocationContext) (a : Allocation) (r : Rnti) : Lacks ctx a 0 r := by
  have hnone : (a.offer r).filter (· < 0) = [] :=
    List.filter_eq_nil_iff.2 fun i _ => by simp
  rw [Lacks, hnone]
  exact floatMax_one_pos _

/-- With delay groups of ten milliseconds the group goes to the UE that waited longer, though the
other one comes first and would have the better metric. -/
theorem mostDelayedFirst_contended :
    contended.headDelay 1 / max 10 1 < contended.headDelay 2 / max 10 1 ∧
      metric .proportionalFair contended none 2 0 < metric .proportionalFair contended none 1 0 ∧
      0 ∉ ((Policy.cqa .proportionalFair 10).allocate contended [1, 2] fun _ => none).offer 1 ∧
      0 ∈ ((Policy.cqa .proportionalFair 10).allocate contended [1, 2] fun _ => none).offer 2 := by
  have hfirst := Policy.mostDelayedFirst_cqa .proportionalFair 10 contended [1, 2] fun _ => none
  set a := (Policy.cqa .proportionalFair 10).allocate contended [1, 2] fun _ => none
  have hage : contended.headDelay 1 / max 10 1 < contended.headDelay 2 / max 10 1 := by decide
  have hallowed : contended.allowed 0 2 = true := by decide
  have hlacks := lacks_first contended a 2
  -- The group is not given to the younger UE,
  have hone : 0 ∉ a.offer 1 := fun hmem =>
    (hfirst.senior 0 1 hmem 2 (by simp) hallowed hage).1 hlacks
  -- nor to nobody, and there are no others.
  have htwo : 0 ∈ a.offer 2 := by
    by_contra hnot
    refine (hfirst.unassigned 0 (fun w hw => ?_) 2 (by simp) hallowed).1 hlacks
    obtain ⟨hw', -⟩ := mem_rivals.1 (hfirst.rival 0 w hw)
    simp only [List.mem_cons, List.not_mem_nil, or_false] at hw'
    rcases hw' with rfl | rfl
    · exact hone hw
    · exact hnot hw
  exact ⟨hage, by decide +kernel, hone, htwo⟩

end QosAware

end LteMac
