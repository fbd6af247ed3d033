import LteMac.Policy.Choice
import LteMac.Proofs.Numeric.Order
import LteMac.Proofs.Radio.Table
import Mathlib.Data.List.Induction
import Mathlib.Data.List.Nodup

/-!
# Sharing the free groups

What every policy owes to the cell, whatever it ranks the candidates by: a group is offered to one
candidate at most, that candidate may have it, and something is offered as soon as somebody may have
something (`AllocationContext.Shares`). Metrics that are not numbers do no harm, because the largest
of some metrics is always the metric of one of them.

The policies answer in two ways. One of them offers all it can to a single UE. The others give
groups away one by one, and have in common that the groups which were given away make an assignment:
no group twice, each to a candidate that may have it (`Assigns`). Two of them go through the groups
of the cell in turn and find a winner for each (`ByTurns`); so for these it is enough to say what
the winner of a turn is.

The policy with delay groups also goes through the groups, but hands one out only as long as
somebody in the delay group still needs something. For it the last clause of `Shares` is the
delicate one: it has to be shown that at least one group is handed out, and this is so because in
the beginning every candidate needs something, if only by the lower bound of one byte.

* `AllocationContext.Shares.of_assigns`: an answer given group by group;
* `Algorithm.shares_policy`: the policies of all algorithms share the free groups.
-/

namespace LteMac

/-! ## The largest metric

The fold that looks for the largest metric keeps the first item it sees, and replaces it by one that
compares greater. It never ends without an item, whatever the comparisons say.
-/

section FirstMax

variable {α : Type} {a : α} {items : List (α × Float)}

/-- The item that is found is one of those given. -/
theorem mem_of_firstMax (h : firstMax items = some a) : ∃ m, (a, m) ∈ items := by
  obtain ⟨b, hb, rfl⟩ := Option.map_eq_some_iff.1 h
  clear h
  induction items using List.reverseRecOn generalizing b with
  | nil => cases hb
  | append_singleton rest item ih =>
    rw [List.foldl_append, List.foldl_cons, List.foldl_nil] at hb
    split at hb
    next best hbest =>
      split at hb
      · obtain ⟨m, hm⟩ := ih b (hbest.trans hb)
        exact ⟨m, List.mem_append_left _ hm⟩
      · obtain rfl := Option.some.inj hb
        exact ⟨item.2, by simp⟩
    next =>
      obtain rfl := Option.some.inj hb
      exact ⟨item.2, by simp⟩

/-- Of some items, one has the largest metric. -/
theorem exists_firstMax (h : items ≠ []) : ∃ a, firstMax items = some a := by
  refine Option.isSome_iff_exists.1 ?_
  induction items using List.reverseRecOn with
  | nil => exact absurd rfl h
  | append_singleton rest item =>
    rw [firstMax, List.foldl_append, List.foldl_cons, List.foldl_nil, Option.isSome_map]
    split
    · split <;> rfl
    · rfl

end FirstMax

/-! ## Allocations -/

/-- The groups that an allocation offers to a UE. -/
def Allocation.offer (a : Allocation) (r : Rnti) : List Nat := a.getD r []

variable {ctx : AllocationContext} {candidates : List Rnti} {a : Allocation} {r r' : Rnti}

namespace AllocationContext

/-- An allocation shares the free groups among candidates. -/
structure Shares (ctx : AllocationContext) (candidates : List Rnti) (a : Allocation) : Prop where
  /-- No group is offered to a UE twice. -/
  nodup : ∀ r, (a.offer r).Nodup
  /-- Only candidates are offered any. -/
  named : ∀ r, a.offer r ≠ [] → r ∈ candidates
  /-- A UE is offered what it may have. -/
  allowed : ∀ r, ∀ i ∈ a.offer r, ctx.allowed i r = true
  /-- No group is offered to two UEs. -/
  apart : ∀ r r', r ≠ r' → (a.offer r).Disjoint (a.offer r')
  /-- Something is offered to somebody, if somebody may have something. -/
  conserves : ∀ i, ∀ r ∈ candidates, ctx.allowed i r = true → ∃ r', a.offer r' ≠ []

/-- A group is offered to one UE at most. -/
theorem Shares.eq_of_mem (h : ctx.Shares candidates a) {i : Nat} (hr : i ∈ a.offer r)
    (hr' : i ∈ a.offer r') : r = r' := by
  by_contra hne
  exact h.apart r r' hne hr hr'

/-- Groups that are assigned one after the other, each to a candidate that may have it. -/
structure Assigns (ctx : AllocationContext) (candidates : List Rnti)
    (assignment : List (Nat × Rnti)) : Prop where
  /-- No group is assigned twice. -/
  nodup : (assignment.map (·.1)).Nodup
  /-- Only candidates are assigned any. -/
  named : ∀ g ∈ assignment, g.2 ∈ candidates
  /-- A candidate is assigned what it may have. -/
  allowed : ∀ g ∈ assignment, ctx.allowed g.1 g.2 = true

/-- A group that a UE may have is one of the cell. -/
theorem lt_of_allowed {i : Nat} (h : ctx.allowed i r = true) : i < ctx.rbgs := by
  have hfree := (Bool.and_eq_true_iff.1 h).1
  by_contra hout
  rw [flagAt, List.getD_eq_getElem?_getD, List.getElem?_eq_none (Nat.not_lt.1 hout)] at hfree
  cases hfree

/-- The groups that a UE may have. -/
theorem mem_allowedRbgs {i : Nat} : i ∈ ctx.allowedRbgs r ↔ ctx.allowed i r = true := by
  rw [allowedRbgs, List.mem_filter, List.mem_range]
  exact and_iff_right_of_imp lt_of_allowed

namespace Assigns

variable {assignment : List (Nat × Rnti)}

/-- Nothing is assigned yet. -/
theorem nil : ctx.Assigns candidates [] := ⟨.nil, by simp, by simp⟩

/-- One more group, to a candidate that may have it. -/
theorem give (h : ctx.Assigns candidates assignment) {i : Nat}
    (hnew : i ∉ assignment.map (·.1)) (hr : r ∈ candidates) (hallowed : ctx.allowed i r = true) :
    ctx.Assigns candidates (assignment ++ [(i, r)]) where
  nodup := by
    rw [List.map_append, List.map_singleton, ← List.concat_eq_append]
    exact h.nodup.concat hnew
  named := List.forall_mem_append.2 ⟨h.named, by simpa using hr⟩
  allowed := List.forall_mem_append.2 ⟨h.allowed, by simpa using hallowed⟩

end Assigns

end AllocationContext

/-- What is offered to a UE are the groups assigned to it. -/
theorem Allocation.offer_ofAssignment (assignment : List (Nat × Rnti)) (r : Rnti) :
    (Allocation.ofAssignment assignment).offer r =
      (assignment.filter (·.2 = r)).map (·.1) := by
  induction assignment using List.reverseRecOn with
  | nil => simp [ofAssignment, offer]
  | append_singleton rest g ih =>
    have hgive : ofAssignment (rest ++ [g]) = (ofAssignment rest).give g.1 g.2 := by
      simp [ofAssignment]
    rw [offer, Std.ExtTreeMap.getD_eq_getD_getElem?] at ih ⊢
    rw [hgive, give, Table.getElem?_alter, List.filter_append, List.map_append, ← ih]
    by_cases hr : r = g.2
    · simp [hr]
    · simp [hr, Ne.symm hr]

/-- An answer given group by group. -/
theorem AllocationContext.Shares.of_assigns {assignment : List (Nat × Rnti)}
    (h : ctx.Assigns candidates assignment)
    (hne : ∀ i, ∀ r ∈ candidates, ctx.allowed i r = true → assignment ≠ []) :
    ctx.Shares candidates (.ofAssignment assignment) where
  nodup r := by
    rw [Allocation.offer_ofAssignment]
    exact h.nodup.sublist (List.filter_sublist.map _)
  named r hr := by
    rw [Allocation.offer_ofAssignment] at hr
    obtain ⟨i, hi⟩ := List.exists_mem_of_ne_nil _ hr
    obtain ⟨g, hg, -⟩ := List.mem_map.1 hi
    obtain ⟨hg, hname⟩ := List.mem_filter.1 hg
    exact of_decide_eq_true hname ▸ h.named g hg
  allowed r i hi := by
    rw [Allocation.offer_ofAssignment] at hi
    obtain ⟨g, hg, rfl⟩ := List.mem_map.1 hi
    obtain ⟨hg, hname⟩ := List.mem_filter.1 hg
    exact of_decide_eq_true hname ▸ h.allowed g hg
  -- A group is assigned once, so it has one owner.
  apart r r' hne i hi hi' := by
    rw [Allocation.offer_ofAssignment] at hi hi'
    obtain ⟨g, hg, rfl⟩ := List.mem_map.1 hi
    obtain ⟨g', hg', heq⟩ := List.mem_map.1 hi'
    obtain ⟨hg, hname⟩ := List.mem_filter.1 hg
    obtain ⟨hg', hname'⟩ := List.mem_filter.1 hg'
    obtain rfl := List.inj_on_of_nodup_map h.nodup hg' hg heq
    exact hne ((of_decide_eq_true hname).symm.trans (of_decide_eq_true hname'))
  -- Something is assigned, and whoever it is assigned to is offered it.
  conserves i r hr hallowed := by
    obtain ⟨g, hg⟩ := List.exists_mem_of_ne_nil _ (hne i r hr hallowed)
    refine ⟨g.2, ?_⟩
    rw [Allocation.offer_ofAssignment]
    exact List.ne_nil_of_mem (List.mem_map_of_mem (List.mem_filter.2 ⟨hg, decide_eq_true rfl⟩))

/-- The groups of the cell have their turns, each with a winner if somebody may have it: what is
assigned once the groups below `n` had theirs. -/
structure AllocationContext.Turns (ctx : AllocationContext) (candidates : List Rnti)
    (assigned : Nat → List (Nat × Rnti)) (winner : Nat → Option Rnti) : Prop where
  /-- Nothing is assigned at first. -/
  start : assigned 0 = []
  /-- The turn of a group assigns it to the winner, if there is one. -/
  turn : ∀ n, assigned (n + 1) = assigned n ++ (winner n).toList.map fun r => (n, r)
  /-- The winner is a candidate that may have the group. -/
  may : ∀ n r, winner n = some r → r ∈ candidates ∧ ctx.allowed n r = true
  /-- There is a winner if there is such a candidate. -/
  won : ∀ n, ∀ r ∈ candidates, ctx.allowed n r = true → ∃ r', winner n = some r'

/-- An allocation that gives the groups of the cell away in turn. -/
def AllocationContext.ByTurns (ctx : AllocationContext) (candidates : List Rnti)
    (a : Allocation) : Prop :=
  ∃ assigned winner, ctx.Turns candidates assigned winner ∧ a = .ofAssignment (assigned ctx.rbgs)

/-- The groups of the cell in turn, each to a winner, if it has one. -/
theorem AllocationContext.ByTurns.shares (h : ctx.ByTurns candidates a) :
    ctx.Shares candidates a := by
  obtain ⟨assigned, winner, ⟨hstart, hturn, hwinner, hsome⟩, rfl⟩ := h
  -- After each turn: what was assigned is proper, it lies below the next group, and it is not empty
  -- if somebody could have had one of the groups so far.
  have hassigns : ∀ n, ctx.Assigns candidates (assigned n) ∧
      (∀ i ∈ (assigned n).map (·.1), i < n) ∧
      ∀ i < n, ∀ r ∈ candidates, ctx.allowed i r = true → assigned n ≠ [] := by
    intro n
    induction n with
    | zero =>
      rw [hstart]
      exact ⟨.nil, by simp, by simp⟩
    | succ n ih =>
      obtain ⟨hassigns, hlt, hne⟩ := ih
      rw [hturn]
      cases hw : winner n with
      | none =>
        rw [Option.toList_none, List.map_nil, List.append_nil]
        refine ⟨hassigns, fun i hi => Nat.lt_succ_of_lt (hlt i hi), fun i hi r hr hallowed => ?_⟩
        rcases Nat.lt_succ_iff_lt_or_eq.1 hi with hi | rfl
        · exact hne i hi r hr hallowed
        · obtain ⟨r', hr'⟩ := hsome i r hr hallowed
          rw [hw] at hr'
          cases hr'
      | some r =>
        obtain ⟨hr, hallowed⟩ := hwinner n r hw
        refine ⟨hassigns.give (fun hn => Nat.lt_irrefl n (hlt n hn)) hr hallowed, ?_, ?_⟩
        · rw [List.map_append]
          exact List.forall_mem_append.2 ⟨fun i hi => Nat.lt_succ_of_lt (hlt i hi), by simp⟩
        · simp
  obtain ⟨hassigns, -, hne⟩ := hassigns ctx.rbgs
  exact .of_assigns hassigns fun i r hr hallowed =>
    hne i (AllocationContext.lt_of_allowed hallowed) r hr hallowed

/-! ## Equal throughput -/

namespace TimeDomain

/-- A UE is eligible if it is a candidate that may have something. -/
theorem mem_eligible {e : Rnti × List Nat} : e ∈ eligible ctx candidates ↔
    e.1 ∈ candidates ∧ e.2 = ctx.allowedRbgs e.1 ∧ ctx.allowedRbgs e.1 ≠ [] := by
  obtain ⟨r, rbgs⟩ := e
  simp only [eligible, List.mem_filter, List.mem_map, Prod.mk.injEq, Bool.not_eq_true',
    List.isEmpty_eq_false_iff]
  constructor
  · rintro ⟨⟨r, hr, rfl, rfl⟩, hne⟩
    exact ⟨hr, rfl, hne⟩
  · rintro ⟨hr, rfl, hne⟩
    exact ⟨⟨r, hr, rfl, rfl⟩, hne⟩

/-- The winner is a candidate that may have something. -/
theorem of_winner {records : Rnti → Option Throughput}
    (h : winner (eligible ctx candidates) records = some r) :
    r ∈ candidates ∧ ctx.allowedRbgs r ≠ [] := by
  obtain ⟨m, hm⟩ := mem_of_firstMax h
  obtain ⟨e, he, heq⟩ := List.mem_map.1 hm
  obtain ⟨rfl, -⟩ := Prod.mk.inj heq
  obtain ⟨hr, -, hne⟩ := mem_eligible.1 he
  exact ⟨hr, hne⟩

/-- If a candidate may have something, one of them wins. -/
theorem exists_winner (records : Rnti → Option Throughput) (hr : r ∈ candidates)
    (hne : ctx.allowedRbgs r ≠ []) : ∃ w, winner (eligible ctx candidates) records = some w := by
  have hmem : (r, ctx.allowedRbgs r) ∈ eligible ctx candidates := mem_eligible.2 ⟨hr, rfl, hne⟩
  exact exists_firstMax (List.ne_nil_of_mem (List.mem_map_of_mem hmem))

/-- The winner is offered all it may have, and nobody else anything. -/
theorem offer_allocate (ctx : AllocationContext) (candidates : List Rnti)
    (records : Rnti → Option Throughput) (r : Rnti) :
    (allocate ctx candidates records).offer r =
      if winner (eligible ctx candidates) records = some r then ctx.allowedRbgs r else [] := by
  -- Every entry that is kept is all that its UE may have.
  have hvalues : ∀ e ∈ (eligible ctx candidates).filter fun e =>
      some e.1 == winner (eligible ctx candidates) records, e.2 = ctx.allowedRbgs e.1 :=
    fun e he => (mem_eligible.1 (List.mem_filter.1 he).1).2.1
  rw [Allocation.offer, Std.ExtTreeMap.getD_eq_getD_getElem?, allocate,
    Table.getElem?_foldl_insert hvalues]
  cases hw : winner (eligible ctx candidates) records with
  | none => simp
  | some w =>
    by_cases hr : w = r
    · obtain ⟨hcandidate, hne⟩ := of_winner hw
      rw [if_pos, if_pos (congrArg some hr)]
      · rfl
      · refine List.mem_map.2 ⟨(w, ctx.allowedRbgs w), List.mem_filter.2 ⟨?_, ?_⟩, hr⟩
        · exact mem_eligible.2 ⟨hcandidate, rfl, hne⟩
        · simp
    · rw [if_neg, if_neg (mt Option.some.inj hr)]
      · rfl
      · intro hmem
        obtain ⟨e, he, rfl⟩ := List.mem_map.1 hmem
        have := (List.mem_filter.1 he).2
        simp [Ne.symm hr] at this

/-- The winner takes all it may have. -/
theorem shares_allocate (ctx : AllocationContext) (candidates : List Rnti)
    (records : Rnti → Option Throughput) :
    ctx.Shares candidates (allocate ctx candidates records) := by
  have hoffer := offer_allocate ctx candidates records
  -- Only the winner is offered anything.
  have hwins : ∀ {r}, (allocate ctx candidates records).offer r ≠ [] →
      winner (eligible ctx candidates) records = some r := by
    intro r hr
    by_contra hlost
    rw [hoffer, if_neg hlost] at hr
    exact hr rfl
  refine ⟨fun r => ?_, fun r hr => (of_winner (hwins hr)).1, fun r i hi => ?_,
    fun r r' hne i hi hi' => ?_, fun i r hr hallowed => ?_⟩
  · rw [hoffer]
    split
    · exact List.nodup_range.filter _
    · exact .nil
  · have hwin := hwins (List.ne_nil_of_mem hi)
    rw [hoffer, if_pos hwin] at hi
    exact AllocationContext.mem_allowedRbgs.1 hi
  · have hwin := hwins (List.ne_nil_of_mem hi)
    exact hne (Option.some.inj (hwin.symm.trans (hwins (List.ne_nil_of_mem hi'))))
  -- Somebody is eligible, so somebody wins.
  · obtain ⟨w, hw⟩ := exists_winner records hr
      (List.ne_nil_of_mem (AllocationContext.mem_allowedRbgs.2 hallowed))
    refine ⟨w, ?_⟩
    rw [hoffer, if_pos hw]
    exact (of_winner hw).2

end TimeDomain

/-- The winner of a ranking among those who may have a group is one of them, and there is one if
somebody may have it. -/
theorem winner_iff {members : List Rnti} {may : Rnti → Bool} {metric : Rnti → Float} :
    (∀ r, firstMax ((members.filter may).map fun r => (r, metric r)) = some r →
      r ∈ members ∧ may r = true) ∧
    ∀ r ∈ members, may r = true →
      ∃ r', firstMax ((members.filter may).map fun r => (r, metric r)) = some r' := by
  refine ⟨fun r hr => ?_, fun r hr hmay => exists_firstMax ?_⟩
  · obtain ⟨m, hm⟩ := mem_of_firstMax hr
    obtain ⟨r', hr', heq⟩ := List.mem_map.1 hm
    obtain ⟨rfl, -⟩ := Prod.mk.inj heq
    exact List.mem_filter.1 hr'
  · exact List.ne_nil_of_mem (List.mem_map_of_mem (List.mem_filter.2 ⟨hr, hmay⟩))

/-- Each group goes to the candidate that is furthest behind with what the groups before have
brought it. -/
theorem FrequencyDomain.byTurns_allocate (ctx : AllocationContext) (candidates : List Rnti)
    (records : Rnti → Option Throughput) :
    ctx.ByTurns candidates (allocate ctx candidates records) := by
  -- What is given so far decides the winner of the next group.
  let round (n : Nat) : Round := (List.range n).foldl (hand ctx candidates records) ⟨∅, []⟩
  refine ⟨fun n => (round n).assignment, fun n => winner ctx candidates records (round n) n,
    ⟨rfl, fun n => ?_, fun n => winner_iff.1, fun n => winner_iff.2⟩, rfl⟩
  have hround : round (n + 1) = hand ctx candidates records (round n) n := by
    simp [round, List.range_succ]
  rw [hround, hand]
  cases winner ctx candidates records (round n) n with
  | none => simp
  | some r => rfl

/-- Each group goes to the candidate for which it is best in relation to the carrier. -/
theorem ThroughputToAverage.byTurns_allocate (ctx : AllocationContext) (candidates : List Rnti) :
    ctx.ByTurns candidates (allocate ctx candidates) := by
  refine ⟨fun n => (List.range n).filterMap fun rbg =>
      (winner ctx candidates rbg).map fun r => (rbg, r), winner ctx candidates,
    ⟨rfl, fun n => ?_, fun n => winner_iff.1, fun n => winner_iff.2⟩, rfl⟩
  rw [List.range_succ, List.filterMap_append]
  cases hw : winner ctx candidates n with
  | none => simp [hw]
  | some r => simp [hw]

/-! ## Channel and QoS aware scheduling -/

/-- What is at least one is positive. -/
theorem floatMax_one_pos (x : Float) : floatMax x 1.0 > 0.0 := by
  have hone : (0.0 : Float) < 1.0 := by decide +kernel
  unfold floatMax
  split
  · exact hone
  next hnumber =>
    split
    · exact hone
    next hle => exact pos_of_one_le (Bool.eq_false_iff.2 hnumber) hle

section Folds

variable {σ ι : Type} {f : σ → ι → σ} {start : σ} {P : σ → Prop} {a : ι} {xs : List ι}

/-- A fold that leaves its start reaches `P`, if the first step that leaves it does. -/
theorem foldl_eq_or (hkeep : ∀ s b, P s → P (f s b))
    (hstay : ∀ b, f start b = start ∨ P (f start b)) :
    xs.foldl f start = start ∨ P (xs.foldl f start) := by
  induction xs using List.reverseRecOn with
  | nil => exact .inl rfl
  | append_singleton xs b ih =>
    rw [List.foldl_append, List.foldl_cons, List.foldl_nil]
    rcases ih with heq | hP
    · rw [heq]
      exact hstay b
    · exact .inr (hkeep _ b hP)

/-- A fold keeps what each of its steps keeps. -/
theorem foldl_keeps (hkeep : ∀ s b, P s → P (f s b)) {s : σ} (h : P s) : P (xs.foldl f s) :=
  List.foldlRecOn xs f h fun s hs b _ => hkeep s b hs

/-- It does leave its start if one step would. -/
theorem foldl_reaches (hkeep : ∀ s b, P s → P (f s b))
    (hstay : ∀ b, f start b = start ∨ P (f start b)) (ha : a ∈ xs) (hreach : P (f start a)) :
    P (xs.foldl f start) := by
  obtain ⟨before, after, rfl⟩ := List.append_of_mem ha
  rw [List.foldl_append, List.foldl_cons]
  refine foldl_keeps hkeep ?_
  rcases foldl_eq_or hkeep hstay with heq | hP
  · rw [heq]
    exact hreach
  · exact hkeep _ a hP

end Folds

namespace QosAware

variable {kind : ChannelMetric} {width : Nat} {records : Rnti → Option QosRecord}
  {members : List Rnti} {round : Round}

/-- A group is handed to a member that needs it and may have it, or to nobody. -/
theorem hand_cases (kind : ChannelMetric) (ctx : AllocationContext)
    (records : Rnti → Option QosRecord) (members : List Rnti) (round : Round) (rbg : Nat) :
    hand kind ctx records members round rbg = round ∨
      ∃ r ∈ members, ctx.allowed rbg r = true ∧ rbg ∉ round.assignment.map (·.1) ∧
        (hand kind ctx records members round rbg).assignment =
          round.assignment ++ [(rbg, r)] := by
  unfold hand
  split
  next hopen =>
    cases hw : winner kind ctx records members round rbg with
    | none => exact .inl rfl
    | some r =>
      obtain ⟨hr, hmay⟩ := winner_iff.1 r hw
      refine .inr ⟨r, hr, (Bool.and_eq_true_iff.1 hmay).2, ?_, rfl⟩
      intro hmem
      obtain ⟨g, hg, rfl⟩ := List.mem_map.1 hmem
      have hother : ∀ g' ∈ round.assignment, g'.1 ≠ g.1 := by simpa [Round.isOpen] using hopen
      exact hother g hg rfl
  · exact .inl rfl

/-- The delay group of a candidate is served. -/
theorem delayGroup_mem (hr : r ∈ candidates) :
    delayGroup width ctx r ∈ delayGroups width ctx candidates := by
  rw [delayGroups, List.mem_eraseDups, List.mem_mergeSort]
  exact List.mem_map_of_mem hr

/-- In the beginning nothing is covered of what waits for a candidate. -/
theorem getElem?_start (hr : r ∈ candidates) : (start ctx candidates).uncovered[r]? =
    some (floatMax (Float.ofNat (ctx.bufferedBytes r)) 1.0) := by
  have huncovered : (start ctx candidates).uncovered[r]? = if r ∈ candidates.map fun r => r then
      some (floatMax (Float.ofNat (ctx.bufferedBytes r)) 1.0) else none :=
    Table.getElem?_foldl_insert fun _ _ => rfl
  rw [huncovered, if_pos (by simpa using hr)]

/-- In the beginning every candidate needs something. -/
theorem needs_start (hr : r ∈ candidates) : (start ctx candidates).needs r = true := by
  rw [Round.needs, Std.ExtTreeMap.getD_eq_getD_getElem?, getElem?_start hr]
  exact decide_eq_true (floatMax_one_pos _)

/-- To hand out a group keeps an assignment proper. -/
theorem assigns_hand (hmembers : ∀ r ∈ members, r ∈ candidates)
    (h : ctx.Assigns candidates round.assignment) (rbg : Nat) :
    ctx.Assigns candidates (hand kind ctx records members round rbg).assignment := by
  obtain heq | ⟨r, hr, hallowed, hnew, heq⟩ := hand_cases kind ctx records members round rbg
  · rwa [heq]
  · rw [heq]
    exact h.give hnew (hmembers r hr) hallowed

/-- Handing out a group takes none back. -/
theorem ne_nil_hand (h : round.assignment ≠ []) (rbg : Nat) :
    (hand kind ctx records members round rbg).assignment ≠ [] := by
  obtain heq | ⟨r, -, -, -, heq⟩ := hand_cases kind ctx records members round rbg
  · rwa [heq]
  · rw [heq]
    exact List.append_ne_nil_of_left_ne_nil h _

/-- Either a group was not handed out, or something is assigned. -/
theorem hand_eq_or (rbg : Nat) : hand kind ctx records members round rbg = round ∨
    (hand kind ctx records members round rbg).assignment ≠ [] := by
  obtain heq | ⟨r, -, -, -, heq⟩ := hand_cases kind ctx records members round rbg
  · exact .inl heq
  · rw [heq]
    exact .inr (List.append_ne_nil_of_right_ne_nil _ (List.cons_ne_nil _ _))

/-- The first group that somebody may have is handed out. -/
theorem ne_nil_hand_start {rbg : Nat} (hmembers : ∀ r ∈ members, r ∈ candidates)
    (hr : r ∈ members) (hallowed : ctx.allowed rbg r = true) :
    (hand kind ctx records members (start ctx candidates) rbg).assignment ≠ [] := by
  obtain ⟨w, hw⟩ : ∃ w, winner kind ctx records members (start ctx candidates) rbg = some w :=
    winner_iff.2 r hr (Bool.and_eq_true_iff.2 ⟨needs_start (hmembers r hr), hallowed⟩)
  have hopen : (start ctx candidates).isOpen rbg = true := rfl
  rw [hand, if_pos hopen, hw]
  exact List.append_ne_nil_of_right_ne_nil _ (List.cons_ne_nil _ _)

/-- Delay group by delay group, every group of the cell is handed out or not. -/
theorem shares_allocate (kind : ChannelMetric) (width : Nat) (ctx : AllocationContext)
    (candidates : List Rnti) (records : Rnti → Option QosRecord) :
    ctx.Shares candidates (allocate kind width ctx candidates records) := by
  have hmembers : ∀ group, ∀ r ∈ candidates.filter (delayGroup width ctx · == group),
      r ∈ candidates := fun _ _ hr => (List.mem_filter.1 hr).1
  refine .of_assigns ?_ fun i r hr hallowed => ?_
  · refine foldl_keeps (P := fun round : Round => ctx.Assigns candidates round.assignment)
      (fun round group h => ?_) .nil
    exact foldl_keeps (P := fun round : Round => ctx.Assigns candidates round.assignment)
      (fun round rbg h => assigns_hand (hmembers group) h rbg) h
  · -- The delay group of the UE hands out the group, unless others were served before.
    refine foldl_reaches (P := fun round : Round => round.assignment ≠ [])
      (fun round group h => ?_) (fun group => ?_)
      (delayGroup_mem hr) ?_
    · exact foldl_keeps (P := fun round : Round => round.assignment ≠ [])
        (fun round rbg h => ne_nil_hand h rbg) h
    · exact foldl_eq_or (P := fun round : Round => round.assignment ≠ [])
        (fun round rbg h => ne_nil_hand h rbg) fun rbg => hand_eq_or rbg
    · refine foldl_reaches (P := fun round : Round => round.assignment ≠ [])
        (fun round rbg h => ne_nil_hand h rbg) (fun rbg => hand_eq_or rbg)
        (List.mem_range.2 (AllocationContext.lt_of_allowed hallowed)) ?_
      exact ne_nil_hand_start (hmembers _)
        (List.mem_filter.2 ⟨hr, beq_self_eq_true _⟩) hallowed

end QosAware

/-- Whatever the algorithm, the free groups are shared. -/
theorem Algorithm.shares_policy (config : SchedulerConfig) (algorithm : Algorithm)
    (ctx : AllocationContext) (candidates : List Rnti)
    (records : Rnti → Option algorithm.Record) :
    ctx.Shares candidates ((algorithm.policy config).allocate ctx candidates records) := by
  cases algorithm with
  | cqa => exact QosAware.shares_allocate ..
  | fdBet => exact (FrequencyDomain.byTurns_allocate ..).shares
  | tdBet => exact TimeDomain.shares_allocate ..
  | tta => exact (ThroughputToAverage.byTurns_allocate ..).shares

end LteMac
