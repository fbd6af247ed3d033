import LteMac.Proofs.Scheduler.Rotation
import Mathlib.Algebra.Order.Floor.Div
import Mathlib.Data.Int.CardIntervalMod
import Mathlib.Data.List.Rotate

/-!
# Even turns

As long as the same UEs ask for their turns, each trigger of a direction sends the UE that had the
first turn to the end of the order and keeps the others in place. So after as many triggers as there
are UEs the order is what it was, and no UE has the first turn more than once more often than
another one.

The one request that can break in on this is a release: that of the UE at the cursor, whether or not
it is among those that take turns, brings the turns back to the least UE.

The order of a trigger is a rotation of the ascending list by a cursor, and the cursor moves behind
the leader. On the list this is a rotation by one (`SchedulerState.rotation_add_one`), whatever
numbers the UEs have and whoever else is in the cell. So the orders of the triggers in a part of a
run are the rotations of a first one by 0, 1, 2, …, and who leads how often is a matter of counting:
the UE at place `i` leads those that are `i` modulo the number of UEs. The share comes out rounded
down or up, and both occur.

* `Event.Turned`, `Event.turned_of_step`: what one request does to the turns of some UEs;
* `Run.orders_of_since`: the orders of the triggers in a part of a run;
* `Run.turns_shared`: who had the first turn how often;
* `first_turn_withheld`: two UEs and two triggers, and one of the UEs had both first turns.
-/

namespace LteMac

variable {Record : Type} {policy : Policy Record} {config : SchedulerConfig}
  {es since : List (Event Record)} {s s' : SchedulerState Record} {q : Request}
  {said : List Indication} {d : Direction} {rntis turns : List Rnti} {r : Rnti}

namespace SchedulerState

section Rotation

variable {cursor leader : Rnti}

/-- A rotation cuts the ascending order in two and exchanges the parts. -/
theorem exists_cut (h : rntis.Pairwise (· < ·)) (cursor : Rnti) :
    ∃ low high, rntis = low ++ high ∧ rotation rntis cursor = high ++ low := by
  refine ⟨rntis.filter (· < cursor), rntis.filter (cursor ≤ ·), ?_, rfl⟩
  have hasc : (rntis.filter (· < cursor) ++ rntis.filter (cursor ≤ ·)).Pairwise (· < ·) := by
    refine List.pairwise_append.2 ⟨h.filter _, h.filter _, fun u hu v hv => ?_⟩
    exact UInt16.lt_of_lt_of_le (of_decide_eq_true (List.mem_filter.1 hu).2)
      (of_decide_eq_true (List.mem_filter.1 hv).2)
  refine h.eq_of_mem_iff hasc fun u => ?_
  simp only [List.mem_append, List.mem_filter, decide_eq_true_eq, ← and_or_left, ← UInt16.not_le,
    or_comm, Classical.em, and_true]

/-- The turns are a rotation of the ascending order. -/
theorem isRotated_rotation (h : rntis.Pairwise (· < ·)) (cursor : Rnti) :
    rotation rntis cursor ~r rntis := by
  obtain ⟨low, high, hcut, hrotation⟩ := exists_cut h cursor
  rw [hrotation, hcut]
  exact List.isRotated_append

/-- A cut list in the order of its turns. -/
theorem rotation_append {low high : List Rnti} (hlow : ∀ u ∈ low, u < cursor)
    (hhigh : ∀ u ∈ high, cursor ≤ u) : rotation (low ++ high) cursor = high ++ low := by
  have hlow₁ : low.filter (· < cursor) = low :=
    List.filter_eq_self.2 fun u hu => decide_eq_true (hlow u hu)
  have hlow₂ : low.filter (cursor ≤ ·) = [] :=
    List.filter_eq_nil_iff.2 fun u hu => by simpa using hlow u hu
  have hhigh₁ : high.filter (cursor ≤ ·) = high :=
    List.filter_eq_self.2 fun u hu => decide_eq_true (hhigh u hu)
  have hhigh₂ : high.filter (· < cursor) = [] :=
    List.filter_eq_nil_iff.2 fun u hu => by simpa using hhigh u hu
  rw [rotation, List.filter_append, List.filter_append, hlow₁, hlow₂, hhigh₁, hhigh₂,
    List.nil_append, List.append_nil]

/-- Behind a UE come those above it, then those below it, and then the UE itself. -/
theorem rotation_behind {low high : List Rnti} (h : (low ++ leader :: high).Pairwise (· < ·)) :
    rotation (low ++ leader :: high) (leader + 1) = high ++ (low ++ [leader]) := by
  obtain ⟨-, hhigh, hlow⟩ := List.pairwise_append.1 h
  have habove := (List.pairwise_cons.1 hhigh).1
  rcases lt_add_one_cases leader with ⟨hzero, hall⟩ | hbelow
  · -- The greatest of all RNTIs: there is none above it, and the order starts again.
    obtain rfl : high = [] := List.eq_nil_iff_forall_not_mem.2 fun u hu =>
      UInt16.not_lt.2 (hall u) (habove u hu)
    rw [hzero, rotation_zero, List.nil_append]
  · rw [List.append_cons]
    refine rotation_append (fun u hu => (hbelow u).2 ?_) fun u hu => ?_
    · rcases List.mem_append.1 hu with hu | hu
      · exact UInt16.le_of_lt (hlow u hu leader List.mem_cons_self)
      · exact UInt16.le_of_eq (List.mem_singleton.1 hu)
    · exact UInt16.not_lt.1 fun hlt => UInt16.not_le.2 (habove u hu) ((hbelow u).1 hlt)

/-- Moved past the UE that has the first turn, the cursor sends it to the end. -/
theorem rotation_add_one (h : rntis.Pairwise (· < ·))
    (hhead : (rotation rntis cursor).head? = some leader) :
    rotation rntis (leader + 1) = (rotation rntis cursor).rotate 1 := by
  obtain ⟨low, high, rfl, hrotation⟩ := exists_cut h cursor
  rw [hrotation] at hhead ⊢
  cases high with
  | cons first high =>
    obtain rfl : first = leader := by simpa using hhead
    rw [rotation_behind h, List.cons_append, List.rotate_cons_succ, List.rotate_zero,
      List.append_assoc]
  | nil =>
    -- Everybody is below the cursor, and the turns begin with the least one.
    obtain ⟨low, rfl⟩ : ∃ rest, low = leader :: rest := by
      cases low with
      | nil => simp at hhead
      | cons first rest => exact ⟨rest, by simpa using hhead⟩
    rw [List.append_nil] at h ⊢
    rw [List.nil_append, List.rotate_cons_succ, List.rotate_zero]
    have hfirst : ([] ++ leader :: low).Pairwise (· < ·) := h
    exact rotation_behind hfirst

/-- A rotation is another order if there are UEs on both sides of the cursor. -/
theorem rotation_ne_self_iff (h : rntis.Pairwise (· < ·)) :
    rotation rntis cursor ≠ rntis ↔ (∃ u ∈ rntis, u < cursor) ∧ ∃ u ∈ rntis, cursor ≤ u := by
  rw [ne_eq, rotation_eq_self_iff h]
  simp only [not_or, not_forall, exists_prop, UInt16.not_le, UInt16.not_lt]

/-- Some UEs of a table in the order of their turns, if they are known to be those of a list. -/
theorem filter_rotation_eq {α : Type} {ues : Table Rnti α} {p : Rnti → Bool}
    (h : rntis.Pairwise (· < ·)) (hmem : ∀ r, r ∈ (rotation ues.keys cursor).filter p ↔ r ∈ rntis) :
    (rotation ues.keys cursor).filter p = rotation rntis cursor := by
  rw [filter_rotation] at hmem ⊢
  have hsame : ues.keys.filter p = rntis :=
    (ues.pairwise_keys.filter p).eq_of_mem_iff h fun r => by rw [← hmem r, mem_rotation]
  rw [hsame]

end Rotation

end SchedulerState

/-! ## What a request does to the turns -/

/-- The UEs that may get new blocks in a trigger of a direction, in the order of their turns. -/
def Event.turns? (e : Event Record) (d : Direction) : Option (List Rnti) :=
  match d, e.request with
  | .downlink, .downlinkTrigger feedback =>
    e.before.grid.map fun grid => DownlinkTrigger.turns e.before grid feedback
  | .uplink, .uplinkTrigger _ outcomes =>
    e.before.grid.map fun grid => UplinkTrigger.turns e.before grid outcomes
  | _, _ => none

/-- The orders of the turns in the triggers of a direction. -/
def orders (es : List (Event Record)) (d : Direction) : List (List Rnti) :=
  es.filterMap (·.turns? d)

/-- The UEs that had the first turns in the triggers of a direction. -/
def leaders (es : List (Event Record)) (d : Direction) : List Rnti :=
  es.filterMap (·.leader? d)

/-- One more event has one more order at most. -/
theorem orders_concat (es : List (Event Record)) (e : Event Record) (d : Direction) :
    orders (es ++ [e]) d = orders es d ++ (e.turns? d).toList := by
  rw [orders, List.filterMap_append, List.filterMap_cons, List.filterMap_nil, orders]
  cases e.turns? d <;> rfl

/-- The first turn is that of the UE at the head of the order. -/
theorem Event.leader?_eq (e : Event Record) (d : Direction) :
    e.leader? d = (e.turns? d).bind List.head? := by
  rcases e with ⟨before, q, after, said⟩
  -- Only the triggers of the direction have an order, if there is a grid.
  cases d <;> cases q <;> first | rfl | cases hgrid : before.grid <;>
    simp only [Event.leader?, Event.turns?, hgrid] <;> rfl

/-- First turns are read off the orders. -/
theorem leaders_eq (es : List (Event Record)) (d : Direction) :
    leaders es d = (orders es d).filterMap List.head? := by
  rw [orders, List.filterMap_filterMap]
  exact List.filterMap_congr fun e _ => e.leader?_eq d

/-- The release of the UE at the cursor, where there are UEs on both sides of it. -/
structure Event.Reverts (e : Event Record) (d : Direction) (rntis : List Rnti) : Prop where
  /-- The UE that is released is the one at the cursor. -/
  released : e.request = .releaseUe (e.before.cursor d)
  /-- Some of the UEs come before it. -/
  below : ∃ u ∈ rntis, u < e.before.cursor d
  /-- Some of them come behind it, or it is one of them. -/
  above : ∃ u ∈ rntis, e.before.cursor d ≤ u

/-- What an accepted request does to the turns of some UEs, where none but these take turns. -/
structure Event.Turned (e : Event Record) (d : Direction) (rntis : List Rnti) : Prop where
  /-- In a trigger they have their turns in ascending order, but for where it begins. -/
  order : ∀ turns, e.turns? d = some turns →
    turns = SchedulerState.rotation rntis (e.before.cursor d) ∧ turns ~r rntis
  /-- A trigger sends the first of them to the end. -/
  advanced : (e.turns? d).isSome → SchedulerState.rotation rntis (e.after.cursor d) =
    (SchedulerState.rotation rntis (e.before.cursor d)).rotate 1
  /-- Nothing else moves them, unless it takes them back to the ascending order. -/
  kept_iff : e.turns? d = none → (SchedulerState.rotation rntis (e.after.cursor d) =
    SchedulerState.rotation rntis (e.before.cursor d) ↔ ¬e.Reverts d rntis)
  /-- If it does, they begin with the least of them. -/
  reverted : e.Reverts d rntis → SchedulerState.rotation rntis (e.after.cursor d) = rntis

/-- If the UEs that take turns are known, so is their order, but for where it begins. -/
theorem Event.turns?_eq_rotation {e : Event Record} (h : rntis.Pairwise (· < ·))
    (hturns : e.turns? d = some turns) (hmem : ∀ r, r ∈ turns ↔ r ∈ rntis) :
    turns = SchedulerState.rotation rntis (e.before.cursor d) := by
  simp only [Event.turns?] at hturns
  split at hturns
  · obtain ⟨grid, -, rfl⟩ := Option.map_eq_some_iff.1 hturns
    exact SchedulerState.filter_rotation_eq h hmem
  · obtain ⟨grid, -, rfl⟩ := Option.map_eq_some_iff.1 hturns
    exact SchedulerState.filter_rotation_eq h hmem
  · cases hturns

/-- The release of the UE at a cursor takes it back to the beginning. -/
theorem Event.cursor_of_released {e : Event Record}
    (h : e.request = .releaseUe (e.before.cursor d)) : e.cursor d = 0 := by
  have hlead : e.leader? d = none := by
    simp only [Event.leader?, h]
  rw [Event.cursor, hlead, Option.elim_none, h]
  exact if_pos rfl

/-- Without a trigger, the turns change if and only if they are taken back. -/
theorem Event.rotation_cursor_iff {e : Event Record} (h : rntis.Pairwise (· < ·))
    (hnone : e.turns? d = none) :
    SchedulerState.rotation rntis (e.cursor d) =
      SchedulerState.rotation rntis (e.before.cursor d) ↔ ¬e.Reverts d rntis := by
  by_cases hq : e.request = .releaseUe (e.before.cursor d)
  · rw [Event.cursor_of_released hq, SchedulerState.rotation_zero, eq_comm, ← not_iff_not, not_not,
      ← ne_eq, SchedulerState.rotation_ne_self_iff h]
    exact ⟨fun ⟨hbelow, habove⟩ => ⟨hq, hbelow, habove⟩, fun hrev => ⟨hrev.below, hrev.above⟩⟩
  · have hlead : e.leader? d = none := by rw [e.leader?_eq, hnone, Option.bind_none]
    rw [Event.cursor_of_not_leader? hlead hq]
    exact iff_of_true rfl fun hrev => hq hrev.released

/-- One step of the turns. -/
theorem Event.turned_of_step (h : rntis.Pairwise (· < ·)) (hne : rntis ≠ [])
    (hstep : s.step policy q = .ok (s', said))
    (hmem : ∀ turns, Event.turns? ⟨s, q, s', said⟩ d = some turns → ∀ r, r ∈ turns ↔ r ∈ rntis) :
    Event.Turned ⟨s, q, s', said⟩ d rntis := by
  have hcursor := SchedulerState.cursor_of_step hstep d
  have horder : ∀ turns, Event.turns? ⟨s, q, s', said⟩ d = some turns →
      turns = SchedulerState.rotation rntis (s.cursor d) := fun turns hturns =>
    Event.turns?_eq_rotation h hturns (hmem turns hturns)
  refine ⟨fun turns hturns => ⟨horder turns hturns, ?_⟩, fun hsome => ?_, fun hnone => ?_,
    fun hrev => ?_⟩
  · rw [horder turns hturns]
    exact SchedulerState.isRotated_rotation h _
  · obtain ⟨turns, hturns⟩ := Option.isSome_iff_exists.1 hsome
    have hmem := hmem turns hturns
    have horder := horder turns hturns
    -- Somebody has a turn, so somebody leads, and the cursor goes behind that one.
    cases turns with
    | nil =>
      obtain ⟨u, hu⟩ := List.exists_mem_of_ne_nil _ hne
      exact absurd ((hmem u).2 hu) List.not_mem_nil
    | cons leader rest =>
      have hlead : Event.leader? ⟨s, q, s', said⟩ d = some leader := by
        rw [Event.leader?_eq, hturns, Option.bind_some, List.head?_cons]
      rw [hcursor, Event.cursor_of_leader? hlead]
      exact SchedulerState.rotation_add_one h (by rw [← horder, List.head?_cons])
  · rw [hcursor]
    exact Event.rotation_cursor_iff h hnone
  · rw [hcursor, Event.cursor_of_released hrev.released, SchedulerState.rotation_zero]

/-! ## Shares of the first turn -/

/-- The last event of a run, and the run before it. -/
theorem Run.of_concat {e : Event Record} (h : Run policy config (es ++ [e]) s) :
    Run policy config es e.before ∧ e.before.step policy e.request = .ok (e.after, e.said) ∧
      s = e.after := by
  generalize hes : es ++ [e] = all at h
  cases h with
  | start => simp at hes
  | step hrun hstep =>
    obtain ⟨rfl, hlast⟩ := List.append_inj' hes rfl
    obtain rfl := List.singleton_inj.1 hlast
    exact ⟨hrun, hstep, rfl⟩

/-- In a part of a run, as long as nothing takes the turns back, each trigger goes on where the one
before it left the order. -/
theorem Run.orders_of_since (hrun : Run policy config (es ++ since) s)
    (hturned : ∀ e ∈ since, e.Turned d rntis) (hkept : ∀ e ∈ since, ¬e.Reverts d rntis) :
    ∃ cursor, orders since d =
        (List.range (orders since d).length).map (SchedulerState.rotation rntis cursor).rotate ∧
      SchedulerState.rotation rntis (s.cursor d) = (SchedulerState.rotation rntis cursor).rotate
        (orders since d).length := by
  -- From the back, as a run grows; the cursor is the one that the part begins with.
  induction since using List.reverseRecOn generalizing s with
  | nil => exact ⟨s.cursor d, rfl, (List.rotate_zero _).symm⟩
  | append_singleton since e ih =>
    rw [← List.append_assoc] at hrun
    obtain ⟨hbefore, -, rfl⟩ := hrun.of_concat
    obtain ⟨cursor, horders, hnow⟩ := ih hbefore
      (fun e' he' => hturned e' (List.mem_append_left _ he'))
      (fun e' he' => hkept e' (List.mem_append_left _ he'))
    have hlast := hturned e (by simp)
    refine ⟨cursor, ?_⟩
    rw [orders_concat]
    cases hturns : e.turns? d with
    | none =>
      rw [Option.toList_none, List.append_nil, (hlast.kept_iff hturns).2 (hkept e (by simp))]
      exact ⟨horders, hnow⟩
    | some turns =>
      rw [Option.toList_some, hlast.advanced (Option.isSome_of_eq_some hturns), hnow,
        List.rotate_rotate, List.length_append, List.length_singleton, List.range_succ,
        List.map_append, ← horders, List.map_singleton, ← hnow, (hlast.order turns hturns).1]
      exact ⟨rfl, rfl⟩

/-- The UE at place `i` of a list comes first in every rotation by `i`, and by as many more as the
list is long. -/
theorem count_head?_rotate {first : List Rnti} (h : first.Nodup) {i : Nat} (hi : first[i]? = some r)
    (n : Nat) :
    (((List.range n).map first.rotate).filterMap List.head?).count r =
      n.count (· ≡ i [MOD first.length]) := by
  obtain ⟨hlt, hget⟩ := List.getElem?_eq_some_iff.1 hi
  have hpos : 0 < first.length := Nat.zero_lt_of_lt hlt
  induction n with
  | zero => rfl
  | succ n ih =>
    have hmod := Nat.mod_lt n hpos
    -- A rotation by `n` begins at place `n`, counted around.
    have hhead : (first.rotate n).head? = some first[n % first.length] := by
      rw [← List.rotate_mod, List.head?_rotate hmod, List.getElem?_eq_getElem hmod]
    have hsame : first[n % first.length] = r ↔ n ≡ i [MOD first.length] := by
      rw [Nat.ModEq, Nat.mod_eq_of_lt hlt, ← hget, h.getElem_inj_iff]
    rw [List.range_succ, List.map_append, List.filterMap_append, List.count_append, ih,
      Nat.count_succ, List.map_singleton, List.filterMap_cons_some hhead, List.filterMap_nil,
      List.count_singleton]
    simp only [beq_iff_eq, hsame]

/-- Every UE comes first in as many of the rotations as the others, up to one. -/
theorem count_head?_rotate_eq {first : List Rnti} (h : first.Nodup) (hr : r ∈ first) (n : Nat) :
    (((List.range n).map first.rotate).filterMap List.head?).count r = n / first.length ∨
      (((List.range n).map first.rotate).filterMap List.head?).count r = n ⌈/⌉ first.length := by
  obtain ⟨i, hi⟩ := List.getElem?_of_mem hr
  have hpos := List.length_pos_of_mem hr
  rw [count_head?_rotate h hi, Nat.count_modEq_card n hpos]
  split
  next hlt =>
    right
    have hdiv := Nat.div_add_mod n first.length
    have hlt' := Nat.mod_lt n hpos
    rw [Nat.ceilDiv_eq_add_pred_div, eq_comm]
    refine Nat.div_eq_of_lt_le ?_ ?_ <;> rw [Nat.mul_comm] <;> simp only [Nat.mul_add] <;> omega
  next => exact .inl rfl

/-- As long as the same UEs take turns, in either direction, a trigger has them in ascending order
from some UE on and sends the first of them to the end. If no release takes the turns back, each of
the UEs has the first turn in its share of the triggers, rounded down or up. The part of the run may
begin anywhere, and UEs that take no turns may come and go. -/
theorem Run.turns_shared (hrun : Run policy config (es ++ since) s)
    (hrntis : rntis.Pairwise (· < ·)) (hne : rntis ≠ [])
    (hsame : ∀ e ∈ since, ∀ turns, e.turns? d = some turns → ∀ r, r ∈ turns ↔ r ∈ rntis) :
    (∀ e ∈ since, e.Turned d rntis) ∧
      ((∀ e ∈ since, ¬e.Reverts d rntis) → ∀ r ∈ rntis,
        (leaders since d).count r = (orders since d).length / rntis.length ∨
          (leaders since d).count r = (orders since d).length ⌈/⌉ rntis.length) := by
  have hturned : ∀ e ∈ since, e.Turned d rntis := by
    intro e he
    obtain ⟨n, hn⟩ := List.getElem?_of_mem (List.mem_append_right es he)
    exact Event.turned_of_step hrntis hne (hrun.before_of_getElem? hn).2 (hsame e he)
  refine ⟨hturned, fun hkept r hr => ?_⟩
  obtain ⟨cursor, horders, -⟩ := hrun.orders_of_since hturned hkept
  have hrotated := SchedulerState.isRotated_rotation hrntis cursor
  have hnodup : (SchedulerState.rotation rntis cursor).Nodup :=
    SchedulerState.nodup_rotation (hrntis.imp UInt16.ne_of_lt) cursor
  rw [leaders_eq, horders, List.length_map, List.length_range, ← hrotated.perm.length_eq]
  exact count_head?_rotate_eq hnodup (SchedulerState.mem_rotation.2 hr) _

/-- Two UEs have something to send, where there is room for one of them in a subframe, and there is
one between them that has nothing to send. -/
def twoSenders : List Request :=
  [.connect true true, .configureCell 6 6, .installReuse (.hard 6 6 ⟨0, 6⟩ ⟨0, 3⟩),
    .configureUe 1 .singleAntenna, .configureUe 2 .singleAntenna, .configureUe 3 .singleAntenna,
    .uplinkControls [(1, .bufferStatus [40, 0, 0, 0]), (3, .bufferStatus [40, 0, 0, 0])]]

/-- The UE between them is released behind the turn of the first one, or behind that of the second
one. -/
theorem exists_twoSenders :
    (∃ (es since : List (Event Throughput)) (s : SchedulerState Throughput),
      Run .tdBet .default (es ++ since) s ∧ orders since .uplink = [[1, 3], [1, 3]]) ∧
    ∃ (es since : List (Event Throughput)) (s : SchedulerState Throughput),
      Run .tdBet .default (es ++ since) s ∧ orders since .uplink = [[1, 3], [3, 1], [1, 3]] ∧
      ∀ e ∈ since, ¬e.Reverts .uplink [1, 3] := by
  constructor
  · obtain ⟨es, s, hrun, hcheck⟩ := Run.of_replay .tdBet .default
      (twoSenders ++ [.uplinkTrigger ⟨0⟩ [], .releaseUe 2, .uplinkTrigger ⟨1⟩ []])
      (fun es => orders (es.drop twoSenders.length) .uplink == [[1, 3], [1, 3]])
      (by decide +kernel)
    exact ⟨es.take twoSenders.length, es.drop twoSenders.length, s,
      (List.take_append_drop ..).symm ▸ hrun, by simpa using hcheck⟩
  · obtain ⟨es, s, hrun, hcheck⟩ := Run.of_replay .tdBet .default
      (twoSenders ++ [.uplinkTrigger ⟨0⟩ [], .uplinkTrigger ⟨1⟩ [], .releaseUe 2,
        .uplinkTrigger ⟨2⟩ []])
      (fun es => orders (es.drop twoSenders.length) .uplink == [[1, 3], [3, 1], [1, 3]] &&
        (es.drop twoSenders.length).all (·.cursor .uplink != 0))
      (by decide +kernel)
    simp only [Bool.and_eq_true, beq_iff_eq, List.all_eq_true, bne_iff_ne] at hcheck
    exact ⟨es.take twoSenders.length, es.drop twoSenders.length, s,
      (List.take_append_drop ..).symm ▸ hrun, hcheck.1,
      fun e he hrev => hcheck.2 e he (Event.cursor_of_released hrev.released)⟩

/-- The order of a trigger is among those of a part of a run that has it. -/
theorem mem_orders {e : Event Record} (he : e ∈ since) (hturns : e.turns? d = some turns) :
    turns ∈ orders since d :=
  List.mem_filterMap.2 ⟨e, he, hturns⟩

/-- Two UEs ask for their turns in each of two triggers, and one of them has both first turns.
Between the triggers a third UE is released, which was next at the cursor and asked for nothing. -/
theorem first_turn_withheld :
    ∃ (es since : List (Event Throughput)) (s : SchedulerState Throughput),
      Run .tdBet .default (es ++ since) s ∧
      (∀ e ∈ since, ∀ turns, e.turns? .uplink = some turns → ∀ r, r ∈ turns ↔ r ∈ [1, 3]) ∧
      ¬∀ r ∈ [1, 3], (leaders since .uplink).count r = (orders since .uplink).length / 2 ∨
        (leaders since .uplink).count r = (orders since .uplink).length ⌈/⌉ (2 : Nat) := by
  obtain ⟨⟨es, since, s, hrun, horders⟩, -⟩ := exists_twoSenders
  refine ⟨es, since, s, hrun, fun e he turns hturns r => ?_, fun hshares => ?_⟩
  · have hmem := mem_orders he hturns
    obtain rfl : turns = [1, 3] := by simpa [horders] using hmem
    exact Iff.rfl
  · have hnever := hshares 3 (by decide)
    rw [leaders_eq, horders] at hnever
    revert hnever
    decide

/-- Three triggers share the first turn among two UEs, whatever becomes of the third one. -/
theorem turns_shared_twoSenders :
    ∃ (es since : List (Event Throughput)) (s : SchedulerState Throughput),
      Run .tdBet .default (es ++ since) s ∧ [1, 3].Pairwise (· < · : Rnti → Rnti → Prop) ∧
      (∀ e ∈ since, ∀ turns, e.turns? .uplink = some turns → ∀ r, r ∈ turns ↔ r ∈ [1, 3]) ∧
      (∀ e ∈ since, e.Turned .uplink [1, 3]) ∧ (∀ e ∈ since, ¬e.Reverts .uplink [1, 3]) ∧
      (orders since .uplink).length = 3 ∧
      ∀ r ∈ [1, 3], (leaders since .uplink).count r = 3 / 2 ∨
        (leaders since .uplink).count r = 3 ⌈/⌉ (2 : Nat) := by
  obtain ⟨-, es, since, s, hrun, horders, hkept⟩ := exists_twoSenders
  have hsame : ∀ e ∈ since, ∀ turns, e.turns? .uplink = some turns →
      ∀ r, r ∈ turns ↔ r ∈ [1, 3] := by
    intro e he turns hturns r
    have hmem := mem_orders he hturns
    simp only [horders, List.mem_cons, List.not_mem_nil, or_false] at hmem
    rcases hmem with rfl | rfl | rfl <;> simp [or_comm]
  have hthree : (orders since .uplink).length = 3 := by rw [horders]; rfl
  have hpairwise : [1, 3].Pairwise (· < · : Rnti → Rnti → Prop) := by decide
  obtain ⟨hturned, hshares⟩ := hrun.turns_shared hpairwise (by simp) hsame
  exact ⟨es, since, s, hrun, hpairwise, hsame, hturned, hkept, hthree, hthree ▸ hshares hkept⟩

end LteMac
