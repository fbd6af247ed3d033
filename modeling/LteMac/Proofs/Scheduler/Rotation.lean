import LteMac.Proofs.Scheduler.Twins
import LteMac.Proofs.Uplink.Leftover

/-!
# The order of the turns

In either direction the UEs of a cell have their turns in ascending order from a cursor on, and
those below the cursor come last. A trigger leaves the cursor behind the UE that had the first turn,
whether there is a UE at that place or not. So a release takes a UE out of the order, and the others
follow as before; but if the cursor is at the released UE, the release takes it back to the
beginning, and the UEs below, which have just had their turns, come before those above.

A cursor is a number and not a UE. It need not be repaired when its UE goes, since the turns go on
from the next UE above whether or not anybody is at the cursor (`rotation_erase`). That the release
repairs it nevertheless is what hands a turn back. The order of the others is kept in exactly the
cases in which the beginning and the place of the cursor come to the same: when all that are left
are above it, or all below.

* `SchedulerState.cursor_of_step`, `Run.cursor_of_ledLast`: where the cursor is;
* `Run.order_of_release`: the order after a release, when the others keep it, and when the UE that
  had the first turn gets it again;
* `turn_handed_back`: a UE that waits through a second subframe because the first turn comes back.
-/

namespace LteMac

variable {Record : Type} {policy : Policy Record} {config : SchedulerConfig}
  {es : List (Event Record)} {s s' : SchedulerState Record} {said : List Indication}
  {d : Direction} {r : Rnti}

/-- Erasing a UE takes it out of the list. -/
theorem Table.keys_erase {α : Type} (t : Table Rnti α) (r : Rnti) :
    (t.erase r).keys = t.keys.erase r := by
  have hsame : (t.erase r).keys.filter (fun _ => true) = t.keys.filter (· != r) :=
    filter_keys_congr fun u => by simp [mem_erase, and_comm, -Std.ExtTreeMap.mem_erase]
  rw [Std.ExtTreeMap.nodup_keys.erase_eq_filter, ← hsame, List.filter_true]

namespace SchedulerState

/-! ## Rotations -/

section Rotation

variable {rntis : List Rnti} {cursor leader : Rnti}

/-- Everybody has a turn. -/
theorem mem_rotation : r ∈ rotation rntis cursor ↔ r ∈ rntis := by
  simp only [rotation, List.mem_append, List.mem_filter, decide_eq_true_eq, ← and_or_left,
    ← UInt16.not_le, em, and_true]

/-- From the beginning, the turns are in ascending order. -/
theorem rotation_zero (rntis : List Rnti) : rotation rntis 0 = rntis := by
  simp [rotation]

/-- Taking a UE out leaves the order of the others. -/
theorem rotation_erase (h : rntis.Nodup) (cursor r : Rnti) :
    (rotation rntis cursor).erase r = rotation (rntis.erase r) cursor := by
  rw [(nodup_rotation h cursor).erase_eq_filter, filter_rotation, h.erase_eq_filter]

/-- A rotation is the ascending order only if nobody is below the cursor, or everybody. -/
theorem rotation_eq_self_iff (h : rntis.Pairwise (· < ·)) :
    rotation rntis cursor = rntis ↔ (∀ u ∈ rntis, cursor ≤ u) ∨ ∀ u ∈ rntis, u < cursor := by
  constructor
  · intro heq
    by_contra hne
    simp only [not_or, not_forall, exists_prop, UInt16.not_le, UInt16.not_lt] at hne
    obtain ⟨⟨low, hlow, hbelow⟩, high, hhigh, habove⟩ := hne
    -- A UE from the cursor on comes before one below it, which is not ascending.
    rw [← heq, rotation, List.pairwise_append] at h
    have hlt := h.2.2 high (by simpa using ⟨mem_rotation.1 (heq ▸ hhigh), habove⟩) low
      (by simpa using ⟨mem_rotation.1 (heq ▸ hlow), hbelow⟩)
    exact UInt16.lt_irrefl _ (UInt16.lt_of_lt_of_le (UInt16.lt_trans hlt hbelow) habove)
  · rintro (hfrom | hbelow)
    · have hnone : rntis.filter (· < cursor) = [] :=
        List.filter_eq_nil_iff.2 fun u hu => by simpa using hfrom u hu
      have hall : rntis.filter (cursor ≤ ·) = rntis :=
        List.filter_eq_self.2 fun u hu => by simpa using hfrom u hu
      rw [rotation, hnone, hall, List.append_nil]
    · have hnone : rntis.filter (cursor ≤ ·) = [] :=
        List.filter_eq_nil_iff.2 fun u hu => by simpa using hbelow u hu
      have hall : rntis.filter (· < cursor) = rntis :=
        List.filter_eq_self.2 fun u hu => by simpa using hbelow u hu
      rw [rotation, hnone, hall, List.nil_append]

/-- An ascending list begins with the least UE. -/
theorem head?_eq_some_iff_of_pairwise (h : rntis.Pairwise (· < ·)) :
    rntis.head? = some leader ↔ leader ∈ rntis ∧ ∀ u ∈ rntis, leader ≤ u := by
  cases rntis with
  | nil => simp
  | cons first rest =>
    have hrest := (List.pairwise_cons.1 h).1
    rw [List.head?_cons, Option.some_inj]
    constructor
    · rintro rfl
      exact ⟨List.mem_cons_self, List.forall_mem_cons.2
        ⟨UInt16.le_refl _, fun u hu => UInt16.le_of_lt (hrest u hu)⟩⟩
    · rintro ⟨hmem, hleast⟩
      rcases List.mem_cons.1 hmem with heq | hmem
      · exact heq.symm
      · exact absurd (hleast first List.mem_cons_self) (UInt16.not_le.2 (hrest leader hmem))

/-- Behind a UE is everything, or what lies above it. -/
theorem lt_add_one_cases (leader : Rnti) :
    leader + 1 = 0 ∧ (∀ u : Rnti, u ≤ leader) ∨ ∀ u : Rnti, u < leader + 1 ↔ u ≤ leader := by
  have hlt := leader.toNat_lt
  by_cases hlast : leader.toNat = 65535
  · refine .inl ⟨UInt16.toNat_inj.1 (by simp [UInt16.toNat_add, hlast]), fun u => ?_⟩
    have hu := u.toNat_lt
    rw [UInt16.le_iff_toNat_le]
    omega
  · refine .inr fun u => ?_
    simp only [UInt16.lt_iff_toNat_lt, UInt16.le_iff_toNat_le, UInt16.toNat_add,
      UInt16.reduceToNat]
    omega

/-- Behind a UE, the turns begin with that UE again only if there is no other one. -/
theorem eq_of_head?_rotation (h : rntis.Pairwise (· < ·))
    (hhead : (rotation rntis (leader + 1)).head? = some leader) : ∀ u ∈ rntis, u = leader := by
  intro u hu
  rcases lt_add_one_cases leader with ⟨hzero, hall⟩ | hbelow
  · rw [hzero, rotation_zero, head?_eq_some_iff_of_pairwise h] at hhead
    exact UInt16.le_antisymm (hall u) (hhead.2 u hu)
  · rw [rotation, List.head?_append, Option.or_eq_some_iff] at hhead
    rcases hhead with habove | ⟨hnone, hhead⟩
    · -- The UE itself is not behind itself.
      have hle := of_decide_eq_true (List.mem_filter.1 (List.mem_of_mem_head? habove)).2
      exact absurd ((hbelow leader).2 (UInt16.le_refl _)) (UInt16.not_lt.2 hle)
    · have hlt : u < leader + 1 := by
        simpa [UInt16.not_le] using
          List.filter_eq_nil_iff.1 (List.head?_eq_none_iff.1 hnone) u hu
      have hleast := ((head?_eq_some_iff_of_pairwise (h.filter _)).1 hhead).2 u
        (by simpa using ⟨hu, hlt⟩)
      exact UInt16.le_antisymm ((hbelow u).1 hlt) hleast

end Rotation

/-! ## Cursors -/

/-- Where the turns of a direction begin. -/
def cursor (s : SchedulerState Record) : Direction → Rnti
  | .downlink => s.downlink.cursor
  | .uplink => s.uplink.cursor

/-- The UEs in the order of their turns. -/
def order (s : SchedulerState Record) (d : Direction) : List Rnti :=
  rotation s.ues.keys (s.cursor d)

end SchedulerState

/-- The UE that has the first turn in a trigger of a direction. -/
def Event.leader? (e : Event Record) (d : Direction) : Option Rnti :=
  match d, e.request with
  | .downlink, .downlinkTrigger feedback =>
    e.before.grid.bind fun grid => (DownlinkTrigger.turns e.before grid feedback).head?
  | .uplink, .uplinkTrigger _ outcomes =>
    e.before.grid.bind fun grid => (UplinkTrigger.turns e.before grid outcomes).head?
  | _, _ => none

/-- Where an event leaves a cursor. -/
def Event.cursor (e : Event Record) (d : Direction) : Rnti :=
  (e.leader? d).elim
    (match e.request with
      | .releaseUe r => SchedulerState.resetCursor (e.before.cursor d) r
      | _ => e.before.cursor d)
    (· + 1)

namespace SchedulerState

/-- Cursors belong to the commons. -/
theorem cursor_of_commons (h : s'.commons = s.commons) (d : Direction) :
    s'.cursor d = s.cursor d := by
  cases d with
  | downlink => exact congrArg Commons.downlinkCursor h
  | uplink => exact congrArg Commons.uplinkCursor h

/-- A cursor moves behind the first turn, goes back to the beginning when its UE is released, and
stays where it is else. -/
theorem cursor_of_step {q : Request} (h : s.step policy q = .ok (s', said)) (d : Direction) :
    s'.cursor d = Event.cursor ⟨s, q, s', said⟩ d := by
  cases accepted_of_step h with
  | downlink _ hgrid => cases d <;> simp only [Event.cursor, Event.leader?, hgrid] <;> rfl
  | uplink _ hgrid => cases d <;> simp only [Event.cursor, Event.leader?, hgrid] <;> rfl
  | added | reconfigured | bearersAdded | bearersDropped | queued | elementsAdded | qualityTaken
  | requested | controlsTaken | sounded =>
    have hkept := cursor_of_commons (commons_of_personal rfl h) d
    cases d <;> exact hkept
  | _ => cases d <;> rfl

end SchedulerState

/-- In the events the last UE to have the first turn in a direction was `r`, and the UE behind it
was not released since. -/
def LedLast (es : List (Event Record)) (d : Direction) (r : Rnti) : Prop :=
  ∃ before e since, es = before ++ e :: since ∧ e.leader? d = some r ∧
    ∀ e' ∈ since, e'.leader? d = none ∧ e'.request ≠ .releaseUe (r + 1)

/-- Behind the first turn. -/
theorem Event.cursor_of_leader? {e : Event Record} (h : e.leader? d = some r) :
    e.cursor d = r + 1 := by
  rw [Event.cursor, h, Option.elim_some]

/-- Nobody had a turn, and nobody at the cursor was released. -/
theorem Event.cursor_of_not_leader? {e : Event Record} (h : e.leader? d = none)
    (hq : e.request ≠ .releaseUe (e.before.cursor d)) : e.cursor d = e.before.cursor d := by
  rw [Event.cursor, h, Option.elim_none]
  split
  next r hrelease => exact if_neg fun heq => hq (hrelease.trans (congrArg _ heq.symm))
  next => rfl

/-- Until somebody else has the first turn, the cursor stays behind the last one to have it. -/
theorem Run.cursor_of_ledLast (hrun : Run policy config es s) (h : LedLast es d r) :
    s.cursor d = r + 1 := by
  induction hrun with
  | start =>
    obtain ⟨before, e, since, hes, -⟩ := h
    simp at hes
  | @step es s s' q said hrun hstep ih =>
    obtain ⟨before, e, since, hes, hlead, hsince⟩ := h
    rw [SchedulerState.cursor_of_step hstep d]
    obtain ⟨-, rfl, -⟩ | ⟨since, rfl, rfl⟩ := concat_eq_append_cons.1 hes
    · exact Event.cursor_of_leader? hlead
    · obtain ⟨hnone, hother⟩ := hsince ⟨s, q, s', said⟩ (by simp)
      have hcursor := ih ⟨before, e, since, rfl, hlead, fun e' he' =>
        hsince e' (List.mem_append_left _ he')⟩
      rw [Event.cursor_of_not_leader? hnone (by rwa [hcursor]), hcursor]

/-! ## Releases -/

/-- What the release of `r` between `s` and `s'` does to the turns of a direction. -/
structure Reordered (s s' : SchedulerState Record) (r : Rnti) (d : Direction) : Prop where
  /-- Where the cursor is elsewhere, the others follow as before. -/
  kept : s.cursor d ≠ r → s'.order d = (s.order d).erase r
  /-- Where the cursor is at the released UE, they begin with the least one. -/
  restarted : s.cursor d = r → s'.order d = s'.ues.keys
  /-- So the order survives unless the cursor is at the released UE, with others on both sides. -/
  kept_iff : s'.order d = (s.order d).erase r ↔
    (s.cursor d = r → (∀ u ∈ s'.ues, r < u) ∨ ∀ u ∈ s'.ues, u < r)

/-- A release takes a cursor back that is at the released UE. -/
theorem SchedulerState.cursor_removeUe (s : SchedulerState Record) (r : Rnti) (d : Direction) :
    (s.removeUe r).cursor d = resetCursor (s.cursor d) r := by
  cases d <;> rfl

/-- What a release does to the turns of either direction. -/
theorem SchedulerState.reordered_removeUe (s : SchedulerState Record) (r : Rnti) (d : Direction) :
    Reordered s (s.removeUe r) r d := by
  have hkeys : (s.removeUe r).ues.keys = s.ues.keys.erase r := Table.keys_erase s.ues r
  have herase : (s.order d).erase r = rotation (s.removeUe r).ues.keys (s.cursor d) := by
    rw [order, rotation_erase Std.ExtTreeMap.nodup_keys, hkeys]
  have hkept : s.cursor d ≠ r → (s.removeUe r).order d = (s.order d).erase r := by
    intro hne
    rw [herase, order, cursor_removeUe, resetCursor, if_neg hne]
  have hrestarted : s.cursor d = r → (s.removeUe r).order d = (s.removeUe r).ues.keys := by
    intro heq
    rw [order, cursor_removeUe, resetCursor, if_pos heq, rotation_zero]
  refine ⟨hkept, hrestarted, ?_⟩
  by_cases heq : s.cursor d = r
  · have hnot : r ∉ (s.removeUe r).ues := fun hmem => (Table.mem_erase.1 hmem).1 rfl
    rw [hrestarted heq, herase, eq_comm, rotation_eq_self_iff (Table.pairwise_keys _), heq]
    simp only [Std.ExtTreeMap.mem_keys, forall_const]
    refine or_congr_left (forall₂_congr fun u hu => ?_)
    exact ⟨fun hle => UInt16.lt_of_le_of_ne hle fun h => hnot (h ▸ hu), UInt16.le_of_lt⟩
  · exact iff_of_true (hkept heq) fun h => absurd h heq

/-- A release keeps the order of the others, unless the cursor is at the released UE and there are
UEs on both sides of it. The UE that last had the first turn gets it again before the others left
only if it is the least of them and the UE behind it was released. Both are equivalences, and hold
in either direction. -/
theorem Run.order_of_release (hrun : Run policy config es s)
    (hstep : s.step policy (.releaseUe r) = .ok (s', said)) (d : Direction) :
    Reordered s s' r d ∧
      ∀ leader, LedLast es d leader → (∃ u ∈ s'.ues, u ≠ leader) →
        ((s'.order d).head? = some leader ↔
          r = leader + 1 ∧ leader ∈ s'.ues ∧ ∀ u ∈ s'.ues, leader ≤ u) := by
  obtain rfl : s.removeUe r = s' := by
    cases SchedulerState.accepted_of_step hstep with
    | removed => rfl
  have hreordered := s.reordered_removeUe r d
  refine ⟨hreordered, fun leader hled ⟨u, hu, hne⟩ => ?_⟩
  have hcursor := hrun.cursor_of_ledLast hled
  by_cases heq : r = leader + 1
  · rw [hreordered.restarted (hcursor.trans heq.symm),
      SchedulerState.head?_eq_some_iff_of_pairwise (Table.pairwise_keys _)]
    simp only [Std.ExtTreeMap.mem_keys, heq, true_and]
  · -- The cursor stays behind that UE, so it has the first turn only if it is alone.
    refine iff_of_false (fun hhead => ?_) fun h => heq h.1
    have hkept : (s.removeUe r).cursor d = leader + 1 := by
      rw [s.cursor_removeUe, hcursor, SchedulerState.resetCursor, if_neg (Ne.symm heq)]
    rw [SchedulerState.order, hkept] at hhead
    exact hne (SchedulerState.eq_of_head?_rotation (Table.pairwise_keys _) hhead u
      (Std.ExtTreeMap.mem_keys.2 hu))

/-- Three UEs have something to send, where there is room for one of them in a subframe. -/
def threeSenders : List Request :=
  [.connect true true, .configureCell 6 6, .installReuse (.hard 6 6 ⟨0, 6⟩ ⟨0, 3⟩),
    .configureUe 1 .singleAntenna, .configureUe 2 .singleAntenna, .configureUe 3 .singleAntenna,
    .uplinkControls [(1, .bufferStatus [40, 0, 0, 0]), (2, .bufferStatus [40, 0, 0, 0]),
      (3, .bufferStatus [40, 0, 0, 0])],
    .uplinkTrigger ⟨0⟩ []]

/-- The first of them had its turn when the second one is released. The third has to wait once
more. -/
theorem exists_threeSenders :
    ∃ (es : List (Event Throughput)) (s s' t : SchedulerState Throughput)
      (said said' : List Indication),
      Run .tdBet .default es s ∧ LedLast es .uplink 1 ∧
      s.step .tdBet (.releaseUe 2) = .ok (s', said) ∧ 3 ∈ s'.ues ∧
      s.order .uplink = [2, 3, 1] ∧ s'.order .uplink = [1, 3] ∧
      s'.uplink.ues[(3 : Rnti)]?.any (0 < ·.pending) = true ∧
      s'.step .tdBet (.uplinkTrigger ⟨1⟩ []) = .ok (t, said') ∧
      (said'.flatMap (·.grants)).map (·.rnti) = [1] := by
  obtain ⟨es, e, hrun, hstep, hcheck⟩ := Run.of_replay_step .tdBet .default threeSenders
    (.releaseUe 2) (fun es e => es.getLast?.any (·.leader? .uplink == some 1) &&
      e.after.ues.contains 3 && e.before.order .uplink == [2, 3, 1] &&
      e.after.order .uplink == [1, 3] && e.after.uplink.ues[(3 : Rnti)]?.any (0 < ·.pending) &&
      (e.after.step .tdBet (.uplinkTrigger ⟨1⟩ [])).toOption.any fun out =>
        (out.2.flatMap (·.grants)).map (·.rnti) == [1])
    (by decide +kernel)
  simp only [Bool.and_eq_true, beq_iff_eq] at hcheck
  obtain ⟨⟨⟨⟨⟨hled, hthird⟩, hbefore⟩, hafter⟩, hwaits⟩, hgrants⟩ := hcheck
  obtain ⟨last, hlast, hled⟩ := (Option.any_eq_true ..).1 hled
  cases ht : e.after.step .tdBet (.uplinkTrigger ⟨1⟩ []) with
  | error cause =>
    rw [ht] at hgrants
    cases hgrants
  | ok out =>
    rw [ht] at hgrants
    exact ⟨es, e.before, e.after, out.1, e.said, out.2, hrun,
      ⟨es.dropLast, last, [], (List.dropLast_append_getLast? last hlast).symm,
        beq_iff_eq.1 hled, by simp⟩,
      hstep, Std.ExtTreeMap.mem_iff_contains.2 hthird, hbefore, hafter, hwaits, ht,
      by simpa [Except.toOption] using hgrants⟩

/-- The order of the others does not survive the release: the first turn goes back to the UE that
has just had it, and that UE is granted blocks again while another one waits. The released UE is the
one that the cursor names, and the cursor then begins at the least UE, not at the next one. -/
theorem turn_handed_back :
    ∃ (es : List (Event Throughput)) (s s' t : SchedulerState Throughput)
      (said said' : List Indication),
      Run .tdBet .default es s ∧ LedLast es .uplink 1 ∧
      s.step .tdBet (.releaseUe 2) = .ok (s', said) ∧ 3 ∈ s'.ues ∧
      s'.order .uplink ≠ (s.order .uplink).erase 2 ∧ (s'.order .uplink).head? = some 1 ∧
      s'.uplink.ues[(3 : Rnti)]?.any (0 < ·.pending) = true ∧
      s'.step .tdBet (.uplinkTrigger ⟨1⟩ []) = .ok (t, said') ∧
      (said'.flatMap (·.grants)).map (·.rnti) = [1] := by
  obtain ⟨es, s, s', t, said, said', hrun, hled, hstep, hthird, hbefore, hafter, hnext⟩ :=
    exists_threeSenders
  refine ⟨es, s, s', t, said, said', hrun, hled, hstep, hthird, ?_, ?_, hnext⟩
  · rw [hbefore, hafter]
    decide
  · rw [hafter, List.head?_cons]

/-- The UE released was the one behind the first, which is the least one left. -/
theorem order_of_release_threeSenders :
    ∃ (es : List (Event Throughput)) (s s' : SchedulerState Throughput) (said : List Indication),
      Run .tdBet .default es s ∧ s.step .tdBet (.releaseUe 2) = .ok (s', said) ∧
      Reordered s s' 2 .uplink ∧ LedLast es .uplink 1 ∧ (∃ u ∈ s'.ues, u ≠ 1) ∧
      ((s'.order .uplink).head? = some 1 ↔
        2 = (1 : Rnti) + 1 ∧ 1 ∈ s'.ues ∧ ∀ u ∈ s'.ues, 1 ≤ u) := by
  obtain ⟨es, s, s', -, said, -, hrun, hled, hstep, hthird, -⟩ := exists_threeSenders
  obtain ⟨hreordered, hhead⟩ := hrun.order_of_release hstep .uplink
  exact ⟨es, s, s', said, hrun, hstep, hreordered, hled, ⟨3, hthird, by decide⟩,
    hhead 1 hled ⟨3, hthird, by decide⟩⟩

end LteMac
