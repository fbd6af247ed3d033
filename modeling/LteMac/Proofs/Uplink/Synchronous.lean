import LteMac.Proofs.Scheduler.InPlace
import LteMac.Proofs.Uplink.Passage
import LteMac.Proofs.Uplink.Verdicts
import Mathlib.Data.List.Nodup
import Mathlib.Data.List.Pairwise

/-!
# Synchronous retransmission

The outcome of an uplink block comes seven triggers after its grant, without a word about which
block it is. Whatever happens in between, it is taken for the right one: a block that failed is
granted again with the same blocks, if there is room, and a block that was delivered, or that was
retried often enough, is never granted again.

A block ought to be given up after three retransmissions. But a failed block is moved to the present
subframe before its room is looked for, and the move is counted: a retry for which there was no room
is lost, and with it one of the grants that the block could have had. How many were lost, and where,
is told by the run (`Synchronous.counted`); a block that always found room has all its grants.

The proof reads the blocks off the timetable of the UE. Seven triggers after a grant, the timetable
holds the block of that grant where the outcome is due (`Due.due`), whatever was placed or cleared
in between, and the trigger that brings the outcome acts on the block there and on no other one.

* `Run.recorded`: the events that a block remembers did grant it;
* `Run.counted`: the retries of a block are its later grants, and the events that had no room for
  it;
* `Run.synchronous`: what becomes of the blocks of a UE;
* `dropped_after_two_retransmissions`: a block that lost a grant in this way.
-/

namespace LteMac

variable {Record : Type} {policy : Policy Record} {config : SchedulerConfig}
  {es : List (Event Record)} {e : Event Record} {s s' : SchedulerState Record} {r : Rnti}

/-! ## What is promised

Events are named by their numbers in the run, and blocks by the events they originate in. The
outcome of a block is due in an event that is named as well, so that what becomes of the block there
is a property of that event, and no clock is needed.
-/

/-- Event `i` grants the block `b` of the UE `r`. -/
def Transit.SentBy (b : Transit) (es : List (Event Record)) (r : Rnti) (i : Nat) : Prop :=
  timetable (es.take (i + 1)) r 1 = some b ∧ b.sent.getLast? = some i

/-- From event `j` on, the block is granted no more. -/
def Transit.Gone (b : Transit) (es : List (Event Record)) (r : Rnti) (j : Nat) : Prop :=
  ∀ (k : Nat) (b' : Transit), j ≤ k → b'.SentBy es r k → b'.origin? ≠ b.origin?

/-- Whether an event grants a block, or answers a random access with it. -/
def Transit.GrantedIn (b : Transit) (e : Event Record) : Prop :=
  (∃ g ∈ e.grants, g = { b.grant with ndi := g.ndi }) ∨
    ∃ a ∈ e.answers, Access.uplinkGrant a = b.grant

/-- Event `j` is to be the seventh uplink trigger after event `i`, and the UE `r` is not released in
between. -/
structure Due (es : List (Event Record)) (r : Rnti) (i j : Nat) : Prop where
  /-- It is to be the seventh uplink trigger. -/
  seventh : ((es.take j).drop (i + 1)).countP (·.isUplink) + 1 = outcomeDelay
  /-- The UE stays configured in the meantime. -/
  kept : ∀ e ∈ (es.take j).drop (i + 1), e.releases r = false

/-- All blocks of a grant are in the cell, usable, kept for no random access, and not needed for the
retransmission of another UE. -/
def Event.HasRoom (e : Event Record) (g : UplinkGrant) : Prop :=
  ∀ i ∈ g.blocks,
    (∃ grid, e.before.grid = some grid ∧ i < grid.uplink) ∧
      flagAt e.before.reuse.uplinkFlags i = true ∧ e.before.uplink.reserved.isFree i = true ∧
      ∀ g' ∈ e.grants, g'.ndi = 0 → g'.rnti ≠ g.rnti → i ∉ g'.blocks

/-- Event `n` was told that the block `b` of the UE `r` failed, and had no room to grant it
again. -/
def Transit.AbandonedIn (b : Transit) (es : List (Event Record)) (r : Rnti) (n : Nat) : Prop :=
  ∃ (e : Event Record) (b' : Transit), es[n]? = some e ∧ e.verdict? r = some false ∧
    timetable (es.take n) r Timetable.due = some b' ∧ b'.origin? = b.origin? ∧ ¬e.HasRoom b.grant

/-- What becomes of the blocks of a UE in a run of events. -/
structure Synchronous (es : List (Event Record)) (r : Rnti) : Prop where
  /-- Every grant is that of a block, but for the indicator of new data. -/
  granted : ∀ {i e d}, es[i]? = some e → d ∈ e.grants → d.rnti = r →
    ∃ b : Transit, b.SentBy es r i ∧ d = { b.grant with ndi := d.ndi }
  /-- A block is granted four times at most, in the events it remembers. -/
  bounded : ∀ {i} {b : Transit}, b.SentBy es r i →
    b.sent.length ≤ maxRetransmissions + 1 ∧ b.sent.Pairwise (· < ·) ∧
      ∀ n ∈ b.sent, ∃ e, es[n]? = some e ∧ b.GrantedIn e
  /-- A retry is a grant, or it is lost for want of room: a block that found room whenever it had
  failed was retried as often as it was granted again. -/
  counted : ∀ {i} {b : Transit}, b.SentBy es r i →
    ∃ abandoned : List Nat, b.retries + 1 = b.sent.length + abandoned.length ∧
      abandoned.Pairwise (· < ·) ∧ ∀ n ∈ abandoned, b.AbandonedIn es r n
  /-- A block is told by its origin: a later grant of it is another of the same. -/
  same : ∀ {i i'} {b b' : Transit}, i ≤ i' → b.SentBy es r i → b'.SentBy es r i' →
    b'.origin? = b.origin? → b'.grant = b.grant ∧ b.sent <+: b'.sent
  /-- A delivered block is done with. -/
  delivered : ∀ {i j e} {b : Transit}, b.SentBy es r i → Due es r i j → es[j]? = some e →
    e.verdict? r = some true → b.Gone es r j
  /-- A failed block that was not retried often enough is granted again as it was before, if there
  is room, and that is a grant of the same block. -/
  again : ∀ {i j e e' d} {b : Transit}, es[i]? = some e → d ∈ e.grants → b.SentBy es r i →
    d = { b.grant with ndi := d.ndi } → Due es r i j → es[j]? = some e' →
    e'.verdict? r = some false → b.retries < maxRetransmissions →
    ({ d with ndi := 0 } ∈ e'.grants ↔ e'.HasRoom d) ∧
      ({ d with ndi := 0 } ∈ e'.grants → (b.retried j true).SentBy es r j)
  /-- A failed block that was retried often enough is given up. -/
  dropped : ∀ {i j e} {b : Transit}, b.SentBy es r i → Due es r i j → es[j]? = some e →
    e.verdict? r = some false → maxRetransmissions ≤ b.retries → b.Gone es r j

/-! ## Uplink triggers in a run

What single triggers do is put together along the run. The timetable of the events so far tells
which block is due when a trigger comes, so what the trigger is told and what it grants can be
compared with the event that sent the block.
-/

/-- The timetable after an event of a run. -/
theorem timetable_take_succ {i : Nat} (he : es[i]? = some e) (r : Rnti) :
    timetable (es.take (i + 1)) r = e.timetable i r (timetable (es.take i) r) := by
  obtain ⟨hlt, -⟩ := List.getElem?_eq_some_iff.1 he
  rw [List.take_add_one, he, Option.toList_some, timetable_concat, List.length_take,
    Nat.min_eq_left (Nat.le_of_lt hlt)]

/-- Only an uplink trigger is told what became of a block. -/
theorem Event.isUplink_of_verdict {told : Bool} (h : e.verdict? r = some told) :
    e.isUplink = true := by
  obtain ⟨before, q, after, said⟩ := e
  cases q with
  | uplinkTrigger => rfl
  | _ => cases h

namespace Transit.AbandonedIn

variable {b b' : Transit} {n : Nat}

/-- What later events do does not matter. -/
theorem append (h : b.AbandonedIn es r n) (es' : List (Event Record)) :
    b.AbandonedIn (es ++ es') r n := by
  obtain ⟨e, b', he, hfailed, hdue, horigin, hroom⟩ := h
  obtain ⟨hlt, -⟩ := List.getElem?_eq_some_iff.1 he
  refine ⟨e, b', ?_, hfailed, ?_, horigin, hroom⟩
  · rw [List.getElem?_append_left hlt, he]
  · rwa [List.take_append_of_le_length (Nat.le_of_lt hlt)]

/-- What becomes of a block later does not matter. -/
theorem of_follows (h : b.AbandonedIn es r n) (hfollows : Transit.Follows b b')
    (horigin : b'.origin? = b.origin?) : b'.AbandonedIn es r n := by
  obtain ⟨e, b₀, he, hfailed, hdue, horigin₀, hroom⟩ := h
  exact ⟨e, b₀, he, hfailed, hdue, horigin₀.trans horigin.symm, by rwa [hfollows.grant]⟩

end Transit.AbandonedIn

namespace SchedulerState

variable {q : Request} {said : List Indication}

/-- An event that grants uplink blocks is an uplink trigger. -/
theorem isUplink_of_grants (hstep : s.step policy q = .ok (s', said)) {g : UplinkGrant}
    (hg : g ∈ said.flatMap (·.grants)) : (⟨s, q, s', said⟩ : Event Record).isUplink = true := by
  have hanswered := answered_of_step hstep
  obtain ⟨i, hi, hg⟩ := List.mem_flatMap.1 hg
  obtain ⟨d, rfl⟩ : ∃ d, i = .uplink d := by
    cases i with
    | uplink d => exact ⟨d, rfl⟩
    | _ => cases hg
  -- Grants are in a decision for the uplink only, which no other request is answered with.
  cases q with
  | uplinkTrigger => rfl
  | quality =>
    obtain ⟨_, _, heq⟩ := hanswered _ hi
    cases heq
  | downlinkTrigger =>
    obtain ⟨_, rfl⟩ := hanswered
    cases List.mem_singleton.1 hi
  | reconfigureBearers => cases hanswered
  | _ =>
    cases hanswered
    simp at hi

/-- An accepted uplink trigger. -/
theorem event_of_step (hstep : s.step policy q = .ok (s', said))
    (hup : (⟨s, q, s', said⟩ : Event Record).isUplink = true) :
    ∃ grid time outcomes, s.grid = some grid ∧
      (⟨s, q, s', said⟩ : Event Record) = UplinkTrigger.event s grid time outcomes := by
  cases accepted_of_step hstep with
  | uplink _ hgrid => exact ⟨_, _, _, hgrid, rfl⟩
  | _ => cases hup

end SchedulerState

namespace UplinkTrigger

variable {grid : Grid} {time : Subframe} {outcomes : List UplinkOutcome} {t : Timetable} {n : Nat}
  {d : UplinkGrant}

/-- A retransmission is that of the reported block, which failed and was left some retries. -/
theorem again_of_grant (henabled : s.config.harqEnabled = true)
    (hsound : UplinkTable.Sound s.uplink.ues) (htells : t.Tells s.uplink.ues[r]?)
    (hd : d ∈ (event s grid time outcomes).grants) (hname : d.rnti = r) (hndi : d.ndi = 0) :
    d ∈ (retries s grid outcomes).sent ∧
      (event s grid time outcomes).verdict? r = some false ∧
      ∃ b, t Timetable.due = some b ∧ b.retries < maxRetransmissions ∧ d = b.again := by
  have hjudged := judged_retries s grid time outcomes henabled hsound htells
  have hstored := stored_fresh s grid outcomes henabled
  rw [grants_event] at hd
  rcases List.mem_append.1 hd with hd | hd
  · exact ⟨hd, hjudged.granted d hd hname⟩
  · rw [hstored.isNew d hd] at hndi
    cases hndi

/-- After a trigger, its own subframe holds the block of its grant to a UE. -/
theorem timetable_of_grant (n : Nat) (henabled : s.config.harqEnabled = true)
    (hsound : UplinkTable.Sound s.uplink.ues) (htells : t.Tells s.uplink.ues[r]?)
    (hd : d ∈ (event s grid time outcomes).grants) (hname : d.rnti = r) :
    d.ndi = 1 ∧ (event s grid time outcomes).timetable n r t 1 = some (.first n d) ∨
      d.ndi = 0 ∧ ∃ b, t Timetable.due = some b ∧ d = b.again ∧
        (event s grid time outcomes).timetable n r t 1 = some (b.retried n true) := by
  have hjudged := judged_retries s grid time outcomes henabled hsound htells
  have hstored := stored_fresh s grid outcomes henabled
  have hfresh := fair_fresh s grid outcomes hsound
  rw [timetable_event s grid time outcomes n hjudged hstored]
  have hpresent : ∀ t : Timetable, t.tick 1 = t 0 := fun t => t.tick_succ 0
  rw [grants_event] at hd
  rw [hpresent, Timetable.foldl_place, List.getLast?_map]
  rcases List.mem_append.1 hd with hd | hd
  · -- A UE that was served a retransmission gets no new blocks.
    obtain ⟨hverdict, b, hdue, hleft, rfl⟩ := hjudged.granted d hd hname
    have hnone : (fresh s grid outcomes).sent.filter (·.rnti = r) = [] := by
      refine List.filter_eq_nil_iff.2 fun g hg hr => ?_
      have hne := not_served_of_candidate s grid outcomes (hfresh.named g hg) _ hd
      exact hne (hname.trans (of_decide_eq_true hr).symm)
    have hgranted : (retries s grid outcomes).sent.any (·.rnti = r) = true :=
      List.any_eq_true.2 ⟨_, hd, decide_eq_true hname⟩
    refine .inr ⟨rfl, b, hdue, rfl, ?_⟩
    rw [hnone, hgranted, hverdict]
    exact Timetable.judge_zero hdue hleft
  · refine .inl ⟨hstored.isNew d hd, ?_⟩
    have hmem : d ∈ (fresh s grid outcomes).sent.filter (·.rnti = r) :=
      List.mem_filter.2 ⟨hd, decide_eq_true hname⟩
    cases hlast : ((fresh s grid outcomes).sent.filter (·.rnti = r)).getLast? with
    | none =>
      rw [List.getLast?_eq_none_iff.1 hlast] at hmem
      cases hmem
    | some g =>
      -- The only new grant to the UE.
      obtain ⟨hg, hr⟩ := List.mem_filter.1 (List.mem_of_getLast? hlast)
      have heq : g.rnti = d.rnti := (of_decide_eq_true hr).trans hname.symm
      obtain rfl := List.inj_on_of_nodup_map hfresh.handout.nodup hg hd heq
      exact Timetable.place_zero

/-- Whether a failed block is granted again depends on the room. -/
theorem again_iff_hasRoom (hgrid : s.grid = some grid) (henabled : s.config.harqEnabled = true)
    (hsound : UplinkTable.Sound s.uplink.ues) {T : Rnti → Timetable}
    (htells : ∀ r : Rnti, (T r).Tells s.uplink.ues[r]?) {b : Transit}
    (hfailed : (event s grid time outcomes).verdict? r = some false)
    (hdue : T r Timetable.due = some b) (hname : b.grant.rnti = r)
    (hleft : b.retries < maxRetransmissions) :
    b.again ∈ (event s grid time outcomes).grants ↔
      (event s grid time outcomes).HasRoom b.grant := by
  have hjudged := fun r => judged_retries s grid time outcomes henabled hsound (htells r)
  constructor
  · intro hagain i hi
    have hhand := handout_decision s grid outcomes hsound
    rw [← show (event s grid time outcomes).grants = (decision s grid outcomes).grants from
      grants_event s grid time outcomes] at hhand
    have hfree := hhand.allots.wasFree _ (List.mem_map_of_mem hagain) i hi
    obtain ⟨hlt, husable, hreserved⟩ := (isFree_opened s grid i).1 hfree
    refine ⟨⟨grid, hgrid, hlt⟩, husable, hreserved, fun g hg _ hne hig => ?_⟩
    -- Different grants of a trigger have no block in common, in either order.
    have hsymm : Std.Symm fun g g' : UplinkGrant => g.blocks.Disjoint g'.blocks :=
      ⟨fun _ _ h _ hi hi' => h hi' hi⟩
    have hdisjoint := List.pairwise_map.1 hhand.allots.disjoint
    have hdiff : g ≠ b.again := by
      rintro rfl
      exact hne rfl
    exact hdisjoint.forall hg hagain hdiff hig hi
  · intro hroom
    rw [grants_event]
    -- If the block was refused, one of its blocks was taken before the trigger or by another
    -- retransmission, and then there was no room.
    rcases (hjudged r).refused hfailed b hdue hleft with hmem | ⟨i, hi, htaken⟩
    · exact List.mem_append_left _ hmem
    · obtain ⟨⟨grid', hgrid', hlt⟩, husable, hreserved, hother⟩ := hroom i hi
      obtain rfl : grid = grid' := Option.some.inj (hgrid.symm.trans hgrid')
      rcases htaken with hbusy | ⟨g, hg, hne, hig⟩
      · rw [(isFree_opened s grid i).2 ⟨hlt, husable, hreserved⟩] at hbusy
        cases hbusy
      · obtain ⟨-, b', -, -, heq⟩ := (hjudged g.rnti).granted g hg rfl
        refine absurd hig (hother g ?_ (heq ▸ rfl) (hname ▸ hne))
        rw [grants_event]
        exact List.mem_append_left _ hg

end UplinkTrigger

namespace Run

variable {i j n : Nat} {b : Transit}

/-- An uplink trigger of a run of a cell that retransmits, and what holds before it. -/
theorem event_of_uplink (hrun : Run policy config es s) (henabled : config.harqEnabled = true)
    (he : es[i]? = some e) (hup : e.isUplink = true) :
    ∃ (s' : SchedulerState Record) (grid : Grid) (time : Subframe) (outcomes : List UplinkOutcome),
      s'.grid = some grid ∧ s'.config.harqEnabled = true ∧ UplinkTable.Sound s'.uplink.ues ∧
        (∀ r : Rnti, (timetable (es.take i) r).Tells s'.uplink.ues[r]?) ∧
        e = UplinkTrigger.event s' grid time outcomes := by
  obtain ⟨hbefore, hstep⟩ := hrun.before_of_getElem? he
  obtain ⟨grid, time, outcomes, hgrid, heq⟩ := SchedulerState.event_of_step hstep hup
  obtain ⟨hsound, htells⟩ := hbefore.tells henabled
  have hconfig : e.before.config.harqEnabled = true :=
    hbefore.reachable.invariant.config ▸ henabled
  exact ⟨e.before, grid, time, outcomes, hgrid, hconfig, hsound, htells, heq⟩

/-- What an event grants again to a UE is the block that it is told about. -/
theorem again_of_grant (hrun : Run policy config es s) (henabled : config.harqEnabled = true)
    (he : es[i]? = some e) (hup : e.isUplink = true) {d : UplinkGrant} (hd : d ∈ e.grants)
    (hname : d.rnti = r) (hndi : d.ndi = 0) :
    ∃ b, timetable (es.take i) r Timetable.due = some b ∧ d = b.again := by
  obtain ⟨_, _, _, _, -, hconfig, hsound, htells, rfl⟩ := hrun.event_of_uplink henabled he hup
  obtain ⟨-, -, b, hdue, -, heq⟩ :=
    UplinkTrigger.again_of_grant hconfig hsound (htells r) hd hname hndi
  exact ⟨b, hdue, heq⟩

/-- A UE that is told of a failure is granted something again exactly if that is its block. -/
theorem any_again_iff (hrun : Run policy config es s) (henabled : config.harqEnabled = true)
    (he : es[i]? = some e) (hfailed : e.verdict? r = some false)
    (hslot : timetable (es.take i) r Timetable.due = some b) :
    (e.grants.filter (·.rnti = r)).any (·.ndi = 0) = true ↔ b.again ∈ e.grants := by
  constructor
  · intro hany
    obtain ⟨g, hg, hndi⟩ := List.any_eq_true.1 hany
    obtain ⟨hg, hname⟩ := List.mem_filter.1 hg
    obtain ⟨b', hdue, rfl⟩ := hrun.again_of_grant henabled he (Event.isUplink_of_verdict hfailed) hg
      (of_decide_eq_true hname) (of_decide_eq_true hndi)
    obtain rfl : b = b' := Option.some.inj (hslot.symm.trans hdue)
    exact hg
  · intro hagain
    have hname : b.again.rnti = r :=
      ((orderly_timetable (es.take i) r).proper Timetable.due b hslot).name
    exact List.any_eq_true.2
      ⟨b.again, List.mem_filter.2 ⟨hagain, decide_eq_true hname⟩, decide_eq_true rfl⟩

/-- The events that a block remembers granted it. -/
theorem recorded (hrun : Run policy config es s) (henabled : config.harqEnabled = true)
    {k : Fin uplinkProcesses} (hb : timetable es r k = some b) :
    ∀ n ∈ b.sent, ∃ e, es[n]? = some e ∧ b.GrantedIn e := by
  induction hrun generalizing k b with
  | start => cases hb
  | @step es s s' q said hrun hq ih =>
    have hlast : (es ++ [(⟨s, q, s', said⟩ : Event Record)])[es.length]? = some ⟨s, q, s', said⟩ :=
      List.getElem?_concat_length ..
    -- What was recorded before the last event is found among the same events.
    have hkept : ∀ {k b}, timetable es r k = some b → ∀ n ∈ b.sent, ∃ e,
        (es ++ [(⟨s, q, s', said⟩ : Event Record)])[n]? = some e ∧ b.GrantedIn e := by
      intro k b hmem n hn
      obtain ⟨e, he, hgranted⟩ := ih hmem n hn
      refine ⟨e, ?_, hgranted⟩
      rw [List.getElem?_append_left (List.getElem?_eq_some_iff.1 he).1, he]
    rw [timetable_concat] at hb
    cases Event.carries_of_mem hb with
    | kept hmem => exact hkept hmem
    | @granted g hmem =>
      intro n hn
      obtain rfl := List.mem_singleton.1 hn
      exact ⟨_, hlast, .inl ⟨g, hmem, rfl⟩⟩
    | @answered a hmem =>
      intro n hn
      obtain rfl := List.mem_singleton.1 hn
      exact ⟨_, hlast, .inr ⟨a, hmem, rfl⟩⟩
    | @retried b hverdict hmem hleft =>
      intro n hn
      cases hany : ((⟨s, q, s', said⟩ : Event Record).grants.filter (·.rnti = r)).any
        (·.ndi = 0) with
      | false =>
        rw [hany] at hn
        exact hkept hmem n hn
      | true =>
        rw [hany] at hn
        rcases List.mem_append.1 hn with hn | hn
        · exact hkept hmem n hn
        · -- What the event grants again to the UE is this block.
          obtain rfl := List.mem_singleton.1 hn
          have hagain := ((hrun.step hq).any_again_iff henabled hlast hverdict
            (by rwa [List.take_left])).1 hany
          exact ⟨_, hlast, .inl ⟨b.again, hagain, rfl⟩⟩

/-- A failed block that was not retried often enough is granted again if there is room for it. -/
theorem again_iff_hasRoom (hrun : Run policy config es s) (henabled : config.harqEnabled = true)
    (he : es[n]? = some e) {b : Transit} (hfailed : e.verdict? r = some false)
    (hdue : timetable (es.take n) r Timetable.due = some b)
    (hleft : b.retries < maxRetransmissions) : b.again ∈ e.grants ↔ e.HasRoom b.grant := by
  obtain ⟨_, _, _, _, hgrid, hconfig, hsound, htells, rfl⟩ :=
    hrun.event_of_uplink henabled he (Event.isUplink_of_verdict hfailed)
  have hname := ((orderly_timetable (es.take n) r).proper Timetable.due b hdue).name
  exact UplinkTrigger.again_iff_hasRoom hgrid hconfig hsound htells hfailed hdue hname hleft

/-- Every retry of a block that did not grant it was for want of room. -/
theorem counted (hrun : Run policy config es s) (henabled : config.harqEnabled = true)
    {k : Fin uplinkProcesses} (hb : timetable es r k = some b) :
    ∃ abandoned : List Nat, b.retries + 1 = b.sent.length + abandoned.length ∧
      abandoned.Pairwise (· < ·) ∧ ∀ n ∈ abandoned, b.AbandonedIn es r n := by
  induction hrun generalizing k b with
  | start => cases hb
  | @step es s s' q said hrun hq ih =>
    have hlast : (es ++ [(⟨s, q, s', said⟩ : Event Record)])[es.length]? = some ⟨s, q, s', said⟩ :=
      List.getElem?_concat_length ..
    rw [timetable_concat] at hb
    cases Event.carries_of_mem hb with
    | kept hmem =>
      obtain ⟨abandoned, hcount, hsorted, hnoRoom⟩ := ih hmem
      exact ⟨abandoned, hcount, hsorted, fun n hn => (hnoRoom n hn).append _⟩
    | granted => exact ⟨[], rfl, .nil, fun _ hn => absurd hn List.not_mem_nil⟩
    | answered => exact ⟨[], rfl, .nil, fun _ hn => absurd hn List.not_mem_nil⟩
    | @retried b hverdict hdue hleft =>
      obtain ⟨abandoned, hcount, hsorted, hnoRoom⟩ := ih hdue
      have hproper := (orderly_timetable es r).proper Timetable.due b hdue
      have hslot : timetable ((es ++ [(⟨s, q, s', said⟩ : Event Record)]).take es.length) r
          Timetable.due = some b := by rwa [List.take_left]
      have hearlier : ∀ granted, ∀ n ∈ abandoned, (b.retried es.length granted).AbandonedIn
          (es ++ [⟨s, q, s', said⟩]) r n := fun granted n hn => by
        have hfollows := Transit.follows_retried b es.length granted
        exact ((hnoRoom n hn).append _).of_follows hfollows (hfollows.origin hproper)
      cases hany : ((⟨s, q, s', said⟩ : Event Record).grants.filter (·.rnti = r)).any
        (·.ndi = 0) with
      | true =>
        refine ⟨abandoned, ?_, hsorted, hearlier true⟩
        change b.retries + 1 + 1 = (b.sent ++ [es.length]).length + abandoned.length
        rw [List.length_append, List.length_singleton]
        omega
      | false =>
        -- The event is told of the failure, and grants the UE nothing again: it lacks the room.
        have hnone : ¬(⟨s, q, s', said⟩ : Event Record).HasRoom b.grant := fun hroom => by
          have hagain := ((hrun.step hq).again_iff_hasRoom henabled hlast hverdict hslot hleft).2
            hroom
          rw [((hrun.step hq).any_again_iff henabled hlast hverdict hslot).2 hagain] at hany
          cases hany
        refine ⟨abandoned ++ [es.length], ?_, ?_, ?_⟩
        · change b.retries + 1 + 1 = b.sent.length + (abandoned ++ [es.length]).length
          rw [List.length_append, List.length_singleton]
          omega
        · refine List.pairwise_append.2 ⟨hsorted, List.pairwise_singleton .., fun n hn m hm => ?_⟩
          obtain ⟨e, -, he, -⟩ := hnoRoom n hn
          rw [List.mem_singleton.1 hm]
          exact (List.getElem?_eq_some_iff.1 he).1
        · intro n hn
          rcases List.mem_append.1 hn with hn | hn
          · exact hearlier false n hn
          · obtain rfl := List.mem_singleton.1 hn
            exact ⟨_, b, hlast, hverdict, hslot, rfl, hnone⟩

/-- The beginning of a run is a run. -/
theorem take (hrun : Run policy config es s) (n : Nat) :
    ∃ s', Run policy config (es.take n) s' := by
  by_cases hn : n < es.length
  · exact ⟨_, (hrun.before_of_getElem? (List.getElem?_eq_getElem hn)).1⟩
  · rw [List.take_of_length_le (Nat.le_of_not_lt hn)]
    exact ⟨s, hrun⟩

/-- Every grant is that of a block. -/
theorem sentBy_of_grant (hrun : Run policy config es s) (henabled : config.harqEnabled = true)
    (he : es[i]? = some e) {d : UplinkGrant} (hd : d ∈ e.grants) (hname : d.rnti = r) :
    ∃ b : Transit, b.SentBy es r i ∧ d = { b.grant with ndi := d.ndi } ∧
      (d.ndi = 0 →
        ∃ b', timetable (es.take i) r Timetable.due = some b' ∧ b = b'.retried i true) := by
  have hup : e.isUplink = true :=
    SchedulerState.isUplink_of_grants (hrun.before_of_getElem? he).2 hd
  obtain ⟨_, _, _, _, -, hconfig, hsound, htells, rfl⟩ := hrun.event_of_uplink henabled he hup
  have hslot := timetable_take_succ he r
  rcases UplinkTrigger.timetable_of_grant i hconfig hsound (htells r) hd hname with
    ⟨hnew, heq⟩ | ⟨hagain, b, hdue, rfl, heq⟩
  · refine ⟨.first i d, ⟨by rw [hslot, heq], rfl⟩, rfl, fun hndi => ?_⟩
    rw [hnew] at hndi
    cases hndi
  · exact ⟨b.retried i true, ⟨by rw [hslot, heq], List.getLast?_concat⟩, rfl,
      fun _ => ⟨b, hdue, rfl⟩⟩

end Run

/-! ## What becomes of a block

Whatever lies between a grant and the trigger that brings its outcome, the block is found there and
is the one that is acted on.
-/

section Fate

variable {i j : Nat} {b : Transit}

/-- A part of a run in two. -/
theorem take_split (es : List (Event Record)) (h : i ≤ j) :
    es.take j = es.take i ++ (es.take j).drop i := by
  have hsplit := List.take_append_drop i (es.take j)
  rw [List.take_take, Nat.min_eq_left h] at hsplit
  exact hsplit.symm

/-- Seven uplink triggers later, the subframe of event `i` is reported on. -/
theorem Due.timetable_due (h : Due es r i j) :
    timetable (es.take j) r Timetable.due = timetable (es.take (i + 1)) r 1 := by
  have hseventh := h.seventh
  have hle : i + 1 ≤ j := by
    by_contra hlt
    rw [List.drop_of_length_le (by rw [List.length_take]; omega)] at hseventh
    cases hseventh
  rw [take_split es hle, timetable_append (k := 1) h.kept]
  · decide
  · change outcomeDelay = 1 + _
    omega

/-- Seven uplink triggers later, a block is reported on. -/
theorem Due.due (h : Due es r i j) (hb : b.SentBy es r i) :
    timetable (es.take j) r Timetable.due = some b := h.timetable_due.trans hb.1

/-- A block that event `j` takes away is granted no more. -/
theorem Transit.gone (he : es[j]? = some e) (hup : e.isUplink = true)
    (hdue : timetable (es.take j) r Timetable.due = some b)
    (hclear : ∀ granted, (timetable (es.take j) r).judge j (e.verdict? r) granted =
      (timetable (es.take j) r).clear) : b.Gone es r j := by
  obtain ⟨hlt, -⟩ := List.getElem?_eq_some_iff.1 he
  have hlength : (es.take j).length = j := by
    rw [List.length_take]
    omega
  -- After the event no block of this origin is on the timetable, and none can come back, as every
  -- new block has an origin of its own.
  have horderly := orderly_timetable (es.take j) r
  rw [hlength] at horderly
  have hproper := horderly.proper Timetable.due b hdue
  obtain ⟨m, hm⟩ : ∃ m, b.origin? = some m := ⟨_, List.head?_eq_some_head hproper.originates⟩
  have hwithout := e.without_timetable hup horderly hdue hclear
  rw [← timetable_take_succ he] at hwithout
  intro k b' hk hb'
  have hslot := hb'.1
  rw [take_split es (Nat.succ_le_succ hk)] at hslot
  rw [hm] at hwithout ⊢
  refine without_append ?_ hwithout _ 1 b' hslot
  have hpast := hproper.origin_lt hm
  rw [List.length_take]
  omega

end Fate

/-- Along a run of a cell that retransmits, uplink blocks are retransmitted synchronously. The UE
may be any, and so may what is reported of it in between: outcomes of other blocks, doubled or
missing ones, and grants and answers that come on top. -/
theorem Run.synchronous (hrun : Run policy config es s) (henabled : config.harqEnabled = true)
    (r : Rnti) : Synchronous es r where
  granted he hd hname := by
    obtain ⟨b, hb, heq, -⟩ := hrun.sentBy_of_grant henabled he hd hname
    exact ⟨b, hb, heq⟩
  bounded := by
    intro i b hb
    have hproper := (orderly_timetable (es.take (i + 1)) r).proper 1 b hb.1
    have hlength := hproper.length
    have hretries := hproper.retries
    obtain ⟨s', hrun'⟩ := hrun.take (i + 1)
    refine ⟨by omega, hproper.sorted, fun n hn => ?_⟩
    obtain ⟨e, he, hgranted⟩ := hrun'.recorded henabled hb.1 n hn
    rw [List.getElem?_take] at he
    split at he
    · exact ⟨e, he, hgranted⟩
    · cases he
  counted := by
    intro i b hb
    obtain ⟨s', hrun'⟩ := hrun.take (i + 1)
    obtain ⟨abandoned, hcount, hsorted, hnoRoom⟩ := hrun'.counted henabled hb.1
    refine ⟨abandoned, hcount, hsorted, fun n hn => ?_⟩
    -- An event that had no room is one of the run up to the slot, and stays one of the whole run.
    rw [← List.take_append_drop (i + 1) es]
    exact (hnoRoom n hn).append _
  same := by
    intro i i' b b' hle hb hb' horigin
    have hslot := hb'.1
    rw [take_split es (Nat.succ_le_succ hle)] at hslot
    obtain ⟨hgrant, hsent⟩ := follows_append hb.1 hslot horigin
    exact ⟨hgrant, hsent⟩
  delivered := by
    intro i j e b hb hdue he hok
    refine Transit.gone he (Event.isUplink_of_verdict hok) (hdue.due hb) fun granted => ?_
    rw [hok]
    rfl
  again := by
    intro i j _ e d b _ _ hb hd hdue he hfailed hleft
    have hagain : ({ d with ndi := 0 } : UplinkGrant) = b.again := by rw [hd]; rfl
    have hroom : e.HasRoom d ↔ e.HasRoom b.grant := by rw [hd]; rfl
    rw [hagain, hroom]
    have hslot := hdue.due hb
    have hname := ((orderly_timetable (es.take j) r).proper Timetable.due b hslot).name
    refine ⟨hrun.again_iff_hasRoom henabled he hfailed hslot hleft, fun hagain => ?_⟩
    -- The block that is granted again is the one that was due, as only that can be.
    obtain ⟨b', hb', -, hretried⟩ := hrun.sentBy_of_grant henabled he hagain hname
    obtain ⟨b₀, hb₀, rfl⟩ := hretried rfl
    obtain rfl : b = b₀ := Option.some.inj (hslot.symm.trans hb₀)
    exact hb'
  dropped := by
    intro i j e b hb hdue he hfailed hlast
    have hslot := hdue.due hb
    refine Transit.gone he (Event.isUplink_of_verdict hfailed) hslot fun granted => ?_
    rw [hfailed]
    exact Timetable.judge_dropped hslot hlast

/-- Six uplink triggers without a word about any block. -/
def silentTriggers : List Request := List.replicate 6 (.uplinkTrigger ⟨0⟩ [])

/-- An uplink trigger that is told that the block of UE 1 failed. -/
def failedTrigger : Request := .uplinkTrigger ⟨0⟩ [⟨1, .notOk⟩]

/-- A cell that grants UE 1 its first block in event 4, with all that the UE has to send. -/
def firstGrant : List Request :=
  [.connect true true, .configureCell 15 15, .configureUe 1 .singleAntenna,
    .uplinkControls [(1, .bufferStatus [1, 0, 0, 0])], .uplinkTrigger ⟨0⟩ []]

/-- The grant of that block. -/
def wholeBand : UplinkGrant := ⟨1, 0, 15, 40, 0, 1, 1, false, false⟩

/-- A run in which a block fails once and is granted again. -/
theorem synchronous_after_failure :
    ∃ (es : List (Event Throughput)) (s : SchedulerState Throughput) (e e' : Event Throughput)
      (b : Transit),
      Run .tdBet .default es s ∧ SchedulerConfig.default.harqEnabled = true ∧ Synchronous es 1 ∧
      es[4]? = some e ∧ wholeBand ∈ e.grants ∧ b.SentBy es 1 4 ∧ Due es 1 4 11 ∧
      es[11]? = some e' ∧ e'.verdict? 1 = some false ∧ e'.HasRoom wholeBand ∧
      { wholeBand with ndi := 0 } ∈ e'.grants ∧ (b.retried 11 true).SentBy es 1 11 := by
  obtain ⟨es, s, hrun, hcheck⟩ := Run.of_replay .tdBet .default
    (firstGrant ++ silentTriggers ++ [failedTrigger])
    (fun es =>
      es[4]?.any (fun e => e.grants == [wholeBand]) &&
      timetable (es.take 5) 1 1 == some (.first 4 wholeBand) &&
      ((es.take 11).drop 5).countP (·.isUplink) == 6 &&
      ((es.take 11).drop 5).all (fun e => !e.releases 1) &&
      es[11]?.any (fun e =>
        e.verdict? 1 == some false && e.grants == [{ wholeBand with ndi := 0 }]))
    (by decide +kernel)
  simp only [Bool.and_eq_true, beq_iff_eq, Option.any_eq_true, List.all_eq_true,
    Bool.not_eq_true'] at hcheck
  obtain ⟨⟨⟨⟨⟨e, he, hgrants⟩, hslot⟩, hseventh⟩, hkept⟩, e', he', hfailed, hgrants'⟩ := hcheck
  have hsync := hrun.synchronous rfl 1
  have hd : wholeBand ∈ e.grants := by simp [hgrants]
  have hb : Transit.SentBy (.first 4 wholeBand) es 1 4 := ⟨hslot, rfl⟩
  have hdue : Due es 1 4 11 := ⟨by rw [hseventh]; rfl, hkept⟩
  have hagain : { wholeBand with ndi := 0 } ∈ e'.grants := by simp [hgrants']
  obtain ⟨hroom, hsame⟩ := hsync.again he hd hb rfl hdue he' hfailed (by decide)
  exact ⟨es, s, e, e', _, hrun, rfl, hsync, he, hd, hb, hdue, he', hfailed, hroom.1 hagain, hagain,
    hsame hagain⟩

/-- A block is given up although it was retransmitted only twice and there is room for it: it was
not granted when it first failed, because the answer to a random access had taken its blocks. That
retry was counted all the same. -/
theorem dropped_after_two_retransmissions :
    ∃ (es : List (Event Throughput)) (s : SchedulerState Throughput) (e e' : Event Throughput)
      (d : UplinkGrant) (b : Transit),
      Run .tdBet .default es s ∧ SchedulerConfig.default.harqEnabled = true ∧
      es[27]? = some e ∧ d ∈ e.grants ∧ b.SentBy es 1 27 ∧ d = { b.grant with ndi := d.ndi } ∧
      b.sent = [4, 20, 27] ∧ Due es 1 27 34 ∧ es[34]? = some e' ∧ e'.verdict? 1 = some false ∧
      e'.HasRoom d ∧ { d with ndi := 0 } ∉ e'.grants := by
  obtain ⟨es, s, hrun, hcheck⟩ := Run.of_replay .tdBet .default
    (firstGrant ++ silentTriggers ++
      [.randomAccess [⟨40, 5, 56⟩], .downlinkTrigger [], failedTrigger] ++
      silentTriggers ++ [failedTrigger] ++ silentTriggers ++ [failedTrigger] ++
      silentTriggers ++ [failedTrigger])
    (fun es =>
      es[27]?.any (fun e => e.grants == [{ wholeBand with ndi := 0 }]) &&
      timetable (es.take 28) 1 1 == some ⟨wholeBand, 3, [4, 20, 27]⟩ &&
      ((es.take 34).drop 28).countP (·.isUplink) == 6 &&
      ((es.take 34).drop 28).all (fun e => !e.releases 1) &&
      es[34]?.any (fun e =>
        e.verdict? 1 == some false && e.grants == [] && e.before.grid == some ⟨15, 15⟩ &&
        wholeBand.blocks.all fun i => decide (i < 15) && flagAt e.before.reuse.uplinkFlags i &&
          e.before.uplink.reserved.isFree i)) (by decide +kernel)
  simp only [Bool.and_eq_true, beq_iff_eq, Option.any_eq_true, List.all_eq_true,
    Bool.not_eq_true', decide_eq_true_iff] at hcheck
  obtain ⟨⟨⟨⟨⟨e, he, hgrants⟩, hslot⟩, hseventh⟩, hkept⟩, e', he', ⟨⟨hfailed, hgrants'⟩, hgrid⟩,
    hfree⟩ := hcheck
  refine ⟨es, s, e, e', { wholeBand with ndi := 0 }, _, hrun, rfl, he, by simp [hgrants],
    ⟨hslot, rfl⟩, rfl, rfl, ⟨by rw [hseventh]; rfl, hkept⟩, he', hfailed, fun i hi => ?_, ?_⟩
  · obtain ⟨⟨hlt, husable⟩, hreserved⟩ := hfree i hi
    exact ⟨⟨_, hgrid, hlt⟩, husable, hreserved, by simp [hgrants']⟩
  · simp [hgrants']

end LteMac
