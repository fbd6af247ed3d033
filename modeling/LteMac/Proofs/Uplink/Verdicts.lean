import LteMac.Proofs.Scheduler.Consistency
import LteMac.Proofs.Uplink.Timetable

/-!
# Verdicts on uplink blocks

What the two triggers do to the blocks of one UE. Of all outcomes that an uplink trigger is told
about a UE, only the first one that says anything counts (`Round.Judged`): it leaves nothing on the
process that is reported on. Grants and answers to random accesses put their blocks into the present
subframe.

A UE's timetable says what is in flight for it, and when feedback on it is due; it is told by the
events of a run alone. What the uplink keeps of the UE are two circular buffers, with a process that
the present subframe points at. That the buffers say what the timetable says (`Timetable.Tells`) is
an invariant of every run, and all that is claimed about retransmissions is then read off the
timetable.

The pass over the outcomes is an induction with three kinds of steps. An outcome about another UE
leaves this one alone; a first verdict acts on the block that is due; and a second verdict finds
nothing to act on. Whether a failed block is granted again can be seen from the blocks it asks for,
of which none may be taken, either before the pass or by a grant made in it.

* `UplinkRetry.judged_foldl_handle`: a pass over the outcomes acts on the verdict;
* `UplinkTrigger.tells_decide`, `Access.tells_answerAll`: the entities follow the timetables;
* `Run.tells`: along every run the uplink keeps of each UE what its timetable says.
-/

namespace LteMac

variable {r : Rnti} {t : Timetable}

/-- What is told by a single outcome. -/
theorem UplinkTrigger.lookup_acknowledgement (o : UplinkOutcome) :
    ([o].filterMap acknowledgement?).lookup r =
      if o.rnti = r then
        match o.reception with
        | .ok => some true
        | .notOk => some false
        | .notValid => none
      else none := by
  obtain ⟨r', reception⟩ := o
  by_cases hr : r' = r
  · subst hr
    cases reception <;> simp [acknowledgement?]
  · cases reception <;> simp [acknowledgement?, hr, Ne.symm hr]

/-! ## Retransmissions

The pass over the outcomes, seen by a single UE.
-/

namespace UplinkRetry

variable {o : Occupancy} {round : Round} {v : Option Bool}

/-- The state of a pass on the UE `r`, which had the timetable `t`, after the verdict `v`. The
buffers tell the timetable as the verdict leaves it. A grant to the UE is that of the block due,
which failed and was not given up; and if the block failed but was not granted again, then one of
the resource blocks it needs was taken, by somebody else in this pass or before it. -/
structure Round.Judged (o : Occupancy) (r : Rnti) (t : Timetable) (v : Option Bool)
    (round : Round) : Prop where
  /-- The processes are those of the timetable after the verdict. -/
  tells : ∀ n granted, (t.judge n v granted).Tells round.ues[r]?
  /-- A UE that the uplink does not know has nothing in flight. -/
  unknown : round.ues[r]? = none → t = .empty
  /-- What is granted to the UE is the block due, after a failure. -/
  granted : ∀ g ∈ round.sent, g.rnti = r →
    v = some false ∧ ∃ b, t Timetable.due = some b ∧ b.retries < maxRetransmissions ∧ g = b.again
  /-- If the block due is not granted after a failure, one of its blocks was taken. -/
  refused : v = some false → ∀ b, t Timetable.due = some b → b.retries < maxRetransmissions →
    b.again ∈ round.sent ∨
      ∃ i ∈ b.grant.blocks, o.isFree i = false ∨
        ∃ g ∈ round.sent, g.rnti ≠ r ∧ i ∈ g.blocks

/-- An outcome of another UE. -/
theorem Round.Fair.handle_other (h : round.Fair o) {outcome : UplinkOutcome}
    (hne : outcome.rnti ≠ r) :
    (round.handle outcome).ues[r]? = round.ues[r]? ∧
      ∃ gs, (round.handle outcome).sent = round.sent ++ gs ∧ ∀ g ∈ gs, g.rnti ≠ r := by
  have hnone : ∃ gs, round.sent = round.sent ++ gs ∧ ∀ g ∈ gs, g.rnti ≠ r := ⟨[], by simp⟩
  have hset : ∀ u harq, (round.setEntity outcome.rnti u harq).ues[r]? = round.ues[r]? :=
    fun u harq => by
      rw [Round.setEntity, Table.getElem?_insert, if_neg (Ne.symm hne)]
  unfold Round.handle
  split
  · exact ⟨rfl, hnone⟩
  · exact ⟨rfl, hnone⟩
  · exact ⟨hset .., hnone⟩
  next u hu _ =>
    dsimp only
    split
    · exact ⟨hset .., hnone⟩
    · exact ⟨hset .., hnone⟩
    -- A block of an entity is addressed to its UE, so what is sent again is not for `r`.
    next g hretry =>
      have hname := (h.sound _ u hu _ g (UplinkEntity.grant_of_retry hretry)).1
      unfold Round.send
      split
      · refine ⟨hset .., [{ g with ndi := 0 }], rfl, fun g' hg' => ?_⟩
        rw [List.mem_singleton.1 hg']
        exact hname ▸ hne
      · exact ⟨hset .., hnone⟩

/-- What is refused stays refused when other UEs are served. -/
theorem Round.Judged.append (h : round.Judged o r t v) {round' : Round} {gs : List UplinkGrant}
    (hues : round'.ues[r]? = round.ues[r]?) (hsent : round'.sent = round.sent ++ gs)
    (hgs : ∀ g ∈ gs, g.rnti ≠ r) : round'.Judged o r t v where
  tells := hues ▸ h.tells
  unknown := hues ▸ h.unknown
  granted g hg hr := by
    rw [hsent] at hg
    rcases List.mem_append.1 hg with hg | hg
    · exact h.granted g hg hr
    · exact absurd hr (hgs g hg)
  refused hv b hb hleft := by
    rw [hsent]
    rcases h.refused hv b hb hleft with hmem | ⟨i, hi, htaken⟩
    · exact .inl (List.mem_append_left _ hmem)
    · refine .inr ⟨i, hi, htaken.imp_right ?_⟩
      rintro ⟨g, hg, hne, hig⟩
      exact ⟨g, List.mem_append_left _ hg, hne, hig⟩

/-- A UE that was not judged yet was not served. -/
theorem Round.Judged.not_granted (h : round.Judged o r t none) : ∀ g ∈ round.sent, g.rnti ≠ r :=
  fun g hg hr => nomatch (h.granted g hg hr).1

/-- A UE without processes is not affected by any verdict. -/
theorem Round.Judged.of_unknown (h : round.Judged o r t v) (hnone : round.ues[r]? = none)
    (v' : Option Bool) : round.Judged o r t v' := by
  obtain rfl := h.unknown hnone
  refine ⟨fun n granted => ?_, fun _ => rfl, fun g hg hr => ?_, fun _ b hb => nomatch hb⟩
  · rw [hnone, Timetable.judge_empty]
    rfl
  · obtain ⟨-, b, hb, -⟩ := h.granted g hg hr
    cases hb

/-- Setting the processes of the UE as the verdict asks for, if nothing is to be sent. -/
theorem Round.Judged.set (h : round.Judged o r t v) {u : UplinkUe} {harq : UplinkEntity}
    {v' : Option Bool} (hharq : ∀ n granted, (t.judge n v' granted).Describes harq)
    (hsame : v = v' ∨ v = none ∧ ∀ b, t Timetable.due = some b →
      v' = some false → maxRetransmissions ≤ b.retries) :
    (round.setEntity r u harq).Judged o r t v' := by
  have hself : (round.setEntity r u harq).ues[r]? = some { u with harq } := by
    rw [Round.setEntity, Table.getElem?_insert, if_pos rfl]
  refine ⟨fun n granted => ?_, fun hnone => ?_, fun g hg hr => ?_, fun hv b hb hleft => ?_⟩
  · rw [hself]
    exact hharq n granted
  · rw [hself] at hnone
    cases hnone
  · rcases hsame with rfl | ⟨rfl, -⟩
    · exact h.granted g hg hr
    · exact absurd hr (h.not_granted g hg)
  · rcases hsame with rfl | ⟨-, hlast⟩
    · exact h.refused hv b hb hleft
    · have := hlast b hb hv
      omega

/-- A block is not free in the middle of a pass because it was not free at its beginning, or because
it was granted since. -/
theorem Round.Fair.taken (h : round.Fair o) {i : Nat} (hi : round.occupancy.isFree i = false) :
    o.isFree i = false ∨ ∃ g ∈ round.sent, i ∈ g.blocks := by
  by_contra hfree
  push Not at hfree
  have hafter : round.occupancy.isFree i = true := by
    refine (h.handout.allots.isFree i).2 ⟨by simpa using hfree.1, ?_⟩
    simpa using hfree.2
  rw [hi] at hafter
  cases hafter

/-- A failed block that can be sent again is, unless one of its blocks is taken. -/
theorem Round.Judged.send (h : round.Judged o r t none) (hfair : round.Fair o) {b : Transit}
    (hdue : t Timetable.due = some b) (hleft : b.retries < maxRetransmissions) {u : UplinkUe}
    (htells : ∀ n granted, (t.judge n (some false) granted).Describes u.harq.retry.2) :
    ((round.setEntity r u u.harq.retry.2).send b.grant r).Judged o r t (some false) := by
  have hself : (round.setEntity r u u.harq.retry.2).ues[r]? =
      some { u with harq := u.harq.retry.2 } := by
    rw [Round.setEntity, Table.getElem?_insert, if_pos rfl]
  have hknown : (round.setEntity r u u.harq.retry.2).ues[r]? ≠ none := by
    rw [hself]
    exact Option.some_ne_none _
  unfold Round.send
  split
  · refine ⟨fun n granted => ?_, fun hnone => absurd hnone hknown, fun g hg hr => ?_,
      fun _ b' hb' _ => .inl ?_⟩
    · rw [hself]
      exact htells n granted
    · rcases List.mem_append.1 hg with hg | hg
      · exact absurd hr (h.not_granted g hg)
      · exact ⟨rfl, b, hdue, hleft, List.mem_singleton.1 hg⟩
    · obtain rfl : b = b' := Option.some.inj (hdue.symm.trans hb')
      exact List.mem_append_right _ (List.mem_singleton.2 rfl)
  next hfull =>
    refine ⟨fun n granted => ?_, fun hnone => absurd hnone hknown,
      fun g hg hr => absurd hr (h.not_granted g hg), fun _ b' hb' _ => .inr ?_⟩
    · rw [hself]
      exact htells n granted
    · obtain rfl : b = b' := Option.some.inj (hdue.symm.trans hb')
      -- What is taken in the middle of the pass was taken before it or granted in it.
      obtain ⟨i, hi, htaken⟩ : ∃ i ∈ b.grant.blocks, round.occupancy.isFree i = false := by
        simpa [Round.setEntity] using hfull
      refine ⟨i, hi, (hfair.taken htaken).imp_right ?_⟩
      rintro ⟨g, hg, hig⟩
      exact ⟨g, hg, h.not_granted g hg, hig⟩

/-- The first verdict is a failure. -/
theorem Round.Judged.fail (h : round.Judged o r t none) (hfair : round.Fair o)
    {outcome : UplinkOutcome} (hr : outcome.rnti = r) {u : UplinkUe}
    (hu : round.ues[r]? = some u) (hnotOk : outcome.reception = .notOk) :
    (round.handle outcome).Judged o r t (some false) := by
  subst hr
  have hharq : t.Describes u.harq := by
    have := h.tells 0 false
    rwa [hu] at this
  have htells := fun n granted => (hharq.judge n granted).2
  unfold Round.handle
  rw [hu, hnotOk]
  dsimp only
  -- The process that is reported on holds what is due in the timetable. So it is known whether it
  -- gives a block, and whether that may be sent again.
  cases hdue : t Timetable.due with
  | none =>
    have hretry : u.harq.retry.1 = .noBlock := by rw [hharq.retry_of_none hdue]
    rw [hretry]
    exact h.set htells (.inr ⟨rfl, fun b hb => nomatch hdue.symm.trans hb⟩)
  | some b =>
    by_cases hlast : maxRetransmissions ≤ b.retries
    · have hretry : u.harq.retry.1 = .dropped := by
        rw [hharq.retry_of_some hdue, if_pos hlast]
      rw [hretry]
      refine h.set htells (.inr ⟨rfl, fun b' hb' _ => ?_⟩)
      obtain rfl : b = b' := Option.some.inj (hdue.symm.trans hb')
      exact hlast
    · have hretry : u.harq.retry.1 = .again b.grant := by
        rw [hharq.retry_of_some hdue, if_neg hlast]
      rw [hretry]
      exact h.send hfair hdue (Nat.lt_of_not_le hlast) htells

/-- The first verdict is a delivery. -/
theorem Round.Judged.deliver (h : round.Judged o r t none) {outcome : UplinkOutcome}
    (hr : outcome.rnti = r) {u : UplinkUe} (hu : round.ues[r]? = some u)
    (hok : outcome.reception = .ok) : (round.handle outcome).Judged o r t (some true) := by
  subst hr
  have hharq : t.Describes u.harq := by
    have := h.tells 0 false
    rwa [hu] at this
  unfold Round.handle
  rw [hu, hok]
  exact h.set (fun n granted => (hharq.judge n granted).1) (.inr ⟨rfl, fun _ _ hv => nomatch hv⟩)

/-- A second verdict finds nothing. -/
theorem Round.Judged.again (h : round.Judged o r t v) (hv : v ≠ none) {outcome : UplinkOutcome}
    (hr : outcome.rnti = r) {u : UplinkUe} (hu : round.ues[r]? = some u) :
    (round.handle outcome).Judged o r t v := by
  subst hr
  have htells : ∀ n granted, (t.judge n v granted).Describes u.harq := fun n granted => by
    have := h.tells n granted
    rwa [hu] at this
  unfold Round.handle
  rw [hu]
  cases outcome.reception with
  | notValid => exact h
  | ok =>
    -- Where the due slot is empty already, clearing it changes nothing.
    refine h.set (fun n granted => ?_) (.inl rfl)
    have hclear := (htells n granted).clear
    rwa [Timetable.clear_eq_self (Timetable.due_judge hv)] at hclear
  | notOk =>
    have hnone : u.harq.retry = (.noBlock, u.harq) :=
      (htells 0 false).retry_of_none (Timetable.due_judge hv)
    dsimp only
    rw [hnone]
    exact h.set htells (.inl rfl)

/-- One more outcome keeps the account, whoever it is about. The verdict is the first of those so
far. -/
theorem Round.Judged.handle (h : round.Judged o r t v) (hfair : round.Fair o)
    (outcome : UplinkOutcome) :
    (round.handle outcome).Judged o r t
      (v.or (([outcome].filterMap UplinkTrigger.acknowledgement?).lookup r)) := by
  rw [UplinkTrigger.lookup_acknowledgement]
  by_cases hr : outcome.rnti = r
  · rw [if_pos hr]
    cases hu : round.ues[r]? with
    | none =>
      have hsame : round.handle outcome = round := by
        rw [Round.handle, hr, hu]
      rw [hsame]
      exact h.of_unknown hu _
    | some u =>
      cases v with
      -- Of two verdicts the first one counts.
      | some told => exact h.again nofun hr hu
      | none =>
        cases hreception : outcome.reception with
        | ok => exact h.deliver hr hu hreception
        | notOk => exact h.fail hfair hr hu hreception
        | notValid =>
          have hsame : round.handle outcome = round := by
            rw [Round.handle, hr, hu, hreception]
          rw [hsame]
          exact h
  · rw [if_neg hr, Option.or_none]
    obtain ⟨hues, gs, hsent, hgs⟩ := hfair.handle_other hr
    exact h.append hues hsent hgs

/-- A pass over the outcomes acts on the verdict, which is the first outcome of the UE that says
anything. -/
theorem judged_foldl_handle (hfair : round.Fair o) (htells : t.Tells round.ues[r]?)
    (hsent : ∀ g ∈ round.sent, g.rnti ≠ r) (outcomes : List UplinkOutcome) :
    (outcomes.foldl Round.handle round).Judged o r t
      ((outcomes.filterMap UplinkTrigger.acknowledgement?).lookup r) := by
  induction outcomes using List.reverseRecOn with
  | nil =>
    exact
      { tells := fun _ _ => htells
        unknown := fun (hnone : round.ues[r]? = none) => by rwa [hnone] at htells
        granted := fun g hg heq => absurd heq (hsent g hg)
        refused := nofun }
  | append_singleton rest outcome ih =>
    rw [List.foldl_append, List.filterMap_append, List.lookup_append]
    exact ih.handle (fair_foldl_handle hfair rest) outcome

/-- An outcome leads to one grant at most: a failed block of its UE is granted again. -/
theorem handle_eq (round : Round) (outcome : UplinkOutcome) :
    (round.handle outcome).map = round.map ∧ (round.handle outcome).sent = round.sent ∨
      ∃ u g, round.ues[outcome.rnti]? = some u ∧ u.harq.retry.1 = .again g ∧
        (round.handle outcome).map = round.map.assign g.blocks outcome.rnti ∧
        (round.handle outcome).sent = round.sent ++ [{ g with ndi := 0 }] := by
  unfold Round.handle
  split
  · exact .inl ⟨rfl, rfl⟩
  · exact .inl ⟨rfl, rfl⟩
  · exact .inl ⟨rfl, rfl⟩
  -- The block has failed. It is given up, or sent again if there is room for it.
  next u hu _ =>
    dsimp only
    split
    · exact .inl ⟨rfl, rfl⟩
    · exact .inl ⟨rfl, rfl⟩
    next g hretry =>
      unfold Round.send
      split
      · exact .inr ⟨u, g, hu, hretry, rfl, rfl⟩
      · exact .inl ⟨rfl, rfl⟩

end UplinkRetry

/-! ## New blocks

The pass over the candidates puts new blocks on the present processes of their UEs.
-/

namespace UplinkNew

variable {setting : Setting} {round : Round}

/-- A candidate is served by one new grant on open blocks, which goes on its present process, or
not at all. -/
theorem serve_eq (setting : Setting) (round : Round) (c : Rnti) :
    ((setting.serve round c).ues = round.ues ∧ (setting.serve round c).map = round.map ∧
        (setting.serve round c).sent = round.sent) ∨
      ∃ g : UplinkGrant, g.rnti = c ∧ g.ndi = 1 ∧
        setting.isOpen round.occupancy c g.start g.length = true ∧
        (setting.serve round c).ues =
          round.ues.modify c (granted setting.harqEnabled · g) ∧
        (setting.serve round c).map = round.map.assign g.blocks c ∧
        (setting.serve round c).sent = round.sent ++ [g] := by
  unfold Setting.serve
  split
  · exact .inl ⟨rfl, rfl, rfl⟩
  next first length hstretch =>
    dsimp only
    split
    · exact .inl ⟨rfl, rfl, rfl⟩
    · exact .inr ⟨_, rfl, rfl, (isOpen_of_stretch? hstretch).2, rfl, rfl, rfl⟩

/-- The state of a pass that began on the table `ues`: every new grant is on the present process of
its UE. -/
structure Round.Stored (ues : Table Rnti UplinkUe) (round : Round) : Prop where
  /-- The processes of a UE take in its grants, one after the other. -/
  harq : ∀ r : Rnti, round.ues[r]?.map (·.harq) =
    ues[r]?.map fun u => (round.sent.filter (·.rnti = r)).foldl .store u.harq
  /-- All grants are of new data. -/
  isNew : ∀ g ∈ round.sent, g.ndi = 1

/-- One more candidate. -/
theorem Round.Stored.serve {ues : Table Rnti UplinkUe} (h : round.Stored ues)
    (henabled : setting.harqEnabled = true) (c : Rnti) :
    (setting.serve round c).Stored ues := by
  obtain ⟨hues, -, hsent⟩ | ⟨g, hc, hnew, -, hues, -, hsent⟩ := serve_eq setting round c
  · refine ⟨fun r => ?_, ?_⟩
    · rw [hues, hsent]
      exact h.harq r
    · rw [hsent]
      exact h.isNew
  -- The candidate is granted a new block, which its entity stores like the others of the round.
  · subst hc
    refine ⟨fun r => ?_, ?_⟩
    · rw [hues, hsent, Table.getElem?_modify, List.filter_append]
      by_cases hr : r = g.rnti
      · have hstore : ∀ u, (granted setting.harqEnabled u g).harq = u.harq.store g := fun u => by
          rw [granted, if_pos henabled]
        have hbefore := congrArg (Option.map (·.store g)) (h.harq g.rnti)
        simpa [hr, Function.comp_def, hstore] using hbefore
      · simpa [hr, Ne.symm hr] using h.harq r
    · rw [hsent]
      exact List.forall_mem_append.2 ⟨h.isNew, by simpa using hnew⟩

/-- After the pass, every new grant is on the present process of its UE. -/
theorem stored_serveAll {ues : Table Rnti UplinkUe} {cs : List Rnti}
    (henabled : setting.harqEnabled = true) (hues : round.ues = ues) (hsent : round.sent = []) :
    (setting.serveAll round cs).Stored ues := by
  have hstart : round.Stored ues := ⟨by simp [hues, hsent], by simp [hsent]⟩
  unfold Setting.serveAll
  split
  · exact hstart
  · induction cs using List.reverseRecOn with
    | nil => exact hstart
    | append_singleton cs c ih =>
      rw [List.foldl_append]
      exact ih.serve henabled c

end UplinkNew

/-! ## The whole trigger

The pass over the outcomes judges the block that is due, the pass over the candidates places new
ones, and in the end the cursor goes on. Together they do to an entity what an event does to its
timetable.
-/

namespace UplinkTrigger

variable {Record : Type} (s : SchedulerState Record) (grid : Grid) (time : Subframe)
  (outcomes : List UplinkOutcome)

/-- An accepted uplink trigger. -/
def event : Event Record :=
  ⟨s, .uplinkTrigger time outcomes, (decide s grid time outcomes).1,
    (decide s grid time outcomes).2⟩

/-- The grants of a trigger: blocks sent again come before new ones. -/
theorem grants_event : (event s grid time outcomes).grants =
    (retries s grid outcomes).sent ++ (fresh s grid outcomes).sent :=
  List.append_nil _

/-- The retransmissions of a trigger act on the verdict. -/
theorem judged_retries (henabled : s.config.harqEnabled = true)
    (hsound : UplinkTable.Sound s.uplink.ues) (htells : t.Tells s.uplink.ues[r]?) :
    (retries s grid outcomes).Judged (opened s grid) r t
      ((event s grid time outcomes).verdict? r) := by
  unfold retries retransmit
  rw [if_pos henabled]
  refine UplinkRetry.judged_foldl_handle (fair_start s grid hsound) ?_ (by simp) outcomes
  -- To note a request does not touch the processes.
  rw [Std.ExtTreeMap.getElem?_map]
  cases hu : s.uplink.ues[r]? with
  | none => rwa [hu] at htells
  | some u =>
    rw [hu] at htells
    change t.Describes (noteRequest s.config.requestBytes u).harq
    unfold noteRequest
    split <;> exact htells

/-- The new grants of a trigger are on the present processes of their UEs. -/
theorem stored_fresh (henabled : s.config.harqEnabled = true) :
    (fresh s grid outcomes).Stored (retries s grid outcomes).ues := by
  unfold fresh sendNew
  split
  · exact ⟨by simp, by simp⟩
  · dsimp only
    refine UplinkNew.stored_serveAll ?_ rfl rfl
    exact henabled

/-- The timetable after a trigger: the new grants take the place of what was judged. -/
theorem timetable_event (n : Nat)
    (hjudged : (retries s grid outcomes).Judged (opened s grid) r t
      ((event s grid time outcomes).verdict? r))
    (hstored : (fresh s grid outcomes).Stored (retries s grid outcomes).ues) :
    (event s grid time outcomes).timetable n r t =
      (((((fresh s grid outcomes).sent.filter (·.rnti = r))).map (.first n)).foldl .place
        (t.judge n ((event s grid time outcomes).verdict? r)
          ((retries s grid outcomes).sent.any (·.rnti = r)))).tick := by
  have hagain : ∀ g ∈ (retries s grid outcomes).sent, g.rnti = r → g.ndi = 0 := fun g hg hr => by
    obtain ⟨-, b, -, -, rfl⟩ := hjudged.granted g hg hr
    rfl
  -- Retransmissions are told from new grants by their new data indicator.
  have hany : ((event s grid time outcomes).grants.filter (·.rnti = r)).any (·.ndi = 0) =
      (retries s grid outcomes).sent.any (·.rnti = r) := by
    rw [grants_event, Bool.eq_iff_iff]
    simp only [List.any_eq_true, List.mem_filter, List.mem_append, decide_eq_true_iff]
    constructor
    · rintro ⟨g, ⟨hg | hg, hr⟩, hndi⟩
      · exact ⟨g, hg, hr⟩
      · rw [hstored.isNew g hg] at hndi
        cases hndi
    · rintro ⟨g, hg, hr⟩
      exact ⟨g, ⟨.inl hg, hr⟩, hagain g hg hr⟩
  have hnew : ((event s grid time outcomes).grants.filter (·.rnti = r)).filter (·.ndi = 1) =
      (fresh s grid outcomes).sent.filter (·.rnti = r) := by
    rw [grants_event, List.filter_append, List.filter_append,
      List.filter_eq_nil_iff.2 fun g hg => ?_, List.nil_append,
      List.filter_eq_self.2 fun g hg => ?_]
    · simpa using hstored.isNew g (List.mem_filter.1 hg).1
    · obtain ⟨hg, hr⟩ := List.mem_filter.1 hg
      simp [hagain g hg (by simpa using hr)]
  rw [← hany, ← hnew]
  rfl

/-- The entities follow the timetables through a trigger. The order matters: first the verdict, then
the new grants on the present process, and last the step to the next subframe, which turns the
buffers and the timetable alike. -/
theorem tells_decide (n : Nat) (henabled : s.config.harqEnabled = true)
    (hsound : UplinkTable.Sound s.uplink.ues) (htells : t.Tells s.uplink.ues[r]?) :
    ((event s grid time outcomes).timetable n r t).Tells
      (decide s grid time outcomes).1.uplink.ues[r]? := by
  have hjudged := judged_retries s grid time outcomes henabled hsound htells
  have hstored := stored_fresh s grid outcomes henabled
  have hharq := hstored.harq r
  have hafter := hjudged.tells n ((retries s grid outcomes).sent.any (·.rnti = r))
  rw [timetable_event s grid time outcomes n hjudged hstored, ues_decide,
    Std.ExtTreeMap.getElem?_map]
  cases hu : (retries s grid outcomes).ues[r]? with
  | none =>
    -- Nobody serves a UE that is not in the table.
    have hnone : (fresh s grid outcomes).sent.filter (·.rnti = r) = [] := by
      refine List.filter_eq_nil_iff.2 fun g hg hr => ?_
      have hcandidate := (fair_fresh s grid outcomes hsound).named g hg
      have hknown := (Bool.and_eq_true_iff.1 (List.mem_filter.1 hcandidate).2).2
      rw [of_decide_eq_true hr, hu] at hknown
      cases hknown
    rw [hu, Option.map_none, Option.map_eq_none_iff] at hharq
    rw [hharq, hnone, hjudged.unknown hu, Timetable.judge_empty]
    rfl
  | some u =>
    rw [hu] at hharq hafter
    obtain ⟨u', hu', heq⟩ := Option.map_eq_some_iff.1 hharq
    rw [hu', Option.map_some]
    change Timetable.Describes _ (if s.config.harqEnabled then u'.harq.advance else u'.harq)
    rw [if_pos henabled, heq]
    exact (hafter.foldl_place n _).tick

end UplinkTrigger

/-! ## Random access answers

A downlink trigger touches the entities as well: each answer stores the block that it grants. It
goes to the present subframe, like a new block of the uplink.
-/

namespace Access

/-- Every answer is on the present process of its UE. -/
theorem harq_foldl_storeGrant (answers : List AccessGrant) (ues : Table Rnti UplinkUe) (r : Rnti) :
    (answers.foldl storeGrant ues)[r]?.map (·.harq) =
      ues[r]?.map fun u =>
        ((answers.filter (·.rnti = r)).map uplinkGrant).foldl .store u.harq := by
  rw [getElem?_foldl_storeGrant, Option.map_map]
  rfl

/-- The entities follow the timetables through the answers of a downlink trigger. -/
theorem tells_foldl_storeGrant {ues : Table Rnti UplinkUe} (htells : t.Tells ues[r]?) (n : Nat)
    (answers : List AccessGrant) :
    Timetable.Tells
      (if r ∈ ues then
        (((answers.filter (·.rnti = r)).map uplinkGrant).map (.first n)).foldl .place t
      else t)
      (answers.foldl storeGrant ues)[r]? := by
  have hharq := harq_foldl_storeGrant answers ues r
  cases hu : ues[r]? with
  -- A UE without a record has nothing to store an answer in, and its timetable stays as it is.
  | none =>
    rw [hu] at hharq htells
    rw [if_neg (Table.not_mem_iff.2 hu), Option.map_eq_none_iff.1 hharq]
    exact htells
  | some u =>
    rw [hu] at hharq htells
    obtain ⟨u', hu', heq⟩ := Option.map_eq_some_iff.1 hharq
    rw [if_pos (Table.mem_of_getElem? hu), hu']
    change Timetable.Describes _ u'.harq
    rw [heq]
    exact Timetable.Describes.foldl_place htells n _

end Access

/-! ## Runs

Every accepted request keeps buffers and timetables together; most of them touch neither.
-/

variable {Record : Type} {policy : Policy Record} {config : SchedulerConfig}
  {es : List (Event Record)} {s s' : SchedulerState Record} {q : Request} {said : List Indication}

namespace SchedulerState

/-- A request that moves nothing in flight changes no timetable. -/
theorem timetable_of_quiet (hq : q.isQuiet = true) (n : Nat) (r : Rnti) (t : Timetable) :
    (⟨s, q, s', said⟩ : Event Record).timetable n r t = t := by
  cases q <;> first | rfl | cases hq

/-- The entities follow the timetables through an accepted request. -/
theorem tells_of_step (h : ∀ r : Rnti, (timetable es r).Tells s.uplink.ues[r]?)
    (hsound : UplinkTable.Sound s.uplink.ues) (henabled : s.config.harqEnabled = true)
    (hconsistent : s.Consistent) (hstep : s.step policy q = .ok (s', said)) (r : Rnti) :
    (timetable (es ++ [⟨s, q, s', said⟩]) r).Tells s'.uplink.ues[r]? := by
  rw [timetable_concat]
  cases effect_of_step hstep with
  | cell => exact h r
  | @added r' mode hnew =>
    change (timetable es r).Tells (s.uplink.ues.insert r' (.idle s.downlink.tti))[r]?
    rw [Table.getElem?_insert]
    by_cases hr : r = r'
    · -- The uplink did not know the UE.
      have hunknown : s.uplink.ues[r]? = none := by
        rw [← Table.not_mem_iff, hconsistent.uplink.records, hr,
          Std.ExtTreeMap.mem_iff_contains, hnew]
        nofun
      have hempty := h r
      rw [hunknown] at hempty
      rw [if_pos hr, show timetable es r = .empty from hempty]
      exact Timetable.describes_fresh
    · rw [if_neg hr]
      exact h r
  | @released r' =>
    change Timetable.Tells (if r' = r then .empty else timetable es r) (s.uplink.ues.erase r')[r]?
    rw [Table.getElem?_erase]
    by_cases hr : r = r'
    · rw [if_pos hr, if_pos hr.symm]
      rfl
    · rw [if_neg hr, if_neg (Ne.symm hr)]
      exact h r
  | heard => exact h r
  | @downlink feedback grid =>
    -- The answers of the trigger are put in the present slot, for the UEs that are configured.
    have hanswers := Access.tells_foldl_storeGrant (h r) es.length (Access.answerAll s grid).2
    have hues : (DownlinkTrigger.decide policy s grid feedback).1.uplink.ues =
        (Access.answerAll s grid).2.foldl Access.storeGrant s.uplink.ues := if_pos henabled
    have hknown : r ∈ s.uplink.ues ↔ s.ues.contains r = true :=
      (hconsistent.uplink.records r).trans Std.ExtTreeMap.mem_iff_contains
    rw [hues]
    rw [if_congr hknown rfl rfl] at hanswers
    simpa [Event.timetable, Event.answers, DownlinkTrigger.decide, Indication.answers]
      using hanswers
  | @uplink time outcomes grid =>
    exact UplinkTrigger.tells_decide s grid time outcomes es.length henabled hsound (h r)
  | quiet hq hmove =>
    rw [timetable_of_quiet hq]
    exact (h r).congr (hmove.entities r)

end SchedulerState

/-- What the uplink keeps of each UE is what its timetable says. The entities are well formed all
along, which is part of the invariant since a buffer of another length would be turned to another
process. -/
theorem Run.tells (hrun : Run policy config es s) (henabled : config.harqEnabled = true) :
    UplinkTable.Sound s.uplink.ues ∧ ∀ r : Rnti, (timetable es r).Tells s.uplink.ues[r]? := by
  refine hrun.invariant (P := fun es s => UplinkTable.Sound s.uplink.ues ∧
    ∀ r : Rnti, (timetable es r).Tells s.uplink.ues[r]?) ⟨.empty, fun r => ?_⟩ ?_
  · change Timetable.Tells .empty (∅ : Table Rnti UplinkUe)[r]?
    rw [Std.ExtTreeMap.getElem?_empty]
    rfl
  · rintro es s s' q said hrun ⟨hsound, htells⟩ hq
    have hconfig : s.config.harqEnabled = true := hrun.reachable.invariant.config ▸ henabled
    exact ⟨SchedulerState.sound_of_step hsound hq, SchedulerState.tells_of_step htells hsound
      hconfig hrun.reachable.consistent hq⟩

end LteMac
