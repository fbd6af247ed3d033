import LteMac.Proofs.Simulation.Feedback
import LteMac.Proofs.Uplink.Synchronous

/-!
# Runs in step

How an uplink block was received turns out some subframes after its grant, and the scheduler takes
the outcome for that of the process whose turn it is. Blocks move through the timetable of a UE by
one subframe with each uplink trigger (`Cell.OutcomesInStep`), and a turn has one of them, so a
block is on the reported process when its outcome comes in.

In the downlink the order matters in which feedback comes in, and here it matters in which outcomes
do: an outcome of another UE that the trigger goes through first must not disturb the processes of
this one. So what it means to meet a block is stated for the state that the outcomes before it lead
to, and it is used that a turn grants no UE twice.

* `Cell.Ready.events_once`: a turn has one uplink trigger, and releases nobody;
* `Cell.OutcomesInStep.next`: a turn leaves the cell in step;
* `Cell.OutcomesInStep.meets`: an outcome that comes in meets its block;
* `Scenario.Accepted.stays_inStep`: all feedback and all outcomes of a run meet their blocks;
* `Scenario.stays_inStep_lossy`: a subframe of a cell with losses in which both come in.
-/

namespace LteMac

variable {Record : Type} {policy : Policy Record} {config : SchedulerConfig}
  {es : List (Event Record)} {t : Turn Record}

/-! ## The first outcome about a UE -/

namespace UplinkTrigger

variable {s : SchedulerState Record} {r : Rnti} {outcomes : List UplinkOutcome}

/-- Outcomes about other UEs do not tell of a UE. -/
theorem verdict_of_unheard (grid : Grid) (time : Subframe) (h : ∀ o ∈ outcomes, o.rnti ≠ r) :
    (event s grid time outcomes).verdict? r = none := by
  induction outcomes using List.reverseRecOn with
  | nil => rfl
  | append_singleton outcomes o ih =>
    obtain ⟨hothers, ho⟩ := List.forall_mem_append.1 h
    have hlookup := lookup_acknowledgement (r := r) o
    rw [if_neg (ho o (List.mem_singleton_self o))] at hlookup
    change ((outcomes ++ [o]).filterMap acknowledgement?).lookup r = none
    rw [List.filterMap_append, List.lookup_append, hlookup, Option.or_none]
    exact ih hothers

/-- As long as a trigger came to no outcome about a UE, the process of the UE that is reported on
holds the block that its timetable says, which can be sent again or given up. -/
theorem found_of_unheard (grid : Grid) (time : Subframe) (henabled : s.config.harqEnabled = true)
    (hsound : UplinkTable.Sound s.uplink.ues) {T : Timetable} (htells : T.Tells s.uplink.ues[r]?)
    {b : Transit} (hdue : T Timetable.due = some b) (hunheard : ∀ o ∈ outcomes, o.rnti ≠ r) :
    ∃ u, (retries s grid outcomes).ues[r]? = some u ∧
      (u.harq.process u.harq.reported).grant = some b.grant ∧ u.harq.retry.1 ≠ .noBlock := by
  have hjudged := judged_retries s grid time outcomes henabled hsound htells
  rw [verdict_of_unheard grid time hunheard] at hjudged
  have htold := hjudged.tells 0 false
  cases hu : (retries s grid outcomes).ues[r]? with
  | none =>
    -- A UE without processes has an empty timetable.
    rw [hjudged.unknown hu] at hdue
    cases hdue
  | some u =>
    rw [hu] at htold
    have hdescribes : T.Describes u.harq := htold
    refine ⟨u, rfl, ?_, ?_⟩
    · rw [hdescribes.reported, hdue]
      rfl
    · rw [hdescribes.retry_of_some hdue]
      split
      · exact nofun
      · exact nofun

end UplinkTrigger

/-! ## The events of a turn -/

/-- A report is no uplink trigger, and releases nobody. -/
theorem Cell.Reports.keeps_timetables {c : Cell Record} {e : Event Record}
    (h : c.Reports e.request) : e.isUplink = false ∧ ∀ r, e.releases r = false := by
  obtain ⟨before, q, after, said⟩ := e
  cases q with
  | uplinkTrigger => cases h.report
  | releaseUe => exact h.routine.elim
  | _ => exact ⟨rfl, fun _ => rfl⟩

namespace Turn.Taken

variable (ht : t.Taken policy)

include ht

/-- The run up to the uplink trigger of a turn. -/
theorem run_before (hrun : Run policy config es t.cell.scheduler) :
    Run policy config (es ++ (t.reports ++ [t.downlink])) t.uplink.before := by
  rw [← List.append_assoc, ht.between]
  exact (hrun.append_replay ht.reports).step ht.downlink

/-- The uplink grants of a turn go to different UEs. -/
theorem nodup_grants (hrun : Run policy config es t.cell.scheduler)
    (henabled : config.harqEnabled = true) : (t.uplink.grants.map (·.rnti)).Nodup := by
  obtain ⟨grid, -, heq⟩ := UplinkTrigger.eq_event ht.outcomes ht.uplink
  have hsound := ((ht.run_before hrun).tells henabled).1
  rw [heq, UplinkTrigger.grants_event]
  exact (UplinkTrigger.handout_decision t.uplink.before grid t.outcomes hsound).nodup

/-- The run up to the end of a turn. -/
theorem run_after (hrun : Run policy config es t.cell.scheduler) :
    Run policy config (es ++ t.events) t.uplink.after :=
  hrun.append_replay ht.replay

end Turn.Taken

namespace Cell.Ready

variable (h : t.cell.Ready policy config) (ht : t.Taken policy)

include h ht

/-- Before its triggers, a turn has nothing but reports of the UEs of the cell. -/
theorem reports_of_mem {e : Event Record} (he : e ∈ t.reports) : t.cell.Reports e.request := by
  refine h.named.reports _ ?_
  rw [← SchedulerState.replay_requests ht.reports]
  exact List.mem_map_of_mem he

/-- Until its uplink trigger, a turn has none, and it releases nobody. -/
theorem events_before :
    (t.reports ++ [t.downlink]).countP (·.isUplink) = 0 ∧
      ∀ e ∈ t.reports ++ [t.downlink], ∀ r, e.releases r = false := by
  have hdownlink : t.downlink.isUplink = false ∧ ∀ r, t.downlink.releases r = false := by
    simp [Event.isUplink, Event.releases, ht.feedback]
  have hall : ∀ e ∈ t.reports ++ [t.downlink],
      e.isUplink = false ∧ ∀ r, e.releases r = false := by
    refine List.forall_mem_append.2 ⟨fun e he => (h.reports_of_mem ht he).keeps_timetables, ?_⟩
    rw [List.forall_mem_singleton]
    exact hdownlink
  refine ⟨List.countP_eq_zero.2 fun e he => ?_, fun e he => (hall e he).2⟩
  rw [(hall e he).1]
  exact Bool.false_ne_true

/-- A turn has one uplink trigger, and releases nobody. -/
theorem events_once :
    t.events.countP (·.isUplink) = 1 ∧ ∀ e ∈ t.events, ∀ r, e.releases r = false := by
  obtain ⟨hcount, hkept⟩ := h.events_before ht
  have huplink : t.uplink.isUplink = true ∧ ∀ r, t.uplink.releases r = false := by
    simp [Event.isUplink, Event.releases, ht.outcomes]
  have hsplit : t.events = (t.reports ++ [t.downlink]) ++ [t.uplink] := by
    rw [Turn.events, List.append_assoc]
    rfl
  rw [hsplit, List.countP_append, hcount, List.countP_singleton, if_pos huplink.1]
  refine ⟨rfl, List.forall_mem_append.2 ⟨hkept, ?_⟩⟩
  rw [List.forall_mem_singleton]
  exact huplink.2

end Cell.Ready

/-! ## In step -/

/-- It turns out for the UEs of the grants how their blocks were received. -/
theorem rntis_reported {gs : List UplinkGrant} {os : List UplinkOutcome}
    (h : List.Forall₂ UplinkGrant.IsReported gs os) : os.map (·.rnti) = gs.map (·.rnti) := by
  have hname : ∀ (g : UplinkGrant) (o : UplinkOutcome), g.IsReported o → g.rnti = o.rnti := by
    rintro g _ ⟨p, rfl⟩
    rfl
  have hnames : List.Forall₂ (· = ·) (gs.map (·.rnti)) (os.map (·.rnti)) :=
    List.forall₂_map_left_iff.2 (List.forall₂_map_right_iff.2 (h.imp hname))
  rw [List.forall₂_eq_eq_eq] at hnames
  exact hnames.symm

/-- What is to turn out after the turns `ts` and the events `es`: an outcome that is due at
`entry.1`, of the grant `g` of turn number `sent`. The timetable of its UE holds the granted block,
as far behind as there are turns since. -/
structure Expects (es : List (Event Record)) (ts : List (Turn Record))
    (entry : Nat × UplinkOutcome) (sent : Nat) (t : Turn Record) (g : UplinkGrant) : Prop where
  /-- An outcome takes its time. -/
  due : entry.1 = sent + outcomeDelay
  /-- It has not come in yet. -/
  pending : ts.length ≤ entry.1
  /-- There was such a turn. -/
  turn : ts[sent]? = some t
  /-- It made the grant. -/
  granted : g ∈ t.uplink.grants
  /-- The outcome is about this grant. -/
  reported : g.IsReported entry.2
  /-- The block has moved by one slot of the timetable with each turn. -/
  placed : ∃ (k : Fin uplinkProcesses) (b : Transit), (k : Nat) = ts.length - sent ∧
    timetable es entry.2.rnti k = some b ∧ b.grant = { g with ndi := 1 }

/-- After the turns `ts` and the events `es`, all outcomes to come are expected, and different ones
that come at the same time are about different UEs. -/
structure Cell.OutcomesInStep (c : Cell Record) (es : List (Event Record))
    (ts : List (Turn Record)) : Prop where
  /-- The cell counts its turns. -/
  tick : c.tick = ts.length
  /-- No two outcomes about a UE come in at the same time. -/
  distinct : (c.outcomes.map fun entry => (entry.1, entry.2.rnti)).Nodup
  /-- All that is on its way is expected. -/
  expected : ∀ entry ∈ c.outcomes, ∃ sent t g, Expects es ts entry sent t g

/-- When the trigger `e` comes to the outcome `o`, after the outcomes `before`, the process that is
reported on holds the block of the grant `g`, as it was granted for the first time. So there is a
block to send again, or to give up, if it failed. -/
def Event.MeetsGrant (e : Event Record) (before : List UplinkOutcome) (o : UplinkOutcome)
    (g : UplinkGrant) : Prop :=
  ∃ grid u, e.before.grid = some grid ∧
    (UplinkTrigger.retries e.before grid before).ues[o.rnti]? = some u ∧
    (u.harq.process u.harq.reported).grant = some { g with ndi := 1 } ∧
    u.harq.retry.1 ≠ .noBlock

namespace Expects

variable {ts : List (Turn Record)} {entry : Nat × UplinkOutcome} {sent : Nat} {t' : Turn Record}
  {g : UplinkGrant}

/-- The block was granted in a turn that is over. -/
theorem sent_lt (h : Expects es ts entry sent t' g) : sent < ts.length :=
  (List.getElem?_eq_some_iff.1 h.turn).1

/-- A turn in which the outcome does not come in moves its block by a subframe. -/
theorem next (h : Expects es ts entry sent t' g) (hready : t.cell.Ready policy config)
    (ht : t.Taken policy) (hlater : ts.length < entry.1) :
    Expects (es ++ t.events) (ts ++ [t]) entry sent t' g := by
  obtain ⟨hcount, hkept⟩ := hready.events_once ht
  obtain ⟨k, b, hk, hb, hgrant⟩ := h.placed
  have hsent := h.sent_lt
  have hdue := h.due
  have hlength : (ts ++ [t]).length = ts.length + 1 := List.length_append
  have hlt : (k : Nat) + 1 < uplinkProcesses := by
    simp only [uplinkProcesses, outcomeDelay] at *
    omega
  -- The present subframe, in which blocks are put, is not the one of an older block.
  have hpos : k ≠ 0 := fun hzero => by
    rw [hzero, Fin.val_zero] at hk
    omega
  exact
    { due := hdue
      pending := hlength ▸ hlater
      turn := by rw [List.getElem?_append_left hsent, h.turn]
      granted := h.granted
      reported := h.reported
      placed := by
        refine ⟨⟨k + 1, hlt⟩, b, ?_, ?_, hgrant⟩
        · rw [hlength, Nat.succ_sub (Nat.le_of_lt hsent)]
          exact congrArg (· + 1) hk
        · rw [timetable_append (k := k) (fun e he => hkept e he entry.2.rnti) hpos, hb]
          rw [hcount] }

end Expects

namespace Cell.OutcomesInStep

variable {ts : List (Turn Record)} {c : Cell Record}

/-- A new cell is in step. -/
theorem start (htick : c.tick = 0) (houtcomes : c.outcomes = []) (es : List (Event Record)) :
    c.OutcomesInStep es [] where
  tick := htick
  distinct := by
    rw [houtcomes]
    exact .nil
  expected := by
    rw [houtcomes]
    exact nofun

/-- The outcomes that come in are about different UEs. -/
theorem nodup_due (h : c.OutcomesInStep es ts) :
    ((dueAt c.tick c.outcomes).map (·.rnti)).Nodup := by
  -- All of them are due right now, so what tells them apart is their UEs.
  have hdue : ∀ entry ∈ c.outcomes.filter (·.1 ≤ c.tick), entry.1 = c.tick := by
    intro entry hentry
    obtain ⟨hmem, hle⟩ := List.mem_filter.1 hentry
    obtain ⟨sent, t, g, hexpects⟩ := h.expected entry hmem
    exact Nat.le_antisymm (of_decide_eq_true hle) (h.tick ▸ hexpects.pending)
  have hdistinct : ((c.outcomes.filter (·.1 ≤ c.tick)).map fun entry =>
      (entry.1, entry.2.rnti)).Nodup := h.distinct.sublist (List.filter_sublist.map _)
  rw [dueAt, List.map_map, List.Nodup, List.pairwise_map]
  refine (List.pairwise_map.1 hdistinct).imp_of_mem fun hx hy hne heq => hne ?_
  exact Prod.ext ((hdue _ hx).trans (hdue _ hy).symm) heq

/-- The block of a grant is in the present subframe of the timetable. -/
theorem expects_of_granted (h : t.cell.OutcomesInStep es ts) (ht : t.Taken policy)
    (henabled : config.harqEnabled = true) (hrun : Run policy config es t.cell.scheduler)
    {g : UplinkGrant} (hg : g ∈ t.uplink.grants) {o : UplinkOutcome} (ho : g.IsReported o) :
    Expects (es ++ t.events) (ts ++ [t]) (t.cell.tick + outcomeDelay, o) ts.length t g := by
  have hsplit : es ++ t.events = es ++ (t.reports ++ [t.downlink]) ++ [t.uplink] := by
    simp [Turn.events]
  have hrnti : o.rnti = g.rnti := by
    obtain ⟨p, rfl⟩ := ho
    rfl
  have hlast : (es ++ t.events)[(es ++ (t.reports ++ [t.downlink])).length]? = some t.uplink := by
    rw [hsplit]
    exact List.getElem?_concat_length ..
  obtain ⟨b, ⟨hslot, -⟩, heq, -⟩ := (ht.run_after hrun).sentBy_of_grant henabled hlast hg rfl
  rw [List.take_of_length_le (by rw [hsplit, List.length_append, List.length_singleton])] at hslot
  -- A block remembers its first grant, which only differs in saying that it is new.
  have hnew := ((orderly_timetable (es ++ t.events) g.rnti).proper 1 b hslot).isNew
  have hgrant : b.grant = { g with ndi := 1 } := by rw [heq, ← hnew]
  have hlength : (ts ++ [t]).length = ts.length + 1 := List.length_append
  exact
    { due := congrArg (· + outcomeDelay) h.tick
      pending := by
        rw [hlength, h.tick]
        exact Nat.add_le_add_left (by decide) _
      turn := List.getElem?_concat_length ..
      granted := hg
      reported := ho
      placed := by
        refine ⟨1, b, ?_, hrnti ▸ hslot, hgrant⟩
        rw [hlength, Nat.add_sub_cancel_left]
        rfl }

/-- A turn leaves the cell in step. -/
theorem next (h : t.cell.OutcomesInStep es ts) (hready : t.cell.Ready policy config)
    (ht : t.Taken policy) (henabled : config.harqEnabled = true)
    (hrun : Run policy config es t.cell.scheduler) :
    t.next.OutcomesInStep (es ++ t.events) (ts ++ [t]) := by
  have hleaves := hready.leaves ht
  obtain ⟨os, hos, houtcomes⟩ := hleaves.outcomes
  refine ⟨?_, ?_, ?_⟩
  · rw [hleaves.tick, h.tick, List.length_append, List.length_singleton]
  · have hnodup : (os.map fun o => (t.cell.tick + outcomeDelay, o.rnti)).Nodup := by
      have hgrants := ht.nodup_grants hrun henabled
      rw [← rntis_reported hos] at hgrants
      have hmap := hgrants.map (f := (t.cell.tick + outcomeDelay, ·))
        fun _ _ heq => congrArg Prod.snd heq
      rwa [List.map_map] at hmap
    rw [houtcomes, List.map_append, List.map_map, List.nodup_append]
    refine ⟨h.distinct.sublist (List.filter_sublist.map _), hnodup, ?_⟩
    -- What turns out later than anything before comes at another time.
    intro a ha a' ha' heq
    obtain ⟨entry, hentry, rfl⟩ := List.mem_map.1 ha
    obtain ⟨o, ho, rfl⟩ := List.mem_map.1 ha'
    obtain ⟨sent, _, _, hexpects⟩ := h.expected entry (mem_dueAfter.1 hentry).1
    have hdue : entry.1 = t.cell.tick + outcomeDelay := congrArg Prod.fst heq
    have hsent := hexpects.sent_lt
    have hlate := hexpects.due
    have htick := h.tick
    omega
  · rw [houtcomes]
    refine List.forall_mem_append.2 ⟨fun entry hentry => ?_, List.forall_mem_map.2 fun o ho => ?_⟩
    · obtain ⟨hmem, hlater⟩ := mem_dueAfter.1 hentry
      obtain ⟨sent, t', g, hexpects⟩ := h.expected entry hmem
      exact ⟨sent, t', g, hexpects.next hready ht (h.tick ▸ hlater)⟩
    · obtain ⟨g, hg, hreported⟩ := exists_left_of_mem hos ho
      exact ⟨ts.length, t, g, h.expects_of_granted ht henabled hrun hg hreported⟩

/-- When an outcome comes in, none about its UE came in before it. -/
theorem unheard (h : c.OutcomesInStep es ts) {before after : List UplinkOutcome} {o : UplinkOutcome}
    (hdue : dueAt c.tick c.outcomes = before ++ o :: after) : ∀ o' ∈ before, o'.rnti ≠ o.rnti := by
  have hnodup := h.nodup_due
  rw [hdue, List.map_append, List.nodup_append] at hnodup
  intro o' ho'
  exact hnodup.2.2 o'.rnti (List.mem_map_of_mem ho') o.rnti (by simp)

/-- An outcome that comes in meets the block that it is about. -/
theorem meets (h : t.cell.OutcomesInStep es ts) (hready : t.cell.Ready policy config)
    (ht : t.Taken policy) (henabled : config.harqEnabled = true)
    (hrun : Run policy config es t.cell.scheduler) {before after : List UplinkOutcome}
    {o : UplinkOutcome} (hdue : t.outcomes = before ++ o :: after) :
    ∃ sent t' g, ts.length = sent + outcomeDelay ∧ ts[sent]? = some t' ∧
      g ∈ t'.uplink.grants ∧ g.IsReported o ∧ t.uplink.MeetsGrant before o g := by
  have ho : o ∈ dueAt t.cell.tick t.cell.outcomes := by
    change o ∈ t.outcomes
    rw [hdue]
    exact List.mem_append_right _ List.mem_cons_self
  obtain ⟨due, hle, hmem⟩ := mem_dueAt.1 ho
  obtain ⟨sent, t', g, hexpects⟩ := h.expected _ hmem
  obtain ⟨k, b, hk, hb, hgrant⟩ := hexpects.placed
  have hnow : ts.length = sent + outcomeDelay := by
    have hdelay := hexpects.due
    have hpending := hexpects.pending
    have htick := h.tick
    simp only at hdelay hpending
    omega
  obtain rfl : k = Timetable.due := by
    refine Fin.ext ?_
    rw [hk, hnow, Nat.add_sub_cancel_left]
    rfl
  refine ⟨sent, t', g, hnow, hexpects.turn, hexpects.granted, hexpects.reported, ?_⟩
  -- Up to the uplink trigger of the turn, the block stays where it is.
  obtain ⟨hcount, hkept⟩ := hready.events_before ht
  have hslot : timetable (es ++ (t.reports ++ [t.downlink])) o.rnti Timetable.due = some b := by
    rw [timetable_append (k := Timetable.due) (fun e he => hkept e he o.rnti)
      Timetable.due_ne_zero (by rw [hcount, Nat.add_zero]), hb]
  obtain ⟨grid, hgrid, -⟩ := UplinkTrigger.eq_event ht.outcomes ht.uplink
  have hbefore := ht.run_before hrun
  obtain ⟨hsound, htells⟩ := hbefore.tells henabled
  obtain ⟨u, hu, hheld, hretry⟩ := UplinkTrigger.found_of_unheard grid t.cell.time
    (hbefore.reachable.invariant.config ▸ henabled) hsound (htells o.rnti) hslot (h.unheard hdue)
  exact ⟨grid, u, hgrid, hu, hgrant ▸ hheld, hretry⟩

end Cell.OutcomesInStep

/-- Along a run, a cell stays in step. -/
theorem Plays.outcomesInStep {c₀ c : Cell Record} {ts : List (Turn Record)}
    (h : Plays policy c₀ ts c) (hready : c₀.Ready policy config)
    (henabled : config.harqEnabled = true) (hrun : Run policy config es c₀.scheduler)
    (hc₀ : c₀.OutcomesInStep es []) :
    Run policy config (es ++ ts.flatMap (·.events)) c.scheduler ∧
      c.OutcomesInStep (es ++ ts.flatMap (·.events)) ts := by
  induction h with
  | start => simpa using ⟨hrun, hc₀⟩
  | @turn ts t hplays htaken ih =>
    obtain ⟨hready, -⟩ := hplays.ready hready
    obtain ⟨hrun, hstep⟩ := ih
    rw [List.flatMap_append, List.flatMap_singleton, ← List.append_assoc,
      (hready.leaves htaken).scheduler]
    exact ⟨htaken.run_after hrun, hstep.next hready htaken henabled hrun⟩

/-! ## Runs of a scenario -/

/-- Only a downlink trigger makes feedback wait. -/
theorem SchedulerState.feedback_of_step {s s' : SchedulerState Record} {q : Request}
    {said : List Indication} (hq : q.isTrigger = false) (hstep : s.step policy q = .ok (s', said))
    (h : s.downlink.feedback = []) : s'.downlink.feedback = [] := by
  cases effect_of_step hstep with
  | cell | added | heard => exact h
  | released =>
    rw [removeUe, h]
    rfl
  | quiet _ hmove => rw [hmove.feedback, h]
  | downlink | uplink => cases hq

/-- Nothing is on its way to a cell that was just set up. -/
theorem Cell.inStep_of_start {s : Scenario} {carrier : Carrier} {index : Nat} {c : Cell Record}
    (h : start policy s carrier index = .ok c) (es : List (Event Record)) :
    c.FeedbackInStep [] ∧ c.OutcomesInStep es [] := by
  obtain ⟨s', htell, heq⟩ := bind_eq_ok.1 h
  obtain rfl := Except.ok.inj heq
  have hwaiting : s'.downlink.feedback = [] := by
    refine tellAll_keeps (P := fun s => s.downlink.feedback = []) (fun q hq _ _ _ hstep hs =>
      SchedulerState.feedback_of_step ?_ hstep hs) htell rfl
    rcases List.mem_append.1 hq with hq | hq
    · simp only [List.mem_cons, List.not_mem_nil, or_false] at hq
      rcases hq with rfl | rfl | rfl <;> rfl
    · obtain ⟨p, -, hq⟩ := List.mem_flatMap.1 hq
      simp only [List.mem_cons, List.not_mem_nil, or_false] at hq
      rcases hq with rfl | rfl <;> rfl
  exact ⟨.start rfl rfl hwaiting, .start rfl rfl es⟩

/-- In the turns `ts`, whatever comes in meets the block that it is about: feedback that of a
downlink block sent `feedbackDelay` turns before, outcomes that of an uplink block granted
`outcomeDelay` turns before. -/
structure InStep (ts : List (Turn Record)) : Prop where
  /-- Feedback meets the block that was sent four turns before. -/
  feedback : ∀ {n : Nat} {t : Turn Record} {before after : List HarqFeedback} {f : HarqFeedback},
    ts[n]? = some t → t.feedback = before ++ f :: after →
      ∃ (sent : Nat) (t' : Turn Record) (b : DataGrant), n = sent + feedbackDelay ∧
        ts[sent]? = some t' ∧ b ∈ t'.downlink.blocks ∧ b.IsReported f ∧
        t.downlink.MeetsBlock before f b
  /-- An outcome meets the block that was granted seven turns before. -/
  outcomes : ∀ {n : Nat} {t : Turn Record} {before after : List UplinkOutcome} {o : UplinkOutcome},
    ts[n]? = some t → t.outcomes = before ++ o :: after →
      ∃ (sent : Nat) (t' : Turn Record) (g : UplinkGrant), n = sent + outcomeDelay ∧
        ts[sent]? = some t' ∧ g ∈ t'.uplink.grants ∧ g.IsReported o ∧
        t.uplink.MeetsGrant before o g

/-- What a cell plays from its beginning is in step. -/
theorem Plays.inStep {c₀ c : Cell Record} {ts : List (Turn Record)} (h : Plays policy c₀ ts c)
    (hready : c₀.Ready policy config) (henabled : config.harqEnabled = true)
    (hfeedback : c₀.FeedbackInStep []) (houtcomes : ∀ es, c₀.OutcomesInStep es []) :
    InStep ts := by
  obtain ⟨es, hrun⟩ := hready.serves.reachable
  -- The turns up to a turn, and what holds before it.
  have hbefore : ∀ {n : Nat} {t : Turn Record}, ts[n]? = some t →
      (ts.take n).length = n ∧ Plays policy c₀ (ts.take n) t.cell ∧ t.Taken policy := by
    intro n t ht
    have hlt := (List.getElem?_eq_some_iff.1 ht).1
    exact ⟨List.length_take_of_le (Nat.le_of_lt hlt), h.before_of_getElem? ht⟩
  have hturn : ∀ {n sent : Nat} {t' : Turn Record}, (ts.take n)[sent]? = some t' →
      ts[sent]? = some t' := by
    intro n sent t' ht'
    rw [List.getElem?_take] at ht'
    split at ht'
    · exact ht'
    · cases ht'
  constructor
  · intro n t before f after ht hdue
    obtain ⟨hlength, hplays, htaken⟩ := hbefore ht
    obtain ⟨grid, hdown⟩ := (hplays.ready hready).1.exists_downlinks htaken henabled
    obtain ⟨sent, t', b, hsent, ht', hmeets⟩ :=
      (hplays.feedbackInStep hready henabled hfeedback).meets hdown hdue
    exact ⟨sent, t', b, hlength ▸ hsent, hturn ht', hmeets⟩
  · intro n t before o after ht hdue
    obtain ⟨hlength, hplays, htaken⟩ := hbefore ht
    obtain ⟨hrun', hstep⟩ := hplays.outcomesInStep hready henabled hrun (houtcomes es)
    obtain ⟨sent, t', g, hsent, ht', hmeets⟩ :=
      hstep.meets (hplays.ready hready).1 htaken henabled hrun' hdue
    exact ⟨sent, t', g, hlength ▸ hsent, hturn ht', hmeets⟩

/-- Every carrier of an accepted scenario that retransmits is in step, however long it runs: what
the UEs of its cell report, and what turns out about their blocks, is about the blocks that the
scheduler takes it for. -/
theorem Scenario.Accepted.stays_inStep {s : Scenario} (hs : s.Accepted)
    (henabled : s.config.harqEnabled = true) {carrier : Carrier} {index : Nat}
    (hcarrier : s.carriers[index]? = some carrier) :
    let policy := s.algorithm.policy s.config
    ∃ c₀, Cell.start policy s carrier index = .ok c₀ ∧
      (∀ n, ∃ ts c, Plays policy c₀ ts c ∧ ts.length = n ∧ c₀.run policy n = .ok c) ∧
      ∀ ts c, Plays policy c₀ ts c → InStep ts := by
  intro policy
  obtain ⟨c₀, hstart, hc₀⟩ := Cell.exists_start hs (List.mem_of_getElem? hcarrier) policy index
  refine ⟨c₀, hstart, fun n => ?_, fun ts c hplays => ?_⟩
  · obtain ⟨ts, c, hplays, rfl, -⟩ := hc₀.exists_plays n
    exact ⟨ts, c, hplays, rfl, hplays.run⟩
  · have hnew := fun es => Cell.inStep_of_start hstart es
    exact hplays.inStep hc₀ henabled (hnew []).1 fun es => (hnew es).2

/-! ## A small cell with losses

Two UEs share six uplink blocks and the one downlink block that the reuse plan leaves them. The
first UE fails to receive every second block and the second UE every one, and reports that UEs send
about their channel are forgotten at once, so the scheduler decides without them. The traffic is
light enough to be followed by hand, and yet in the tenth subframe reports on both directions come
in together. -/

namespace Scenario

/-- What the scenario file says. -/
def lossyDraft : ScenarioDraft where
  carriers := [{ downlinkBandwidth := 6, uplinkBandwidth := 6, primary := true }]
  scheduler := { cqiThreshold := some 0 }
  plan := { rule := .hard, downlink := some ⟨2, 1⟩, uplink := some ⟨0, 6⟩ }
  ues := [{ rnti := 1, downlinkLoad := 200, uplinkLoad := 200, nackEvery := 2 },
    { rnti := 2, downlinkLoad := 200, uplinkLoad := 200, nackEvery := 1 }]

/-- A carrier of six blocks in each direction. -/
def lossyCarrier : Carrier :=
  { defaultCarrier with downlinkBandwidth := 6, uplinkBandwidth := 6 }

/-- A cell of six blocks in which blocks are lost. -/
def lossy : Scenario where
  carriers := [lossyCarrier]
  algorithm := .tdBet
  config := { SchedulerConfig.default with cqiThreshold := 0 }
  plan := .hard ⟨2, 1⟩ ⟨0, 6⟩
  ues := [{ busyUe 1 10 with downlinkLoad := 200, nackEvery := 2 },
    { busyUe 2 10 with downlinkLoad := 200, nackEvery := 1 }]
  subframes := defaultSubframes

set_option maxRecDepth 4000 in
/-- The scenario is what the file is read as. -/
theorem accepted_lossy : lossy.Accepted := .inr ⟨lossyDraft, rfl⟩

/-- What comes in in the tenth subframe: the second UE did not receive its downlink block, and of
neither UE the uplink block was received. -/
theorem arrivals_lossy :
    ((Cell.start (Algorithm.tdBet.policy lossy.config) lossy lossyCarrier 0).bind
      (Cell.run (Algorithm.tdBet.policy lossy.config) 9)).toOption.map
        (fun c => (dueAt c.tick c.feedback, dueAt c.tick c.outcomes)) =
      some ([⟨2, 1, [.nack]⟩], [⟨1, .notOk⟩, ⟨2, .notOk⟩]) := by
  decide +kernel

/-- In the tenth turn of the small cell, the failure that the second UE reports is about the
downlink block that it was sent four turns before, and the uplink block that was not received is the
one that it was granted seven turns before. Both are found where the scheduler looks for them, the
uplink block after an outcome about the other UE. -/
theorem stays_inStep_lossy :
    lossy.Accepted ∧ lossy.config.harqEnabled = true ∧ lossy.carriers[0]? = some lossyCarrier ∧
      ∃ c₀ ts c t, Cell.start (Algorithm.tdBet.policy lossy.config) lossy lossyCarrier 0 = .ok c₀ ∧
        Plays (Algorithm.tdBet.policy lossy.config) c₀ ts c ∧ ts[9]? = some t ∧
        t.feedback = [⟨2, 1, [.nack]⟩] ∧ t.outcomes = [⟨1, .notOk⟩, ⟨2, .notOk⟩] ∧
        (∃ t' b, ts[5]? = some t' ∧ b ∈ t'.downlink.blocks ∧ b.IsReported ⟨2, 1, [.nack]⟩ ∧
          t.downlink.MeetsBlock [] ⟨2, 1, [.nack]⟩ b) ∧
        ∃ t' g, ts[2]? = some t' ∧ g ∈ t'.uplink.grants ∧ g.IsReported ⟨2, .notOk⟩ ∧
          t.uplink.MeetsGrant [⟨1, .notOk⟩] ⟨2, .notOk⟩ g := by
  have hcarrier : lossy.carriers[0]? = some lossyCarrier := rfl
  refine ⟨accepted_lossy, rfl, hcarrier, ?_⟩
  obtain ⟨c₀, hstart, hplays, hstep⟩ := accepted_lossy.stays_inStep rfl hcarrier
  obtain ⟨ts, c, hts, hlength, -⟩ := hplays 10
  have hlt : 9 < ts.length := by omega
  have ht : ts[9]? = some ts[9] := List.getElem?_eq_getElem hlt
  -- Before the tenth turn the cell is what nine subframes make of it.
  have hbefore := (hts.before_of_getElem? ht).1.run
  rw [List.length_take_of_le (Nat.le_of_lt hlt)] at hbefore
  have hrun : (Cell.start (Algorithm.tdBet.policy lossy.config) lossy lossyCarrier 0).bind
      (Cell.run (Algorithm.tdBet.policy lossy.config) 9) = .ok ts[9].cell :=
    bind_eq_ok.2 ⟨c₀, hstart, hbefore⟩
  have harrivals := arrivals_lossy
  rw [hrun] at harrivals
  obtain ⟨hfeedback, houtcomes⟩ := Prod.ext_iff.1 (Option.some.inj harrivals)
  -- Nothing else is reported in the downlink, and one outcome comes before in the uplink.
  have hnack : ts[9].feedback = [] ++ ⟨2, 1, [.nack]⟩ :: [] := hfeedback
  have hnotOk : ts[9].outcomes = [⟨1, .notOk⟩] ++ ⟨2, .notOk⟩ :: [] := houtcomes
  have hin := hstep ts c hts
  obtain ⟨sent, t', b, hsent, ht', hb, hreported, hmeets⟩ := hin.feedback ht hnack
  obtain ⟨sent', t'', g, hsent', ht'', hg, hreported', hmeets'⟩ := hin.outcomes ht hnotOk
  obtain rfl : sent = 5 := by simp only [feedbackDelay] at hsent; omega
  obtain rfl : sent' = 2 := by simp only [outcomeDelay] at hsent'; omega
  exact ⟨c₀, ts, c, ts[9], hstart, hts, ht, hfeedback, houtcomes,
    ⟨t', b, ht', hb, hreported, hmeets⟩, t'', g, ht'', hg, hreported', hmeets'⟩

end Scenario

end LteMac
