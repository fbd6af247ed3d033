import LteMac.Proofs.Downlink.Awaiting
import LteMac.Proofs.Simulation.Completion

/-!
# Feedback in step

The UEs of a cell report on a downlink block some subframes after it, and do not say which block
they mean: the scheduler takes the one that it finds on the process then. This is right if nothing
happens to a block before its feedback comes in (`Cell.FeedbackInStep`). Reports and the uplink do
not touch the processes, and the downlink trigger leaves a block alone that nobody told of. And
nobody tells of it too early, because there is never more than one piece of feedback on a process,
on its way or waiting at the scheduler.

So the invariant has two parts that need each other. Each piece on its way is awaited by a block,
which rests as long as it is the only piece on its process; and it is the only one because a trigger
sends blocks only on processes that nothing is on its way for, as those still hold a block that
waits. The delay of the feedback is shorter than the timeout of a process, so a resting block is
still there when it is told of.

* `Cell.FeedbackInStep.next`: a turn leaves the cell in step;
* `Cell.FeedbackInStep.meets`: feedback that comes in meets its block.
-/

namespace LteMac

variable {Record : Type} {policy : Policy Record} {config : SchedulerConfig}

/-! ## Counting feedback -/

/-- What is due and what is due later is all that there is. -/
theorem count_due (tick : Nat) (pending : List (Nat × HarqFeedback)) (r : Rnti) (id : Nat) :
    ((dueAt tick pending).filter (·.isOn r id)).length +
        ((dueAfter tick pending).filter (·.2.isOn r id)).length =
      (pending.filter (·.2.isOn r id)).length := by
  have hsplit := List.length_eq_length_filter_add (l := pending.filter (·.2.isOn r id))
    (·.1 ≤ tick)
  have hat : ((dueAt tick pending).filter (·.isOn r id)).length =
      ((pending.filter (·.2.isOn r id)).filter (·.1 ≤ tick)).length := by
    rw [dueAt, List.filter_map, List.length_map, List.filter_filter, List.filter_filter]
    simp only [Bool.and_comm, Function.comp_apply]
  have hafter : (dueAfter tick pending).filter (·.2.isOn r id) =
      (pending.filter (·.2.isOn r id)).filter (fun entry => !decide (entry.1 ≤ tick)) := by
    rw [dueAfter, List.filter_filter, List.filter_filter]
    simp only [Bool.and_comm, ← decide_not, Nat.not_le]
  rw [hat, hafter, ← hsplit]

/-- As much is reported on a process as was sent on it. -/
theorem count_reported {bs : List DataGrant} {fs : List HarqFeedback}
    (h : List.Forall₂ DataGrant.IsReported bs fs) (r : Rnti) (id : Nat) :
    (fs.filter (·.isOn r id)).length = (bs.filter (·.isOn r id)).length := by
  have hon : ∀ (b : DataGrant) (f : HarqFeedback), b.IsReported f →
      (b.isOn r id = true ↔ f.isOn r id = true) := by
    rintro b _ ⟨p, rfl⟩
    rfl
  exact (List.rel_filter (fun b f hreported => hon b f hreported) h).length_eq.symm

/-! ## What a turn does in the downlink -/

/-- The downlink of a turn, in a cell that retransmits: the downlink trigger finds the processes and
the feedback on them as the turn before left them, and leaves them to the next one. -/
structure Turn.Downlinks (policy : Policy Record) (t : Turn Record) (grid : Grid) : Prop where
  /-- The cell has a grid. -/
  gridded : t.downlink.before.grid = some grid
  /-- Its groups fit in a bitmap. -/
  groups : grid.rbgCount ≤ 32
  /-- It retransmits. -/
  enabled : t.downlink.before.config.harqEnabled = true
  /-- Its processes remember what they carry. -/
  sound : t.downlink.before.downlink.harq.Sound
  /-- The reports before the trigger did not touch the processes. -/
  harq_before : t.downlink.before.downlink.harq = t.cell.scheduler.downlink.harq
  /-- Nor did they touch the feedback that waits. -/
  feedback_before : t.downlink.before.downlink.feedback = t.cell.scheduler.downlink.feedback
  /-- The blocks of the turn are those of the trigger. -/
  blocks : t.downlink.blocks = DownlinkTrigger.data policy t.downlink.before grid t.feedback
  /-- The turn ends with the processes as the trigger leaves them. -/
  harq : t.next.scheduler.downlink.harq =
    (DownlinkTrigger.fresh policy t.downlink.before grid t.feedback).harq
  /-- It ends with the feedback that the trigger leaves. -/
  feedback : t.next.scheduler.downlink.feedback =
    (DownlinkTrigger.fresh policy t.downlink.before grid t.feedback).feedback

/-- A report does not touch the downlink processes and the feedback on them. -/
theorem Cell.Reports.keeps_downlink {c : Cell Record} {q : Request} (hq : c.Reports q)
    {s s' : SchedulerState Record} {said : List Indication}
    (hstep : s.step policy q = .ok (s', said)) :
    s'.downlink.harq = s.downlink.harq ∧ s'.downlink.feedback = s.downlink.feedback := by
  cases SchedulerState.effect_of_step hstep with
  | heard => exact ⟨rfl, rfl⟩
  | quiet _ hmove => exact ⟨hmove.harq, hmove.feedback⟩
  | downlink | uplink => cases hq.report
  | _ => exact hq.routine.elim

/-- The turns of a cell that is ready have such a downlink: of the requests of a turn only the
downlink trigger concerns the processes. -/
theorem Cell.Ready.exists_downlinks {t : Turn Record} (h : t.cell.Ready policy config)
    (ht : t.Taken policy) (henabled : config.harqEnabled = true) :
    ∃ grid, t.Downlinks policy grid := by
  obtain ⟨grid, hgrid, hdownlink⟩ := DownlinkTrigger.eq_event ht.feedback ht.downlink
  obtain ⟨_, -, huplink⟩ := UplinkTrigger.eq_event ht.outcomes ht.uplink
  have hinv := (h.serves_before ht).1.reachable.invariant
  obtain ⟨hharq, hfeedback⟩ := SchedulerState.replay_keeps
    (P := fun s => s.downlink.harq = t.cell.scheduler.downlink.harq ∧
      s.downlink.feedback = t.cell.scheduler.downlink.feedback)
    (fun q hq s s' said hstep hs =>
      have hkeeps := (h.named.reports q hq).keeps_downlink hstep
      ⟨hkeeps.1.trans hs.1, hkeeps.2.trans hs.2⟩)
    ht.reports ⟨rfl, rfl⟩
  -- The uplink trigger comes last, and does not touch the downlink.
  have hafter : t.next.scheduler.downlink =
      (DownlinkTrigger.event policy t.downlink.before grid t.feedback).after.downlink := by
    rw [(h.leaves ht).scheduler, huplink, ← hdownlink, ← ht.between]
    rfl
  refine ⟨grid, ?_⟩
  exact
    { gridded := hgrid
      groups := hinv.rbgCount_le hgrid
      enabled := hinv.config ▸ henabled
      sound := hinv.sound
      harq_before := hharq
      feedback_before := hfeedback
      blocks := (congrArg Event.blocks hdownlink).trans DownlinkTrigger.blocks_event
      harq := congrArg (·.harq) hafter
      feedback := congrArg (·.feedback) hafter }

/-! ## In step -/

/-- What is on its way to the cell `c` after the turns `ts`: feedback that is due at `entry.1`, on
the block `b` of turn number `sent`, which is on its process. -/
structure Cell.Awaits (c : Cell Record) (ts : List (Turn Record)) (entry : Nat × HarqFeedback)
    (sent : Nat) (t : Turn Record) (b : DataGrant) : Prop where
  /-- Feedback takes its time. -/
  due : entry.1 = sent + feedbackDelay
  /-- It has not come in yet. -/
  pending : ts.length ≤ entry.1
  /-- There was such a turn. -/
  turn : ts[sent]? = some t
  /-- It sent the block. -/
  block : b ∈ t.downlink.blocks
  /-- The feedback is about this block. -/
  reported : b.IsReported entry.2
  /-- The block is on the process still, and as old as it should be. -/
  held : ∃ p, c.scheduler.downlink.harq.process? entry.2.rnti entry.2.process = some p ∧
    p.Holds b (ts.length - (sent + 1))

/-- After the turns `ts`, all feedback on its way is awaited, and there is at most one piece of
feedback on a process. -/
structure Cell.FeedbackInStep (c : Cell Record) (ts : List (Turn Record)) : Prop where
  /-- The cell counts its turns. -/
  tick : c.tick = ts.length
  /-- Waiting or on its way, there is one piece of feedback on a process at most. -/
  single : ∀ r id, (c.scheduler.downlink.feedback.filter (·.isOn r id)).length +
    (c.feedback.filter (·.2.isOn r id)).length ≤ 1
  /-- All that is on its way is awaited. -/
  awaited : ∀ entry ∈ c.feedback, ∃ sent t b, c.Awaits ts entry sent t b

/-- When the trigger `e` comes to the feedback `f`, after the feedback `before`, the process that
`f` is on holds the block `b`, which is not given up yet. -/
def Event.MeetsBlock (e : Event Record) (before : List HarqFeedback) (f : HarqFeedback)
    (b : DataGrant) : Prop :=
  ∃ grid p, e.before.grid = some grid ∧
    (DownlinkTrigger.pass e.before grid
      (DownlinkTrigger.pending e.before grid before)).harq.process? f.rnti f.process = some p ∧
    p.Holds b feedbackDelay ∧ p.isOverdue = false

namespace Cell

variable {c : Cell Record} {ts : List (Turn Record)} {entry : Nat × HarqFeedback} {sent : Nat}
  {t t' : Turn Record} {b : DataGrant} {f : HarqFeedback} {grid : Grid}

namespace Awaits

/-- The block was sent in a turn that is over. -/
theorem sent_lt (h : c.Awaits ts entry sent t b) : sent < ts.length :=
  (List.getElem?_eq_some_iff.1 h.turn).1

/-- The feedback comes in long before the block is given up. -/
theorem age_lt (h : c.Awaits ts entry sent t b) : ts.length - (sent + 1) + 1 < harqTimeout := by
  have hdue := h.due
  have hpending := h.pending
  simp only [feedbackDelay, harqTimeout] at *
  omega

/-- A turn in which the feedback does not come in leaves the block alone. -/
theorem next (h : t.cell.Awaits ts entry sent t' b) (hdown : t.Downlinks policy grid)
    (hlater : ts.length < entry.1)
    (hsilent : (t.cell.scheduler.downlink.feedback ++ t.feedback).filter
      (·.isOn entry.2.rnti entry.2.process) = []) :
    t.next.Awaits (ts ++ [t]) entry sent t' b ∧
      t.downlink.blocks.filter (·.isOn entry.2.rnti entry.2.process) = [] ∧
      t.next.scheduler.downlink.feedback.filter (·.isOn entry.2.rnti entry.2.process) = [] := by
  obtain ⟨p, hp, hholds⟩ := h.held
  rw [← hdown.harq_before] at hp
  rw [← hdown.feedback_before] at hsilent
  obtain ⟨⟨p', hp', hholds'⟩, hblocks, hkept⟩ := DownlinkTrigger.rests_of_silent policy hdown.sound
    hdown.groups hdown.enabled hp hholds h.age_lt hsilent
  -- The block is one turn older, and everything else is as it was.
  have hsent := h.sent_lt
  have hage : (ts ++ [t]).length - (sent + 1) = ts.length - (sent + 1) + 1 := by
    rw [List.length_append, List.length_singleton]
    omega
  refine ⟨?_, hdown.blocks ▸ hblocks, hdown.feedback ▸ hkept⟩
  exact
    { due := h.due
      pending := by rwa [List.length_append, List.length_singleton]
      turn := by rw [List.getElem?_append_left hsent, h.turn]
      block := h.block
      reported := h.reported
      held := ⟨p', hdown.harq ▸ hp', hage ▸ hholds'⟩ }

end Awaits

namespace FeedbackInStep

/-- A new cell is in step. -/
theorem start (htick : c.tick = 0) (hfeedback : c.feedback = [])
    (hwaiting : c.scheduler.downlink.feedback = []) : c.FeedbackInStep [] where
  tick := htick
  single r id := by
    rw [hfeedback, hwaiting]
    exact Nat.zero_le 1
  awaited := by
    rw [hfeedback]
    exact nofun

/-- Of the feedback that the scheduler has once all that is due came in, at most one piece is on a
process. -/
theorem single_due (h : c.FeedbackInStep ts) (r : Rnti) (id : Nat) :
    ((c.scheduler.downlink.feedback ++ dueAt c.tick c.feedback).filter (·.isOn r id)).length ≤
      1 := by
  have hsingle := h.single r id
  have hcount := count_due c.tick c.feedback r id
  rw [List.filter_append, List.length_append]
  omega

/-- As long as feedback is on its way, no other is on its process. -/
theorem silent_later (h : c.FeedbackInStep ts) (hentry : entry ∈ dueAfter c.tick c.feedback) :
    (c.scheduler.downlink.feedback ++ dueAt c.tick c.feedback).filter
      (·.isOn entry.2.rnti entry.2.process) = [] := by
  have hsingle := h.single entry.2.rnti entry.2.process
  have hcount := count_due c.tick c.feedback entry.2.rnti entry.2.process
  have hmem : entry ∈ (dueAfter c.tick c.feedback).filter
      (·.2.isOn entry.2.rnti entry.2.process) :=
    List.mem_filter.2 ⟨hentry, HarqFeedback.isOn_iff.2 ⟨rfl, rfl⟩⟩
  have hpos := List.length_pos_of_mem hmem
  refine List.length_eq_zero_iff.1 ?_
  rw [List.filter_append, List.length_append]
  omega

/-- When feedback comes in, no other is on its process. -/
theorem silent_before (h : c.FeedbackInStep ts) {before after : List HarqFeedback}
    (hdue : dueAt c.tick c.feedback = before ++ f :: after) :
    (c.scheduler.downlink.feedback ++ before).filter (·.isOn f.rnti f.process) = [] := by
  have hsingle := h.single_due f.rnti f.process
  have hon : f.isOn f.rnti f.process = true := HarqFeedback.isOn_iff.2 ⟨rfl, rfl⟩
  rw [hdue, ← List.append_assoc, List.filter_append, List.filter_cons, if_pos hon,
    List.length_append, List.length_cons] at hsingle
  refine List.length_eq_zero_iff.1 ?_
  omega

/-- Feedback that is not due in a turn is awaited by the same block after it. -/
theorem later (h : t.cell.FeedbackInStep ts) (hdown : t.Downlinks policy grid)
    (hentry : entry ∈ dueAfter t.cell.tick t.cell.feedback) :
    ∃ sent t' b, t.next.Awaits (ts ++ [t]) entry sent t' b ∧
      t.downlink.blocks.filter (·.isOn entry.2.rnti entry.2.process) = [] ∧
      t.next.scheduler.downlink.feedback.filter
        (·.isOn entry.2.rnti entry.2.process) = [] := by
  obtain ⟨hmem, hlater⟩ := mem_dueAfter.1 hentry
  obtain ⟨sent, t', b, hawaits⟩ := h.awaited entry hmem
  exact ⟨sent, t', b, hawaits.next hdown (h.tick ▸ hlater) (h.silent_later hentry)⟩

/-- A block that is sent in a turn awaits its feedback after it. -/
theorem awaits_of_sent (h : t.cell.FeedbackInStep ts) (hdown : t.Downlinks policy grid)
    (hb : b ∈ t.downlink.blocks) (hreported : b.IsReported f) :
    t.next.Awaits (ts ++ [t]) (t.cell.tick + feedbackDelay, f) ts.length t b := by
  have hsingle := h.single_due b.rnti b.grant.process
  rw [← hdown.feedback_before] at hsingle
  obtain ⟨p, hp, hholds⟩ := DownlinkTrigger.holds_of_sent policy hdown.sound hdown.groups
    hdown.enabled (hdown.blocks ▸ hb) hsingle
  have hlength : (ts ++ [t]).length = ts.length + 1 := List.length_append
  have hage : (ts ++ [t]).length - (ts.length + 1) = 0 := by rw [hlength, Nat.sub_self]
  refine ⟨congrArg (· + feedbackDelay) h.tick, ?_, List.getElem?_concat_length .., hb, hreported,
    p, ?_, hage ▸ hholds⟩
  · rw [hlength, h.tick]
    exact Nat.add_le_add_left (by decide) _
  · obtain ⟨player, rfl⟩ := hreported
    rw [hdown.harq]
    exact hp

/-- Of a block that a turn sends on a process, and of feedback that it leaves there, there is only
one. -/
theorem count_sent (h : t.cell.FeedbackInStep ts) (hdown : t.Downlinks policy grid) (r : Rnti)
    (id : Nat) :
    (t.downlink.blocks.filter (·.isOn r id)).length +
      (t.next.scheduler.downlink.feedback.filter (·.isOn r id)).length ≤ 1 := by
  have hsingle := h.single_due r id
  rw [← hdown.feedback_before] at hsingle
  rw [hdown.blocks, hdown.feedback]
  exact DownlinkTrigger.count_decide policy hdown.sound hdown.groups hdown.enabled r id hsingle

/-- A turn leaves the cell in step. -/
theorem next (h : t.cell.FeedbackInStep ts) (hleaves : t.Leaves t.next)
    (hdown : t.Downlinks policy grid) : t.next.FeedbackInStep (ts ++ [t]) := by
  obtain ⟨fs, hfs, hfeedback⟩ := hleaves.feedback
  refine ⟨?_, fun r id => ?_, ?_⟩
  · rw [hleaves.tick, h.tick, List.length_append, List.length_singleton]
  · have hnew : ((fs.map (t.cell.tick + feedbackDelay, ·)).filter (·.2.isOn r id)).length =
        (t.downlink.blocks.filter (·.isOn r id)).length := by
      rw [List.filter_map, List.length_map]
      exact count_reported hfs r id
    rw [hfeedback, List.filter_append, List.length_append, hnew]
    cases hlater : (dueAfter t.cell.tick t.cell.feedback).filter (·.2.isOn r id) with
    | nil =>
      -- All feedback came in, and makes for one block or one piece of feedback at most.
      have hcount := h.count_sent hdown r id
      rw [List.length_nil]
      omega
    | cons entry rest =>
      -- Some is on its way, so nothing else is on the process.
      obtain ⟨hentry, hon⟩ := List.mem_filter.1 (hlater ▸ List.mem_cons_self)
      obtain ⟨rfl, rfl⟩ := HarqFeedback.isOn_iff.1 hon
      obtain ⟨-, -, -, -, hblocks, hkept⟩ := h.later hdown hentry
      have hsingle := h.single entry.2.rnti entry.2.process
      have hcount := count_due t.cell.tick t.cell.feedback entry.2.rnti entry.2.process
      rw [hblocks, hkept, ← hlater]
      simp only [List.length_nil]
      omega
  · rw [hfeedback]
    refine List.forall_mem_append.2 ⟨fun entry hentry => ?_, List.forall_mem_map.2 fun f hf => ?_⟩
    · obtain ⟨sent, t', b, hawaits, -⟩ := h.later hdown hentry
      exact ⟨sent, t', b, hawaits⟩
    · obtain ⟨b, hb, hreported⟩ := exists_left_of_mem hfs hf
      exact ⟨ts.length, t, b, h.awaits_of_sent hdown hb hreported⟩

/-- Feedback that comes in meets the block that it is about. -/
theorem meets (h : t.cell.FeedbackInStep ts) (hdown : t.Downlinks policy grid)
    {before after : List HarqFeedback} (hdue : t.feedback = before ++ f :: after) :
    ∃ sent t' b, ts.length = sent + feedbackDelay ∧ ts[sent]? = some t' ∧
      b ∈ t'.downlink.blocks ∧ b.IsReported f ∧ t.downlink.MeetsBlock before f b := by
  have hf : f ∈ dueAt t.cell.tick t.cell.feedback := by
    change f ∈ t.feedback
    rw [hdue]
    exact List.mem_append_right _ List.mem_cons_self
  obtain ⟨due, hle, hmem⟩ := mem_dueAt.1 hf
  obtain ⟨sent, t', b, hawaits⟩ := h.awaited _ hmem
  obtain ⟨p, hp, hholds⟩ := hawaits.held
  have hsilent := h.silent_before hdue
  rw [← hdown.harq_before] at hp
  rw [← hdown.feedback_before] at hsilent
  obtain ⟨p', hp', hholds'⟩ := DownlinkTrigger.found_of_silent hdown.sound hdown.groups hp hholds
    (Nat.lt_of_succ_lt hawaits.age_lt) hsilent
  -- It is neither late nor early.
  have hnow : ts.length = sent + feedbackDelay := by
    have hdelay := hawaits.due
    have hpending := hawaits.pending
    have htick := h.tick
    simp only at hdelay hpending
    omega
  have hage : ts.length - (sent + 1) + 1 = feedbackDelay := by
    rw [hnow]
    simp only [feedbackDelay]
    omega
  rw [hage] at hholds'
  exact ⟨sent, t', b, hnow, hawaits.turn, hawaits.block, hawaits.reported, grid, p',
    hdown.gridded, hp', hholds', hholds'.not_overdue (by decide)⟩

end FeedbackInStep

end Cell

/-- Along a run, a cell stays in step. By induction over the turns, each of which is taken by a cell
that is ready for it. -/
theorem Plays.feedbackInStep {c₀ c : Cell Record} {ts : List (Turn Record)}
    (h : Plays policy c₀ ts c) (hready : c₀.Ready policy config)
    (henabled : config.harqEnabled = true)
    (hc₀ : c₀.FeedbackInStep []) : c.FeedbackInStep ts := by
  induction h with
  | start => exact hc₀
  | turn hplays htaken ih =>
    obtain ⟨hready, -⟩ := hplays.ready hready
    obtain ⟨grid, hdown⟩ := hready.exists_downlinks htaken henabled
    exact ih.next (hready.leaves htaken) hdown

end LteMac
