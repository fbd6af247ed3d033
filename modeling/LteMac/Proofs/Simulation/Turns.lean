import LteMac.Proofs.Downlink.Lineage
import LteMac.Proofs.Scheduler.Service
import LteMac.Proofs.Uplink.Verdicts
import LteMac.Simulation.Report

/-!
# The turns of a cell

A subframe of a cell is a *turn*: its reports, then a downlink trigger, then an uplink trigger, each
an event of the scheduler, and after that the UEs act on the decisions. A run of a cell is *played*
in turns.

The simulation runs a cell in a monad in which any request may be refused, and what happened in a
subframe is not visible from the cell at its end. A turn makes it visible: it has the cell at the
beginning, the events that answered its requests, and from these the cell at the end. A turn is
taken (`Turn.Taken`) if its events are what the scheduler does; that there is such a turn is to say
that no request of the subframe is refused.

What the UEs do with a decision is described by what it leaves on its way (`Turn.Leaves`): a piece
of feedback for each data block of the downlink and an outcome for each grant of the uplink, in
their order, due so many ticks later. Nothing else about the players matters to the scheduler, so
whether a block was received, and all that depends on random numbers, is hidden in the relation
between a block and the report on it.

* `Turn.Taken.subframe`, `Plays.run`: turns that can be taken are subframes, and make up a run;
* `Turn.Taken.leaves`: what a turn leaves for the turns after it.
-/

namespace LteMac

variable {Record : Type} {policy : Policy Record}

/-! ## Being told -/

/-- To tell a scheduler a list of requests is to replay them. -/
theorem Cell.tellAll_of_replay {s t : SchedulerState Record} {rs : List Request}
    {es : List (Event Record)} (h : s.replay policy rs = .ok (es, t)) :
    tellAll policy s rs = .ok t := by
  induction rs generalizing s es with
  | nil =>
    obtain ⟨-, rfl⟩ := SchedulerState.replay_nil_eq_ok.1 h
    rfl
  | cons r rs ih =>
    obtain ⟨s', said, rest, hr, hrest, -⟩ := SchedulerState.replay_cons_eq_ok.1 h
    have htell : tell policy s r = .ok s' := by rw [tell, hr]; rfl
    rw [tellAll, List.foldlM_cons, bind_eq_ok]
    exact ⟨s', htell, ih hrest⟩

/-- What each of the requests keeps. -/
theorem Cell.tellAll_keeps {P : SchedulerState Record → Prop} {s t : SchedulerState Record}
    {rs : List Request}
    (hkeep : ∀ r ∈ rs, ∀ (s s' : SchedulerState Record) (said : List Indication),
      s.step policy r = .ok (s', said) → P s → P s')
    (h : tellAll policy s rs = .ok t) (hs : P s) : P t := by
  induction rs generalizing s with
  | nil =>
    obtain rfl : s = t := Except.ok.inj h
    exact hs
  | cons r rs ih =>
    rw [tellAll, List.foldlM_cons, bind_eq_ok] at h
    obtain ⟨s', hr, hrest⟩ := h
    obtain ⟨hfirst, hkeep⟩ := List.forall_mem_cons.1 hkeep
    rw [tell] at hr
    -- A refusal would end the list, so the request was accepted.
    cases hstep : s.step policy r with
    | error cause =>
      rw [hstep] at hr
      cases hr
    | ok out =>
      rw [hstep] at hr
      obtain rfl : out.1 = s' := Except.ok.inj hr
      exact ih hkeep hrest (hfirst s out.1 out.2 hstep hs)

/-! ## Triggers -/

/-- An event that answers a downlink trigger is the event of that trigger. -/
theorem DownlinkTrigger.eq_event {e : Event Record} {feedback : List HarqFeedback}
    (hrequest : e.request = .downlinkTrigger feedback)
    (hstep : e.before.step policy e.request = .ok (e.after, e.said)) :
    ∃ grid, e.before.grid = some grid ∧ e = event policy e.before grid feedback := by
  obtain ⟨s, q, s', said⟩ := e
  obtain rfl : q = .downlinkTrigger feedback := hrequest
  dsimp only at hstep
  cases SchedulerState.effect_of_step hstep with
  | quiet hq => cases hq
  | downlink hgrid => exact ⟨_, hgrid, rfl⟩

/-- An event that answers an uplink trigger is the event of that trigger. -/
theorem UplinkTrigger.eq_event {e : Event Record} {time : Subframe} {outcomes : List UplinkOutcome}
    (hrequest : e.request = .uplinkTrigger time outcomes)
    (hstep : e.before.step policy e.request = .ok (e.after, e.said)) :
    ∃ grid, e.before.grid = some grid ∧ e = event e.before grid time outcomes := by
  obtain ⟨s, q, s', said⟩ := e
  obtain rfl : q = .uplinkTrigger time outcomes := hrequest
  dsimp only at hstep
  cases SchedulerState.effect_of_step hstep with
  | quiet hq => cases hq
  | uplink hgrid => exact ⟨_, hgrid, rfl⟩

/-! ## Lists side by side -/

/-- What stands on the right has something on its left. -/
theorem exists_left_of_mem {α β : Type} {R : α → β → Prop} {as : List α} {bs : List β} {b : β}
    (h : List.Forall₂ R as bs) (hb : b ∈ bs) : ∃ a ∈ as, R a b := by
  induction h with
  | nil => cases hb
  | cons hab _ ih =>
    rcases List.mem_cons.1 hb with rfl | hb
    · exact ⟨_, List.mem_cons_self, hab⟩
    · obtain ⟨a, ha, hR⟩ := ih hb
      exact ⟨a, List.mem_cons_of_mem _ ha, hR⟩

/-! ## What is due -/

section Due

variable {α : Type} {tick : Nat} {pending : List (Nat × α)}

/-- What arrives in a tick. -/
theorem mem_dueAt {a : α} : a ∈ dueAt tick pending ↔ ∃ due ≤ tick, (due, a) ∈ pending := by
  simp [dueAt, and_comm]

/-- What is still on its way after a tick. -/
theorem mem_dueAfter {entry : Nat × α} :
    entry ∈ dueAfter tick pending ↔ entry ∈ pending ∧ tick < entry.1 := by
  simp [dueAfter]

end Due

/-! ## Turns -/

namespace Cell

/-- A cell while it waits for the decisions of a subframe, which leave its scheduler in the state
`s`. -/
def waiting (c : Cell Record) (s : SchedulerState Record) : Cell Record :=
  { c.arrive with
    scheduler := s
    feedback := dueAfter c.tick c.feedback
    outcomes := dueAfter c.tick c.outcomes
    samples := none }

/-- A cell at the beginning of the next subframe. -/
def moveOn (c : Cell Record) : Cell Record :=
  { c with time := c.time.next, tick := c.tick + 1 }

end Cell

/-- A subframe of a cell, by what its scheduler was asked. -/
structure Turn (Record : Type) where
  /-- The cell at the beginning. -/
  cell : Cell Record
  /-- The reports of the UEs. -/
  reports : List (Event Record)
  /-- The downlink trigger. -/
  downlink : Event Record
  /-- The uplink trigger. -/
  uplink : Event Record

namespace Turn

/-- The feedback that arrives in the subframe. -/
def feedback (t : Turn Record) : List HarqFeedback := dueAt t.cell.tick t.cell.feedback

/-- The outcomes that arrive in the subframe. -/
def outcomes (t : Turn Record) : List UplinkOutcome := dueAt t.cell.tick t.cell.outcomes

/-- All events of the subframe. -/
def events (t : Turn Record) : List (Event Record) := t.reports ++ [t.downlink, t.uplink]

/-- The cell at the end, when the UEs acted on all that was said. -/
def next (t : Turn Record) : Cell Record :=
  ((t.downlink.said ++ t.uplink.said).foldl Cell.take (t.cell.waiting t.uplink.after)).moveOn

/-- The events are those of a subframe of the cell: none of the requests is refused. -/
structure Taken (policy : Policy Record) (t : Turn Record) : Prop where
  /-- First come the reports of the UEs. -/
  reports : t.cell.scheduler.replay policy t.cell.reports = .ok (t.reports, t.downlink.before)
  /-- The downlink trigger brings the feedback that is due. -/
  feedback : t.downlink.request = .downlinkTrigger t.feedback
  /-- It is answered in the state that the reports lead to. -/
  downlink : t.downlink.before.step policy t.downlink.request =
    .ok (t.downlink.after, t.downlink.said)
  /-- The uplink trigger follows at once. -/
  between : t.uplink.before = t.downlink.after
  /-- It brings the outcomes that are due. -/
  outcomes : t.uplink.request = .uplinkTrigger t.cell.time t.outcomes
  /-- It is answered as well. -/
  uplink : t.uplink.before.step policy t.uplink.request = .ok (t.uplink.after, t.uplink.said)

namespace Taken

variable {t : Turn Record}

/-- A turn that is taken is a subframe of its cell. -/
theorem subframe (h : t.Taken policy) : t.cell.subframe policy = .ok t.next := by
  have hdownlink := h.feedback ▸ h.downlink
  have huplink := h.outcomes ▸ h.between ▸ h.uplink
  simp only [Cell.subframe, bind_eq_ok, pure_eq_ok, Prod.exists]
  exact ⟨_, Cell.tellAll_of_replay h.reports, _, _, hdownlink, _, _, huplink, rfl⟩

/-- The events of a turn answer its requests. -/
theorem replay (h : t.Taken policy) :
    t.cell.scheduler.replay policy (t.cell.reports ++ [t.downlink.request, t.uplink.request]) =
      .ok (t.events, t.uplink.after) := by
  have huplink : t.downlink.after.replay policy [t.uplink.request] =
      .ok ([t.uplink], t.uplink.after) :=
    SchedulerState.replay_cons_eq_ok.2
      ⟨t.uplink.after, t.uplink.said, [], h.between ▸ h.uplink, rfl, by rw [← h.between]⟩
  refine SchedulerState.replay_append h.reports (SchedulerState.replay_cons_eq_ok.2 ?_)
  exact ⟨t.downlink.after, t.downlink.said, [t.uplink], h.downlink, huplink, rfl⟩

/-- A downlink trigger is answered with one decision. -/
theorem said_downlink (h : t.Taken policy) :
    ∃ d, t.downlink.said = [.downlink d] ∧ t.downlink.blocks = d.data := by
  obtain ⟨grid, -, heq⟩ := DownlinkTrigger.eq_event h.feedback h.downlink
  rw [heq]
  exact ⟨DownlinkTrigger.decision policy t.downlink.before grid t.feedback, rfl,
    DownlinkTrigger.blocks_event⟩

/-- An uplink trigger is answered with one decision. -/
theorem said_uplink (h : t.Taken policy) :
    ∃ d, t.uplink.said = [.uplink d] ∧ t.uplink.grants = d.grants := by
  obtain ⟨grid, -, heq⟩ := UplinkTrigger.eq_event h.outcomes h.uplink
  rw [heq]
  exact ⟨UplinkTrigger.decision t.uplink.before grid t.outcomes, rfl,
    UplinkTrigger.grants_event ..⟩

end Taken

end Turn

/-! ## What a turn leaves -/

/-- Who is in a cell can be told from the profiles. -/
theorem mem_iff_of_profiles {t t' : Table Rnti Player} {r : Rnti}
    (h : t'[r]?.map (·.profile) = t[r]?.map (·.profile)) : r ∈ t' ↔ r ∈ t := by
  have hsome := congrArg Option.isSome h
  rw [Option.isSome_map, Option.isSome_map] at hsome
  rw [Std.ExtTreeMap.mem_iff_isSome_getElem?, Std.ExtTreeMap.mem_iff_isSome_getElem?, hsome]

namespace Cell

/-- What no decision changes of a cell: all but what its UEs have and what they say. -/
structure Keeps (c c' : Cell Record) : Prop where
  /-- The scheduler is the same. -/
  scheduler : c'.scheduler = c.scheduler
  /-- So is the grid. -/
  blocks : c'.blocks = c.blocks
  /-- So is the subframe. -/
  time : c'.time = c.time
  /-- So is the count of subframes. -/
  tick : c'.tick = c.tick
  /-- The UEs behave as before. -/
  profiles : ∀ r : Rnti, c'.players[r]?.map (·.profile) = c.players[r]?.map (·.profile)

namespace Keeps

variable {c c' c'' : Cell Record}

/-- A cell that does nothing keeps everything. -/
theorem refl (c : Cell Record) : c.Keeps c := ⟨rfl, rfl, rfl, rfl, fun _ => rfl⟩

/-- So do two decisions, one after the other. -/
theorem trans (h : c.Keeps c') (h' : c'.Keeps c'') : c.Keeps c'' where
  scheduler := h'.scheduler.trans h.scheduler
  blocks := h'.blocks.trans h.blocks
  time := h'.time.trans h.time
  tick := h'.tick.trans h.tick
  profiles r := (h'.profiles r).trans (h.profiles r)

/-- No decision brings a UE or takes one away. -/
theorem mem_iff (h : c.Keeps c') {r : Rnti} : r ∈ c'.players ↔ r ∈ c.players :=
  mem_iff_of_profiles (h.profiles r)

end Keeps

end Cell

/-- A UE reports on a downlink block. -/
def DataGrant.IsReported (b : DataGrant) (f : HarqFeedback) : Prop :=
  ∃ p : Player, f = p.feedback b

/-- It turns out how an uplink block was received. -/
def UplinkGrant.IsReported (g : UplinkGrant) (o : UplinkOutcome) : Prop :=
  ∃ p : Player, o = p.outcome g

namespace Cell

variable {c : Cell Record}

/-- The UE of a downlink block will report on it. -/
theorem takeBlock_spec {b : DataGrant} (hb : b.rnti ∈ c.players) :
    c.Keeps (c.takeBlock b) ∧ (c.takeBlock b).outcomes = c.outcomes ∧
      ∃ f, b.IsReported f ∧
        (c.takeBlock b).feedback = c.feedback ++ [(c.tick + feedbackDelay, f)] := by
  obtain ⟨p, hp⟩ := Table.exists_of_mem hb
  simp only [takeBlock, hp]
  refine ⟨⟨rfl, rfl, rfl, rfl, fun r => ?_⟩, trivial, _, ⟨p, rfl⟩, rfl⟩
  rw [Table.getElem?_insert]
  split
  next heq =>
    rw [heq, hp]
    simp only [Option.map_some, Player.receive, Player.drain]
    split <;> rfl
  next => rfl

/-- The UEs of all downlink blocks will report on them, in the order of the blocks. -/
theorem foldl_takeBlock_spec {bs : List DataGrant} (hbs : ∀ b ∈ bs, b.rnti ∈ c.players) :
    c.Keeps (bs.foldl takeBlock c) ∧ (bs.foldl takeBlock c).outcomes = c.outcomes ∧
      ∃ fs, List.Forall₂ DataGrant.IsReported bs fs ∧
        (bs.foldl takeBlock c).feedback = c.feedback ++ fs.map (c.tick + feedbackDelay, ·) := by
  induction bs using List.reverseRecOn with
  | nil => exact ⟨.refl c, rfl, [], .nil, (List.append_nil _).symm⟩
  | append_singleton bs b ih =>
    obtain ⟨hbs, hb⟩ := List.forall_mem_append.1 hbs
    obtain ⟨hkeeps, houtcomes, fs, hfs, hfeedback⟩ := ih hbs
    obtain ⟨hkeeps', houtcomes', f, hf, hfeedback'⟩ :=
      takeBlock_spec (hkeeps.mem_iff.2 (hb b (List.mem_singleton_self b)))
    rw [List.foldl_append, List.foldl_cons, List.foldl_nil]
    refine ⟨hkeeps.trans hkeeps', houtcomes'.trans houtcomes, fs ++ [f],
      List.rel_append hfs (.cons hf .nil), ?_⟩
    rw [hfeedback', hfeedback, hkeeps.tick, List.map_append, List.append_assoc]
    rfl

/-- It will turn out how an uplink block was received. -/
theorem takeGrant_spec {g : UplinkGrant} (hg : g.rnti ∈ c.players) (codes : List UInt16) :
    c.Keeps (takeGrant (c, codes) g).1 ∧ (takeGrant (c, codes) g).1.feedback = c.feedback ∧
      ∃ o, g.IsReported o ∧
        (takeGrant (c, codes) g).1.outcomes = c.outcomes ++ [(c.tick + outcomeDelay, o)] := by
  obtain ⟨p, hp⟩ := Table.exists_of_mem hg
  simp only [takeGrant, hp]
  refine ⟨⟨rfl, rfl, rfl, rfl, fun r => ?_⟩, trivial, _, ⟨p, rfl⟩, rfl⟩
  rw [Table.getElem?_insert]
  split
  next heq => rw [heq, hp, Option.map_some, Option.map_some, Player.send]
  next => rfl

/-- The same for all uplink blocks. -/
theorem foldl_takeGrant_spec {gs : List UplinkGrant} (hgs : ∀ g ∈ gs, g.rnti ∈ c.players)
    (codes : List UInt16) :
    c.Keeps (gs.foldl takeGrant (c, codes)).1 ∧
      (gs.foldl takeGrant (c, codes)).1.feedback = c.feedback ∧
      ∃ os, List.Forall₂ UplinkGrant.IsReported gs os ∧
        (gs.foldl takeGrant (c, codes)).1.outcomes =
          c.outcomes ++ os.map (c.tick + outcomeDelay, ·) := by
  induction gs using List.reverseRecOn with
  | nil => exact ⟨.refl c, rfl, [], .nil, (List.append_nil _).symm⟩
  | append_singleton gs g ih =>
    obtain ⟨hgs, hg⟩ := List.forall_mem_append.1 hgs
    obtain ⟨hkeeps, hfeedback, os, hos, houtcomes⟩ := ih hgs
    -- The player of the last grant is still there after the others were taken.
    obtain ⟨hkeeps', hfeedback', o, ho, houtcomes'⟩ :=
      takeGrant_spec (hkeeps.mem_iff.2 (hg g (List.mem_singleton_self g)))
        (gs.foldl takeGrant (c, codes)).2
    rw [List.foldl_append, List.foldl_cons, List.foldl_nil]
    refine ⟨hkeeps.trans hkeeps', hfeedback'.trans hfeedback, os ++ [o],
      List.rel_append hos (.cons ho .nil), ?_⟩
    rw [houtcomes', houtcomes, hkeeps.tick, List.map_append, List.append_assoc]
    rfl

/-- What the UEs make of a downlink decision. -/
theorem takeDownlink_spec {d : DownlinkDecision} (hd : ∀ b ∈ d.data, b.rnti ∈ c.players) :
    c.Keeps (c.takeDownlink d) ∧ (c.takeDownlink d).outcomes = c.outcomes ∧
      ∃ fs, List.Forall₂ DataGrant.IsReported d.data fs ∧
        (c.takeDownlink d).feedback = c.feedback ++ fs.map (c.tick + feedbackDelay, ·) := by
  -- The accesses that are counted concern no UE.
  obtain ⟨hkeeps, hrest⟩ := foldl_takeBlock_spec
    (c := { c with accesses := c.accesses + d.access.length }) hd
  exact ⟨{ hkeeps with }, hrest⟩

/-- What the UEs make of an uplink decision. -/
theorem takeUplink_spec {d : UplinkDecision} (hd : ∀ g ∈ d.grants, g.rnti ∈ c.players) :
    c.Keeps (c.takeUplink d) ∧ (c.takeUplink d).feedback = c.feedback ∧
      ∃ os, List.Forall₂ UplinkGrant.IsReported d.grants os ∧
        (c.takeUplink d).outcomes = c.outcomes ++ os.map (c.tick + outcomeDelay, ·) := by
  obtain ⟨hkeeps, hrest⟩ :=
    foldl_takeGrant_spec hd (List.replicate c.blocks Sinr.unmeasuredCode)
  exact ⟨{ hkeeps with }, hrest⟩

end Cell

/-- What a turn leaves: a cell that moved on by a subframe, with its UEs, and what they will report
on the blocks of the turn. -/
structure Turn.Leaves (t : Turn Record) (c : Cell Record) : Prop where
  /-- The scheduler is as the uplink trigger leaves it. -/
  scheduler : c.scheduler = t.uplink.after
  /-- The grid is the same. -/
  blocks : c.blocks = t.cell.blocks
  /-- The next subframe has begun. -/
  time : c.time = t.cell.time.next
  /-- One more subframe is counted. -/
  tick : c.tick = t.cell.tick + 1
  /-- The UEs behave as before. -/
  profiles : ∀ r : Rnti, c.players[r]?.map (·.profile) = t.cell.players[r]?.map (·.profile)
  /-- Feedback on the blocks of the turn is on its way, with what had not come in. -/
  feedback : ∃ fs, List.Forall₂ DataGrant.IsReported t.downlink.blocks fs ∧
    c.feedback = dueAfter t.cell.tick t.cell.feedback ++
      fs.map (t.cell.tick + feedbackDelay, ·)
  /-- So are the outcomes of the grants of the turn. -/
  outcomes : ∃ os, List.Forall₂ UplinkGrant.IsReported t.uplink.grants os ∧
    c.outcomes = dueAfter t.cell.tick t.cell.outcomes ++
      os.map (t.cell.tick + outcomeDelay, ·)

/-- The UEs of a cell stay the same. -/
theorem Turn.Leaves.mem_iff {t : Turn Record} {c : Cell Record} (h : t.Leaves c) {r : Rnti} :
    r ∈ c.players ↔ r ∈ t.cell.players :=
  mem_iff_of_profiles (h.profiles r)

/-- A turn whose decisions name UEs of the cell leaves a cell that moved on by a subframe, with the
reports on its blocks on their way. -/
theorem Turn.Taken.leaves {t : Turn Record} (h : t.Taken policy)
    (hblocks : ∀ b ∈ t.downlink.blocks, b.rnti ∈ t.cell.players)
    (hgrants : ∀ g ∈ t.uplink.grants, g.rnti ∈ t.cell.players) : t.Leaves t.next := by
  obtain ⟨d, hsaid, hdata⟩ := h.said_downlink
  obtain ⟨d', hsaid', hdata'⟩ := h.said_uplink
  rw [hdata] at hblocks
  rw [hdata'] at hgrants
  -- Time passes for all UEs first; this changes what they hold, but not who they are.
  have hwaiting : ∀ r : Rnti, (t.cell.waiting t.uplink.after).players[r]?.map (·.profile) =
      t.cell.players[r]?.map (·.profile) := by
    intro r
    simp only [Cell.waiting, Cell.arrive, Std.ExtTreeMap.getElem?_map, Option.map_map]
    rfl
  have hplayers : ∀ r : Rnti, r ∈ (t.cell.waiting t.uplink.after).players ↔
      r ∈ t.cell.players := fun r => Std.ExtTreeMap.mem_map
  -- What was decided for the downlink is taken in before what was decided for the uplink.
  obtain ⟨hkeeps, houtcomes, fs, hfs, hfeedback⟩ :=
    Cell.takeDownlink_spec fun b hb => (hplayers b.rnti).2 (hblocks b hb)
  obtain ⟨hkeeps', hfeedback', os, hos, houtcomes'⟩ :=
    Cell.takeUplink_spec fun g hg => hkeeps.mem_iff.2 ((hplayers g.rnti).2 (hgrants g hg))
  have hall := hkeeps.trans hkeeps'
  have hnext : t.next =
      (((t.cell.waiting t.uplink.after).takeDownlink d).takeUplink d').moveOn := by
    rw [next, hsaid, hsaid']
    rfl
  rw [hnext]
  exact
    { scheduler := hall.scheduler
      blocks := hall.blocks
      time := congrArg Subframe.next hall.time
      tick := congrArg (· + 1) hall.tick
      profiles := fun r => (hall.profiles r).trans (hwaiting r)
      feedback := ⟨fs, hdata ▸ hfs, hfeedback'.trans hfeedback⟩
      outcomes := ⟨os, hdata' ▸ hos, by rw [Cell.moveOn, houtcomes', houtcomes, hkeeps.tick]; rfl⟩ }

/-! ## Runs in turns -/

/-- The cell `c₀` takes the turns `ts`, one after the other, and then is `c`. -/
inductive Plays (policy : Policy Record) (c₀ : Cell Record) :
    List (Turn Record) → Cell Record → Prop
  /-- No turn was taken. -/
  | start : Plays policy c₀ [] c₀
  /-- One more turn is taken. -/
  | turn {ts : List (Turn Record)} {t : Turn Record} :
      Plays policy c₀ ts t.cell → t.Taken policy → Plays policy c₀ (ts ++ [t]) t.next

/-- The last subframe of a run. -/
theorem Cell.run_succ (n : Nat) (c : Cell Record) :
    c.run policy (n + 1) = (c.run policy n >>= fun c => c.subframe policy) := by
  induction n generalizing c with
  | zero =>
    have hstart : (c.run policy 0 >>= fun c => c.subframe policy) = c.subframe policy := rfl
    rw [hstart, run]
    cases c.subframe policy <;> rfl
  | succ n ih =>
    rw [run]
    conv_rhs => rw [run]
    cases c.subframe policy with
    | error e => rfl
    | ok c' => exact ih c'

namespace Plays

variable {c₀ c : Cell Record} {ts : List (Turn Record)}

/-- Turns that were taken one after the other make up a run of as many subframes. -/
theorem run (h : Plays policy c₀ ts c) : c₀.run policy ts.length = .ok c := by
  induction h with
  | start => rfl
  | turn _ htaken ih =>
    rw [List.length_append, List.length_singleton, Cell.run_succ, ih]
    exact htaken.subframe

/-- The run up to a turn, which can be taken then. -/
theorem before_of_getElem? (h : Plays policy c₀ ts c) {n : Nat} {t : Turn Record}
    (ht : ts[n]? = some t) : Plays policy c₀ (ts.take n) t.cell ∧ t.Taken policy := by
  induction h with
  | start => simp at ht
  | @turn ts t' hplays htaken ih =>
    by_cases hn : n < ts.length
    · rw [List.getElem?_append_left hn] at ht
      rw [List.take_append_of_le_length (Nat.le_of_lt hn)]
      exact ih ht
    · -- The last turn: everything before it is the run so far.
      obtain ⟨hlt, rfl⟩ := List.getElem?_eq_some_iff.1 ht
      have hlen : n = ts.length := by
        simp only [List.length_append, List.length_singleton] at hlt
        omega
      subst hlen
      simpa using ⟨hplays, htaken⟩

end Plays

end LteMac
