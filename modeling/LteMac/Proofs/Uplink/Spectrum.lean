import LteMac.Proofs.Downlink.Access
import LteMac.Proofs.Scheduler.Effect
import LteMac.Proofs.Uplink.Trigger

/-!
# The uplink spectrum

The blocks of an uplink subframe are given away by two kinds of triggers: every downlink trigger
since the last uplink trigger may have answered random accesses with some of them, and the uplink
trigger shares the rest among retransmissions and new data. The answers that stand (`standing`) are
those of UEs that were not released in the meantime; the map of reserved blocks knows all of them.

The answers that stand are read off the run and the reserved blocks off the state, and the account
between them is what has to be kept: it is opened by the first answer after an uplink trigger,
changed by releases and reconfigurations, and used up by the next uplink trigger. In the map a block
belongs to nobody if its owner is 0, which is why no request may name the UE 0; nothing else is
assumed of the requests.

* `Run.accounts`: along every run that names only proper UEs, the reserved blocks account for the
  answers that stand;
* `Run.separate_uplink`: the grants of every accepted uplink trigger meet neither each other nor an
  answer that stands.
-/

namespace LteMac

variable {Record : Type}

/-- The answers that stand after an event, of those that stood before and its own. -/
def Event.standing (answers : List AccessGrant) (e : Event Record) : List AccessGrant :=
  match e.request with
  | .uplinkTrigger .. => []
  | .releaseUe r => answers.filter (·.rnti ≠ r)
  | _ => answers ++ e.answers

/-- The random access answers since the last uplink trigger, but for those of UEs released since. -/
def standing (es : List (Event Record)) : List AccessGrant := es.foldl Event.standing []

/-- One more event acts on the answers that stood before it. -/
theorem standing_concat (es : List (Event Record)) (e : Event Record) :
    standing (es ++ [e]) = e.standing (standing es) := by
  simp [standing]

/-! ## Answers -/

namespace Access

/-- The blocks of answers are sound on the processes of their UEs. -/
theorem sound_foldl_storeGrant {answers : List AccessGrant} (hpos : ∀ a ∈ answers, 0 < a.length)
    {ues : Table Rnti UplinkUe} (h : UplinkTable.Sound ues) :
    UplinkTable.Sound (answers.foldl storeGrant ues) := by
  induction answers generalizing ues with
  | nil => exact h
  | cons a rest ih =>
    obtain ⟨ha, hrest⟩ := List.forall_mem_cons.1 hpos
    exact ih hrest (h.modify fun u hu => hu.store ⟨rfl, ha⟩)

end Access

/-! ## Runs -/

variable {policy : Policy Record} {config : SchedulerConfig} {es : List (Event Record)}
  {s s' : SchedulerState Record} {q : Request} {said : List Indication}

namespace SchedulerState

/-- The processes of every UE keep remembering proper grants. -/
theorem sound_of_step (h : UplinkTable.Sound s.uplink.ues)
    (hstep : s.step policy q = .ok (s', said)) : UplinkTable.Sound s'.uplink.ues := by
  cases effect_of_step hstep with
  | cell => exact h
  | added => exact h.insert UplinkEntity.sound_fresh
  | released => exact h.erase _
  | heard => exact h
  | @downlink _ grid =>
    have hpos := ((Access.roundOf s grid).answers_answer s.uplink.reserved 0 s.preambles).pos
    change UplinkTable.Sound (if s.config.harqEnabled then
      (Access.answerAll s grid).2.foldl Access.storeGrant s.uplink.ues else s.uplink.ues)
    split
    · exact Access.sound_foldl_storeGrant hpos h
    · exact h
  | @uplink time outcomes grid => exact UplinkTrigger.sound_decide s grid outcomes h time
  -- A quiet request moves no entity.
  | quiet _ hmove =>
    intro r u hu
    have hentity := hmove.entities r
    rw [hu, Option.map_some, eq_comm, Option.map_eq_some_iff] at hentity
    obtain ⟨u', hu', heq⟩ := hentity
    exact heq ▸ h r u' hu'

end SchedulerState

/-- What the uplink of a cell knows after the events `es`: the answers that stand are reserved, and
the processes remember proper grants. -/
structure Accounts (es : List (Event Record)) (s : SchedulerState Record) : Prop where
  /-- Every answer that stands has its blocks reserved. -/
  reserves : s.uplink.reserved.Reserves (standing es)
  /-- UE 0 sent no preamble. -/
  heard : ∀ p ∈ s.preambles, p.rnti ≠ 0
  /-- Before there is a grid nothing is answered. -/
  closed : s.grid = none → standing es = []
  /-- The processes remember proper grants. -/
  sound : UplinkTable.Sound s.uplink.ues

namespace Accounts

/-- In a new cell no answer stands. -/
theorem initial : Accounts [] (.initial config : SchedulerState Record) where
  reserves := .nil _
  heard := by simp [SchedulerState.initial]
  closed _ := rfl
  sound := .empty

/-- Answering random accesses adds to the answers that stand. -/
theorem downlink {grid : Grid} {feedback : List HarqFeedback} (h : Accounts es s)
    (hgrid : s.grid = some grid)
    (hsound : UplinkTable.Sound (DownlinkTrigger.decide policy s grid feedback).1.uplink.ues) :
    Accounts (es ++ [⟨s, .downlinkTrigger feedback,
      (DownlinkTrigger.decide policy s grid feedback).1,
      (DownlinkTrigger.decide policy s grid feedback).2⟩])
      (DownlinkTrigger.decide policy s grid feedback).1 where
  reserves := by
    have hanswer := ((Access.roundOf s grid).answers_answer s.uplink.reserved 0
      s.preambles).reserves h.heard h.reserves
    simpa [standing_concat, Event.standing, Event.answers, DownlinkTrigger.decide,
      Indication.answers, Access.answerAll] using hanswer
  heard := by simp [DownlinkTrigger.decide]
  closed hnone := by simp [DownlinkTrigger.decide, hgrid] at hnone
  sound := hsound

/-- A request that is neither an uplink trigger nor a release, and answers nothing, keeps the
answers that stand. -/
theorem standing_of_quiet (hq : q.isQuiet = true) (hsaid : SchedulerState.Undecided said) :
    standing (es ++ [⟨s, q, s', said⟩]) = standing es := by
  rw [standing_concat]
  have hanswers : standing es ++ said.flatMap Indication.answers = standing es := by
    rw [hsaid.2, List.append_nil]
  cases q with
  | uplinkTrigger | releaseUe => cases hq
  | _ => exact hanswers

/-- An accepted request that names only proper UEs keeps the accounts. -/
theorem of_step (h : Accounts es s) (hnames : 0 ∉ q.rntis)
    (hstep : s.step policy q = .ok (s', said)) : Accounts (es ++ [⟨s, q, s', said⟩]) s' := by
  have hsound := SchedulerState.sound_of_step h.sound hstep
  cases SchedulerState.effect_of_step hstep with
  | cell hgrid =>
    -- The map starts over, and before the cell was set up nothing was answered.
    have hnone : standing es = [] := h.closed hgrid
    refine ⟨?_, h.heard, nofun, hsound⟩
    simpa [standing_concat, Event.standing, Event.answers, Indication.answers, hnone] using
      BlockMap.Reserves.nil _
  | added =>
    refine ⟨?_, h.heard, ?_, hsound⟩
    · simpa [standing_concat, Event.standing, Event.answers, Indication.answers,
        SchedulerState.addUe] using h.reserves
    · simpa [standing_concat, Event.standing, Event.answers, Indication.answers,
        SchedulerState.addUe] using h.closed
  | @released r =>
    -- The blocks of the UE are freed, and its answers do not stand any more.
    refine ⟨?_, ?_, ?_, hsound⟩
    · rw [standing_concat]
      exact h.reserves.release r
    · exact fun p hp => h.heard p (List.mem_filter.1 hp).1
    · intro hnone
      rw [standing_concat, h.closed hnone]
      rfl
  | @heard preambles hgrid =>
    refine ⟨?_, ?_, ?_, hsound⟩
    · simpa [standing_concat, Event.standing, Event.answers] using h.reserves
    · refine List.forall_mem_append.2 ⟨h.heard, fun p hp heq => hnames ?_⟩
      exact List.mem_map.2 ⟨p, hp, heq⟩
    · intro hnone
      rw [show s.grid = none from hnone] at hgrid
      cases hgrid
  | downlink hgrid => exact h.downlink hgrid hsound
  | @uplink time outcomes grid hgrid =>
    refine ⟨?_, h.heard, fun _ => ?_, hsound⟩
    · rw [standing_concat]
      exact .nil _
    · rw [standing_concat]
      rfl
  | quiet hq hmove hsaid =>
    have hstanding : standing (es ++ [⟨s, q, s', said⟩]) = standing es :=
      standing_of_quiet hq hsaid
    refine ⟨?_, hmove.preambles ▸ h.heard, ?_, hsound⟩
    · rw [hstanding, hmove.reserved]
      exact h.reserves
    · rw [hstanding, hmove.grid]
      exact h.closed

end Accounts

/-- Along a run that names only proper UEs, the uplink accounts for the answers that stand. -/
theorem Run.accounts (h : Run policy config es s) (hnames : ∀ e ∈ es, 0 ∉ e.request.rntis) :
    Accounts es s := by
  induction h with
  | start => exact .initial
  | step _ hq ih =>
    obtain ⟨hes, he⟩ := List.forall_mem_append.1 hnames
    exact (ih hes).of_step (by simpa using he) hq

/-! ## The grants of a trigger -/

/-- The uplink blocks an indication grants. -/
def Indication.grants : Indication → List UplinkGrant
  | .uplink d => d.grants
  | _ => []

/-- The grants of a decision share the blocks that are usable in a cell and answer no random
access, and at most one grant goes to each UE. -/
structure UplinkDecision.Separate (d : UplinkDecision) (grid : Grid) (reuse : ReusePolicy)
    (answers : List AccessGrant) : Prop where
  /-- Each grant has a block. -/
  nonempty : ∀ g ∈ d.grants, g.blocks ≠ []
  /-- No block is in two grants. -/
  disjoint : (d.grants.map (·.blocks)).Pairwise List.Disjoint
  /-- The blocks are those of the grid. -/
  inside : ∀ g ∈ d.grants, ∀ i ∈ g.blocks, i < grid.uplink
  /-- The cell may use them. -/
  usable : ∀ g ∈ d.grants, ∀ i ∈ g.blocks, flagAt reuse.uplinkFlags i = true
  /-- No block of a grant answers a random access. -/
  apart : ∀ g ∈ d.grants, ∀ a ∈ answers, g.blocks.Disjoint a.blocks
  /-- No block is in two answers. -/
  answers : (answers.map (·.blocks)).Pairwise List.Disjoint
  /-- No UE has two grants. -/
  nodup : (d.grants.map (·.rnti)).Nodup

/-- The grants of every accepted uplink trigger are kept apart, and away from the answers to random
accesses that stand: they lie on usable blocks of the cell, no block is in two of them or in a grant
and an answer, and no UE has two grants. The trigger itself keeps its own grants apart, since it
looks each block up before it takes it; that the answers are out of its way is known from the run,
along which every answer that stands keeps its blocks reserved. -/
theorem Run.separate_uplink {time : Subframe} {outcomes : List UplinkOutcome}
    (hrun : Run policy config es s) (hnames : ∀ e ∈ es, 0 ∉ e.request.rntis)
    (hstep : s.step policy (.uplinkTrigger time outcomes) = .ok (s', said)) :
    ∃ grid d, s.grid = some grid ∧ said = [.uplink d] ∧
      d.Separate grid s.reuse (standing es) := by
  have haccounts := hrun.accounts hnames
  cases SchedulerState.effect_of_step hstep with
  | quiet hq => cases hq
  | @uplink _ _ grid hgrid =>
    have hhand := UplinkTrigger.handout_decision s grid outcomes haccounts.sound
    have hfree : ∀ g ∈ (UplinkTrigger.decision s grid outcomes).grants, ∀ i ∈ g.blocks,
        i < grid.uplink ∧ flagAt s.reuse.uplinkFlags i = true ∧
          s.uplink.reserved.isFree i = true := fun g hg i hi =>
      (UplinkTrigger.isFree_opened s grid i).1
        (hhand.allots.wasFree _ (List.mem_map_of_mem hg) i hi)
    refine ⟨grid, _, hgrid, rfl, ?_⟩
    exact
      { nonempty := fun g hg => hhand.allots.nonempty _ (List.mem_map_of_mem hg)
        disjoint := hhand.allots.disjoint
        inside := fun g hg i hi => (hfree g hg i hi).1
        usable := fun g hg i hi => (hfree g hg i hi).2.1
        apart := fun g hg a ha i hi hia => by
          -- The block would be reserved, but it was free when the trigger began.
          have hreserved := haccounts.reserves.not_isFree ha hia
          rw [(hfree g hg i hi).2.2] at hreserved
          cases hreserved
        answers := haccounts.reserves.disjoint
        nodup := hhand.nodup }

/-- A run in which new data of one UE shares a subframe with the answer to the random access of
another. -/
theorem separate_uplink_data_beside_answer :
    ∃ (es : List (Event Throughput)) (s s' : SchedulerState Throughput) (grid : Grid)
      (d : UplinkDecision),
      Run .tdBet .default es s ∧ (∀ e ∈ es, 0 ∉ e.request.rntis) ∧
      s.step .tdBet (.uplinkTrigger ⟨4⟩ []) = .ok (s', [.uplink d]) ∧
      (standing es).map (·.blocks) = [List.range' 0 5] ∧
      d.grants.map (·.blocks) = [List.range' 5 10] ∧ d.Separate grid s.reuse (standing es) := by
  obtain ⟨es, e, hrun, hstep, hcheck⟩ := Run.of_replay_step .tdBet .default
    [.connect true true, .configureCell 15 15, .configureUe 1 .singleAntenna,
      .configureUe 2 .singleAntenna, .randomAccess [⟨1, 7, 100⟩], .downlinkTrigger [],
      .uplinkControls [(2, .bufferStatus [10, 0, 0, 0])]]
    (.uplinkTrigger ⟨4⟩ [])
    (fun es e => es.all (fun e => !e.request.rntis.contains 0) &&
      (standing es).map (·.blocks) == [List.range' 0 5] &&
      (e.said.flatMap (·.grants)).map (·.blocks) == [List.range' 5 10]) (by decide +kernel)
  simp only [Bool.and_eq_true, beq_iff_eq] at hcheck
  obtain ⟨⟨hnames, hstanding⟩, hcheck⟩ := hcheck
  have hnames : ∀ e ∈ es, 0 ∉ e.request.rntis := by simpa using hnames
  obtain ⟨grid, d, -, hsaid, hsep⟩ := hrun.separate_uplink hnames hstep
  rw [hsaid] at hstep hcheck
  have hgrants : d.grants.map (·.blocks) = [List.range' 5 10] := by
    simpa [Indication.grants] using hcheck
  exact ⟨es, e.before, e.after, grid, d, hrun, hnames, hstep, hstanding, hgrants, hsep⟩

end LteMac
