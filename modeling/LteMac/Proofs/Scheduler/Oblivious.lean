import LteMac.Proofs.Scheduler.InPlace
import LteMac.Proofs.Scheduler.Invariant
import LteMac.Proofs.Uplink.Permission

/-!
# A cell without retransmissions

Where retransmissions are switched off, what receivers report about blocks is checked and then
ignored: a trigger may bring any other feedback, as long as it is about UEs and processes that
exist, and the cell goes on as before. Only what UEs are told about their uplink blocks depends on
the outcomes reported, for that is all they are used for. Nothing is remembered of what was sent
(`SchedulerState.Forgetful`), so that nothing is sent again.

Two statements come together here. One compares two runs, whose requests differ in their feedback:
they go through the same states, event by event, and their indications are compared after the
acknowledgements are taken out. The other is about a single run, and says what is left of
retransmissions in it, which is nothing: no block is ever sent for a second time, every block names
process 0, and the processes stay as they were at the start.

* `SchedulerState.step_refed`: one request with other feedback;
* `SchedulerState.Forgetful.of_step`: nothing is remembered of a block;
* `Run.oblivious`: a whole run with other feedback, and what is sent in it.
-/

namespace LteMac

variable {Record : Type} {policy : Policy Record} {config : SchedulerConfig}
  {s s' : SchedulerState Record} {q q' : Request} {said : List Indication}

/-! ## Other feedback -/

/-- `q'` asks for what `q` asks for, but if it is a trigger, it may bring other feedback, on UEs
and processes of `s`. -/
inductive Request.Refed (s : SchedulerState Record) : Request → Request → Prop
  /-- The request is the same. -/
  | same (q : Request) : Refed s q q
  /-- Other feedback on processes that the UEs have. -/
  | downlink {feedback feedback' : List HarqFeedback}
      (hvalid : ∀ f ∈ feedback', f.rnti ∈ s.ues ∧ f.process < harqProcesses) :
      Refed s (.downlinkTrigger feedback) (.downlinkTrigger feedback')
  /-- Other outcomes of configured UEs. -/
  | uplink {time : Subframe} {outcomes outcomes' : List UplinkOutcome}
      (hvalid : ∀ o ∈ outcomes', o.rnti ∈ s.ues) :
      Refed s (.uplinkTrigger time outcomes) (.uplinkTrigger time outcomes')

/-- The outcomes of uplink blocks a request brings. -/
def Request.outcomes : Request → List UplinkOutcome
  | .uplinkTrigger _ outcomes => outcomes
  | _ => []

/-- An indication without what UEs are told about their uplink blocks. -/
def Indication.untold : Indication → Indication
  | .uplink d => .uplink { d with acknowledgements := [] }
  | i => i

/-- What is said to a request with other feedback: the same, up to what UEs are told about their
uplink blocks, and exactly the same if the outcomes of those are. -/
structure Resembles (q q' : Request) (said said' : List Indication) : Prop where
  /-- Apart from the acknowledgements the same is said. -/
  untold : said'.map (·.untold) = said.map (·.untold)
  /-- With the same outcomes, so are the acknowledgements. -/
  same : q'.outcomes = q.outcomes → said' = said

/-- `e'` is the event `e` with other feedback. -/
structure Event.Echoes (e e' : Event Record) : Prop where
  /-- It happens in the same state. -/
  before : e'.before = e.before
  /-- It leads to the same state. -/
  after : e'.after = e.after
  /-- What is said in it resembles what was said. -/
  said : Resembles e.request e'.request e.said e'.said

/-- What is said resembles itself. -/
theorem Resembles.refl (q : Request) (said : List Indication) : Resembles q q said said :=
  ⟨rfl, fun _ => rfl⟩

/-- Without retransmissions, a downlink trigger does not look at its feedback. -/
theorem DownlinkTrigger.decide_of_disabled (hoff : s.config.harqEnabled = false) (grid : Grid)
    (feedback feedback' : List HarqFeedback) :
    decide policy s grid feedback' = decide policy s grid feedback := by
  have hretries : retries s grid feedback' = retries s grid feedback := by
    simp [retries, retransmit, opened, hoff]
  have hturns : turns s grid feedback' = turns s grid feedback := by
    rw [turns, hretries]
    rfl
  rw [decide_eq, decide_eq, data, fresh, data, fresh, hretries, hturns]

/-- Nor does an uplink trigger, but for what it says about it. -/
theorem UplinkTrigger.decide_of_disabled (hoff : s.config.harqEnabled = false) (grid : Grid)
    (time : Subframe) (outcomes outcomes' : List UplinkOutcome) :
    (decide s grid time outcomes').1 = (decide s grid time outcomes).1 ∧
      (decision s grid outcomes').grants = (decision s grid outcomes).grants := by
  have hretries : retries s grid outcomes' = retries s grid outcomes := by
    simp [retries, retransmit, hoff]
  have hfresh : fresh s grid outcomes' = fresh s grid outcomes := by
    rw [fresh, fresh, hretries]
  refine ⟨?_, by rw [decision, decision, hretries, hfresh]⟩
  change ({ s with
    uplink := ⟨(fresh s grid outcomes').ues.map (close s.config (fresh s grid outcomes').sent),
      (fresh s grid outcomes').quality, .empty grid.uplink,
      remember s.uplink.history time (fresh s grid outcomes').map,
      nextTurn s.uplink.cursor (candidates s (retries s grid outcomes'))⟩ } :
    SchedulerState Record) = _
  rw [hretries, hfresh]
  rfl

/-- Without retransmissions, a request is accepted with other feedback as well and leads to the
same state. -/
theorem SchedulerState.step_refed (hoff : s.config.harqEnabled = false) (hq : q.Refed s q')
    (hstep : s.step policy q = .ok (s', said)) :
    ∃ said', s.step policy q' = .ok (s', said') ∧ Resembles q q' said said' := by
  cases hq with
  | same => exact ⟨said, hstep, .refl q said⟩
  -- A downlink trigger does not look at its feedback at all.
  | @downlink feedback feedback' hvalid =>
    refine ⟨said, ?_, ⟨rfl, fun _ => rfl⟩⟩
    cases accepted_of_step hstep with
    | downlink hdata hgrid =>
      rw [← DownlinkTrigger.decide_of_disabled hoff _ feedback feedback']
      exact step_of_accepted (.downlink hdata hgrid hvalid)
  -- An uplink trigger looks at its outcomes only to acknowledge what was received.
  | @uplink time outcomes outcomes' hvalid =>
    cases accepted_of_step hstep with
    | @uplink _ _ grid hdata hgrid =>
      obtain ⟨hstate, hgrants⟩ :=
        UplinkTrigger.decide_of_disabled hoff grid time outcomes outcomes'
      have hsaid : ∀ outcomes, (UplinkTrigger.decide s grid time outcomes).2 =
          [.uplink (UplinkTrigger.decision s grid outcomes)] := fun _ => rfl
      have hsame : outcomes' = outcomes → UplinkTrigger.decide s grid time outcomes' =
          UplinkTrigger.decide s grid time outcomes := fun h => by rw [h]
      refine ⟨(UplinkTrigger.decide s grid time outcomes').2, ?_, ⟨?_, ?_⟩⟩
      · rw [← hstate]
        exact step_of_accepted (.uplink hdata hgrid hvalid)
      · simp only [hsaid, List.map_cons, List.map_nil, Indication.untold, hgrants]
      · exact fun h => congrArg Prod.snd (hsame h)

/-! ## Nothing is remembered -/

/-- The paging blocks an indication grants. -/
def Indication.pages : Indication → List PagingGrant
  | .downlink d => d.paging
  | _ => []

/-- What a pass over the paging queue sends is new, on process 0. -/
theorem Paging.new_of_sendAll (grid : Grid) (o : Occupancy) (queue : List PagingMessage) :
    ∀ g ∈ (sendAll grid o queue).sent, g.grant.process = 0 ∧ g.grant.ndi = [1] := by
  unfold sendAll
  induction queue using List.reverseRecOn with
  | nil => simp
  | append_singleton queue message ih =>
    rw [List.foldl_append, List.foldl_cons, List.foldl_nil, Round.send]
    split
    · exact ih
    · exact List.forall_mem_append.2 ⟨ih, by simp [grant]⟩

/-- No process carries a block, and no feedback waits. -/
structure SchedulerState.Forgetful (s : SchedulerState Record) : Prop where
  /-- Every process is as it was at the start. -/
  free : ∀ {r : Rnti} {id : Nat} {p : DownlinkProcess},
    s.downlink.harq.process? r id = some p → p = .free
  /-- No feedback waits. -/
  feedback : s.downlink.feedback = []

/-- A pass over the candidates that uses no processes. -/
theorem NewData.foldl_serve_of_disabled (setting : NewData.Setting)
    (hoff : setting.harqEnabled = false) (proposal : Allocation) (cs : List Rnti)
    (start : NewData.Round Record) (hsent : ∀ b ∈ start.sent, b.grant.process = 0) :
    let out := cs.foldl (setting.serve proposal) start
    out.harq = start.harq ∧ out.feedback = start.feedback ∧
      ∀ b ∈ out.sent, b.grant.process = 0 := by
  induction cs generalizing start with
  | nil => exact ⟨rfl, rfl, hsent⟩
  | cons c rest ih =>
    -- What one candidate is sent, from what serving it comes to.
    have hone : (setting.serve proposal start c).harq = start.harq ∧
        (setting.serve proposal start c).feedback = start.feedback ∧
        ∀ b ∈ (setting.serve proposal start c).sent, b.grant.process = 0 := by
      have hserved := served_serve setting proposal start c
      generalize setting.serve proposal start c = out at hserved
      cases hserved with
      | skipped => exact ⟨rfl, rfl, hsent⟩
      | sent _ _ _ _ _ _ _ hproc =>
        rw [Setting.process?, if_neg (by simp [hoff])] at hproc
        obtain ⟨hzero, rfl⟩ := Prod.mk.inj (Option.some.inj hproc)
        rw [hoff]
        exact ⟨rfl, rfl, List.forall_mem_append.2 ⟨hsent, by simp [← hzero]⟩⟩
    obtain ⟨hharq, hfeedback, hzero⟩ := hone
    obtain ⟨hharq', hfeedback', hzero'⟩ := ih _ hzero
    exact ⟨hharq'.trans hharq, hfeedback'.trans hfeedback, hzero'⟩

namespace DownlinkTrigger

variable (policy : Policy Record) (grid : Grid) (feedback : List HarqFeedback)

/-- Without retransmissions, the stages leave the aged processes and the waiting feedback alone,
and send on process 0 only. -/
theorem fresh_of_disabled (hoff : s.config.harqEnabled = false) :
    (fresh policy s grid feedback).harq = (opened s grid).downlink.harq ∧
      (fresh policy s grid feedback).feedback = (opened s grid).downlink.feedback ∧
      (retries s grid feedback).sent = [] ∧
      ∀ b ∈ (fresh policy s grid feedback).sent, b.grant.process = 0 := by
  have hretries : retries s grid feedback =
      ⟨(opened s grid).downlink.harq, (paged s grid).occupancy, (opened s grid).downlink.feedback,
        []⟩ := by
    simp [retries, retransmit, opened, hoff]
  obtain ⟨cs, -, -, proposal, heq⟩ := fresh_eq policy s grid feedback
  have hfold := NewData.foldl_serve_of_disabled (setting (opened s grid) grid) hoff
    proposal cs (start s grid feedback) (List.forall_mem_nil _)
  rw [← heq] at hfold
  simpa only [start, hretries, true_and] using hfold

end DownlinkTrigger

namespace SchedulerState

/-- A new cell has nothing to remember. -/
theorem forgetful_initial : (SchedulerState.initial config : SchedulerState Record).Forgetful where
  free hp := by simp [initial, DownlinkHarq.process?_empty] at hp
  feedback := rfl

/-- Without retransmissions, nothing is ever remembered of a block. -/
theorem Forgetful.of_step (h : s.Forgetful) (hinv : s.Invariant config)
    (hoff : config.harqEnabled = false) (hstep : s.step policy q = .ok (s', said)) :
    s'.Forgetful := by
  cases effect_of_step hstep with
  | cell => exact ⟨h.free, h.feedback⟩
  | added =>
    exact ⟨fun hp =>
      (DownlinkHarq.free_or_of_process?_insert hinv.sound.separate hp).elim id h.free, h.feedback⟩
  | released =>
    exact ⟨fun hp => h.free (DownlinkHarq.of_process?_erase hinv.sound.separate hp),
      by simp [removeUe, h.feedback]⟩
  | heard => exact ⟨h.free, h.feedback⟩
  | @downlink feedback grid =>
    obtain ⟨hharq, hfeedback, -, -⟩ := DownlinkTrigger.fresh_of_disabled policy grid
      feedback (hinv.config ▸ hoff)
    rw [DownlinkTrigger.decide_eq]
    refine ⟨fun hp => ?_, ?_⟩
    · -- Ageing keeps a free process free.
      rw [hharq, DownlinkTrigger.process?_opened, Option.map_eq_some_iff] at hp
      obtain ⟨p, hp, rfl⟩ := hp
      rw [h.free hp]
      rfl
    · rw [hfeedback]
      simp [DownlinkTrigger.opened, DownlinkTrigger.age, h.feedback]
  | uplink => exact ⟨h.free, h.feedback⟩
  | quiet _ hmove =>
    exact ⟨fun hp => h.free (hmove.harq ▸ hp), hmove.feedback.trans h.feedback⟩

/-- Without retransmissions, every data block is new and names process 0. -/
theorem blocks_of_disabled (hinv : s.Invariant config) (hoff : config.harqEnabled = false)
    (hstep : s.step policy q = .ok (s', said)) {b : DataGrant}
    (hb : b ∈ said.flatMap (·.blocks)) : b.grant.process = 0 ∧ b.IsFirst := by
  cases effect_of_step hstep with
  | @downlink feedback grid hgrid =>
    obtain ⟨-, -, hnone, hzero⟩ := DownlinkTrigger.fresh_of_disabled policy grid
      feedback (hinv.config ▸ hoff)
    have hb : b ∈ (DownlinkTrigger.fresh policy s grid feedback).sent := by
      simpa [DownlinkTrigger.decide_eq, Indication.blocks, DownlinkTrigger.data, hnone] using hb
    exact ⟨hzero b hb, (DownlinkTrigger.fair_fresh policy s grid feedback hinv.sound
      (hinv.rbgCount_le hgrid)).first b hb⟩
  | quiet _ _ hsaid => simp [hsaid.1] at hb
  | cell | added | released | heard | uplink =>
    simp [UplinkTrigger.decide, Indication.blocks] at hb

/-- Paging blocks are new and name process 0. -/
theorem pages_of_step (hstep : s.step policy q = .ok (s', said)) {g : PagingGrant}
    (hg : g ∈ said.flatMap (·.pages)) : g.grant.process = 0 ∧ g.grant.ndi = [1] := by
  cases accepted_of_step hstep with
  | @downlink feedback grid =>
    refine Paging.new_of_sendAll grid (.ofFlags grid.rbgCount s.reuse.downlinkFlags)
      s.downlink.paging g ?_
    simpa [DownlinkTrigger.decide_eq, Indication.pages, DownlinkTrigger.paged] using hg
  | qualityTaken =>
    obtain ⟨i, hi, hg⟩ := List.mem_flatMap.1 hg
    obtain ⟨_, _, rfl⟩ := learned_says _ i hi
    simp [Indication.pages] at hg
  | _ => simp [UplinkTrigger.decide, Indication.pages] at hg

end SchedulerState

/-! ## Runs -/

variable {es : List (Event Record)}

/-- Without retransmissions, no state of a run remembers a block. -/
theorem Reachable.forgetful (hoff : config.harqEnabled = false) (h : Reachable policy config s) :
    s.Forgetful := by
  have hboth : s.Forgetful ∧ s.Invariant config := by
    refine Run.reachable_invariant (P := fun s => s.Forgetful ∧ s.Invariant config)
      ⟨SchedulerState.forgetful_initial, .initial⟩ (fun hs hq => ?_) h
    exact ⟨hs.1.of_step hs.2 hoff hq, hs.2.of_step hq⟩
  exact hboth.1

namespace Run

/-- The run with other feedback. -/
theorem refed (hoff : config.harqEnabled = false) (hrun : Run policy config es s)
    {qs : List Request} (hqs : List.Forall₂ (fun e q => e.request.Refed e.before q) es qs) :
    ∃ es', Run policy config es' s ∧ es'.map (·.request) = qs ∧
      List.Forall₂ Event.Echoes es es' := by
  -- One more event at the end, which leads from the same state to the same state.
  induction hrun generalizing qs with
  | start =>
    cases hqs
    exact ⟨[], .start, rfl, .nil⟩
  | @step es s s' q said hrun hstep ih =>
    have hfront := (List.forall₂_take_append _ _ _ hqs.flip).flip
    obtain ⟨q', last, hq', hnil, hlast⟩ :=
      List.forall₂_cons_right_iff.1 (List.forall₂_drop_append _ _ _ hqs.flip)
    obtain rfl := List.forall₂_nil_right_iff.1 hnil
    obtain ⟨es', hrun', hrequests, hechoes⟩ := ih hfront
    obtain ⟨said', hstep', hsaid⟩ :=
      SchedulerState.step_refed (hrun.reachable.invariant.config ▸ hoff) hq' hstep
    refine ⟨es' ++ [⟨s, q', s', said'⟩], hrun'.step hstep', ?_, ?_⟩
    · rw [List.map_append, hrequests]
      exact (congrArg (qs.take es.length ++ ·) hlast.symm).trans (List.take_append_drop ..)
    · exact List.rel_append hechoes (.cons ⟨rfl, rfl, hsaid⟩ .nil)

/-- In a cell without retransmissions, feedback is irrelevant: any run goes through the same states
and says the same with other feedback on UEs and processes that exist, up to what UEs are told
about their uplink blocks where the outcomes of those were replaced. Nothing is ever sent again:
every data block and every paging block names process 0 and is new on each layer, and so is every
uplink grant. No downlink process ever carries a block, and no feedback ever waits. -/
theorem oblivious (hoff : config.harqEnabled = false) (hrun : Run policy config es s) :
    (∀ qs, List.Forall₂ (fun e q => e.request.Refed e.before q) es qs →
      ∃ es', Run policy config es' s ∧ es'.map (·.request) = qs ∧
        List.Forall₂ Event.Echoes es es') ∧
    (∀ e ∈ es, (∀ b ∈ e.blocks, b.grant.process = 0 ∧ b.IsFirst) ∧
      (∀ g ∈ e.said.flatMap (·.pages), g.grant.process = 0 ∧ g.grant.ndi = [1]) ∧
      (∀ g ∈ e.grants, g.ndi = 1) ∧ e.after.Forgetful) ∧
    s.Forgetful := by
  refine ⟨fun qs => hrun.refed hoff, fun e he => ?_, hrun.reachable.forgetful hoff⟩
  obtain ⟨n, hn, heq⟩ := List.getElem_of_mem he
  have he : es[n]? = some e := List.getElem?_eq_some_iff.2 ⟨hn, heq⟩
  obtain ⟨hbefore, hstep⟩ := hrun.before_of_getElem? he
  have hinv := hbefore.reachable.invariant
  refine ⟨fun b => SchedulerState.blocks_of_disabled hinv hoff hstep,
    fun g => SchedulerState.pages_of_step hstep, fun g hg => ?_,
    (hbefore.reachable.step hstep).forgetful hoff⟩
  obtain ⟨-, ⟨hnew, -⟩ | ⟨-, hon⟩⟩ := hrun.usable_of_grant he hg
  · exact hnew
  · exact absurd (hoff.symm.trans hon) Bool.false_ne_true

end Run

/-- A cell without retransmissions. -/
def withoutRetransmissions : SchedulerConfig :=
  { SchedulerConfig.default with harqEnabled := false }

/-- In a cell with one group for the downlink, a UE is sent a block in each direction, and both are
reported as delivered. -/
def delivered : List Request :=
  [.connect true true, .configureCell 6 6, .installReuse (.hard 6 6 ⟨0, 1⟩ ⟨0, 6⟩),
    .configureUe 1 .singleAntenna, .queue 1 0 ⟨500, 0, 0, 0, 0⟩,
    .uplinkControls [(1, .bufferStatus [20, 0, 0, 0])],
    .downlinkTrigger [], .downlinkTrigger [⟨1, 0, [.ack]⟩], .uplinkTrigger ⟨0⟩ [],
    .uplinkTrigger ⟨8⟩ [⟨1, .ok⟩]]

/-- The request with failures of UE 1 in place of its feedback. -/
def Request.failed : Request → Request
  | .downlinkTrigger _ => .downlinkTrigger [⟨1, 7, [.nack]⟩, ⟨1, 0, [.nack]⟩]
  | .uplinkTrigger time _ => .uplinkTrigger time [⟨1, .notOk⟩, ⟨1, .notOk⟩]
  | q => q

/-- A run in which blocks are sent and delivered, and the same run with failures reported instead:
the cell goes on in the same way, although it tells the UE otherwise. -/
theorem oblivious_of_failures :
    withoutRetransmissions.harqEnabled = false ∧
      ∃ (es es' : List (Event Throughput)) (s : SchedulerState Throughput),
        Run .tdBet withoutRetransmissions es s ∧ Run .tdBet withoutRetransmissions es' s ∧
        es'.map (·.request) = es.map (·.request.failed) ∧ List.Forall₂ Event.Echoes es es' ∧
        (es.flatMap (·.blocks)).length = 2 ∧ (es.flatMap (·.grants)).length = 2 ∧
        s.Forgetful := by
  obtain ⟨es, s, hrun, hcheck⟩ := Run.of_replay .tdBet withoutRetransmissions delivered
    (fun es => (es.all fun e => !e.request.isTrigger || e.before.ues.contains 1) &&
      (es.flatMap (·.blocks)).length == 2 && (es.flatMap (·.grants)).length == 2)
    (by decide +kernel)
  simp only [Bool.and_eq_true, beq_iff_eq, List.all_eq_true] at hcheck
  obtain ⟨⟨hall, hblocks⟩, hgrants⟩ := hcheck
  have hrefed : List.Forall₂ (fun e q => e.request.Refed e.before q) es
      (es.map (·.request.failed)) := by
    refine List.forall₂_map_right_iff.2 (List.forall₂_same.2 fun e he => ?_)
    have hue := hall e he
    generalize e.request = q at hue ⊢
    cases q with
    | downlinkTrigger => exact .downlink (by simpa [Request.isTrigger, harqProcesses] using hue)
    | uplinkTrigger => exact .uplink (by simpa [Request.isTrigger] using hue)
    | _ => exact .same _
  obtain ⟨hother, -, hforgetful⟩ := Run.oblivious rfl hrun
  obtain ⟨es', hrun', hrequests, hechoes⟩ := hother _ hrefed
  exact ⟨rfl, es, es', s, hrun, hrun', hrequests, hechoes, hblocks, hgrants, hforgetful⟩

end LteMac
