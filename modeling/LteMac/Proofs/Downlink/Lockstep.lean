import LteMac.Proofs.Downlink.Locality
import LteMac.Proofs.Downlink.Tables
import LteMac.Proofs.Policy.Locality
import LteMac.Proofs.Scheduler.Twins
import LteMac.Proofs.Uplink.Tables

/-!
# Downlink subframes of twins

Idle UEs take part in every downlink subframe: they stand in the rotation, their reports and
processes age, and their averages take in that they got nothing. But no turn is theirs, so that
twins decide a subframe alike and are twins afterwards.

The stages are followed one by one. Preambles and paging are the same in twins, so the answers and
the groups that paging takes are the same. Feedback is on blocks of UEs in question, and so are the
turns: these are the UEs for whom something waits. The policy is asked about candidates which are
the same in both cells, but with contexts and records that may differ on everybody else; this is
where it is needed that policies look at nobody but the candidates (`Policy.Local`).

* `DownlinkTrigger.retries_agreeOn`, `turns_eq`, `fresh_agreeOn`: stage by stage;
* `DownlinkTrigger.twins_decide`: the whole subframe;
* `SchedulerState.Twins.downlinkTrigger`: twins answer a downlink trigger alike.
-/

namespace LteMac

variable {Record : Type} {policy : Policy Record} {s t : SchedulerState Record}
  {known : Rnti → Prop} {r : Rnti} {q : Request}

namespace Access

/-- A UE after the random accesses were answered. -/
def answered (enabled : Bool) (answers : List AccessGrant) (r : Rnti) (u : UplinkUe) : UplinkUe :=
  { u with harq := if enabled then
      ((answers.filter (·.rnti = r)).map uplinkGrant).foldl .store u.harq else u.harq }

/-- The record of a UE after the answers takes in those that it got. -/
theorem getElem?_answerAll (s : SchedulerState Record) (grid : Grid) (r : Rnti) :
    (answerAll s grid).1.ues[r]? =
      s.uplink.ues[r]?.map (answered s.config.harqEnabled (answerAll s grid).2 r) := by
  change (if s.config.harqEnabled then (answerAll s grid).2.foldl storeGrant s.uplink.ues
    else s.uplink.ues)[r]? = _
  cases s.config.harqEnabled with
  | true => exact getElem?_foldl_storeGrant ..
  | false => exact Option.map_id'.symm

end Access

namespace DownlinkTrigger

/-- What is kept of a UE once the cell has aged and answered the random accesses. -/
theorem dossier_opened (s : SchedulerState Record) (grid : Grid) (r : Rnti) :
    (opened s grid).dossier r =
      { s.dossier r with
        uplink := (s.dossier r).uplink.map
          (Access.answered s.config.harqEnabled (Access.answerAll s grid).2 r)
        entity := (s.dossier r).entity.map (·.age)
        wideband := (s.dossier r).wideband.bind (·.tick)
        subband := (s.dossier r).subband.bind (·.tick) } := by
  have huplink := Access.getElem?_answerAll s grid r
  simp only [SchedulerState.dossier, opened, age, huplink, DownlinkHarq.entity?_refresh,
    DownlinkQuality.refresh, AgingTable.refresh, Std.ExtTreeMap.getElem?_filterMap']
  rfl

/-- Whom nothing waits for is as idle as before. -/
theorem idle_opened (grid : Grid) (h : (s.dossier r).Idle) : ((opened s grid).dossier r).Idle := by
  rw [dossier_opened]
  exact h.map (f := id) Option.map_id'.symm rfl (fun _ hu => hu) fun _ hu => hu

/-- What is kept of a UE after the subframe. -/
theorem dossier_decide (policy : Policy Record) (s : SchedulerState Record) (grid : Grid)
    (feedback : List HarqFeedback) (r : Rnti) :
    (decide policy s grid feedback).1.dossier r =
      { (opened s grid).dossier r with
        downlink := (fresh policy s grid feedback).ues[r]?.map fun u => { u with
          record := policy.record (bytesOf (fresh policy s grid feedback).sent r)
            s.config.timeWindow u.record }
        entity := (fresh policy s grid feedback).harq.entity? r } := by
  rw [decide_eq]
  simp only [SchedulerState.dossier, recordAll, Std.ExtTreeMap.getElem?_map]

/-- Whoever had no turn is as idle as before. -/
theorem idle_decide {grid : Grid} {feedback : List HarqFeedback} (h : (s.dossier r).Idle)
    (hr : r ∉ turns s grid feedback) :
    ((decide policy s grid feedback).1.dossier r).Idle := by
  obtain ⟨cs, -, hsub, proposal, hfresh⟩ := fresh_eq policy s grid feedback
  have hues : (fresh policy s grid feedback).ues[r]? = s.downlink.ues[r]? := by
    rw [hfresh]
    exact NewData.ues_foldl_serve (fun hmem => hr (hsub r hmem)) proposal _
  rw [dossier_decide, dossier_opened, hues]
  exact h.map rfl rfl (fun _ hu => hu) fun _ hu => hu

variable (h : s.Twins known t) (grid : Grid)

include h

/-- The random accesses are answered with the same blocks. -/
theorem answer_eq :
    (Access.roundOf s grid).answer s.uplink.reserved 0 s.preambles =
      (Access.roundOf t grid).answer t.uplink.reserved 0 t.preambles := by
  have hpreambles : s.preambles = t.preambles := congrArg Commons.preambles h.commons
  have hreserved : s.uplink.reserved = t.uplink.reserved := congrArg Commons.reserved h.commons
  simp only [Access.roundOf, h.reuse, h.config, hpreambles, hreserved]

/-- Twins answer their random accesses alike. -/
theorem answers_eq : (Access.answerAll s grid).2 = (Access.answerAll t grid).2 := by
  have hanswers := congrArg Prod.snd (answer_eq h grid)
  exact hanswers

/-- Twins are still twins once they have aged. -/
theorem twins_opened : (opened s grid).Twins known (opened t grid) where
  setup := congrArg (fun x : Setup => { x with tti := x.tti + 1 }) h.setup
  dossier r hr := by
    rw [dossier_opened, dossier_opened, h.dossier r hr, h.config, answers_eq h]
  separate := h.separate.refresh
  separate' := h.separate'.refresh
  commons := by
    have hsame : s.downlink.feedback = t.downlink.feedback := congrArg Commons.feedback h.commons
    -- What expires is the same in both, as far as there is feedback on it.
    have hfeedback : (age s.downlink).feedback = (age t.downlink).feedback := by
      rw [age, age, ← hsame]
      exact List.filter_congr fun f hf => by rw [h.harq.contains_expiring (h.feedback f hf)]
    have hreserved : (Access.answerAll s grid).1.reserved = (Access.answerAll t grid).1.reserved :=
      congrArg Prod.fst (answer_eq h grid)
    have hcommons := h.commons
    simp only [SchedulerState.commons, Commons.mk.injEq] at hcommons ⊢
    obtain ⟨-, -, -, hrest⟩ := hcommons
    exact ⟨rfl, hfeedback, hreserved, hrest⟩
  reuse := h.reuse
  quality := congrArg DownlinkQuality.refresh h.quality
  feedback f hf := h.feedback f (List.mem_filter.1 hf).1
  idle r hr := by
    exact (h.idle r hr).imp (idle_opened grid) (idle_opened grid)

/-- Paging leaves the same groups. -/
theorem paged_eq : paged s grid = paged t grid := by
  have hpaging : s.downlink.paging = t.downlink.paging := congrArg Setup.paging h.setup
  rw [paged, h.reuse, hpaging, paged]

/-! ### The policy

The policy is asked about the same UEs, in the same order, and in a context that shows it the same
of each of them.
-/

/-- UEs in question are served in as many layers. -/
theorem layers_eq (hr : known r) : t.layers r = s.layers r :=
  congrArg (fun d : Dossier Record => d.ue.elim 1 (·.mode.layers)) (h.dossier r hr).symm

/-- The settings of the passes differ at most in the layers of other UEs. -/
theorem setting_eq : setting t grid = { setting s grid with layers := t.layers } := by
  simp only [setting, h.config, h.reuse, h.quality]

/-- The policy proposes the same for UEs in question, since it looks at no others. -/
theorem proposal_eq (hlocal : policy.Local) (o : Occupancy) {cs : List Rnti}
    (hcs : ∀ c ∈ cs, known c) : proposal policy t grid o cs = proposal policy s grid o cs := by
  have hcontext : context t grid o = { context s grid o with
      layers := t.layers
      queues := (context t grid o).queues } := by
    simp only [context, h.config, h.reuse, h.quality]
  have hdossier : ∀ c ∈ cs, t.dossier c = s.dossier c := fun c hc => (h.dossier c (hcs c hc)).symm
  rw [proposal, hcontext]
  refine hlocal _ _ _ _ _ _ (fun c hc => layers_eq h (hcs c hc)) (fun c hc => ?_) fun c hc => ?_
  · exact congrArg (fun d : Dossier Record => d.downlink.elim [] (·.queues.values)) (hdossier c hc)
  · exact congrArg (fun d : Dossier Record => d.downlink.map (·.record)) (hdossier c hc)

/-! ### Stages

One stage of the trigger after the other: each is entered by cells that agree, and left by cells
that agree.
-/

variable {feedback : List HarqFeedback}

variable {grid} in
/-- Nobody has a turn for whom nothing waits. -/
theorem known_of_turn {c : Rnti} (hc : c ∈ turns s grid feedback) : known c := by
  by_contra hunknown
  have hturn := (List.mem_filter.1 hc).2
  simp only [Bool.and_eq_true, Option.any_eq_true] at hturn
  obtain ⟨⟨-, u, hu, hdata⟩, -⟩ := hturn
  rw [(h.idle c hunknown).1.downlink u hu] at hdata
  cases hdata

variable (hfeedback : ∀ f ∈ feedback, known f.rnti)

include hfeedback

/-- The retransmissions of twins agree. -/
theorem retries_agreeOn : (retries s grid feedback).AgreeOn known (retries t grid feedback) := by
  have hopened := twins_opened h grid
  have hwaiting : (opened s grid).downlink.feedback = (opened t grid).downlink.feedback :=
    congrArg Commons.feedback hopened.commons
  rw [retries, retransmit, retries, retransmit]
  rw [hopened.config, hopened.reuse, paged_eq h, hwaiting]
  split
  · refine Retransmission.handleAll_agreeOn hopened.harq _ ?_
    exact List.forall_mem_append.2 ⟨hwaiting ▸ hopened.feedback, hfeedback⟩
  · exact ⟨hopened.harq, rfl, rfl, rfl⟩

/-- Feedback that waits is on blocks of UEs in question. -/
theorem known_of_kept : ∀ f ∈ (retries s grid feedback).kept, known f.rnti := by
  have hopened := twins_opened h grid
  rw [retries, retransmit]
  split
  · intro f hf
    have hpending := (Retransmission.tables_handleAll _ _ _ _).2 f hf
    exact List.forall_mem_append.2 ⟨hopened.feedback, hfeedback⟩ f hpending
  · exact hopened.feedback

/-- The same UEs have their turns. -/
theorem turns_eq : turns s grid feedback = turns t grid feedback := by
  have hopened := twins_opened h grid
  have hretries := retries_agreeOn h grid hfeedback
  have hcursor : (opened s grid).downlink.cursor = (opened t grid).downlink.cursor :=
    congrArg Commons.downlinkCursor hopened.commons
  rw [turns, candidates, turns, candidates]
  rw [SchedulerState.filter_rotation, SchedulerState.filter_rotation, hcursor]
  refine congrArg (SchedulerState.rotation · _) (Table.filter_keys_congr fun r => ?_)
  -- For a UE that is not in question nothing waits, whether or not the cell serves it.
  by_cases hr : known r
  · have hserved : (retries s grid feedback).served r = (retries t grid feedback).served r := by
      rw [Retransmission.Round.served, hretries.sent, Retransmission.Round.served]
    have hdownlink : (opened s grid).downlink.ues[r]? = (opened t grid).downlink.ues[r]? :=
      congrArg Dossier.downlink (hopened.dossier r hr)
    rw [Std.ExtTreeMap.mem_iff_contains, Std.ExtTreeMap.mem_iff_contains, hopened.contains hr,
      hserved, hdownlink, hopened.config, hretries.harq.isAvailable hr]
  · have hs : (opened s grid).downlink.ues[r]?.any (·.hasData) = false := (h.idle r hr).1.hasData
    have ht : (opened t grid).downlink.ues[r]?.any (·.hasData) = false := (h.idle r hr).2.hasData
    simp only [hs, ht, Bool.and_false, Bool.false_and, Bool.false_eq_true, and_false]

variable (hlocal : policy.Local)

include hlocal

/-- The new data of twins agree. -/
theorem fresh_agreeOn :
    (fresh policy s grid feedback).AgreeOn known (fresh policy t grid feedback) := by
  have hopened := twins_opened h grid
  have hretries := retries_agreeOn h grid hfeedback
  have hturns := turns_eq h grid hfeedback
  have hknown : ∀ c ∈ turns s grid feedback, known c := fun c hc => known_of_turn h hc
  have hstart : (start s grid feedback).AgreeOn known
      { start t grid feedback with occupancy := (retries s grid feedback).occupancy } :=
    ⟨fun r hr => congrArg Dossier.downlink (hopened.dossier r hr), hretries.harq, hretries.kept,
      rfl, rfl⟩
  rw [fresh, sendNew, fresh, sendNew]
  rw [← hturns, ← hretries.occupancy, proposal_eq hopened grid hlocal _ hknown,
    setting_eq hopened]
  split
  · exact hstart
  · exact NewData.foldl_serve_agreeOn hstart hknown (fun c hc => layers_eq hopened (hknown c hc)) _

/-- Twins decide a downlink subframe alike, and stay twins. -/
theorem twins_decide :
    (decide policy s grid feedback).1.Twins known (decide policy t grid feedback).1 ∧
      (decide policy s grid feedback).2 = (decide policy t grid feedback).2 := by
  have hopened := twins_opened h grid
  have hretries := retries_agreeOn h grid hfeedback
  have hfresh := fresh_agreeOn h grid hfeedback hlocal
  have hturns := turns_eq h grid hfeedback
  have hpaged := paged_eq h grid
  have hcursor : s.downlink.cursor = t.downlink.cursor := congrArg Commons.downlinkCursor h.commons
  obtain ⟨cs, -, -, proposal, hserved⟩ := fresh_eq policy s grid feedback
  refine ⟨?_, ?_⟩
  · exact
      { setup := by
          rw [decide_eq, decide_eq, hpaged]
          exact congrArg (fun x : Setup => { x with paging := (paged t grid).waiting })
            hopened.setup
        dossier := fun r hr => by
          rw [dossier_decide, dossier_decide, hopened.dossier r hr, hfresh.ues r hr, hfresh.sent,
            h.config, hfresh.harq.entity r hr]
        separate := hfresh.harq.separate
        separate' := hfresh.harq.separate'
        commons := by
          rw [decide_eq, decide_eq, hfresh.feedback, hturns, hcursor]
          exact congrArg (fun c : Commons => { c with
            feedback := (fresh policy t grid feedback).feedback
            downlinkCursor := nextTurn t.downlink.cursor (turns t grid feedback) }) hopened.commons
        reuse := h.reuse
        quality := hopened.quality
        feedback := fun f hf => by
          rw [decide_eq] at hf
          dsimp only at hf
          rw [hserved] at hf
          -- Feedback that waits was on its way before the stage of new data, which only ever drops
          -- some.
          have hkept := NewData.feedback_foldl_serve cs proposal _ f hf
          exact known_of_kept h grid hfeedback f hkept
        idle := fun r hr =>
          ⟨idle_decide (h.idle r hr).1 fun hturn => hr (known_of_turn h hturn),
            idle_decide (h.idle r hr).2 fun hturn => hr (known_of_turn h.symm hturn)⟩ }
  · rw [decide_eq, decide_eq, data, data, hretries.sent, hfresh.sent, answers_eq h, hpaged]

end DownlinkTrigger

/-- Twins answer a downlink trigger alike, if its feedback is about UEs in question and the policy
looks at nobody but the candidates. -/
theorem SchedulerState.Twins.downlinkTrigger (h : s.Twins known t) (hlocal : policy.Local)
    {feedback : List HarqFeedback} (hfeedback : ∀ f ∈ feedback, known f.rnti) :
    Answered (Twins known) (s.step policy (.downlinkTrigger feedback))
      (t.step policy (.downlinkTrigger feedback)) := by
  have hcheck : feedback.forM (DownlinkTrigger.requireFeedback s) =
      feedback.forM (DownlinkTrigger.requireFeedback t) :=
    forM_congr fun f hf => by
      rw [DownlinkTrigger.requireFeedback, h.requireUe (hfeedback f hf),
        DownlinkTrigger.requireFeedback]
  refine .check h.requireData fun _ _ => .check h.requireGrid fun grid _ =>
    .check hcheck fun _ _ => ?_
  obtain ⟨hnext, hsaid⟩ := DownlinkTrigger.twins_decide h grid hfeedback hlocal
  exact .ok hnext hsaid

end LteMac
