import LteMac.Proofs.Scheduler.Consistency
import LteMac.Proofs.Scheduler.Lockstep
import LteMac.Proofs.Uplink.Spectrum

/-!
# Idle UEs

A UE that is configured and given bearers, and for whom nothing else is ever asked, gets an entry in
every table and takes part in every subframe. Nobody notices: whatever is asked of the cell about
others is answered as if the UE were not there, and what is kept of them is the same.

The cell with the UE and the cell without it are twins, of all UEs but this one. They are when it is
configured, since a fresh UE is idle and an entry for one UE is no entry for another; its bearers
change nothing but its own entries; and a request about others leaves twins twins, whether it falls
between the triggers or is one. So the statement is an induction over the list of requests, in which
each request either is the cell's own affair or goes to both.

Nothing is said about reports or queues of the idle UE, because these are what it never has.

* `SchedulerState.twins_addUe`, `Twins.bearersAdded`: its setup leaves twins twins;
* `SchedulerState.Twins.respond_aside`: answers with and without the UE;
* `Run.unnoticed_of_idle`: from any point of a run on.
-/

namespace LteMac

variable {Record : Type} {policy : Policy Record} {config : SchedulerConfig}
  {s s' t t' : SchedulerState Record} {r : Rnti} {q : Request} {qs : List Request}
  {said : List Indication} {es : List (Event Record)}

/-- No request of a list names a UE, except to set up bearers. -/
def OnlyBearers (r : Rnti) (qs : List Request) : Prop :=
  ∀ q ∈ qs, r ∈ q.rntis → ∃ bearers, q = .configureBearers r bearers

/-- A UE that was just configured is idle. -/
theorem Dossier.idle_start (tti : Nat) (mode : TransmissionMode) (d : Dossier Record) :
    (Dossier.start policy tti mode d).Idle where
  downlink u hu := by
    obtain rfl := Option.some.inj hu
    simp [DownlinkUe.hasData, DownlinkUe.idle, Table.mem_values]
  uplink u hu := by
    obtain rfl := Option.some.inj hu
    exact ⟨rfl, rfl⟩

namespace SchedulerState

/-! ## Who is configured

A request for bearers is accepted if the UE is configured and somebody listens. Neither changes by
what is asked about others.
-/

/-- Whether a UE is configured does not depend on what is asked about others. -/
theorem ue_of_step (hs : s.downlink.harq.Separate) (hr : r ∉ q.rntis)
    (hstep : s.step policy q = .ok (s', said)) : s'.ues[r]? = s.ues[r]? := by
  cases hq : q.isPersonal with
  | true => exact congrArg Dossier.ue ((agreeOn_of_personal hs hq hstep).dossier r hr).symm
  | false =>
    cases accepted_of_step hstep with
    | connected | installed | cell | paged | heard | downlink | uplink | noise | sinrIgnored
    | unattributed | credited => rfl
    | _ => cases hq

/-- Nobody ceases to listen. -/
theorem control_of_step (hs : s.downlink.harq.Separate) (hcontrol : s.controlConnected = true)
    (hstep : s.step policy q = .ok (s', said)) : s'.controlConnected = true := by
  cases hq : q.isPersonal with
  | true =>
    have hsetup := (agreeOn_of_personal hs hq hstep).setup
    exact (congrArg Setup.controlConnected hsetup).symm.trans hcontrol
  | false =>
    cases accepted_of_step hstep with
    | connected => exact Bool.or_eq_true_iff.2 (.inl hcontrol)
    | installed | cell | paged | heard | downlink | uplink | noise | sinrIgnored
    | unattributed | credited => exact hcontrol
    | _ => cases hq

/-- Setting up the cell takes a listener. -/
theorem control_of_grid (h : Reachable policy config s) (hgrid : s.grid.isSome = true) :
    s.controlConnected = true := by
  obtain ⟨es, hrun⟩ := h
  refine hrun.invariant (P := fun _ s => s.grid.isSome = true → s.controlConnected = true) nofun
    (fun hrun ih hstep hgrid => ?_) hgrid
  cases hq : Request.isPersonal _ with
  | true =>
    have hsetup := (agreeOn_of_personal hrun.reachable.invariant.sound.separate hq hstep).setup
    have hcontrol := ih (congrArg (·.grid.isSome) hsetup ▸ hgrid)
    exact (congrArg Setup.controlConnected hsetup).symm.trans hcontrol
  | false =>
    cases accepted_of_step hstep with
    | connected => exact Bool.or_eq_true_iff.2 (.inl (ih hgrid))
    | cell _ hcontrol => exact hcontrol
    | installed | paged | heard | downlink | uplink | noise | sinrIgnored | unattributed
    | credited => exact ih hgrid
    | _ => cases hq

/-! ## The setup of an idle UE -/

/-- A cell and its twin with one UE more. -/
theorem twins_addUe (h : s.Consistent) (hs : s.downlink.harq.Separate) (hr : r ∉ s.ues)
    (mode : TransmissionMode) : Twins (· ≠ r) s (addUe policy s r mode) where
  toAgreeOn := (edits_addUe r hs mode).agreeOn hs
  commons := rfl
  reuse := rfl
  quality := rfl
  feedback f hf heq := hr (heq ▸ h.downlink.feedback f hf)
  idle r' hr' := by
    obtain rfl := Decidable.not_not.1 hr'
    have hdownlink : s.downlink.ues[r']? = none :=
      Table.not_mem_iff.1 fun hmem => hr ((h.downlink.records.keys r').1 hmem)
    have huplink : s.uplink.ues[r']? = none :=
      Table.not_mem_iff.1 fun hmem => hr ((h.uplink.records r').1 hmem)
    refine ⟨⟨fun u hu => ?_, fun u hu => ?_⟩, ?_⟩
    · cases hdownlink.symm.trans hu
    · cases huplink.symm.trans hu
    · rw [(edits_addUe r' hs mode).own]
      exact Dossier.idle_start ..

/-- More bearers of the UE that is not in question. -/
theorem Twins.bearersAdded (h : Twins (· ≠ r) s t) {bearers : List Bearer}
    (ht : t.step policy (.configureBearers r bearers) = .ok (t', said)) :
    Twins (· ≠ r) s t' := by
  cases accepted_of_step ht with
  | bearersAdded =>
    have hadd := edits_addBearers r h.separate' (dedicated bearers)
    -- All that is written is in the dossier of `r`, which the twins need not agree on.
    have hown : Edits r _ t (refreshBearers policy (t.addBearers r (dedicated bearers)) r) :=
      hadd.trans (edits_refreshBearers r hadd.separate)
    have hothers := hown.agreeOn h.separate'
    exact
      { h.toAgreeOn.trans hothers with
        commons := h.commons
        reuse := h.reuse
        quality := h.quality
        feedback := h.feedback
        idle := fun r' hr' => by
          obtain rfl := Decidable.not_not.1 hr'
          refine ⟨(h.idle r' hr').1, ?_⟩
          rw [hown.own]
          exact (h.idle r' hr').2.map (g := id) rfl Option.map_id'.symm (fun _ hu => hu)
            fun _ hu => hu }

/-- The setup of a UE goes unnoticed, wherever its parts come in a list of requests about others,
and none of them is refused. -/
theorem Twins.respond_aside (h : Twins (· ≠ r) s t) (hlocal : policy.Local) (hue : r ∈ t.ues)
    (hcontrol : t.controlConnected = true) (hqs : OnlyBearers r qs) :
    (t.respond policy qs).1.filter (r ∉ ·.1.rntis) =
        (s.respond policy (qs.filter (r ∉ ·.rntis))).1 ∧
      (∀ answer ∈ (t.respond policy qs).1, r ∈ answer.1.rntis → ∃ said, answer.2 = .ok said) ∧
      Twins (· ≠ r) (s.respond policy (qs.filter (r ∉ ·.rntis))).2 (t.respond policy qs).2 := by
  induction qs generalizing s t with
  | nil => exact ⟨rfl, by simp [SchedulerState.respond], h⟩
  | cons q rest ih =>
    obtain ⟨hq, hrest⟩ := List.forall_mem_cons.1 hqs
    by_cases hr : r ∈ q.rntis
    · -- Only the cell with the UE gets to see this one.
      have hskip : (q :: rest).filter (r ∉ ·.rntis) = rest.filter (r ∉ ·.rntis) :=
        List.filter_cons_of_neg (by simpa)
      obtain ⟨bearers, rfl⟩ := hq hr
      have hstep : t.step policy (.configureBearers r bearers) = .ok (_, _) :=
        step_of_accepted (.bearersAdded hue hcontrol)
      obtain ⟨hanswers, hok, hnext⟩ := ih (h.bearersAdded hstep)
        (Std.ExtTreeMap.mem_modify.2 hue) hcontrol hrest
      rw [respond_cons_of_ok hstep, hskip]
      refine ⟨?_, List.forall_mem_cons.2 ⟨fun _ => ⟨_, rfl⟩, hok⟩, hnext⟩
      exact (List.filter_cons_of_neg (by simpa)).trans hanswers
    · have hkeep : (q :: rest).filter (r ∉ ·.rntis) = q :: rest.filter (r ∉ ·.rntis) :=
        List.filter_cons_of_pos (by simpa)
      -- A request about others both cells answer alike.
      have hanswered : Answered (Twins (· ≠ r)) (s.step policy q) (t.step policy q) :=
        h.answered hlocal fun r' hr' heq => hr (heq ▸ hr')
      rw [hkeep]
      generalize hs : s.step policy q = x at hanswered
      generalize ht : t.step policy q = y at hanswered
      cases hanswered with
      | @refused cause =>
        obtain ⟨hanswers, hok, hnext⟩ := ih h hue hcontrol hrest
        rw [respond_cons_of_error hs, respond_cons_of_error ht]
        refine ⟨?_, List.forall_mem_cons.2 ⟨fun hmem => absurd hmem hr, hok⟩, hnext⟩
        exact (List.filter_cons_of_pos (by simpa)).trans (congrArg (_ :: ·) hanswers)
      | @accepted _ t' _ hnext =>
        have hue' : r ∈ t'.ues := by
          obtain ⟨u, hu⟩ := Table.exists_of_mem hue
          exact Table.mem_of_getElem? ((ue_of_step h.separate' hr ht).trans hu)
        obtain ⟨hanswers, hok, hnext⟩ := ih hnext hue' (control_of_step h.separate' hcontrol ht)
          hrest
        rw [respond_cons_of_ok hs, respond_cons_of_ok ht]
        refine ⟨?_, List.forall_mem_cons.2 ⟨fun hmem => absurd hmem hr, hok⟩, hnext⟩
        exact (List.filter_cons_of_pos (by simpa)).trans (congrArg (_ :: ·) hanswers)

end SchedulerState

/-- Nobody is configured whom no request named. -/
theorem Run.not_mem_of_unnamed (hrun : Run policy config es s)
    (hes : ∀ e ∈ es, r ∉ e.request.rntis) : r ∉ s.ues := by
  induction hrun with
  | start => exact Std.ExtTreeMap.not_mem_empty
  | step hrun hstep ih =>
    obtain ⟨hes, he⟩ := List.forall_mem_append.1 hes
    have hue := SchedulerState.ue_of_step hrun.reachable.invariant.sound.separate
      (he _ (List.mem_singleton_self _)) hstep
    exact Table.not_mem_iff.2 (hue.trans (Table.not_mem_iff.1 (ih hes)))

/-- A UE that no request of a run named can be configured at any point of it, once the cell is. From
then on the cell goes through any list of requests as it would have done without the UE, as long as
they name it to set up bearers only: these are accepted, the others are answered the same, and what
is kept of all other UEs is the same in the end. The answers compared are whole: decisions with all
their blocks, answers to preambles and paging, and refusals with their causes. -/
theorem Run.unnoticed_of_idle {algorithm : Algorithm} {es : List (Event algorithm.Record)}
    {s : SchedulerState algorithm.Record} (hrun : Run (algorithm.policy config) config es s)
    (hgrid : s.grid.isSome = true) (hes : ∀ e ∈ es, r ∉ e.request.rntis) (hqs : OnlyBearers r qs)
    (mode : TransmissionMode) :
    ∃ t, s.step (algorithm.policy config) (.configureUe r mode) = .ok (t, [.ueConfigured r]) ∧
      (t.respond (algorithm.policy config) qs).1.filter (r ∉ ·.1.rntis) =
        (s.respond (algorithm.policy config) (qs.filter (r ∉ ·.rntis))).1 ∧
      (∀ answer ∈ (t.respond (algorithm.policy config) qs).1, r ∈ answer.1.rntis →
        ∃ said, answer.2 = .ok said) ∧
      (s.respond (algorithm.policy config) (qs.filter (r ∉ ·.rntis))).2.Twins (· ≠ r)
        (t.respond (algorithm.policy config) qs).2 := by
  have hr : r ∉ s.ues := hrun.not_mem_of_unnamed hes
  have hcontrol := SchedulerState.control_of_grid hrun.reachable hgrid
  have htwins : s.Twins (· ≠ r) (s.addUe (algorithm.policy config) r mode) :=
    SchedulerState.twins_addUe hrun.reachable.consistent
      hrun.reachable.invariant.sound.separate hr mode
  refine ⟨_, SchedulerState.step_of_accepted (.added hgrid hcontrol hr), ?_⟩
  exact htwins.respond_aside (algorithm.local_policy config) (Table.mem_insert.2 (.inl rfl))
    hcontrol hqs

/-- Beside a UE that sends and receives, another one is configured and gets a bearer between two
triggers. -/
theorem unnoticed_of_idle_beside_traffic :
    ∃ (es : List (Event Throughput)) (s t : SchedulerState Throughput)
      (answers : List (Request × Except SchedulerError (List Indication))),
      Run (Algorithm.tdBet.policy .default) .default es s ∧
      s.step (Algorithm.tdBet.policy .default) (.configureUe 1 .singleAntenna) =
        .ok (t, [.ueConfigured 1]) ∧
      (s.respond (Algorithm.tdBet.policy .default)
        [.downlinkTrigger [], .uplinkTrigger ⟨4⟩ []]).1 = answers ∧
      (t.respond (Algorithm.tdBet.policy .default)
        [.downlinkTrigger [], .configureBearers 1 [⟨3, none⟩], .uplinkTrigger ⟨4⟩ []]).1.filter
          (1 ∉ ·.1.rntis) = answers ∧
      ((answers.flatMap (·.2.toOption.getD [])).flatMap (·.blocks)).map (·.rnti) = [2] ∧
      ((answers.flatMap (·.2.toOption.getD [])).flatMap (·.grants)).map (·.rnti) = [2] := by
  obtain ⟨es, e, hrun, -, hcheck⟩ := Run.of_replay_step (Algorithm.tdBet.policy .default) .default
    [.connect true true, .configureCell 6 15, .installReuse (.hard 6 15 ⟨0, 1⟩ ⟨0, 15⟩),
      .configureUe 2 .singleAntenna, .queue 2 0 ⟨40, 0, 0, 0, 0⟩,
      .uplinkControls [(2, .bufferStatus [10, 0, 0, 0])]]
    .noise
    (fun es e => es.all (1 ∉ ·.request.rntis) && e.before.grid.isSome &&
      let said := (e.before.respond (Algorithm.tdBet.policy .default)
        [.downlinkTrigger [], .uplinkTrigger ⟨4⟩ []]).1.flatMap (·.2.toOption.getD [])
      (said.flatMap (·.blocks)).map (·.rnti) == [2] &&
        (said.flatMap (·.grants)).map (·.rnti) == [2])
    (by decide +kernel)
  simp only [Bool.and_eq_true, beq_iff_eq, List.all_eq_true, decide_eq_true_iff] at hcheck
  obtain ⟨⟨hes, hgrid⟩, hblocks, hgrants⟩ := hcheck
  have hqs : OnlyBearers 1
      [.downlinkTrigger [], .configureBearers 1 [⟨3, none⟩], .uplinkTrigger ⟨4⟩ []] := by
    simp [OnlyBearers, Request.rntis]
  obtain ⟨t, hstep, hanswers, -⟩ := Run.unnoticed_of_idle hrun hgrid hes hqs .singleAntenna
  exact ⟨es, e.before, t, _, hrun, hstep, rfl, hanswers, hblocks, hgrants⟩

end LteMac
