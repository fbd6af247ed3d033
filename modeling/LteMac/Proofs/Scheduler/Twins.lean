import LteMac.Proofs.Downlink.Locality
import LteMac.Proofs.Scheduler.Personal
import LteMac.Proofs.Uplink.Locality
import Mathlib.Data.List.Sort

/-!
# Twins

Two cells are twins (`SchedulerState.Twins`) if they keep the same of the UEs in question, while
nothing waits for any other UE and none has anything to send. Requests about the UEs in question do
not tell twins apart: they are answered alike, and the cells stay twins. Here is why this is so for
the requests between the subframes.

The relation is symmetric and says nothing about how the cells came to be, so it fits two cells of
which one has a UE that the other never heard of, and also two cells with different idle UEs. Being
twins is more than agreeing on the UEs in question: what the cell keeps for all its UEs together,
which is the feedback that waits, the paging, the preambles, the reuse policy and the reports, has
to be the same as well, as a request about one UE may be answered with what concerns another.

* `SchedulerState.Twins.personal`: requests about single UEs;
* `SchedulerState.Twins.credited`: measurements of past blocks, whoever they belong to;
* `SchedulerState.Twins.between`: all that is not a trigger.
-/

namespace LteMac

variable {Record : Type} {policy : Policy Record} {s s' t t' : SchedulerState Record}
  {known : Rnti → Prop} {r : Rnti} {q : Request} {said : List Indication}

/-- The keys of a table that have a property are determined by which of its keys have it. -/
theorem Table.filter_keys_congr {α β : Type} {ues : Table Rnti α} {ues' : Table Rnti β}
    {p p' : Rnti → Bool} (h : ∀ r : Rnti, r ∈ ues ∧ p r = true ↔ r ∈ ues' ∧ p' r = true) :
    ues.keys.filter p = ues'.keys.filter p' := by
  refine (ues.pairwise_keys.filter p).eq_of_mem_iff (ues'.pairwise_keys.filter p') fun r => ?_
  rw [List.mem_filter, List.mem_filter, Std.ExtTreeMap.mem_keys, Std.ExtTreeMap.mem_keys, h r]

/-- Nothing waits for a UE, and it has nothing to send. A UE of which no record is kept is idle. -/
structure Dossier.Idle (d : Dossier Record) : Prop where
  /-- Nothing waits for it. -/
  downlink : ∀ u, d.downlink = some u → u.hasData = false
  /-- It holds nothing, and did not ask to send. -/
  uplink : ∀ u, d.uplink = some u → u.pending = 0 ∧ u.requested = false

/-- A UE stays idle if its records stay those of an idle one. -/
theorem Dossier.Idle.map {d d' : Dossier Record} {f : DownlinkUe Record → DownlinkUe Record}
    {g : UplinkUe → UplinkUe} (h : d.Idle) (hdownlink : d'.downlink = d.downlink.map f)
    (huplink : d'.uplink = d.uplink.map g) (hf : ∀ u, u.hasData = false → (f u).hasData = false)
    (hg : ∀ u, u.pending = 0 ∧ u.requested = false → (g u).pending = 0 ∧ (g u).requested = false) :
    d'.Idle where
  downlink u' hu' := by
    obtain ⟨u, hu, rfl⟩ := Option.map_eq_some_iff.1 (hdownlink.symm.trans hu')
    exact hf u (h.downlink u hu)
  uplink u' hu' := by
    obtain ⟨u, hu, rfl⟩ := Option.map_eq_some_iff.1 (huplink.symm.trans hu')
    exact hg u (h.uplink u hu)

/-- An idle UE is no candidate of the downlink. -/
theorem Dossier.Idle.hasData {d : Dossier Record} (h : d.Idle) :
    d.downlink.any (·.hasData) = false := by
  cases hu : d.downlink with
  | none => rfl
  | some u => exact h.downlink u hu

/-- An idle UE is no candidate of the uplink. -/
theorem Dossier.Idle.pending {d : Dossier Record} (h : d.Idle) :
    d.uplink.any (0 < ·.pending) = false := by
  cases hu : d.uplink with
  | none => rfl
  | some u => simp [(h.uplink u hu).1]

/-- A request between the triggers adds no feedback. -/
theorem Request.feedback_leaves (q : Request) (c : Commons) :
    ∀ f ∈ (q.leaves c).feedback, f ∈ c.feedback := by
  cases q with
  | releaseUe r => exact fun f hf => (List.mem_filter.1 hf).1
  | _ => exact fun f hf => hf

namespace SchedulerState

/-- The turns of some UEs are in the order of the turns of all of them. -/
theorem filter_rotation (rntis : List Rnti) (cursor : Rnti) (p : Rnti → Bool) :
    (rotation rntis cursor).filter p = rotation (rntis.filter p) cursor := by
  simp only [rotation, List.filter_append, List.filter_filter, Bool.and_comm]

/-- A reuse policy is checked against the grid, if there is one. -/
theorem installReuse_eq (s : SchedulerState Record) (reuse : ReusePolicy) :
    s.installReuse reuse = (do
      s.grid.elim (.ok ()) (requireFit reuse)
      return ({ s with reuse, reuseInstalled := true }, [])) := by
  rw [installReuse]
  cases s.grid <;> rfl

/-- Two cells differ at most in UEs that are not in question, for whom nothing is to be done. -/
structure Twins (known : Rnti → Prop) (s t : SchedulerState Record) : Prop
    extends AgreeOn known s t where
  /-- The lines that UEs stand in are the same. -/
  commons : s.commons = t.commons
  /-- The reuse policies are the same. -/
  reuse : s.reuse = t.reuse
  /-- The downlink reports are the same, whoever they are about. -/
  quality : s.downlink.quality = t.downlink.quality
  /-- Feedback that waits is about UEs in question. -/
  feedback : ∀ f ∈ s.downlink.feedback, known f.rnti
  /-- There is nothing to be done for the others, in either cell. -/
  idle : ∀ r, ¬known r → (s.dossier r).Idle ∧ (t.dossier r).Idle

namespace AgreeOn

variable (h : AgreeOn known s t)

include h

/-- Cells that agree have the same configuration. -/
theorem config : s.config = t.config := congrArg Setup.config h.setup

/-- They have the same carrier. -/
theorem grid : s.grid = t.grid := congrArg Setup.grid h.setup

/-- Their downlink entities agree on the UEs in question. -/
theorem harq : s.downlink.harq.AgreeOn known t.downlink.harq :=
  ⟨h.separate, h.separate', fun r hr => congrArg Dossier.entity (h.dossier r hr)⟩

/-- So do their uplink reports. -/
theorem sinr : s.uplink.quality.AgreeOn known t.uplink.quality :=
  ⟨congrArg Setup.bandwidth h.setup, congrArg Setup.sinrThreshold h.setup,
    fun r hr => congrArg Dossier.sinr (h.dossier r hr)⟩

/-- Measurements are credited to the UEs in question alike. -/
theorem creditSamples (map : BlockMap) (samples : List Float) :
    (s.creditSamples map samples).AgreeOn known (t.creditSamples map samples) := by
  rw [SchedulerState.creditSamples, SchedulerState.creditSamples]
  have hsinr := h.sinr
  generalize s.uplink.quality = p at hsinr ⊢
  generalize t.uplink.quality = p' at hsinr ⊢
  induction samples.zipIdx generalizing p p' with
  | nil => exact hsinr
  | cons sample rest ih =>
    refine ih _ _ ?_
    dsimp only
    cases map.owner? sample.2 with
    | none => exact hsinr
    | some r =>
      dsimp only
      by_cases hr : known r
      · rw [h.contains hr]
        split
        · exact hsinr
        · exact hsinr.setBlock r _ _
      · -- Which of the cells takes the measurement in makes no difference.
        have hright : p.AgreeOn known (if r = 0 || !t.ues.contains r then p'
            else p'.setBlock r sample.2 sample.1) := by
          split
          · exact hsinr
          · exact hsinr.setBlock_right hr _ _
        split
        · exact hright
        · exact (hright.symm.setBlock_right hr _ _).symm

end AgreeOn

namespace Twins

/-- Being twins is symmetric. -/
theorem symm (h : Twins known s t) : Twins known t s where
  toAgreeOn := h.toAgreeOn.symm
  commons := h.commons.symm
  reuse := h.reuse.symm
  quality := h.quality.symm
  feedback := by
    have hfeedback : s.downlink.feedback = t.downlink.feedback :=
      congrArg Commons.feedback h.commons
    exact hfeedback ▸ h.feedback
  idle r hr := (h.idle r hr).symm

/-- A personal request leaves twins twins, if it does not name anybody else. -/
theorem of_personal (h : Twins known s t) (hnext : AgreeOn known s' t')
    (hq : q.isPersonal = true) (hknown : ∀ r ∈ q.rntis, known r)
    (hs : s.step policy q = .ok (s', said)) (ht : t.step policy q = .ok (t', said)) :
    Twins known s' t' := by
  have hothers : ∀ r, ¬known r → s'.dossier r = s.dossier r ∧ t'.dossier r = t.dossier r := by
    intro r hr
    have hnot : r ∉ q.rntis := fun hmem => hr (hknown r hmem)
    exact ⟨((agreeOn_of_personal h.separate hq hs).dossier r hnot).symm,
      ((agreeOn_of_personal h.separate' hq ht).dossier r hnot).symm⟩
  -- What both cells keep of everybody, they still do.
  have hkeep : ∀ {α : Type} (part : Dossier Record → α),
      (∀ r, part (s.dossier r) = part (t.dossier r)) →
        ∀ r, part (s'.dossier r) = part (t'.dossier r) := by
    intro α part hpart r
    by_cases hr : known r
    · rw [hnext.dossier r hr]
    · rw [(hothers r hr).1, (hothers r hr).2, hpart r]
  have hcommons := commons_of_personal hq hs
  exact
    { hnext with
      commons := by rw [hcommons, commons_of_personal hq ht, h.commons]
      reuse := reuse_eq_of_dossier hnext.setup <|
        hkeep Dossier.memory fun r => congrArg (·.memory r) h.reuse
      quality := quality_eq_of_dossier hnext.setup
        (hkeep Dossier.wideband fun r => congrArg (·.wideband.entries[r]?) h.quality)
        (hkeep Dossier.subband fun r => congrArg (·.subband.entries[r]?) h.quality)
      feedback := fun f hf => by
        refine h.feedback f (q.feedback_leaves s.commons f ?_)
        rw [← hcommons]
        exact hf
      idle := fun r hr => by
        rw [(hothers r hr).1, (hothers r hr).2]
        exact h.idle r hr }

/-- A request about UEs in question is answered alike. That is known of cells which agree; what is
to be added is that those who were idle still are, as the request does not name them. -/
theorem personal (h : Twins known s t) (hq : q.isPersonal = true)
    (hknown : ∀ r ∈ q.rntis, known r) :
    Answered (Twins known) (s.step policy q) (t.step policy q) := by
  have hanswered : Answered (AgreeOn known) (s.step policy q) (t.step policy q) :=
    h.answered hq hknown
  generalize hs : s.step policy q = x at hanswered ⊢
  generalize ht : t.step policy q = y at hanswered ⊢
  cases hanswered with
  | refused => exact .refused
  | accepted hnext => exact .accepted (h.of_personal hnext hq hknown hs ht)

/-- Measurements of a past subframe are taken in alike. -/
theorem credited (h : Twins known s t) (time : Subframe) (codes : List UInt16)
    (rnti : Option Rnti) :
    Answered (Twins known) (s.step policy (.sinr time .data codes rnti))
      (t.step policy (.sinr time .data codes rnti)) := by
  have hhistory : s.uplink.history = t.uplink.history := congrArg Commons.history h.commons
  refine .check (by rw [h.requireGrid]) fun _ _ => ?_
  rw [h.config, hhistory]
  split
  · exact .accepted h
  dsimp only
  split
  next => exact .accepted h
  next map _ =>
    -- The map is the same in both cells, so a sample is credited to the same UE in both, and the
    -- reports of the UEs they agree on stay alike.
    have hcredit := h.creditSamples map (codes.map Sinr.decode)
    refine .accepted
      { h with
        setup := ?_
        dossier := fun r hr => ?_
        commons := congrArg (fun c : Commons => { c with
          history := t.uplink.history.eraseP (·.1 = time) }) h.commons
        idle := fun r hr => ⟨{ (h.idle r hr).1 with }, { (h.idle r hr).2 with }⟩ }
    · have hsetup := h.setup
      simp only [setup, Setup.mk.injEq] at hsetup ⊢
      simp only [hsetup, hcredit.bandwidth, hcredit.threshold, and_self]
    · have hentries := hcredit.entries r hr
      exact congrArg₂ (fun (d : Dossier Record) sinr => { d with sinr }) (h.dossier r hr) hentries

/-- Installing a reuse policy concerns the setup only. -/
theorem installed (h : Twins known s t) (reuse : ReusePolicy) :
    Answered (Twins known) (s.step policy (.installReuse reuse))
      (t.step policy (.installReuse reuse)) := by
  have hnext : Twins known { s with reuse, reuseInstalled := true }
      { t with reuse, reuseInstalled := true } :=
    { h with
      setup := congrArg (fun x : Setup => { x with
        reuse := reuse.unlearned
        reuseInstalled := true }) h.setup
      dossier := fun r hr => congrArg (fun d : Dossier Record => { d with
        memory := reuse.memory r }) (h.dossier r hr)
      reuse := rfl
      idle := fun r hr => ⟨{ (h.idle r hr).1 with }, { (h.idle r hr).2 with }⟩ }
  simp only [step, installReuse_eq]
  exact .check (by rw [h.grid]) fun _ _ => .accepted hnext

/-- So does configuring the cell. -/
theorem cell (h : Twins known s t) (downlink uplink : Nat) :
    Answered (Twins known) (s.step policy (.configureCell downlink uplink))
      (t.step policy (.configureCell downlink uplink)) := by
  have hinstalled : s.reuseInstalled = t.reuseInstalled := congrArg Setup.reuseInstalled h.setup
  -- The policy that fits is part of what the twins share.
  have hreuse : ∀ grid, s.reuseFor grid = t.reuseFor grid := by
    intro grid
    rw [reuseFor, h.reuse, hinstalled, reuseFor]
  simp only [step, configureCell]
  refine .guard (congrArg Option.isSome h.grid) ?_
  refine .check h.requireControl fun _ _ => .check rfl fun downlink _ => .check rfl fun uplink _ =>
    .check (hreuse _) fun reuse _ => .accepted ?_
  exact
    { h with
      setup := congrArg (fun x : Setup => { x with
        grid := some ⟨downlink, uplink⟩
        reuse := reuse.unlearned
        bandwidth := uplink }) h.setup
      dossier := fun r hr => congrArg (fun d : Dossier Record => { d with
        memory := reuse.memory r }) (h.dossier r hr)
      commons := congrArg (fun c : Commons => { c with reserved := .empty uplink }) h.commons
      reuse := rfl
      idle := fun r hr => ⟨{ (h.idle r hr).1 with }, { (h.idle r hr).2 with }⟩ }

/-- Twins answer alike what comes between two triggers. -/
theorem between (h : Twins known s t) (hq : q.isTrigger = false)
    (hknown : ∀ r ∈ q.rntis, known r) :
    Answered (Twins known) (s.step policy q) (t.step policy q) := by
  -- Requests about the whole cell write what the twins share, and the personal ones are about UEs
  -- they agree on.
  cases q with
  | connect control data =>
    refine .accepted { h with setup := ?_ }
    exact congrArg (fun x : Setup => { x with
      controlConnected := x.controlConnected || control
      dataConnected := x.dataConnected || data }) h.setup
  | installReuse reuse => exact h.installed reuse
  | configureCell downlink uplink => exact h.cell downlink uplink
  | paging messages =>
    refine .check (by rw [h.requireGrid]) fun _ _ => .accepted { h with setup := ?_ }
    exact congrArg (fun x : Setup => { x with paging := x.paging ++ messages }) h.setup
  | randomAccess preambles =>
    refine .check (by rw [h.requireGrid]) fun _ _ => .accepted { h with commons := ?_ }
    exact congrArg (fun c : Commons => { c with preambles := c.preambles ++ preambles }) h.commons
  | noise => exact .check (by rw [h.requireGrid]) fun _ _ => .accepted h
  | sinr time source codes rnti =>
    cases source with
    | data => exact h.credited time codes rnti
    | sounding => exact h.personal rfl hknown
  | downlinkTrigger | uplinkTrigger => cases hq
  | _ => exact h.personal rfl hknown

end Twins

end SchedulerState

end LteMac
