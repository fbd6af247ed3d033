import LteMac.Proofs.Scheduler.Twins
import LteMac.Proofs.Uplink.Trigger

/-!
# Uplink subframes of twins

In an uplink subframe as well, idle UEs stand in the rotation without having a turn, and twins
decide it alike.

The candidates of a subframe are those in the rotation with something to send, and an idle UE is not
among them, since it has reported no data and asked for nothing. It may be in one cell and not in
the other, so the rotations of twins differ; but the candidates among them come in the same order,
as the cursor is the same. From there on both cells go through the same passes over UEs in question.

At the end of the subframe the averages of all UEs take in what was sent, also of those who were
sent nothing. That keeps an idle UE idle.

* `UplinkTrigger.retries_agreeOn`, `candidates_eq`, `fresh_agreeOn`: stage by stage;
* `UplinkTrigger.twins_decide`: the whole subframe;
* `SchedulerState.Twins.uplinkTrigger`: twins answer an uplink trigger alike.
-/

namespace LteMac

variable {Record : Type} {policy : Policy Record} {s t : SchedulerState Record}
  {known : Rnti → Prop} {r : Rnti} {q : Request}

namespace UplinkTrigger

/-- What is kept of a UE after the subframe. -/
theorem dossier_decide (s : SchedulerState Record) (grid : Grid) (time : Subframe)
    (outcomes : List UplinkOutcome) (r : Rnti) :
    (decide s grid time outcomes).1.dossier r =
      { s.dossier r with
        uplink :=
          (fresh s grid outcomes).ues[r]?.map (close s.config (fresh s grid outcomes).sent r)
        sinr := (fresh s grid outcomes).quality.sinr.entries[r]? } := by
  have hues := ues_decide s grid outcomes time
  simp only [SchedulerState.dossier, hues, Std.ExtTreeMap.getElem?_map]
  rfl

section Idle

variable {grid : Grid} {outcomes : List UplinkOutcome}

/-- An idle UE goes through the retransmissions as it is. -/
theorem ues_retries (h : (s.dossier r).Idle) (hr : ∀ o ∈ outcomes, r ≠ o.rnti) :
    (retries s grid outcomes).ues[r]? = s.uplink.ues[r]? := by
  have hnoted : s.uplink.ues[r]?.map (noteRequest s.config.requestBytes) = s.uplink.ues[r]? := by
    cases hu : s.uplink.ues[r]? with
    | none => rfl
    | some u => simp [noteRequest, (h.uplink u hu).2]
  rw [retries, retransmit]
  split
  · rw [UplinkRetry.ues_foldl_handle hr, Std.ExtTreeMap.getElem?_map, hnoted]
  · rw [Std.ExtTreeMap.getElem?_map, hnoted]

/-- And it has no turn. -/
theorem not_mem_candidates (h : (s.dossier r).Idle) (hr : ∀ o ∈ outcomes, r ≠ o.rnti) :
    r ∉ candidates s (retries s grid outcomes) := by
  intro hturn
  have hpending := (List.mem_filter.1 hturn).2
  have hnone : s.uplink.ues[r]?.any (0 < ·.pending) = false := h.pending
  rw [ues_retries h hr, hnone, Bool.and_false] at hpending
  cases hpending

/-- So that it is as idle as before. -/
theorem idle_decide (h : (s.dossier r).Idle) (hr : ∀ o ∈ outcomes, r ≠ o.rnti)
    (time : Subframe) : ((decide s grid time outcomes).1.dossier r).Idle := by
  have hues : (fresh s grid outcomes).ues[r]? = s.uplink.ues[r]? := by
    rw [fresh, sendNew]
    split
    · exact ues_retries h hr
    · exact (UplinkNew.ues_serveAll (not_mem_candidates h hr) _).trans (ues_retries h hr)
  rw [dossier_decide, hues]
  exact h.map (f := id) Option.map_id'.symm rfl (fun _ hu => hu) fun _ hu => hu

end Idle

variable (h : s.Twins known t) (grid : Grid) {outcomes : List UplinkOutcome}
  (houtcomes : ∀ o ∈ outcomes, known o.rnti)

include h houtcomes

/-- The retransmissions of twins agree, as all outcomes are about UEs in question. -/
theorem retries_agreeOn : (retries s grid outcomes).AgreeOn known (retries t grid outcomes) := by
  have hreserved : s.uplink.reserved = t.uplink.reserved := congrArg Commons.reserved h.commons
  have hopened : opened s grid = opened t grid := by
    rw [opened, h.reuse, hreserved, opened]
  rw [retries, retransmit, retries, retransmit]
  have hstart : UplinkRetry.Round.AgreeOn known
      ⟨s.uplink.ues.map fun _ u => noteRequest s.config.requestBytes u, opened s grid,
        s.uplink.reserved, []⟩
      ⟨t.uplink.ues.map fun _ u => noteRequest t.config.requestBytes u, opened t grid,
        t.uplink.reserved, []⟩ := by
    refine ⟨fun r hr => ?_, hopened, hreserved, rfl⟩
    have huplink : s.uplink.ues[r]? = t.uplink.ues[r]? :=
      congrArg Dossier.uplink (h.dossier r hr)
    rw [Std.ExtTreeMap.getElem?_map, Std.ExtTreeMap.getElem?_map, huplink, h.config]
  rw [h.config] at hstart ⊢
  split
  · exact UplinkRetry.foldl_handle_agreeOn hstart houtcomes
  · exact hstart

/-- The same UEs have their turns. -/
theorem candidates_eq : candidates s (retries s grid outcomes) =
    candidates t (retries t grid outcomes) := by
  have hretries := retries_agreeOn h grid houtcomes
  have hcursor : s.uplink.cursor = t.uplink.cursor := congrArg Commons.uplinkCursor h.commons
  rw [candidates, candidates]
  rw [SchedulerState.filter_rotation, SchedulerState.filter_rotation, hcursor]
  refine congrArg (SchedulerState.rotation · _) (Table.filter_keys_congr fun r => ?_)
  by_cases hr : known r
  · have hserved : (retries s grid outcomes).served r = (retries t grid outcomes).served r := by
      rw [UplinkRetry.Round.served, hretries.sent, UplinkRetry.Round.served]
    rw [Std.ExtTreeMap.mem_iff_contains, Std.ExtTreeMap.mem_iff_contains, h.contains hr,
      hserved, hretries.ues r hr]
  · have hnot : ∀ o ∈ outcomes, r ≠ o.rnti := fun o ho heq => hr (heq ▸ houtcomes o ho)
    rw [ues_retries (h.idle r hr).1 hnot, ues_retries (h.idle r hr).2 hnot]
    have hs : s.uplink.ues[r]?.any (0 < ·.pending) = false := (h.idle r hr).1.pending
    have ht : t.uplink.ues[r]?.any (0 < ·.pending) = false := (h.idle r hr).2.pending
    simp only [hs, ht, Bool.and_false, Bool.false_eq_true, and_false]

/-- Whoever has a turn is in question. -/
theorem known_of_candidate {c : Rnti} (hc : c ∈ candidates s (retries s grid outcomes)) :
    known c := by
  by_contra hr
  refine not_mem_candidates (h.idle c hr).1 (fun o ho heq => ?_) hc
  exact hr (heq ▸ houtcomes o ho)

/-- The new blocks of twins agree. -/
theorem fresh_agreeOn : (fresh s grid outcomes).AgreeOn known (fresh t grid outcomes) := by
  have hretries := retries_agreeOn h grid houtcomes
  have hcandidates := candidates_eq h grid houtcomes
  have hstart : UplinkNew.Round.AgreeOn known
      ⟨(retries s grid outcomes).ues, s.uplink.quality.refresh, (retries s grid outcomes).occupancy,
        (retries s grid outcomes).map, 0, []⟩
      ⟨(retries t grid outcomes).ues, t.uplink.quality.refresh, (retries t grid outcomes).occupancy,
        (retries t grid outcomes).map, 0, []⟩ :=
    ⟨hretries.ues, h.sinr.refresh, hretries.occupancy, hretries.map, rfl, rfl⟩
  -- As many UEs share the subframe in both cells, so the stretches are as long.
  have hcount : (retries s grid outcomes).servedCount = (retries t grid outcomes).servedCount := by
    rw [UplinkRetry.Round.servedCount, hretries.sent, UplinkRetry.Round.servedCount]
  have hlength : ∀ flows, stretchLength s grid s.reuse.uplinkFlags flows =
      stretchLength t grid t.reuse.uplinkFlags flows := fun flows => by
    rw [stretchLength, h.reuse, stretchLength]
  rw [fresh, sendNew, fresh, sendNew]
  dsimp only
  rw [← hcandidates, h.config, hcount, hlength, h.reuse]
  split
  · exact hstart
  · exact UplinkNew.serveAll_agreeOn hstart fun c hc => known_of_candidate h grid houtcomes hc

/-- Twins decide an uplink subframe alike, and stay twins. -/
theorem twins_decide (time : Subframe) :
    (decide s grid time outcomes).1.Twins known (decide t grid time outcomes).1 ∧
      (decide s grid time outcomes).2 = (decide t grid time outcomes).2 := by
  have hretries := retries_agreeOn h grid houtcomes
  have hfresh := fresh_agreeOn h grid houtcomes
  have hcandidates := candidates_eq h grid houtcomes
  refine ⟨?_, ?_⟩
  · exact
      { setup := by
          refine Eq.trans (congrArg (fun x : Setup => { x with
            sinrThreshold := (fresh s grid outcomes).quality.sinr.threshold
            bandwidth := (fresh s grid outcomes).quality.bandwidth }) h.setup) ?_
          rw [hfresh.quality.threshold, hfresh.quality.bandwidth]
          rfl
        dossier := fun r hr => by
          rw [dossier_decide, dossier_decide, h.dossier r hr, hfresh.ues r hr, hfresh.sent,
            h.config, hfresh.quality.entries r hr]
        separate := h.separate
        separate' := h.separate'
        commons := by
          refine Eq.trans (congrArg (fun c : Commons => { c with
            reserved := .empty grid.uplink
            history := remember c.history time (fresh s grid outcomes).map
            uplinkCursor := nextTurn c.uplinkCursor
              (candidates s (retries s grid outcomes)) }) h.commons) ?_
          rw [hfresh.map, hcandidates]
          rfl
        reuse := h.reuse
        quality := h.quality
        feedback := h.feedback
        idle := fun r hr => by
          -- No outcome is about an unknown UE, so its processes are not told anything.
          have hnot : ∀ o ∈ outcomes, r ≠ o.rnti := fun o ho heq => hr (heq ▸ houtcomes o ho)
          exact ⟨idle_decide (h.idle r hr).1 hnot time, idle_decide (h.idle r hr).2 hnot time⟩ }
  · change [Indication.uplink (decision s grid outcomes)] = [.uplink (decision t grid outcomes)]
    rw [decision, hretries.sent, hfresh.sent, decision]

end UplinkTrigger

/-- Twins answer an uplink trigger alike, if its outcomes are about UEs in question. Both refuse it
for the same cause, or both decide it. -/
theorem SchedulerState.Twins.uplinkTrigger (h : s.Twins known t) (time : Subframe)
    {outcomes : List UplinkOutcome} (houtcomes : ∀ o ∈ outcomes, known o.rnti) :
    Answered (Twins known) (s.step policy (.uplinkTrigger time outcomes))
      (t.step policy (.uplinkTrigger time outcomes)) := by
  have hcheck := h.requireUes (List.forall_mem_map.2 houtcomes)
  refine .check h.requireData fun _ _ => .check h.requireGrid fun grid _ =>
    .check hcheck fun _ _ => ?_
  obtain ⟨hnext, hsaid⟩ := UplinkTrigger.twins_decide h grid houtcomes time
  exact .ok hnext hsaid

end LteMac
