import LteMac.Proofs.Downlink.Trigger

/-!
# What is sent again

A block that is sent again repeats a block in flight, and uses up the feedback that says it failed:
on each process, a pass sends no more blocks and lets no more feedback wait than there was feedback
to act upon. So feedback on a process does not multiply, and over a run the blocks that are sent
again can be counted against the reports that came in.

Which of the two passes of a trigger sent a block can be read off the block: it is new if and only
if it comes from the second one.

* `Retransmission.count_handleAll`: a pass does not multiply the feedback on a process;
* `DownlinkTrigger.flight_of_retry`: what the retransmission stage sends is in flight;
* `DownlinkTrigger.mem_fresh_of_new`: new blocks come from the other stage.
-/

namespace LteMac

variable {r : Rnti} {id : Nat}

namespace Retransmission

variable {reuse : ReusePolicy} {o : Occupancy} {round round' : Round} {f : HarqFeedback}

/-- What is sent of a block in flight is no new data. -/
theorem Fate.not_isNew {pending kept : List HarqFeedback} {p p' : DownlinkProcess}
    {sent : List DataGrant} (h : Fate r pending p p' sent kept) : ∀ b ∈ sent, b.isNew = false := by
  cases h with
  | rests => simp
  | freed => simp
  | again _ hg => simpa using hg.not_isNew
  | answered hg => simpa using hg.not_isNew

/-- Feedback on a process leads to one block on it at most, or waits. -/
theorem Round.Handled.count (hf : round.Handled reuse f round') (hsound : round.harq.Sound)
    (r : Rnti) (id : Nat) :
    (round'.sent.filter (·.isOn r id)).length + (round'.kept.filter (·.isOn r id)).length ≤
      (round.sent.filter (·.isOn r id)).length + (round.kept.filter (·.isOn r id)).length +
        ([f].filter (·.isOn r id)).length := by
  cases hon : f.isOn r id with
  | false =>
    obtain ⟨-, hsent, hkept⟩ := hf.other hsound hon
    rw [hsent, hkept]
    exact Nat.le_add_right ..
  | true =>
    have hone : ([f].filter (·.isOn r id)).length = 1 := by simp [hon]
    rw [hone]
    -- The feedback is used up, kept for later, or answered with one block.
    cases hf with
    | dropped => exact Nat.le_add_right ..
    | freed => exact Nat.le_add_right ..
    | kept =>
      rw [Round.keep, List.filter_append, List.length_append, hone]
      exact Nat.le_of_eq (Nat.add_assoc ..).symm
    | @again p g rbgs =>
      have hblock := List.length_filter_le (fun b : DataGrant => b.isOn r id)
        [⟨f.rnti, Retransmission.again g rbgs, .empty, p.pdus⟩]
      rw [List.length_singleton] at hblock
      simp only [Round.send, List.filter_append, List.length_append]
      omega

/-- A pass does not multiply the feedback on a process. -/
theorem count_handleAll (reuse : ReusePolicy) {harq : DownlinkHarq} (hsound : harq.Sound)
    (hsize : o.size ≤ 32) (pending : List HarqFeedback) (r : Rnti) (id : Nat) :
    ((handleAll reuse harq o pending).sent.filter (·.isOn r id)).length +
        ((handleAll reuse harq o pending).kept.filter (·.isOn r id)).length ≤
      (pending.filter (·.isOn r id)).length := by
  induction pending using List.reverseRecOn with
  | nil => exact Nat.le_refl 0
  | append_singleton pending f ih =>
    have hfair := fair_handleAll reuse hsound hsize pending
    have hcount := (Round.handled_handle reuse (handleAll reuse harq o pending) f).count
      hfair.sound r id
    rw [handleAll_concat, List.filter_append, List.length_append]
    omega

end Retransmission

namespace DownlinkTrigger

variable {Record : Type} {s : SchedulerState Record} {grid : Grid}
  (feedback : List HarqFeedback)

/-- What the retransmission stage sends is no new data, and in flight as the stage begins. -/
theorem flight_of_retry (hsound : s.downlink.harq.Sound) (hgrid : grid.rbgCount ≤ 32)
    {b : DataGrant} (hb : b ∈ (retries s grid feedback).sent) :
    b.isNew = false ∧ ∃ p, (opened s grid).downlink.harq.process? b.rnti b.grant.process = some p ∧
      p.isFree = false := by
  have hopened : (opened s grid).downlink.harq.Sound := hsound.refresh
  unfold retries retransmit at hb
  split at hb
  · have hon : b ∈ (pass s grid (pending s grid feedback)).sent.filter
        (·.isOn b.rnti b.grant.process) :=
      List.mem_filter.2 ⟨hb, DataGrant.isOn_iff.2 ⟨rfl, rfl⟩⟩
    -- If the process were idle, nothing would be sent on it, whatever the feedback says.
    by_cases hidle : ∀ p, (opened s grid).downlink.harq.process? b.rnti b.grant.process = some p →
        p.isFree = true
    · have hnone := (Retransmission.idle_handleAll s.reuse hopened (size_paged s grid hgrid) hidle
        (pending s grid feedback)).2.1
      rw [pass, hnone] at hon
      cases hon
    · push Not at hidle
      obtain ⟨p, hp, hflight⟩ := hidle
      have hflight : p.isFree = false := Bool.eq_false_iff.2 hflight
      obtain ⟨p', -, hfate⟩ := Retransmission.fate_handleAll s.reuse hopened
        (size_paged s grid hgrid) hp hflight (pending s grid feedback)
      exact ⟨hfate.not_isNew b hon, p, hp, hflight⟩
  · cases hb

/-- Of the two passes that send data, only the second one sends new blocks. -/
theorem mem_fresh_of_new {policy : Policy Record} {feedback : List HarqFeedback} {b : DataGrant}
    (hsound : s.downlink.harq.Sound) (hgrid : grid.rbgCount ≤ 32)
    (hb : b ∈ data policy s grid feedback) (hnew : b.isNew = true) :
    b ∈ (fresh policy s grid feedback).sent := by
  refine (List.mem_append.1 hb).resolve_left fun hold => ?_
  have hold := (flight_of_retry feedback hsound hgrid hold).1
  rw [hnew] at hold
  cases hold

end DownlinkTrigger

end LteMac
