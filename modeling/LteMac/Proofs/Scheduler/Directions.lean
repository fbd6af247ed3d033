import LteMac.Proofs.Reuse.Exchange
import LteMac.Proofs.Scheduler.Accepted
import LteMac.Proofs.Uplink.Spectrum

/-!
# Two directions

A downlink trigger and an uplink trigger share the UEs of the cell and the reuse policy, which
neither of them changes. The only traffic between the directions is the answer to a random access:
while none is waiting, each trigger reads and writes the tables of its own direction, so that the
two may come in either order.

That a trigger does not see the tables of the other direction is said by replacing them: whatever
stands in their place, it decides the same. That it does not touch them is said of its result
(`DownlinkTrigger.decide_frame`). From the two facts the order of the triggers is seen not to matter
without looking into either of them again.

* `DownlinkTrigger.decide_uplink`, `UplinkTrigger.decide_downlink`: a trigger does not see the
  tables of the other direction;
* `SchedulerState.triggers_commute`: either order leads to the same cell and says the same.
-/

namespace LteMac

variable {Record : Type} {policy : Policy Record} {s sd su : SchedulerState Record}
  {saidd saidu : List Indication}

/-- While no preamble waits, the uplink is left alone and nothing is answered. -/
theorem Access.answerAll_of_nil (h : s.preambles = []) (grid : Grid) :
    answerAll s grid = (s.uplink, []) := by
  simp only [answerAll, h, Round.answer, List.foldl_nil, ite_self]

namespace DownlinkTrigger

variable (h : s.preambles = []) (grid : Grid) (feedback : List HarqFeedback) (u : UplinkState)

include h

/-- Ageing the downlink leaves the uplink as it is. -/
theorem opened_uplink :
    opened { s with uplink := u } grid = { opened s grid with uplink := u } := by
  rw [opened, Access.answerAll_of_nil (s := { s with uplink := u }) h]
  rfl

/-- Retransmissions do not look at the uplink. -/
theorem retries_uplink :
    retries { s with uplink := u } grid feedback = retries s grid feedback := by
  rw [retries, opened_uplink h]
  rfl

/-- The candidates of new data are chosen without the uplink. -/
theorem turns_uplink : turns { s with uplink := u } grid feedback = turns s grid feedback := by
  rw [turns, opened_uplink h, retries_uplink h]
  rfl

/-- So is their data. -/
theorem fresh_uplink :
    fresh policy { s with uplink := u } grid feedback = fresh policy s grid feedback := by
  rw [fresh, opened_uplink h, retries_uplink h, turns_uplink h]
  rfl

/-- A downlink trigger that answers nobody sees nothing of the uplink. -/
theorem decide_uplink : decide policy { s with uplink := u } grid feedback =
    ({ (decide policy s grid feedback).1 with uplink := u },
      (decide policy s grid feedback).2) := by
  rw [decide_eq, decide_eq, data, fresh_uplink h, turns_uplink h, retries_uplink h, opened_uplink h,
    Access.answerAll_of_nil h, Access.answerAll_of_nil (s := { s with uplink := u }) h]
  rfl

/-- And it changes nothing but the downlink. -/
theorem decide_frame : (decide policy s grid feedback).1 =
    { s with downlink := (decide policy s grid feedback).1.downlink } := by
  obtain ⟨_, _, _, _, _, _, _, preambles, _, _⟩ := s
  obtain rfl : preambles = [] := h
  rw [decide_eq, opened, Access.answerAll_of_nil rfl]

end DownlinkTrigger

/-- An uplink trigger sees nothing of the downlink. -/
theorem UplinkTrigger.decide_downlink (grid : Grid) (time : Subframe)
    (outcomes : List UplinkOutcome) (d : DownlinkState Record) :
    decide { s with downlink := d } grid time outcomes =
      ({ (decide s grid time outcomes).1 with downlink := d },
        (decide s grid time outcomes).2) := rfl

namespace SchedulerState

/-- A downlink trigger answers the same with any other uplink in place, and leaves that one there.
-/
theorem step_uplink (h : s.preambles = []) (feedback : List HarqFeedback) (u : UplinkState) :
    { s with uplink := u }.step policy (.downlinkTrigger feedback) =
      (s.step policy (.downlinkTrigger feedback)).map fun out =>
        ({ out.1 with uplink := u }, out.2) := by
  refine bind_eq_map fun _ => bind_eq_map fun grid => bind_eq_map fun _ => ?_
  exact congrArg Except.ok (DownlinkTrigger.decide_uplink h grid feedback u)

/-- An uplink trigger answers the same with any other downlink in place, and leaves that one there.
-/
theorem step_downlink (time : Subframe) (outcomes : List UplinkOutcome)
    (d : DownlinkState Record) :
    { s with downlink := d }.step policy (.uplinkTrigger time outcomes) =
      (s.step policy (.uplinkTrigger time outcomes)).map fun out =>
        ({ out.1 with downlink := d }, out.2) := by
  refine bind_eq_map fun _ => bind_eq_map fun grid => bind_eq_map fun _ => ?_
  exact congrArg Except.ok (UplinkTrigger.decide_downlink grid time outcomes d)

/-- While no preamble waits, an accepted downlink trigger changes the downlink only and an accepted
uplink trigger the uplink only. One after the other, in either order, they lead to the same cell,
and each of them says what it says alone. -/
theorem triggers_commute {feedback : List HarqFeedback} {time : Subframe}
    {outcomes : List UplinkOutcome} (h : s.preambles = [])
    (hd : s.step policy (.downlinkTrigger feedback) = .ok (sd, saidd))
    (hu : s.step policy (.uplinkTrigger time outcomes) = .ok (su, saidu)) :
    sd = { s with downlink := sd.downlink } ∧ su = { s with uplink := su.uplink } ∧
      ∃ t, sd.step policy (.uplinkTrigger time outcomes) = .ok (t, saidu) ∧
        su.step policy (.downlinkTrigger feedback) = .ok (t, saidd) := by
  have hsd : sd = { s with downlink := sd.downlink } := by
    cases accepted_of_step hd with
    | downlink => exact DownlinkTrigger.decide_frame h ..
  have hsu : su = { s with uplink := su.uplink } := by
    cases accepted_of_step hu with
    | uplink => rfl
  refine ⟨hsd, hsu, { s with downlink := sd.downlink, uplink := su.uplink }, ?_, ?_⟩
  · rw [hsd, step_downlink, hu, hsu]
    rfl
  · rw [hsu, step_uplink h, hd, hsd]
    rfl

/-- One UE waits for data and another one for blocks, while the answer to a random access is
reserved already. -/
theorem triggers_commute_beside_answer :
    ∃ (s sd su t : SchedulerState Throughput) (saidd saidu : List Indication),
      Reachable .tdBet .default s ∧ s.preambles = [] ∧ s.uplink.reserved.held = 2 ∧
      s.step .tdBet (.downlinkTrigger []) = .ok (sd, saidd) ∧
      s.step .tdBet (.uplinkTrigger ⟨4⟩ []) = .ok (su, saidu) ∧
      sd.step .tdBet (.uplinkTrigger ⟨4⟩ []) = .ok (t, saidu) ∧
      su.step .tdBet (.downlinkTrigger []) = .ok (t, saidd) ∧
      (saidd.flatMap (·.blocks)).map (·.rnti) = [1] ∧
      (saidu.flatMap (·.grants)).map (·.rnti) = [2] := by
  obtain ⟨es, e, hrun, hd, hcheck⟩ := Run.of_replay_step .tdBet .default
    [.connect true true, .configureCell 6 15, .installReuse (.hard 6 15 ⟨0, 1⟩ ⟨0, 15⟩),
      .configureUe 1 .singleAntenna, .configureUe 2 .singleAntenna, .randomAccess [⟨2, 7, 20⟩],
      .downlinkTrigger [], .queue 1 0 ⟨40, 0, 0, 0, 0⟩,
      .uplinkControls [(2, .bufferStatus [10, 0, 0, 0])]]
    (.downlinkTrigger [])
    (fun _ e => e.before.preambles == [] && e.before.uplink.reserved.held == 2 &&
      (e.said.flatMap (·.blocks)).map (·.rnti) == [1] &&
      (e.before.step .tdBet (.uplinkTrigger ⟨4⟩ [])).toOption.any fun out =>
        (out.2.flatMap (·.grants)).map (·.rnti) == [2])
    (by decide +kernel)
  simp only [Bool.and_eq_true, beq_iff_eq] at hcheck
  obtain ⟨⟨⟨hnone, hheld⟩, hblocks⟩, hgrants⟩ := hcheck
  cases hu : e.before.step .tdBet (.uplinkTrigger ⟨4⟩ []) with
  | error cause =>
    rw [hu] at hgrants
    cases hgrants
  | ok out =>
    obtain ⟨su, saidu⟩ := out
    rw [hu] at hgrants
    obtain ⟨-, -, t, hdu, hud⟩ := triggers_commute hnone hd hu
    exact ⟨e.before, e.after, su, t, e.said, saidu, hrun.reachable, hnone, hheld, hd, hu, hdu, hud,
      hblocks, by simpa [Except.toOption] using hgrants⟩

end SchedulerState

end LteMac
