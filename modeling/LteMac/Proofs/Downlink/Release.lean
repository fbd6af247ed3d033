import LteMac.Proofs.Scheduler.Invariant

/-!
# How a block is lost

A block in flight is meant to stay in flight until it is delivered, fails in its last version, or is
left without feedback for too long (`Documented`). There is one more way out: feedback that reports
neither a delivery nor a failure, because the UE missed the grant or because it lists no layer at
all, frees the process as if the block was delivered.

The reasons for which the passes of a trigger give up a block were collected when the passes were
followed (`Retransmission.Lapsed`). What is left is to compare these reasons with the documented
ones. They differ in one of them, and that one can be told by looking at the feedback alone, so the
comparison is exact in both directions.

* `Reachable.lost_of_trigger`: a block is lost for a documented reason or by unclear feedback, and
  unclear feedback always loses it; a block that is not lost is still there;
* `lost_without_reason`: a run that loses a block which the UE never received.
-/

namespace LteMac

/-- Whether every layer was delivered. -/
def HarqFeedback.isDelivered (f : HarqFeedback) : Bool :=
  !f.layers.isEmpty && f.layers.all (· == .ack)

/-- Whether feedback reports neither a delivery nor a failure. -/
def HarqFeedback.isUnclear (f : HarqFeedback) : Bool := !f.isNack && !f.isDelivered

/-- The reasons to give up the block of the process `p`, whose timer is as before the trigger, by
the documentation, where `pending` is the feedback on it. -/
inductive Documented (p : DownlinkProcess) (pending : List HarqFeedback) : Prop
  /-- All layers of the block were received. -/
  | delivered {f : HarqFeedback} (hmem : f ∈ pending) (hack : f.isDelivered = true)
  /-- A layer was not received, and the block was sent in its last version. -/
  | failed {f : HarqFeedback} {g : DownlinkGrant} (hmem : f ∈ pending) (hnack : f.isNack = true)
      (hg : p.grant = some g) (hlast : maxRedundancyVersion ≤ g.rv.foldl max 0)
  /-- No word came for too long. -/
  | overdue (hdue : harqTimeout ≤ p.timer + 1)

variable {Record : Type}

/-- The feedback on a process that a trigger has before it. -/
def SchedulerState.feedbackOn (s : SchedulerState Record) (feedback : List HarqFeedback)
    (r : Rnti) (id : Nat) : List HarqFeedback :=
  (s.downlink.feedback ++ feedback).filter (·.isOn r id)

/-- A process is free after a trigger, or carries another block. In both cases the block it carried
before is gone, and nobody will send it again. -/
def Lost (s' : SchedulerState Record) (said : List Indication) (r : Rnti) (id : Nat) : Prop :=
  (∀ p, s'.downlink.harq.process? r id = some p → p.isFree = true) ∨
    ∃ b ∈ said.flatMap (·.blocks), b.isOn r id = true ∧ b.isNew = true

/-- The process `p'` is in flight with the block of `p`: the same data, in blocks of the same sizes
and schemes. Version and groups may differ, if the block was sent again. -/
structure DownlinkProcess.Keeps (p p' : DownlinkProcess) : Prop where
  /-- It is still in flight. -/
  inFlight : p'.isFree = false
  /-- It carries the same data. -/
  pdus : p'.pdus = p.pdus
  /-- It is sent in the same sizes and schemes. -/
  grant : ∃ g g', p.grant = some g ∧ p'.grant = some g' ∧ g'.tbs = g.tbs ∧ g'.mcs = g.mcs ∧
    g'.process = g.process

variable {policy : Policy Record} {config : SchedulerConfig} {s s' : SchedulerState Record}
  {feedback : List HarqFeedback} {said : List Indication} {r : Rnti} {id : Nat}
  {p : DownlinkProcess}

/-- Feedback that frees a process does so for a documented reason, or is unclear. -/
theorem Retransmission.Lapsed.documented {pending : List HarqFeedback}
    (h : Lapsed pending { p with timer := p.timer + 1 }) (hgrant : ∃ g, p.grant = some g) :
    Documented p pending ∨ ∃ f ∈ pending, f.isUnclear = true := by
  cases h with
  | overdue hdue =>
    simp only [DownlinkProcess.isOverdue, Bool.and_eq_true, decide_eq_true_iff] at hdue
    exact .inl (.overdue hdue.2)
  | @answered f hmem hack =>
    cases hdel : f.isDelivered with
    | true => exact .inl (.delivered hmem hdel)
    | false => exact .inr ⟨f, hmem, by simp [HarqFeedback.isUnclear, hack, hdel]⟩
  | exhausted hmem hnack hlast =>
    obtain ⟨g, hg⟩ := hgrant
    exact .inl (.failed hmem hnack hg (by simpa [Retransmission.exhausted] using hlast g hg))

/-- Sending a block again keeps it. -/
theorem Retransmission.Repeats.keeps {g g' : DownlinkGrant} (h : Repeats p g g') :
    p.Keeps (resent p g') := by
  obtain ⟨rbgs, rfl⟩ := h.again
  exact ⟨rfl, rfl, g, _, h.former, rfl, rfl, rfl, rfl⟩

/-- A trigger gives a block up, and then the block lapsed, or keeps it, and then all that was
reported on it is failures. -/
theorem DownlinkTrigger.Course.lapsed_or_keeps {P : Option DownlinkProcess}
    {waiting kept : List HarqFeedback} {sent : List DataGrant} (hflight : p.isFree = false)
    (hgrant : ∃ g, p.grant = some g) (h : Course r id (some p) waiting P sent kept) :
    ((∀ p', P = some p' → p'.isFree = true) ∨ ∃ b ∈ sent, b.isNew = true) ∧
        Retransmission.Lapsed waiting p ∨
      (∃ p', P = some p' ∧ p.Keeps p') ∧ (∀ b ∈ sent, b.isNew = false) ∧
        ∀ f ∈ waiting, f.isNack = true := by
  cases h with
  | idle hidle => simp [hidle p rfl] at hflight
  | started hon hfirst hwhy => exact .inl ⟨.inr ⟨_, by simp, hfirst.isNew⟩, hwhy p rfl hflight⟩
  | fated hp _ hfate =>
    obtain rfl := Option.some.inj hp
    have hfreed : ∀ p', some DownlinkProcess.free = some p' → p'.isFree = true := by
      rintro _ ⟨⟩
      rfl
    -- Two fates keep the block, and two give it up. In the last one it was sent again first.
    cases hfate with
    | rests hnack =>
      obtain ⟨g, hg⟩ := hgrant
      exact .inr ⟨⟨p, rfl, hflight, rfl, g, g, hg, hg, rfl, rfl, rfl⟩, by simp, hnack⟩
    | again hnack hg => exact .inr ⟨⟨_, rfl, hg.keeps⟩, by simpa using hg.not_isNew, hnack⟩
    | freed hwhy => exact .inl ⟨.inl hfreed, hwhy⟩
    | answered _ hack =>
      obtain ⟨f, hmem, hack⟩ := hack
      exact .inl ⟨.inl hfreed, .answered hmem hack⟩

/-- A trigger that finds the feedback overdue gives the block up. -/
theorem DownlinkTrigger.Course.lost_of_free {P : Option DownlinkProcess}
    {waiting kept : List HarqFeedback} {sent : List DataGrant}
    (h : Course r id (some .free) waiting P sent kept) :
    (∀ p', P = some p' → p'.isFree = true) ∨ ∃ b ∈ sent, b.isNew = true := by
  cases h with
  | idle hidle => exact .inl hidle
  | started hon hfirst => exact .inr ⟨_, by simp, hfirst.isNew⟩
  | fated hp hflight =>
    obtain rfl := Option.some.inj hp
    cases hflight

/-- Whether a block is lost can be seen from the second pass: the process is free as it ends, or it
sent a new block. -/
theorem DownlinkTrigger.lost_decide_iff {grid : Grid} :
    Lost (decide policy s grid feedback).1 (decide policy s grid feedback).2 r id ↔
      (∀ p, (fresh policy s grid feedback).harq.process? r id = some p → p.isFree = true) ∨
        ∃ b ∈ (data policy s grid feedback).filter (·.isOn r id), b.isNew = true := by
  simp [Lost, decide_eq, Indication.blocks, and_assoc]

/-- A block in flight is lost by a trigger for a documented reason or by unclear feedback; unclear
feedback always loses it; and if it is not lost it is still in flight. Feedback counts whether it
came with the trigger or was waiting (`feedbackOn`), and the timer is read as the trigger finds it,
before it ages. -/
theorem Reachable.lost_of_trigger (h : Reachable policy config s)
    (henabled : config.harqEnabled = true)
    (hstep : s.step policy (.downlinkTrigger feedback) = .ok (s', said))
    (hp : s.downlink.harq.process? r id = some p) (hflight : p.isFree = false) :
    (Lost s' said r id → Documented p (s.feedbackOn feedback r id) ∨
        ∃ f ∈ s.feedbackOn feedback r id, f.isUnclear = true) ∧
      ((∃ f ∈ s.feedbackOn feedback r id, f.isUnclear = true) → Lost s' said r id) ∧
      (¬Lost s' said r id → ∃ p', s'.downlink.harq.process? r id = some p' ∧ p.Keeps p') := by
  have hinv := h.invariant
  obtain ⟨g, hg, -⟩ := hinv.sound.carries hp hflight
  cases SchedulerState.effect_of_step hstep with
  | quiet hq => cases hq
  | @downlink _ grid hgrid =>
    have hcourse := DownlinkTrigger.course_of_trigger policy s grid feedback
      (hinv.config ▸ henabled) hinv.sound (hinv.rbgCount_le hgrid) r id
    rw [DownlinkTrigger.process?_opened, hp, Option.map_some] at hcourse
    have hafter : (DownlinkTrigger.decide policy s grid feedback).1.downlink.harq.process? r id =
        (DownlinkTrigger.fresh policy s grid feedback).harq.process? r id := rfl
    rw [DownlinkTrigger.lost_decide_iff, hafter]
    -- Ageing gives an overdue block up; any other one meets its feedback.
    cases hdue : p.isOverdue with
    | true =>
      rw [DownlinkProcess.age_of_isOverdue hdue] at hcourse
      have hlost := hcourse.lost_of_free
      refine ⟨fun _ => .inl (.overdue ?_), fun _ => hlost, fun hno => absurd hlost hno⟩
      simp only [DownlinkProcess.isOverdue, Bool.and_eq_true, decide_eq_true_iff] at hdue
      omega
    | false =>
      rw [DownlinkProcess.age_of_waiting hflight hdue,
        DownlinkTrigger.pending_of_waiting s grid feedback hp hdue,
        ← SchedulerState.feedbackOn] at hcourse
      obtain ⟨hlost, hwhy⟩ | ⟨hkeeps, hold, hnack⟩ :=
        hcourse.lapsed_or_keeps (p := { p with timer := p.timer + 1 }) hflight ⟨g, hg⟩
      · exact ⟨fun _ => hwhy.documented ⟨g, hg⟩, fun _ => hlost, fun hno => absurd hlost hno⟩
      · obtain ⟨p', hp', hkeeps⟩ := hkeeps
        refine ⟨fun hlost => ?_, fun hunclear => ?_, fun _ => ⟨p', hp', { hkeeps with }⟩⟩
        · rcases hlost with hfree | ⟨b, hb, hnew⟩
          · have hflight' := hkeeps.inFlight
            rw [hfree p' hp'] at hflight'
            cases hflight'
          · rw [hold b hb] at hnew
            cases hnew
        · obtain ⟨f, hf, hunclear⟩ := hunclear
          simp [HarqFeedback.isUnclear, hnack f hf] at hunclear

/-- The report of UE 1 that it missed the grant of process 1. -/
def missedGrant : HarqFeedback := ⟨1, 1, [.dtx]⟩

/-- A run in which that report comes in while the block is in flight. -/
theorem exists_missedGrant :
    ∃ (s s' : SchedulerState Throughput) (said : List Indication) (p : DownlinkProcess),
      Reachable .tdBet .default s ∧
      s.step .tdBet (.downlinkTrigger [missedGrant]) = .ok (s', said) ∧
      s.feedbackOn [missedGrant] 1 1 = [missedGrant] ∧
      s.downlink.harq.process? 1 1 = some p ∧ p.isFree = false ∧ p.timer + 1 < harqTimeout ∧
      ∀ p', s'.downlink.harq.process? 1 1 = some p' → p'.isFree = true := by
  obtain ⟨es, e, hrun, hstep, hcheck⟩ := Run.of_replay_step .tdBet .default
    [.connect true true, .configureCell 6 6, .installReuse (.hard 6 6 ⟨0, 1⟩ ⟨0, 6⟩),
      .configureUe 1 .singleAntenna, .queue 1 0 ⟨4, 0, 0, 0, 0⟩, .downlinkTrigger []]
    (.downlinkTrigger [missedGrant])
    (fun _ e => e.before.feedbackOn [missedGrant] 1 1 == [missedGrant] &&
      (e.before.downlink.harq.process? 1 1).any (fun p =>
        !p.isFree && decide (p.timer + 1 < harqTimeout)) &&
      (e.after.downlink.harq.process? 1 1).all (·.isFree)) (by decide +kernel)
  simp only [Bool.and_eq_true, beq_iff_eq, Option.any_eq_true, Bool.not_eq_true',
    decide_eq_true_iff] at hcheck
  obtain ⟨⟨hfeedback, p, hp, hflight, htimer⟩, hfree⟩ := hcheck
  exact ⟨e.before, e.after, e.said, p, hrun.reachable, hstep, hfeedback, hp, hflight, htimer,
    fun p' hp' => by simpa [hp'] using hfree⟩

/-- A block is lost although nothing documented happened to it: it was not received, it was not sent
as often as it may be, and it did not wait too long. In the subframe after it was sent, its UE
reports that it missed the grant, and the process is free from then on. -/
theorem lost_without_reason :
    ∃ (s s' : SchedulerState Throughput) (said : List Indication) (p : DownlinkProcess),
      Reachable .tdBet .default s ∧
      s.step .tdBet (.downlinkTrigger [missedGrant]) = .ok (s', said) ∧
      s.downlink.harq.process? 1 1 = some p ∧ p.isFree = false ∧ Lost s' said 1 1 ∧
      ¬Documented p (s.feedbackOn [missedGrant] 1 1) := by
  obtain ⟨s, s', said, p, hs, hstep, hpending, hp, hflight, htimer, hfree⟩ := exists_missedGrant
  refine ⟨s, s', said, p, hs, hstep, hp, hflight, .inl hfree, ?_⟩
  rw [hpending]
  rintro (⟨hmem, hack⟩ | ⟨hmem, hnack, -⟩ | hdue)
  · rw [List.mem_singleton.1 hmem] at hack
    cases hack
  · rw [List.mem_singleton.1 hmem] at hnack
    cases hnack
  · omega

/-- The block of a missed grant is lost by unclear feedback. -/
theorem lost_of_trigger_missedGrant :
    ∃ (s s' : SchedulerState Throughput) (said : List Indication) (p : DownlinkProcess),
      Reachable .tdBet .default s ∧
      s.step .tdBet (.downlinkTrigger [missedGrant]) = .ok (s', said) ∧
      s.downlink.harq.process? 1 1 = some p ∧ p.isFree = false ∧ Lost s' said 1 1 ∧
      (Documented p (s.feedbackOn [missedGrant] 1 1) ∨
        ∃ f ∈ s.feedbackOn [missedGrant] 1 1, f.isUnclear = true) := by
  obtain ⟨s, s', said, p, hs, hstep, hpending, hp, hflight, -⟩ := exists_missedGrant
  obtain ⟨hwhy, hunclear, -⟩ := hs.lost_of_trigger rfl hstep hp hflight
  have hlost := hunclear ⟨missedGrant, by simp [hpending], rfl⟩
  exact ⟨s, s', said, p, hs, hstep, hp, hflight, hlost, hwhy hlost⟩

end LteMac
