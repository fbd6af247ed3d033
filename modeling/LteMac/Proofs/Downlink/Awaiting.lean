import LteMac.Proofs.Downlink.Resending

/-!
# Blocks that await their feedback

A block in flight awaits one piece of feedback. As long as there is at most one for each process,
waiting at the cell or on its way, a block rests on its process until its feedback comes in, and
every block that is sent goes on a process that nothing else is on its way for.

This is what a cell whose UEs report once on each block can count on. A process may be told of early
or late, twice or not at all, and then other things happen; here all of that is excluded by a bound
on the number of pieces, which is kept by a trigger because feedback does not multiply: of a failed
block that is sent again the feedback is used up, and of one that waits it is kept.

* `DownlinkTrigger.rests_of_silent`: a block rests while nobody tells of it;
* `DownlinkTrigger.holds_of_sent`: a trigger leaves the blocks it sends on their processes;
* `DownlinkTrigger.count_decide`: feedback does not multiply.
-/

namespace LteMac

variable {r : Rnti} {id : Nat}

/-! ## Blocks on processes -/

/-- The process holds the block `b`, which was sent `age` subframes ago. -/
structure DownlinkProcess.Holds (p : DownlinkProcess) (b : DataGrant) (age : Nat) : Prop where
  /-- It is not free. -/
  inFlight : p.isFree = false
  /-- Its timer counts the subframes since the block was sent. -/
  timer : p.timer = age
  /-- It remembers how the block was sent. -/
  grant : p.grant = some b.grant
  /-- It remembers what the block carries. -/
  pdus : p.pdus = b.pdus

namespace DownlinkProcess.Holds

variable {p : DownlinkProcess} {b : DataGrant} {age : Nat}

/-- A young block is not overdue. -/
theorem not_overdue (h : p.Holds b age) (hage : age < harqTimeout) : p.isOverdue = false := by
  rw [isOverdue, h.timer, decide_eq_false (Nat.not_le.2 hage), Bool.and_false]

/-- Its process carries no other block. -/
theorem not_available (h : p.Holds b age) (hage : age < harqTimeout) : p.isAvailable = false := by
  refine Bool.eq_false_iff.2 fun hav => ?_
  have hdue := isOverdue_of_isAvailable hav h.inFlight
  rw [h.not_overdue hage] at hdue
  cases hdue

/-- A block that is not overdue is still there after a subframe. -/
theorem aged (h : p.Holds b age) (hage : age < harqTimeout) : p.age.Holds b (age + 1) := by
  rw [age_of_waiting h.inFlight (h.not_overdue hage)]
  exact { h with timer := congrArg (· + 1) h.timer }

end DownlinkProcess.Holds

/-- A block that was just sent for the first time. -/
theorem DownlinkProcess.holds_start (b : DataGrant) : (start b.grant b.pdus).Holds b 0 :=
  ⟨rfl, rfl, rfl, rfl⟩

/-- A block that was just sent again. -/
theorem Retransmission.holds_resent (r : Rnti) (p : DownlinkProcess) (g : DownlinkGrant) :
    (resent p g).Holds (repetition r p g) 0 := ⟨rfl, rfl, rfl, rfl⟩

/-! ## A pass over the feedback -/

/-- Of a list of one element at most, all elements are the same. -/
theorem eq_of_mem_of_length_le_one {α : Type} {l : List α} (h : l.length ≤ 1) {a a' : α}
    (ha : a ∈ l) (ha' : a' ∈ l) : a = a' := by
  match l with
  | [x] => rw [List.mem_singleton.1 ha, List.mem_singleton.1 ha']
  | _ :: _ :: _ => simp at h

namespace Retransmission

variable {reuse : ReusePolicy} {o : Occupancy}

/-- A process that no feedback is on is left alone. -/
theorem silent_handleAll (reuse : ReusePolicy) {harq : DownlinkHarq} (hsound : harq.Sound)
    (hsize : o.size ≤ 32) {pending : List HarqFeedback}
    (hsilent : pending.filter (·.isOn r id) = []) :
    (handleAll reuse harq o pending).harq.process? r id = harq.process? r id ∧
      (handleAll reuse harq o pending).sent.filter (·.isOn r id) = [] ∧
      (handleAll reuse harq o pending).kept.filter (·.isOn r id) = [] := by
  induction pending using List.reverseRecOn with
  | nil => exact ⟨rfl, rfl, rfl⟩
  | append_singleton pending f ih =>
    rw [List.filter_append, List.append_eq_nil_iff, List.filter_singleton] at hsilent
    obtain ⟨hsilent, hf⟩ := hsilent
    have hoff : f.isOn r id = false := by
      cases hon : f.isOn r id with
      | false => rfl
      | true => simp [hon] at hf
    have hfair := fair_handleAll reuse hsound hsize pending
    -- The last feedback is on another process, and so are those before it.
    obtain ⟨hproc, hsent, hkept⟩ :=
      (Round.handled_handle reuse (handleAll reuse harq o pending) f).other hfair.sound hoff
    rw [handleAll_concat, hproc, hsent, hkept]
    exact ih hsilent

/-- If there is at most one piece of feedback on a process, a block that is sent again on it is on
it at the end of the pass. -/
theorem holds_of_sent (reuse : ReusePolicy) {harq : DownlinkHarq} (hsound : harq.Sound)
    (hsize : o.size ≤ 32) {pending : List HarqFeedback}
    (hone : (pending.filter (·.isOn r id)).length ≤ 1) {b : DataGrant}
    (hb : b ∈ (handleAll reuse harq o pending).sent) (hon : b.isOn r id = true) :
    ∃ p, (handleAll reuse harq o pending).harq.process? r id = some p ∧ p.Holds b 0 := by
  have hmem : b ∈ (handleAll reuse harq o pending).sent.filter (·.isOn r id) :=
    List.mem_filter.2 ⟨hb, hon⟩
  -- Of a process that carries nothing, nothing is sent again.
  by_cases hidle : ∀ p, harq.process? r id = some p → p.isFree = true
  · rw [(idle_handleAll reuse hsound hsize hidle pending).2.1] at hmem
    cases hmem
  · obtain ⟨p, hp, hflight⟩ : ∃ p, harq.process? r id = some p ∧ p.isFree = false := by
      simpa using hidle
    obtain ⟨p', hp', hfate⟩ := fate_handleAll reuse hsound hsize hp hflight pending
    refine ⟨p', hp', ?_⟩
    -- The only feedback on the process is the failure that the block was sent for.
    obtain ⟨before, f, after, heq, hfon, hnack, -⟩ := cause_of_sent hsound hsize hb
    obtain ⟨rfl, rfl⟩ := DataGrant.isOn_iff.1 hon
    have hf : f ∈ pending.filter (·.isOn b.rnti b.grant.process) :=
      List.mem_filter.2 ⟨by simp [heq], hfon⟩
    generalize (handleAll reuse harq o pending).sent.filter (·.isOn b.rnti b.grant.process) = sent
      at hmem hfate
    generalize (handleAll reuse harq o pending).kept.filter _ = kept at hfate
    cases hfate with
    | rests => cases hmem
    | freed => cases hmem
    | again =>
      rw [List.mem_singleton.1 hmem]
      exact holds_resent ..
    | answered _ hack =>
      obtain ⟨a, ha, hack⟩ := hack
      rw [eq_of_mem_of_length_le_one hone ha hf, hnack] at hack
      cases hack

end Retransmission

/-! ## A trigger -/

namespace DownlinkTrigger

variable {Record : Type} (policy : Policy Record) {s : SchedulerState Record} {grid : Grid}
  {feedback : List HarqFeedback}

variable (s grid feedback) in
/-- What is pending does not outnumber what waited and came in. -/
theorem count_pending (r : Rnti) (id : Nat) :
    ((pending s grid feedback).filter (·.isOn r id)).length ≤
      ((s.downlink.feedback ++ feedback).filter (·.isOn r id)).length := by
  rw [List.filter_append]
  exact (pending_sublist s grid feedback r id).length_le

variable (hsound : s.downlink.harq.Sound) (hgrid : grid.rbgCount ≤ 32)

include hsound hgrid

/-- As long as the retransmission stage comes to no feedback on a process, the process only ages. -/
theorem silent_pass (hsilent : (s.downlink.feedback ++ feedback).filter (·.isOn r id) = []) :
    (pass s grid (pending s grid feedback)).harq.process? r id =
        (s.downlink.harq.process? r id).map (·.age) ∧
      (pass s grid (pending s grid feedback)).sent.filter (·.isOn r id) = [] ∧
      (pass s grid (pending s grid feedback)).kept.filter (·.isOn r id) = [] := by
  have hpending : (pending s grid feedback).filter (·.isOn r id) = [] := by
    have hcount := count_pending s grid feedback r id
    rw [hsilent, List.length_nil, Nat.le_zero] at hcount
    exact List.length_eq_zero_iff.1 hcount
  have hopened : (opened s grid).downlink.harq.Sound := hsound.refresh
  rw [← process?_opened s grid]
  exact Retransmission.silent_handleAll s.reuse hopened (size_paged s grid hgrid) hpending

/-- When the retransmission stage comes to the feedback on a block, the block is still there, if
nobody told of it until then. -/
theorem found_of_silent {p : DownlinkProcess} {b : DataGrant} {age : Nat}
    (hp : s.downlink.harq.process? r id = some p) (hholds : p.Holds b age)
    (hage : age < harqTimeout)
    (hsilent : (s.downlink.feedback ++ feedback).filter (·.isOn r id) = []) :
    ∃ p', (pass s grid (pending s grid feedback)).harq.process? r id = some p' ∧
      p'.Holds b (age + 1) := by
  refine ⟨p.age, ?_, hholds.aged hage⟩
  rw [(silent_pass hsound hgrid hsilent).1, hp]
  rfl

variable (henabled : s.config.harqEnabled = true)

include henabled

variable (feedback) in
/-- What is sent again on a process, and the feedback that still waits there, do not outnumber the
feedback that there was. -/
theorem count_retries (r : Rnti) (id : Nat) :
    ((retries s grid feedback).sent.filter (·.isOn r id)).length +
        ((retries s grid feedback).kept.filter (·.isOn r id)).length ≤
      ((s.downlink.feedback ++ feedback).filter (·.isOn r id)).length := by
  have hopened : (opened s grid).downlink.harq.Sound := hsound.refresh
  rw [retries_eq s grid feedback henabled]
  exact Nat.le_trans (Retransmission.count_handleAll s.reuse hopened (size_paged s grid hgrid)
    (pending s grid feedback) r id) (count_pending s grid feedback r id)

/-- A trigger does not multiply the feedback on a process: of a block on it and of feedback that
still waits there is only one, if there was at most one piece of feedback. -/
theorem count_decide (r : Rnti) (id : Nat)
    (hone : ((s.downlink.feedback ++ feedback).filter (·.isOn r id)).length ≤ 1) :
    ((data policy s grid feedback).filter (·.isOn r id)).length +
        ((fresh policy s grid feedback).feedback.filter (·.isOn r id)).length ≤ 1 := by
  have hup := uptake_fresh policy s grid feedback henabled hsound hgrid r id
  have hserved : ∀ b ∈ (fresh policy s grid feedback).sent.filter (·.isOn r id),
      (retries s grid feedback).sent.filter (·.isOn r id) = [] :=
    fun b hb => retries_eq_nil_of_fresh policy s grid feedback hsound hgrid hb
  have hcount := count_retries feedback hsound hgrid henabled r id
  rw [data, List.filter_append]
  generalize (fresh policy s grid feedback).harq.process? r id = p' at hup
  generalize (fresh policy s grid feedback).sent.filter (·.isOn r id) = new at hup hserved ⊢
  generalize (fresh policy s grid feedback).feedback.filter (·.isOn r id) = kept at hup ⊢
  -- Nothing new goes on the process, or a new block does, which drops all feedback on it.
  cases hup with
  | rests =>
    rw [List.append_nil]
    exact Nat.le_trans hcount hone
  | started =>
    rw [hserved _ (List.mem_singleton_self _)]
    exact Nat.le_refl 1

/-- Nobody tells of a block that is not overdue: it rests, and nothing else goes on its process. -/
theorem rests_of_silent {p : DownlinkProcess} {b : DataGrant} {age : Nat}
    (hp : s.downlink.harq.process? r id = some p) (hholds : p.Holds b age)
    (hage : age + 1 < harqTimeout)
    (hsilent : (s.downlink.feedback ++ feedback).filter (·.isOn r id) = []) :
    (∃ p', (fresh policy s grid feedback).harq.process? r id = some p' ∧
        p'.Holds b (age + 1)) ∧
      (data policy s grid feedback).filter (·.isOn r id) = [] ∧
      (fresh policy s grid feedback).feedback.filter (·.isOn r id) = [] := by
  have hup := uptake_fresh policy s grid feedback henabled hsound hgrid r id
  obtain ⟨hproc, hsent, hkept⟩ := silent_pass hsound hgrid hsilent
  rw [← retries_eq s grid feedback henabled] at hproc hsent hkept
  have haged := hholds.aged (Nat.lt_of_succ_lt hage)
  rw [hproc, hkept, hp, Option.map_some] at hup
  rw [data, List.filter_append, hsent, List.nil_append]
  generalize (fresh policy s grid feedback).harq.process? r id = p' at hup ⊢
  generalize (fresh policy s grid feedback).sent.filter (·.isOn r id) = new at hup ⊢
  generalize (fresh policy s grid feedback).feedback.filter (·.isOn r id) = kept at hup ⊢
  cases hup with
  | rests => exact ⟨⟨_, rfl, haged⟩, rfl, rfl⟩
  | started hq hav =>
    -- No new block may take over a process whose block is not overdue.
    obtain rfl := Option.some.inj hq
    rw [haged.not_available hage] at hav
    cases hav

/-- A block that is sent is on its process afterwards, if there was at most one piece of feedback on
it. -/
theorem holds_of_sent {b : DataGrant} (hb : b ∈ data policy s grid feedback)
    (hone : ((s.downlink.feedback ++ feedback).filter
      (·.isOn b.rnti b.grant.process)).length ≤ 1) :
    ∃ p, (fresh policy s grid feedback).harq.process? b.rnti b.grant.process = some p ∧
      p.Holds b 0 := by
  have hon : b.isOn b.rnti b.grant.process = true := DataGrant.isOn_iff.2 ⟨rfl, rfl⟩
  have hopened : (opened s grid).downlink.harq.Sound := hsound.refresh
  have hup := uptake_fresh policy s grid feedback henabled hsound hgrid b.rnti b.grant.process
  rcases List.mem_append.1 hb with hb | hb
  · -- A block that is sent again: no new block can follow it in the same subframe.
    have hserved : ∀ b' ∈ (fresh policy s grid feedback).sent.filter
        (·.isOn b.rnti b.grant.process), False := fun b' hb' => by
      have hnone := retries_eq_nil_of_fresh policy s grid feedback hsound hgrid hb'
      exact List.filter_eq_nil_iff.1 hnone b hb hon
    rw [retries_eq s grid feedback henabled] at hb hup
    obtain ⟨p, hp, hholds⟩ := Retransmission.holds_of_sent s.reuse hopened
      (size_paged s grid hgrid) (Nat.le_trans (count_pending s grid feedback _ _) hone) hb hon
    rw [pass, hp] at hup
    generalize (fresh policy s grid feedback).harq.process? b.rnti b.grant.process = p' at hup ⊢
    generalize (fresh policy s grid feedback).sent.filter (·.isOn b.rnti b.grant.process) = new
      at hup hserved
    generalize List.filter _ (fresh policy s grid feedback).feedback = kept at hup
    cases hup with
    | rests => exact ⟨p, rfl, hholds⟩
    | started => cases hserved _ (List.mem_singleton_self _)
  · -- A new block starts on its process.
    have hmem : b ∈ (fresh policy s grid feedback).sent.filter (·.isOn b.rnti b.grant.process) :=
      List.mem_filter.2 ⟨hb, hon⟩
    generalize (fresh policy s grid feedback).harq.process? b.rnti b.grant.process = p' at hup ⊢
    generalize (fresh policy s grid feedback).sent.filter (·.isOn b.rnti b.grant.process) = new
      at hup hmem
    generalize List.filter _ (fresh policy s grid feedback).feedback = kept at hup
    cases hup with
    | rests => cases hmem
    | started =>
      rw [List.mem_singleton.1 hmem]
      exact ⟨_, rfl, DownlinkProcess.holds_start _⟩

end DownlinkTrigger

end LteMac
