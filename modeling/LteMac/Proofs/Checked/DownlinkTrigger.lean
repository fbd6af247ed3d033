import LteMac.Proofs.Checked.Downlink

/-!
# A checked downlink trigger

The stages one after the other, with what the policy looks up in between. What the first stage
relies on holds of the cell before the trigger, and each stage hands on what the next one relies on,
so that nothing has to be assumed of the states in between.

The checked policy is a parameter, and all that is asked of it is that it proposes what the policy
does, in any context. Whether it can stop is a matter of its own.

* `DownlinkTrigger.decideChecked_eq`: the whole trigger.
-/

namespace LteMac.DownlinkTrigger

variable {Record : Type} {s : SchedulerState Record} {grid : Grid}

/-- The downlink one subframe later. -/
def ageChecked (d : DownlinkState Record) : Checked (DownlinkState Record) := do
  let gone ← d.harq.expiringChecked
  return { d with
    tti := d.tti + 1
    quality := d.quality.refresh
    harq := d.harq.refresh
    feedback := d.feedback.filter fun f => !gone.contains (f.rnti, f.process) }

/-- Retransmissions, if there are any in this cell. -/
def retransmitChecked (s : SchedulerState Record) (occupancy : Occupancy)
    (feedback : List HarqFeedback) : Checked Retransmission.Round :=
  let d := s.downlink
  if s.config.harqEnabled then
    Retransmission.handleAllChecked s.reuse d.harq occupancy (d.feedback ++ feedback)
  else pure ⟨d.harq, occupancy, d.feedback, []⟩

/-- The UEs that may get new data. -/
def candidatesChecked (s : SchedulerState Record) (harq : DownlinkHarq) (served : Rnti → Bool) :
    Checked (List Rnti) := do
  let turns ← SchedulerState.rotationChecked s.ues.keys s.downlink.cursor
  turns.filterM fun rnti =>
    if !served rnti && s.downlink.ues[rnti]?.any (·.hasData) && s.config.harqEnabled then
      harq.isAvailableChecked rnti
    else pure (!served rnti && s.downlink.ues[rnti]?.any (·.hasData))

variable (allocate : AllocationContext → List Rnti → (Rnti → Option Record) → Checked Allocation)

/-- New data for the candidates, as the policy sees fit. -/
def sendNewChecked (s : SchedulerState Record) (grid : Grid) (retries : Retransmission.Round)
    (candidates : List Rnti) : Checked (NewData.Round Record) := do
  let start : NewData.Round Record :=
    ⟨s.downlink.ues, retries.harq, retries.kept, retries.occupancy, []⟩
  let free ← retries.occupancy.freeBlocksChecked
  if candidates.isEmpty || free.isEmpty then return start
  else
    let proposal ← allocate (context s grid retries.occupancy) candidates fun rnti =>
      s.downlink.ues[rnti]?.map (·.record)
    candidates.foldlM ((setting s grid).serveChecked proposal) start

/-- Decides a downlink subframe. -/
def decideChecked (policy : Policy Record) (s : SchedulerState Record) (grid : Grid)
    (feedback : List HarqFeedback) : Checked (Outcome Record) := do
  let downlink ← ageChecked s.downlink
  let (uplink, access) ← Access.answerAllChecked s grid
  let s := { s with preambles := [], downlink, uplink }
  let paged ← Paging.sendAllChecked grid (.ofFlags grid.rbgCount s.reuse.downlinkFlags)
    s.downlink.paging
  let retries ← retransmitChecked s paged.occupancy feedback
  let candidates ← candidatesChecked s retries.harq retries.served
  let new ← sendNewChecked allocate s grid retries candidates
  let downlink := { s.downlink with
    ues := recordAll policy s.config.timeWindow new.sent new.ues
    harq := new.harq
    feedback := new.feedback
    paging := paged.waiting
    cursor := nextTurn s.downlink.cursor candidates }
  return ({ s with downlink }, [.downlink ⟨retries.sent ++ new.sent, access, paged.sent, 1⟩])

variable {allocate}

/-- Ageing looks the entities up that there are. -/
theorem ageChecked_eq {d : DownlinkState Record} (hs : d.harq.Separate) :
    ageChecked d = pure (age d) := by
  rw [ageChecked, DownlinkHarq.expiringChecked_eq hs, pure_bind, age]

/-- The stage of the retransmissions, which is left out in a cell without any. -/
theorem retransmitChecked_eq {o : Occupancy} (h : DownlinkApt s.downlink.harq o)
    (feedback : List HarqFeedback) :
    retransmitChecked s o feedback = pure (retransmit s o feedback) := by
  unfold retransmitChecked retransmit
  dsimp only
  split
  · exact Retransmission.handleAllChecked_eq h _
  · rfl

/-- It leaves an arena and a grid that the new data can rely on. -/
theorem apt_retransmit {o : Occupancy} (h : DownlinkApt s.downlink.harq o)
    (feedback : List HarqFeedback) :
    DownlinkApt (retransmit s o feedback).harq (retransmit s o feedback).occupancy := by
  unfold retransmit
  dsimp only
  split
  · exact Retransmission.apt_handleAll h _
  · exact h

/-- Whether a process is available is looked up for UEs that there are. -/
theorem candidatesChecked_eq {harq : DownlinkHarq} (hs : harq.Separate) (served : Rnti → Bool) :
    candidatesChecked s harq served = pure (candidates s harq served) := by
  rw [candidatesChecked, SchedulerState.rotationChecked_keys, pure_bind,
    Checked.filterM_eq fun rnti _ => ?_, candidates]
  rw [DownlinkHarq.isAvailableChecked_eq hs]
  cases !served rnti && s.downlink.ues[rnti]?.any (·.hasData) <;>
    cases s.config.harqEnabled <;> rfl

/-- The stage of the new data, if the checked policy proposes what the policy does. -/
theorem sendNewChecked_eq {policy : Policy Record}
    (hallocate : ∀ ctx candidates records,
      allocate ctx candidates records = pure (policy.allocate ctx candidates records))
    {retries : Retransmission.Round} (h : DownlinkApt retries.harq retries.occupancy)
    (candidates : List Rnti) :
    sendNewChecked allocate s grid retries candidates =
      pure (sendNew policy s grid retries candidates) := by
  rw [sendNewChecked, Occupancy.freeBlocksChecked_eq, pure_bind, sendNew]
  dsimp only
  split
  · rfl
  · rw [hallocate, pure_bind]
    exact NewData.foldlM_serveChecked h _ candidates

/-- No access of a downlink trigger stops it, if the groups of the grid fit into a bitmap, no two
UEs share a slot of the arena, and the cursors of the uplink are in range, which the answers to
random accesses rely on. -/
theorem decideChecked_eq {policy : Policy Record}
    (hallocate : ∀ ctx candidates records,
      allocate ctx candidates records = pure (policy.allocate ctx candidates records))
    (hs : s.downlink.harq.Separate) (hgrid : grid.rbgCount ≤ 32)
    (hues : s.config.harqEnabled = true → UplinkTable.InRange s.uplink.ues)
    (feedback : List HarqFeedback) :
    decideChecked allocate policy s grid feedback = pure (decide policy s grid feedback) := by
  -- The arena keeps its slots apart and the occupancy keeps its length through all passes, so each
  -- pass finds what it needs.
  have hpaged : DownlinkApt (opened s grid).downlink.harq (paged s grid).occupancy :=
    ⟨hs.refresh, size_paged s grid hgrid⟩
  have hretries : DownlinkApt (retries s grid feedback).harq
      (retries s grid feedback).occupancy := apt_retransmit hpaged feedback
  rw [decideChecked, ageChecked_eq hs, pure_bind, Access.answerAllChecked_eq hues, pure_bind]
  dsimp only
  rw [Paging.sendAllChecked_eq grid (by rwa [Occupancy.size_ofFlags]), pure_bind]
  change (retransmitChecked (opened s grid) (paged s grid).occupancy feedback >>= _) = _
  rw [retransmitChecked_eq hpaged, pure_bind]
  change (candidatesChecked (opened s grid) (retries s grid feedback).harq
    (retries s grid feedback).served >>= _) = _
  rw [candidatesChecked_eq hretries.separate, pure_bind]
  change (sendNewChecked allocate (opened s grid) grid (retries s grid feedback)
    (turns s grid feedback) >>= _) = _
  rw [sendNewChecked_eq hallocate hretries, pure_bind, decide_eq]
  rfl

end LteMac.DownlinkTrigger
