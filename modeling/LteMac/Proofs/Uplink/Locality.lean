import LteMac.Proofs.Radio.Table
import LteMac.Uplink.Trigger

/-!
# Uplink passes over known UEs

The passes of an uplink trigger only touch whom the outcomes name and whom new blocks are for. Two
cells that agree on these UEs, their records and their quality reports, go through them alike.

For each pass there is a relation between two of its states, one in each cell: the grid, the map and
the grants are the same, and so is what is kept of the UEs in question. Of the others the two states
may keep different things, or nothing at all in one of them. Each step reads and writes what belongs
to one UE, so the relation is kept by a step about a UE in question, and by induction by the pass.
The counterpart is that a step leaves the record of anybody else as it is.

* `UplinkQuality.AgreeOn`: two sets of reports with the same entries for the UEs in question;
* `UplinkRetry.foldl_handle_agreeOn`, `UplinkNew.serveAll_agreeOn`: the passes keep the agreement;
* `UplinkRetry.ues_foldl_handle`, `UplinkNew.ues_serveAll`: whom a pass does not serve keeps its
  record.
-/

namespace LteMac

variable {known : Rnti → Prop} {r : Rnti}

/-! ## Reports

Two cells whose reports agree on some UEs measure the same quality for each of them. Looking at a
quality may keep a guess, in both alike.
-/

namespace UplinkQuality

variable {q q' : UplinkQuality}

/-- Two cells keep the same reports of the UEs in question. -/
structure AgreeOn (known : Rnti → Prop) (q q' : UplinkQuality) : Prop where
  bandwidth : q.bandwidth = q'.bandwidth
  threshold : q.sinr.threshold = q'.sinr.threshold
  entries : ∀ r, known r → q.sinr.entries[r]? = q'.sinr.entries[r]?

namespace AgreeOn

variable (h : q.AgreeOn known q')

include h

/-- The report of a UE in question is found in both or in neither. -/
theorem get? (hr : known r) : q.sinr.get? r = q'.sinr.get? r := by
  rw [AgingTable.get?, h.entries r hr, AgingTable.get?]

/-- What is known of one of its blocks is the same in both. -/
theorem sinr? (hr : known r) (block : Nat) : q.sinr? r block = q'.sinr? r block := by
  rw [UplinkQuality.sinr?, h.get? hr, UplinkQuality.sinr?]

theorem contains (hr : known r) : q.contains r = q'.contains r := by
  simp only [UplinkQuality.contains, AgingTable.contains,
    Std.ExtTreeMap.contains_eq_isSome_getElem?, h.entries r hr]

/-- Reports age alike. -/
theorem refresh : q.refresh.AgreeOn known q'.refresh where
  bandwidth := h.bandwidth
  threshold := h.threshold
  entries r hr := by
    simp only [UplinkQuality.refresh, AgingTable.refresh, Std.ExtTreeMap.getElem?_filterMap',
      h.entries r hr]

/-- An estimate that is written down is written to the report of its UE. -/
theorem settle (r : Rnti) (block : Nat) : (q.settle r block).AgreeOn known (q'.settle r block) where
  bandwidth := h.bandwidth
  threshold := h.threshold
  entries r' hr' := by
    simp only [UplinkQuality.settle, AgingTable.revise, Table.getElem?_modify, h.entries r' hr']
    split
    next heq => rw [← heq, h.entries r' hr']
    next => rfl

/-- A measurement that both cells take in. -/
theorem setBlock (r : Rnti) (block : Nat) (value : Float) :
    (q.setBlock r block value).AgreeOn known (q'.setBlock r block value) where
  bandwidth := h.bandwidth
  threshold := h.threshold
  entries r' hr' := by
    simp only [UplinkQuality.setBlock, AgingTable.report, Table.getElem?_insert, h.entries r' hr']
    split
    next heq => rw [← heq, h.get? hr', h.bandwidth, h.threshold]
    next => rfl

/-- A measurement that only one of the cells takes in, about a UE that is not in question. -/
theorem setBlock_right (hr : ¬known r) (block : Nat) (value : Float) :
    q.AgreeOn known (q'.setBlock r block value) where
  bandwidth := h.bandwidth
  threshold := h.threshold
  entries r' hr' := by
    have hne : r' ≠ r := fun heq => hr (heq ▸ hr')
    simp only [UplinkQuality.setBlock, AgingTable.report, Table.getElem?_insert, if_neg hne,
      h.entries r' hr']

end AgreeOn

/-- The relation is symmetric. -/
theorem AgreeOn.symm (h : q.AgreeOn known q') : q'.AgreeOn known q :=
  ⟨h.bandwidth.symm, h.threshold.symm, fun r hr => (h.entries r hr).symm⟩

end UplinkQuality

/-! ## Retransmissions

An outcome is about one UE, and reads and writes the entity of that UE only. What is shared by all
of them is the occupancy, which the cells agree on as long as they are told of UEs they agree on.
-/

namespace UplinkRetry

variable {round round' : Round}

/-- Two passes differ at most in the records of UEs that are not in question. -/
structure Round.AgreeOn (known : Rnti → Prop) (round round' : Round) : Prop where
  ues : ∀ r, known r → round.ues[r]? = round'.ues[r]?
  occupancy : round.occupancy = round'.occupancy
  map : round.map = round'.map
  sent : round.sent = round'.sent

theorem Round.AgreeOn.setEntity (h : round.AgreeOn known round') (r : Rnti) (u : UplinkUe)
    (harq : UplinkEntity) :
    (round.setEntity r u harq).AgreeOn known (round'.setEntity r u harq) :=
  { h with
    ues := fun r' hr' => by
      simp only [Round.setEntity, Table.getElem?_insert, h.ues r' hr'] }

theorem Round.AgreeOn.send (h : round.AgreeOn known round') (g : UplinkGrant) (r : Rnti) :
    (round.send g r).AgreeOn known (round'.send g r) := by
  rw [Round.send, Round.send]
  rw [h.occupancy]
  split
  · exact ⟨h.ues, rfl, by rw [h.map], by rw [h.sent]⟩
  · exact h

/-- Acting upon an outcome of a UE in question. -/
theorem Round.AgreeOn.handle (h : round.AgreeOn known round') {o : UplinkOutcome}
    (ho : known o.rnti) : (round.handle o).AgreeOn known (round'.handle o) := by
  simp only [Round.handle, h.ues o.rnti ho]
  cases round'.ues[o.rnti]? with
  | none => exact h
  | some u =>
    cases o.reception with
    | notValid => exact h
    | ok => exact h.setEntity ..
    | notOk =>
      dsimp only
      cases u.harq.retry.1 with
      | noBlock | dropped => exact h.setEntity ..
      | again g => exact (h.setEntity ..).send g o.rnti

/-- The pass over outcomes of UEs in question keeps the agreement. -/
theorem foldl_handle_agreeOn (h : round.AgreeOn known round') {outcomes : List UplinkOutcome}
    (houtcomes : ∀ o ∈ outcomes, known o.rnti) :
    (outcomes.foldl Round.handle round).AgreeOn known (outcomes.foldl Round.handle round') := by
  induction outcomes generalizing round round' with
  | nil => exact h
  | cons o rest ih =>
    obtain ⟨ho, hrest⟩ := List.forall_mem_cons.1 houtcomes
    exact ih (h.handle ho) hrest

/-- An outcome changes no record but that of its UE. -/
theorem ues_handle {o : UplinkOutcome} (hne : r ≠ o.rnti) (round : Round) :
    (round.handle o).ues[r]? = round.ues[r]? := by
  have hset : ∀ u harq, (round.setEntity o.rnti u harq).ues[r]? = round.ues[r]? :=
    fun u harq => Table.getElem?_insert.trans (if_neg hne)
  rw [Round.handle]
  split
  · rfl
  · rfl
  · exact hset ..
  · dsimp only
    split
    · exact hset ..
    · exact hset ..
    · rw [Round.send]
      split <;> exact hset ..

/-- Whom no outcome names keeps its record. -/
theorem ues_foldl_handle {outcomes : List UplinkOutcome} (hr : ∀ o ∈ outcomes, r ≠ o.rnti)
    (round : Round) : (outcomes.foldl Round.handle round).ues[r]? = round.ues[r]? := by
  induction outcomes generalizing round with
  | nil => rfl
  | cons o rest ih =>
    obtain ⟨hne, hrest⟩ := List.forall_mem_cons.1 hr
    exact (ih hrest _).trans (ues_handle hne round)

end UplinkRetry

/-! ## New blocks

A candidate reads its own report and its own record, and takes a stretch of what is left. So
candidates that the cells agree on are granted the same, one after the other.
-/

namespace UplinkNew

variable {setting : Setting} {round round' : Round} {q q' : UplinkQuality}

/-- Two passes differ at most in what is kept of UEs that are not in question. -/
structure Round.AgreeOn (known : Rnti → Prop) (round round' : Round) : Prop where
  ues : ∀ r, known r → round.ues[r]? = round'.ues[r]?
  quality : round.quality.AgreeOn known round'.quality
  occupancy : round.occupancy = round'.occupancy
  map : round.map = round'.map
  start : round.start = round'.start
  sent : round.sent = round'.sent

/-- The worst block of a stretch, for a known UE. -/
theorem worstSinr_agreeOn (h : q.AgreeOn known q') (hr : known r) (blocks : List Nat) :
    (worstSinr q r blocks).1 = (worstSinr q' r blocks).1 ∧
      (worstSinr q r blocks).2.AgreeOn known (worstSinr q' r blocks).2 := by
  rw [worstSinr, worstSinr]
  generalize UplinkQuality.unlimited = worst
  induction blocks generalizing q q' worst with
  | nil => exact ⟨rfl, h⟩
  | cons block rest ih =>
    rw [List.foldl_cons, List.foldl_cons]
    dsimp only
    rw [h.sinr? hr]
    cases q'.sinr? r block with
    | none => exact ih h worst
    | some value => exact ih (h.settle r block) _

/-- The scheme for a stretch is the same, and so are the estimates that were written down for it. -/
theorem scheme_agreeOn (h : q.AgreeOn known q') (hr : known r) (blocks : List Nat) :
    (scheme q r blocks).1 = (scheme q' r blocks).1 ∧
      (scheme q r blocks).2.AgreeOn known (scheme q' r blocks).2 := by
  rw [scheme, scheme]
  rw [h.contains hr]
  split
  · obtain ⟨hsinr, hquality⟩ := worstSinr_agreeOn h hr blocks
    dsimp only
    rw [hsinr]
    exact ⟨rfl, hquality⟩
  · exact ⟨rfl, h⟩

/-- Serving a UE in question. -/
theorem Round.AgreeOn.serve (h : round.AgreeOn known round') (hr : known r) :
    (setting.serve round r).AgreeOn known (setting.serve round' r) := by
  simp only [Setting.serve, h.occupancy, h.start]
  cases setting.stretch? round'.occupancy r round'.start with
  | none => exact h
  | some stretch =>
    obtain ⟨start, length⟩ := stretch
    obtain ⟨hmcs, hquality⟩ := scheme_agreeOn h.quality hr (List.range' start length)
    dsimp only
    rw [hmcs]
    cases (scheme round'.quality r (List.range' start length)).1 with
    | none => exact ⟨h.ues, hquality, rfl, h.map, rfl, h.sent⟩
    | some mcs =>
      refine ⟨fun r' hr' => ?_, hquality, rfl, ?_, rfl, ?_⟩
      · simp only [Table.getElem?_modify, h.ues r hr, h.ues r' hr']
      · dsimp only
        rw [h.map]
      · dsimp only
        rw [h.sent]

/-- The pass over candidates in question keeps the agreement. -/
theorem serveAll_agreeOn (h : round.AgreeOn known round') {cs : List Rnti}
    (hcs : ∀ c ∈ cs, known c) :
    (setting.serveAll round cs).AgreeOn known (setting.serveAll round' cs) := by
  rw [Setting.serveAll, Setting.serveAll]
  split
  · exact h
  · induction cs generalizing round round' with
    | nil => exact h
    | cons c cs ih =>
      obtain ⟨hc, hcs⟩ := List.forall_mem_cons.1 hcs
      exact ih (h.serve hc) hcs

/-- Serving a candidate changes no record but its own. -/
theorem ues_serve {c : Rnti} (hne : r ≠ c) (round : Round) :
    (setting.serve round c).ues[r]? = round.ues[r]? := by
  rw [Setting.serve]
  split
  · rfl
  · dsimp only
    split
    · rfl
    · exact Table.getElem?_modify.trans (if_neg hne)

/-- Whom a pass does not serve keeps its record. -/
theorem ues_serveAll {cs : List Rnti} (hr : r ∉ cs) (round : Round) :
    (setting.serveAll round cs).ues[r]? = round.ues[r]? := by
  rw [Setting.serveAll]
  split
  · rfl
  · induction cs generalizing round with
    | nil => rfl
    | cons c cs ih =>
      obtain ⟨hne, hr⟩ := List.ne_and_not_mem_of_not_mem_cons hr
      exact (ih hr _).trans (ues_serve hne round)

end UplinkNew

end LteMac
