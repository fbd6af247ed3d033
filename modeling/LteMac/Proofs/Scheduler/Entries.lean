import LteMac.Proofs.Downlink.Trigger
import LteMac.Proofs.Scheduler.Personal
import LteMac.Proofs.Uplink.History

/-!
# The entries of a UE

Of every UE the downlink keeps what waits for it and what the policy ranks it by, and the uplink
keeps its throughput. Few requests change any of it (`SchedulerState.Entries`): the UE comes or
goes, control elements are asked for it, or a subframe is decided.

The relation is the view that one UE has of a request. It forgets all that the request does
elsewhere, so an account over a run, of control elements that were asked for and sent, or of what
went into an average, is an induction with six cases. All requests that do nothing to these entries
are one of them, up to what a policy is told when bearers change.

* `SchedulerState.entries_of_step`: what an accepted request makes of the entries of a UE.
-/

namespace LteMac

variable {Record : Type} {policy : Policy Record}

/-- Whether a request may change the control elements that wait for a UE, or its throughput. -/
def Request.regards (r : Rnti) : Request → Bool
  | .configureUe r' _ | .releaseUe r' | .controlElements r' _ => r' = r
  | .downlinkTrigger _ | .uplinkTrigger .. => true
  | _ => false

/-- Whether an event configures a UE. -/
def Event.configures (e : Event Record) (r : Rnti) : Bool :=
  match e.request with
  | .configureUe r' _ => r' = r
  | _ => false

/-- A request that does not regard a UE does not configure it. -/
theorem Event.configures_of_regards {e : Event Record} {r : Rnti}
    (h : e.request.regards r = false) : e.configures r = false := by
  obtain ⟨_, q, _, _⟩ := e
  cases q with
  | configureUe => exact h
  | _ => rfl

/-- The entry `u'` has the control elements of `u`, and the policy was told of bearers at most. -/
structure DownlinkUe.Keeps (policy : Policy Record) (u u' : DownlinkUe Record) : Prop where
  /-- The same control elements wait. -/
  elements : u'.elements = u.elements
  /-- The record is the same, or was told of bearers. -/
  record : u'.record = u.record ∨ ∃ bearers, u'.record = policy.setBearers bearers u.record

namespace SchedulerState

variable {s s' : SchedulerState Record} {q : Request} {said : List Indication}

/-- What an accepted request makes of the entries of UE `r`, in the downlink and in the uplink. -/
inductive Entries (policy : Policy Record) (s : SchedulerState Record) (r : Rnti) :
    Request → SchedulerState Record → List Indication → Prop
  /-- The UE is configured, with an idle entry in both directions. -/
  | added {mode : TransmissionMode} {s' : SchedulerState Record}
      (hdownlink : s'.downlink.ues[r]? = some (.idle (policy.fresh s.downlink.tti)))
      (huplink : s'.uplink.ues[r]? = some (.idle s.downlink.tti)) :
      Entries policy s r (.configureUe r mode) s' [.ueConfigured r]
  /-- The UE is released. -/
  | removed {s' : SchedulerState Record} (hdownlink : s'.downlink.ues[r]? = none)
      (huplink : s'.uplink.ues[r]? = none) : Entries policy s r (.releaseUe r) s' [.ueReleased r]
  /-- Control elements are added to those that wait for the UE. -/
  | asked {elements : ControlElements} {s' : SchedulerState Record}
      (hdownlink : s'.downlink.ues[r]? = s.downlink.ues[r]?.map fun u =>
        { u with elements := some ((u.elements.getD .empty).union elements) })
      (huplink : s'.uplink = s.uplink) : Entries policy s r (.controlElements r elements) s' []
  /-- A downlink subframe is decided. -/
  | downlink {feedback : List HarqFeedback} {grid : Grid} (hgrid : s.grid = some grid) :
      Entries policy s r (.downlinkTrigger feedback)
        (DownlinkTrigger.decide policy s grid feedback).1
        (DownlinkTrigger.decide policy s grid feedback).2
  /-- An uplink subframe is decided. -/
  | uplink {time : Subframe} {outcomes : List UplinkOutcome} {grid : Grid}
      (hgrid : s.grid = some grid) :
      Entries policy s r (.uplinkTrigger time outcomes)
        (UplinkTrigger.decide s grid time outcomes).1 (UplinkTrigger.decide s grid time outcomes).2
  /-- Everything else keeps what is counted here, and sends the UE nothing. -/
  | kept {q : Request} {s' : SchedulerState Record} {said : List Indication}
      {f : DownlinkUe Record → DownlinkUe Record} (hq : q.regards r = false)
      (hsaid : said.flatMap (·.blocks) = [])
      (hdownlink : s'.downlink.ues[r]? = s.downlink.ues[r]?.map f)
      (hf : ∀ u, DownlinkUe.Keeps policy u (f u))
      (huplink : s'.uplink.ues[r]?.map (·.throughput) = s.uplink.ues[r]?.map (·.throughput)) :
      Entries policy s r q s' said

variable {r r' : Rnti}

/-- A request that leaves the entries in the downlink as they are. -/
theorem Entries.still (hq : q.regards r = false) (hsaid : said.flatMap (·.blocks) = [])
    (hdownlink : s'.downlink.ues[r]? = s.downlink.ues[r]?)
    (huplink : s'.uplink.ues[r]?.map (·.throughput) = s.uplink.ues[r]?.map (·.throughput)) :
    Entries policy s r q s' said :=
  .kept (f := id) hq hsaid (by rw [hdownlink, Option.map_id_fun, id])
    (fun _ => ⟨rfl, .inl rfl⟩) huplink

/-- A request that edits the entry of some UE in the downlink. -/
theorem Entries.edited {f : DownlinkUe Record → DownlinkUe Record} (hq : q.regards r = false)
    (hsaid : said.flatMap (·.blocks) = []) (huplink : s'.uplink = s.uplink)
    (hdownlink : s'.downlink.ues[r]? =
      if r = r' then s.downlink.ues[r']?.map f else s.downlink.ues[r]?)
    (hf : ∀ u, DownlinkUe.Keeps policy u (f u)) :
    Entries policy s r q s' said := by
  by_cases hr : r = r'
  · subst hr
    exact .kept hq hsaid (hdownlink.trans (if_pos rfl)) hf (by rw [huplink])
  · exact .still hq hsaid (hdownlink.trans (if_neg hr)) (by rw [huplink])

/-- A change of an uplink record that leaves the throughput in it alone. -/
theorem throughput_modifyUplinkUe (r r' : Rnti) {f : UplinkUe → UplinkUe}
    (hf : ∀ u, (f u).throughput = u.throughput) :
    (s.modifyUplinkUe r' f).uplink.ues[r]?.map (·.throughput) =
      s.uplink.ues[r]?.map (·.throughput) := by
  rw [modifyUplinkUe, Table.getElem?_modify]
  split
  next hr => simp [hr, Function.comp_def, hf]
  next => rfl

/-- What a UE reports has no bearing on its throughput. -/
theorem throughput_takeControl (control : Rnti × UplinkControl) (r : Rnti) :
    (s.takeControl control).uplink.ues[r]?.map (·.throughput) =
      s.uplink.ues[r]?.map (·.throughput) := by
  unfold takeControl
  split
  · exact throughput_modifyUplinkUe r control.1 fun _ => rfl
  · rfl
  · rfl

/-- Of the downlink, reports change the quality tables only. -/
theorem downlink_learned (s : SchedulerState Record) (reports : List CqiReport) :
    (s.learned reports).1.downlink =
      { s.downlink with quality := reports.foldl storeQuality s.downlink.quality } := by
  -- A mode is written to the UEs, which are no part of the downlink.
  have hadapt : ∀ out : Outcome Record,
      (reports.foldl adaptMode out).1.downlink = out.1.downlink := by
    induction reports with
    | nil => exact fun _ => rfl
    | cons report rest ih =>
      intro out
      refine (ih (adaptMode out report)).trans ?_
      unfold adaptMode
      dsimp only
      split
      · rfl
      · split <;> rfl
  unfold learned
  dsimp only
  split
  · exact hadapt _
  · rfl

/-- The answers to random accesses leave the throughput alone. -/
theorem throughput_answerAll (s : SchedulerState Record) (grid : Grid) (r : Rnti) :
    (Access.answerAll s grid).1.ues[r]?.map (·.throughput) =
      s.uplink.ues[r]?.map (·.throughput) := by
  unfold Access.answerAll
  dsimp only
  split
  · rw [Access.getElem?_foldl_storeGrant, Option.map_map]
    rfl
  · rfl

/-- What an accepted request makes of the entries of a UE, one of the six. -/
theorem entries_of_step (h : s.step policy q = .ok (s', said)) (r : Rnti) :
    Entries policy s r q s' said := by
  cases accepted_of_step h with
  | connected | installed | cell | paged | heard | noise | sinrIgnored | sounded | unattributed
  | credited | reconfigured => exact .still rfl rfl rfl rfl
  | @added r' mode =>
    by_cases hr : r = r'
    · subst hr
      refine .added ?_ ?_ <;> simp only [addUe, Table.getElem?_insert, if_pos]
    · refine .still (decide_eq_false (Ne.symm hr)) rfl ?_ ?_ <;>
        simp only [addUe, Table.getElem?_insert, if_neg hr]
  | @removed r' =>
    by_cases hr : r = r'
    · subst hr
      refine .removed ?_ ?_ <;> simp only [removeUe, Table.getElem?_erase, if_pos]
    · refine .still (decide_eq_false (Ne.symm hr)) rfl ?_ ?_ <;>
        simp only [removeUe, Table.getElem?_erase, if_neg hr]
  | bearersAdded =>
    exact .edited rfl rfl rfl Table.getElem?_modify fun _ => ⟨rfl, .inr ⟨_, rfl⟩⟩
  | @bearersDropped r' lcids =>
    -- First the queues of the channels go, then the policy is told.
    have hentry : (refreshBearers policy (s.dropBearers r' lcids) r').downlink.ues[r]? =
        if r = r' then s.downlink.ues[r']?.map fun u =>
          { u with
            queues := lcids.foldl (·.erase ·) u.queues
            record := policy.setBearers ((s.dropBearers r' lcids).bearers r') u.record }
        else s.downlink.ues[r]? := by
      simp only [refreshBearers, dropBearers, Table.getElem?_modify, if_pos, Option.map_map]
      split
      · rfl
      · rfl
    exact .edited rfl rfl rfl hentry fun _ => ⟨rfl, .inr ⟨_, rfl⟩⟩
  | queued => exact .edited rfl rfl rfl Table.getElem?_modify fun _ => ⟨rfl, .inl rfl⟩
  | @elementsAdded r' elements =>
    by_cases hr : r = r'
    · subst hr
      refine .asked ?_ rfl
      simp only [modifyDownlinkUe, Table.getElem?_modify, if_pos]
    · refine .still (decide_eq_false (Ne.symm hr)) rfl ?_ rfl
      simp only [modifyDownlinkUe, Table.getElem?_modify, if_neg hr]
  | qualityTaken =>
    refine .still rfl (learned_unmoved _).2.1 ?_ ?_
    · rw [downlink_learned]
    · rw [uplink_learned]
  | downlink _ hgrid => exact .downlink hgrid
  | uplink _ hgrid => exact .uplink hgrid
  | @requested rntis =>
    obtain ⟨ues, hues⟩ := exists_foldl_request rntis s
    refine .still rfl rfl (by rw [hues])
      (uplink_foldl (fun u => u.ues[r]?.map (·.throughput)) ?_ rntis s)
    exact fun s r' => throughput_modifyUplinkUe r r' fun _ => rfl
  | @controlsTaken controls =>
    obtain ⟨ues, hues⟩ := exists_foldl_takeControl controls s
    refine .still rfl rfl (by rw [hues])
      (uplink_foldl (fun u => u.ues[r]?.map (·.throughput)) ?_ controls s)
    exact fun s control => throughput_takeControl control r

/-- Only a downlink trigger grants data blocks. -/
theorem trigger_of_mem_blocks (h : s.step policy q = .ok (s', said)) {b : DataGrant}
    (hb : b ∈ said.flatMap (·.blocks)) :
    ∃ feedback grid, q = .downlinkTrigger feedback ∧ s.grid = some grid ∧
      s' = (DownlinkTrigger.decide policy s grid feedback).1 ∧
      b ∈ DownlinkTrigger.data policy s grid feedback := by
  cases entries_of_step h b.rnti with
  | downlink hgrid =>
    refine ⟨_, _, rfl, hgrid, rfl, ?_⟩
    simpa [DownlinkTrigger.decide_eq, Indication.blocks] using hb
  | kept _ hsaid => simp [hsaid] at hb
  | added | removed | asked | uplink => cases hb

end SchedulerState

end LteMac
