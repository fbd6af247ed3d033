import LteMac.Proofs.Scheduler.Throughput

/-!
# The bearers of a UE

The bearers of a UE follow from the requests alone: a channel has the bearer that was configured on
it last, unless the channel was released since, or the UE was (`bearerOf`). The record that a policy
keeps of a UE is made afresh with it, takes in the subframes, and is told the bearers whenever they
may have changed (`SchedulerState.Recording`).

These are two views of one UE, one for its bearers and one for its record, and each request is
looked at once for both. The point of `Recording` is its third case: whenever the bearers of a UE
may differ from what they were, the record has been told the bearers as they are now. So a property
which relates a record to the bearers, such as that its target is the sum of the guaranteed rates,
holds over a run if it holds of a fresh record, if being told the bearers restores it, and if taking
in a subframe does not disturb it.

* `SchedulerState.recording_of_step`: what an accepted request makes of the record of a UE;
* `Run.bearers_ascending`, `Run.mem_bearers`: in a run, the bearers of a UE are those that the
  requests left, ascending.
-/

namespace LteMac

variable {Record : Type} {policy : Policy Record} {config : SchedulerConfig}
  {s s' : SchedulerState Record} {q : Request} {said : List Indication}
  {es : List (Event Record)} {r : Rnti} {lcid : Lcid}

/-! ## What is left of the bearers -/

/-- What an accepted request makes of the bearer that a UE has on a channel. Of the bearers that a
request has for one channel the last counts, and the common channel never has one. -/
def Request.noteBearer (q : Request) (r : Rnti) (lcid : Lcid) (bearer : Option Bearer) :
    Option Bearer :=
  match q with
  | .configureUe r' _ | .releaseUe r' => if r = r' then none else bearer
  | .configureBearers r' bearers =>
    if r = r' ∧ lcid ≠ 0 then (bearers.filter (·.lcid = lcid)).getLast?.or bearer else bearer
  | .releaseBearers r' lcids => if r = r' ∧ lcid ∈ lcids then none else bearer
  | _ => bearer

/-- The bearer that a history leaves a UE on a channel. -/
def bearerOf (es : List (Event Record)) (r : Rnti) (lcid : Lcid) : Option Bearer :=
  es.foldl (fun bearer e => e.request.noteBearer r lcid bearer) none

/-- A history leaves what its last request makes of what the rest left. -/
theorem bearerOf_concat (es : List (Event Record)) (e : Event Record) (r : Rnti) (lcid : Lcid) :
    bearerOf (es ++ [e]) r lcid = e.request.noteBearer r lcid (bearerOf es r lcid) := by
  rw [bearerOf, List.foldl_append]
  rfl

/-- After a request a channel has the bearer that it had, or one that names the channel. -/
theorem Request.of_noteBearer_eq_some {old : Option Bearer} {bearer : Bearer}
    (h : q.noteBearer r lcid old = some bearer) : old = some bearer ∨ bearer.lcid = lcid := by
  cases q with
  | configureUe | releaseUe | releaseBearers =>
    rw [noteBearer, Option.ite_none_left_eq_some] at h
    exact .inl h.2
  | configureBearers r' bearers =>
    rw [noteBearer] at h
    split at h
    · obtain hlast | ⟨-, hold⟩ := Option.or_eq_some_iff.1 h
      · exact .inr (of_decide_eq_true (List.mem_filter.1 (List.mem_of_getLast? hlast)).2)
      · exact .inl hold
    · exact .inl h
  | _ => exact .inl h

/-- A bearer is on the channel that it names. -/
theorem lcid_of_bearerOf {bearer : Bearer} (h : bearerOf es r lcid = some bearer) :
    bearer.lcid = lcid := by
  induction es using List.reverseRecOn with
  | nil => cases h
  | append_singleton es e ih =>
    rw [bearerOf_concat] at h
    exact (Request.of_noteBearer_eq_some h).elim ih id

/-! ## Tables of bearers -/

/-- Of several bearers for one channel the last one is entered. -/
theorem getElem?_foldl_insert_bearer (bearers : List Bearer) (t : Table Lcid Bearer) :
    (bearers.foldl (fun t b => t.insert b.lcid b) t)[lcid]? =
      (bearers.filter (·.lcid = lcid)).getLast?.or t[lcid]? := by
  induction bearers using List.reverseRecOn with
  | nil => rfl
  | append_singleton bearers b ih =>
    rw [List.foldl_append, List.foldl_cons, List.foldl_nil, Table.getElem?_insert, ih,
      List.filter_append]
    by_cases hb : b.lcid = lcid
    · rw [if_pos hb.symm, List.filter_singleton, hb]
      simp
    · rw [if_neg (Ne.symm hb), List.filter_singleton]
      simp [hb]

/-- Of what a request has for a channel all is set up, unless it is the common channel. -/
theorem filter_dedicated (bearers : List Bearer) (lcid : Lcid) :
    (SchedulerState.dedicated bearers).filter (·.lcid = lcid) =
      if lcid = 0 then [] else bearers.filter (·.lcid = lcid) := by
  rw [SchedulerState.dedicated, List.filter_filter]
  split
  next hlcid => exact List.filter_eq_nil_iff.2 fun b _ => by simp [hlcid]
  next hlcid =>
    refine List.filter_congr fun b _ => ?_
    by_cases hb : b.lcid = lcid <;> simp [hb, hlcid]

/-- Channels that are released are without an entry, and the others as before. -/
theorem getElem?_foldl_erase {α : Type} (lcids : List Lcid) (t : Table Lcid α) :
    (lcids.foldl (·.erase ·) t)[lcid]? = if lcid ∈ lcids then none else t[lcid]? := by
  induction lcids generalizing t with
  | nil => rfl
  | cons l ls ih =>
    rw [List.foldl_cons, ih, Table.getElem?_erase]
    by_cases hl : lcid = l <;> simp [hl]

namespace SchedulerState

/-! ## One request -/

/-- The bearers of a configured UE, by channel. -/
def channels (s : SchedulerState Record) (r : Rnti) : Option (Table Lcid Bearer) :=
  s.ues[r]?.map (·.bearers)

/-- The bearer that a UE has on a channel. -/
def bearer? (s : SchedulerState Record) (r : Rnti) (lcid : Lcid) : Option Bearer :=
  (s.channels r).bind (·[lcid]?)

/-- The bearers that a policy is told are those in the table of the UE. -/
theorem bearers_eq (s : SchedulerState Record) (r : Rnti) :
    s.bearers r = (s.channels r).elim [] (·.values) := by
  rw [bearers, channels]
  cases s.ues[r]? <;> rfl

/-- They follow from that table alone. -/
theorem bearers_congr (h : s'.channels r = s.channels r) : s'.bearers r = s.bearers r := by
  rw [bearers_eq, bearers_eq, h]

/-- The bearer on a channel follows from the table of the UE. -/
theorem bearer?_congr (h : s'.channels r = s.channels r) (lcid : Lcid) :
    s'.bearer? r lcid = s.bearer? r lcid := by
  rw [bearer?, bearer?, h]

/-- A change of one UE changes the bearers of that UE only. -/
theorem channels_modify {f : Ue → Ue} {g : Table Lcid Bearer → Table Lcid Bearer} {r' : Rnti}
    (hues : s'.ues = s.ues.modify r' f) (hf : ∀ u, (f u).bearers = g u.bearers) :
    s'.channels r = if r = r' then (s.channels r).map g else s.channels r := by
  rw [channels, channels, hues, Table.getElem?_modify]
  split
  next hr => simp [hr, Function.comp_def, hf]
  next => rfl

/-- To change a mode is to keep the bearers. -/
theorem channels_setMode (s : SchedulerState Record) (r' : Rnti) (mode : TransmissionMode) :
    (s.setMode r' mode).channels r = s.channels r := by
  rw [channels_modify (s := s) (f := fun u => { u with mode }) (g := id) rfl fun _ => rfl,
    Option.map_id_fun, id, ite_self]

/-- Reports change modes, but no bearers. -/
theorem channels_learned (s : SchedulerState Record) (reports : List CqiReport) :
    (s.learned reports).1.channels r = s.channels r := by
  have hadapt : ∀ out : Outcome Record, ∀ report,
      (adaptMode out report).1.channels r = out.1.channels r := by
    rintro ⟨s, said⟩ report
    simp only [adaptMode]
    split
    · rfl
    · split
      · rfl
      · exact channels_setMode ..
  simp only [learned]
  split
  · exact List.foldlRecOn (motive := fun (out : Outcome Record) =>
      out.1.channels r = s.channels r) reports _ rfl
        fun out hout report _ => (hadapt out report).trans hout
  · rfl

/-- New bearers are entered one after the other. -/
theorem channels_addBearers (s : SchedulerState Record) (r r' : Rnti) (bearers : List Bearer) :
    (s.addBearers r' bearers).channels r =
      if r = r' then
        (s.channels r).map fun t => bearers.foldl (fun t b => t.insert b.lcid b) t
      else s.channels r :=
  channels_modify rfl fun _ => rfl

/-- Released channels are erased one after the other. -/
theorem channels_dropBearers (s : SchedulerState Record) (r r' : Rnti) (lcids : List Lcid) :
    (s.dropBearers r' lcids).channels r =
      if r = r' then (s.channels r).map fun t => lcids.foldl (·.erase ·) t else s.channels r :=
  channels_modify rfl fun _ => rfl

/-- A change of a downlink entry that leaves the record in it alone. -/
theorem record_modify (t : Table Rnti (DownlinkUe Record)) (r' : Rnti)
    {f : DownlinkUe Record → DownlinkUe Record} (hf : ∀ u, (f u).record = u.record) :
    (t.modify r' f)[r]?.map (·.record) = t[r]?.map (·.record) := by
  rw [Table.getElem?_modify]
  split
  next hr => simp [hr, Function.comp_def, hf]
  next => rfl

/-- What a request makes of the record of UE `r`, and of the bearers if the record is not told. In
the case in which it is told nothing need be said about how the bearers changed. -/
inductive Recording (policy : Policy Record) (s : SchedulerState Record) (r : Rnti)
    (s' : SchedulerState Record) : Prop
  /-- The UE is new: it has no bearers, and its record is fresh. -/
  | added (hchannels : s'.channels r = some ∅)
      (hrecord : s'.downlink.ues[r]?.map (·.record) = some (policy.fresh s.downlink.tti))
  /-- The UE is gone. -/
  | removed (hchannels : s'.channels r = none) (hrecord : s'.downlink.ues[r]? = none)
  /-- The policy is told the bearers that the UE has now. -/
  | told (hrecord : s'.downlink.ues[r]?.map (·.record) =
      s.downlink.ues[r]?.map fun u => policy.setBearers (s'.bearers r) u.record)
  /-- A subframe is recorded, and the bearers stay. -/
  | recorded (bytes : Nat) (hchannels : s'.channels r = s.channels r)
      (hrecord : s'.downlink.ues[r]?.map (·.record) =
        s.downlink.ues[r]?.map fun u => policy.record bytes s.config.timeWindow u.record)
  /-- Neither the record nor the bearers change. -/
  | kept (hchannels : s'.channels r = s.channels r)
      (hrecord : s'.downlink.ues[r]?.map (·.record) = s.downlink.ues[r]?.map (·.record))

/-- The policy is told the bearers of one UE. -/
theorem Recording.refresh {t : SchedulerState Record} {r' : Rnti}
    (hchannels : r ≠ r' → t.channels r = s.channels r)
    (hrecord : t.downlink.ues[r]?.map (·.record) = s.downlink.ues[r]?.map (·.record)) :
    Recording policy s r (refreshBearers policy t r') := by
  have htold : (refreshBearers policy t r').downlink.ues[r]?.map (·.record) =
      if r = r' then t.downlink.ues[r]?.map fun u => policy.setBearers (t.bearers r) u.record
      else t.downlink.ues[r]?.map (·.record) := by
    simp only [refreshBearers, Table.getElem?_modify]
    split
    next hr => rw [hr, Option.map_map]; rfl
    next => rfl
  by_cases hr : r = r'
  · refine .told ?_
    have hset := congrArg (Option.map (policy.setBearers (t.bearers r))) hrecord
    rw [Option.map_map, Option.map_map] at hset
    rw [htold, if_pos hr]
    exact hset
  · exact .kept (hchannels hr) (by rw [htold, if_neg hr, hrecord])

/-- What an accepted request makes of the record of a UE. -/
theorem recording_of_step (h : s.step policy q = .ok (s', said)) (r : Rnti) :
    Recording policy s r s' := by
  -- Only the requests about bearers have the policy look at them; a trigger rewrites the records as
  -- the policy has them.
  cases accepted_of_step h with
  | connected | installed | cell | paged | heard | noise | sinrIgnored | sounded | unattributed
  | credited => exact .kept rfl rfl
  | @added r' mode =>
    by_cases hr : r = r'
    · subst hr
      refine .added ?_ ?_
      · simp only [channels, addUe, Table.getElem?_insert, if_pos, Option.map_some]
      · simp only [addUe, Table.getElem?_insert, if_pos, Option.map_some, DownlinkUe.idle]
    · refine .kept ?_ ?_ <;> simp only [channels, addUe, Table.getElem?_insert, if_neg hr]
  | @removed r' =>
    by_cases hr : r = r'
    · subst hr
      refine .removed ?_ ?_
      · simp only [channels, removeUe, Table.getElem?_erase, if_pos, Option.map_none]
      · simp only [removeUe, Table.getElem?_erase, if_pos]
    · refine .kept ?_ ?_ <;> simp only [channels, removeUe, Table.getElem?_erase, if_neg hr]
  | reconfigured => exact .kept (channels_setMode ..) rfl
  | @bearersAdded r' bearers =>
    exact .refresh (fun hr => (channels_addBearers ..).trans (if_neg hr)) rfl
  | @bearersDropped r' lcids =>
    exact .refresh (fun hr => (channels_dropBearers ..).trans (if_neg hr))
      (record_modify _ _ fun _ => rfl)
  | queued | elementsAdded => exact .kept rfl (record_modify _ _ fun _ => rfl)
  | qualityTaken => exact .kept (channels_learned ..) (by rw [downlink_learned])
  | downlink => exact .recorded _ rfl (DownlinkTrigger.record_decide ..)
  | uplink => exact .kept rfl rfl
  | @requested rntis =>
    obtain ⟨ues, hues⟩ := exists_foldl_request rntis s
    exact .kept (by rw [hues]; rfl) (by rw [hues])
  | @controlsTaken controls =>
    obtain ⟨ues, hues⟩ := exists_foldl_takeControl controls s
    exact .kept (by rw [hues]; rfl) (by rw [hues])

/-- Bearers are added as noted. The UE is configured, or the request would not have been accepted.
-/
theorem bearer?_addBearers {r' : Rnti} (hue : r' ∈ s.ues) (bearers : List Bearer) (lcid : Lcid) :
    (s.addBearers r' (dedicated bearers)).bearer? r lcid =
      (Request.configureBearers r' bearers).noteBearer r lcid (s.bearer? r lcid) := by
  rw [bearer?, channels_addBearers, Request.noteBearer]
  by_cases hr : r = r'
  · subst hr
    obtain ⟨u, hu⟩ := Table.exists_of_mem hue
    have hchannels : s.channels r = some u.bearers := by rw [channels, hu, Option.map_some]
    rw [if_pos rfl, bearer?, hchannels, Option.map_some, Option.bind_some, Option.bind_some,
      getElem?_foldl_insert_bearer, filter_dedicated]
    by_cases hlcid : lcid = 0 <;> simp [hlcid]
  · rw [if_neg hr, if_neg (not_and_of_not_left _ hr)]
    rfl

/-- Bearers are released as noted. -/
theorem bearer?_dropBearers (s : SchedulerState Record) (r r' : Rnti) (lcids : List Lcid)
    (lcid : Lcid) :
    (s.dropBearers r' lcids).bearer? r lcid =
      (Request.releaseBearers r' lcids).noteBearer r lcid (s.bearer? r lcid) := by
  rw [bearer?, channels_dropBearers, Request.noteBearer, bearer?]
  by_cases hr : r = r'
  · rw [if_pos hr]
    cases s.channels r with
    | none => simp
    | some t => simpa [hr] using getElem?_foldl_erase lcids t
  · rw [if_neg hr, if_neg (not_and_of_not_left _ hr)]

/-- An accepted request makes of the bearers what it is noted to. -/
theorem bearer?_of_step (h : s.step policy q = .ok (s', said)) (r : Rnti) (lcid : Lcid) :
    s'.bearer? r lcid = q.noteBearer r lcid (s.bearer? r lcid) := by
  cases accepted_of_step h with
  -- A UE begins with no bearers, and loses all with its release.
  | @added r' mode =>
    simp only [bearer?, channels, addUe, Table.getElem?_insert, Request.noteBearer]
    split <;> rfl
  | @removed r' =>
    simp only [bearer?, channels, removeUe, Table.getElem?_erase, Request.noteBearer]
    split <;> rfl
  -- A change of mode or a report leaves the bearers alone.
  | reconfigured => exact bearer?_congr (channels_setMode ..) lcid
  | bearersAdded hue => exact bearer?_addBearers hue ..
  | bearersDropped => exact bearer?_dropBearers ..
  | qualityTaken => exact bearer?_congr (channels_learned ..) lcid
  | @requested rntis =>
    obtain ⟨ues, hues⟩ := exists_foldl_request rntis s
    rw [hues]
    rfl
  | @controlsTaken controls =>
    obtain ⟨ues, hues⟩ := exists_foldl_takeControl controls s
    rw [hues]
    rfl
  | _ => rfl

end SchedulerState

/-! ## Runs -/

/-- In a run, every channel has the bearer that the requests left it. -/
theorem Run.bearer?_eq (h : Run policy config es s) (r : Rnti) (lcid : Lcid) :
    s.bearer? r lcid = bearerOf es r lcid := by
  refine h.invariant (P := fun es s => s.bearer? r lcid = bearerOf es r lcid) rfl
    fun _ ih hstep => ?_
  rw [bearerOf_concat, ← ih, SchedulerState.bearer?_of_step hstep]

/-- The bearers in the table of a UE are on the channels that they name. -/
theorem Run.lcid_of_channels (h : Run policy config es s) {t : Table Lcid Bearer}
    (ht : s.channels r = some t) (lcid : Lcid) (bearer : Bearer) (hlcid : t[lcid]? = some bearer) :
    bearerOf es r lcid = some bearer ∧ bearer.lcid = lcid := by
  have hbearer : bearerOf es r lcid = some bearer := by
    rw [← h.bearer?_eq, SchedulerState.bearer?, ht, Option.bind_some, hlcid]
  exact ⟨hbearer, lcid_of_bearerOf hbearer⟩

/-- In a run, a UE has the bearers that the requests left it. -/
theorem Run.mem_bearers (h : Run policy config es s) {bearer : Bearer} :
    bearer ∈ s.bearers r ↔ bearerOf es r bearer.lcid = some bearer := by
  rw [SchedulerState.bearers_eq]
  cases ht : s.channels r with
  | none => simp [← h.bearer?_eq, SchedulerState.bearer?, ht]
  | some t =>
    rw [Option.elim_some, Table.mem_values]
    constructor
    · rintro ⟨lcid, hlcid⟩
      obtain ⟨hbearer, rfl⟩ := h.lcid_of_channels ht lcid bearer hlcid
      exact hbearer
    · intro hbearer
      rw [← h.bearer?_eq, SchedulerState.bearer?, ht, Option.bind_some] at hbearer
      exact ⟨bearer.lcid, hbearer⟩

/-- The bearers of a UE come in the order of their channels, each channel once. -/
theorem Run.bearers_ascending (h : Run policy config es s) (r : Rnti) :
    (s.bearers r).Pairwise (·.lcid < ·.lcid) := by
  rw [SchedulerState.bearers_eq]
  cases ht : s.channels r with
  | none => exact .nil
  | some t =>
    have hkeys : t.values.map (·.lcid) = t.keys :=
      Table.map_values fun lcid bearer hlcid => (h.lcid_of_channels ht lcid bearer hlcid).2
    have hascending := Table.pairwise_keys t
    rwa [← hkeys, List.pairwise_map] at hascending

end LteMac
