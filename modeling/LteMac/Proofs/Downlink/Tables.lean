import LteMac.Proofs.Downlink.NewData
import LteMac.Proofs.Downlink.Trigger
import LteMac.Proofs.Quality.Reports

/-!
# The tables of the downlink

The downlink keeps a record and a HARQ entity for exactly the configured UEs, and queues, reports
and feedback for some of them (`DownlinkState.Fits`). Two kinds of change have to be followed.
Configuration and release act on all tables at once, and are looked at where the tables of the whole
scheduler are. The passes of a trigger write to entries that exist: they modify or overwrite, and
never insert under a new identity, so that they keep the keys of every table, whatever they write.

A queue belongs to a channel that its UE carries (`UeTable.Carries`): the common channel, which
every UE has, or that of a bearer.

* `DownlinkTable.Fits`: the records belong to the configured UEs, and the queues to their bearers;
* `DownlinkTrigger.fits_decide`: a trigger keeps the tables of the downlink.
-/

namespace LteMac

variable {Record : Type} {ues ues' : Table Rnti Ue} {r : Rnti} {lcid : Lcid}

/-- A channel that may have a queue: the common one, or that of a bearer. -/
def UeTable.Carries (ues : Table Rnti Ue) (r : Rnti) (lcid : Lcid) : Prop :=
  lcid = 0 ∨ ∃ u, ues[r]? = some u ∧ lcid ∈ u.bearers

/-! ## Records -/

/-- The UEs of a table are the configured ones, and have queues for channels they carry only. -/
structure DownlinkTable.Fits (ues : Table Rnti Ue) (t : Table Rnti (DownlinkUe Record)) :
    Prop where
  /-- The records are those of the configured UEs. -/
  keys : ∀ r : Rnti, r ∈ t ↔ r ∈ ues
  /-- A queue has a bearer, or it is that of the common channel. -/
  queues : ∀ (r : Rnti) (u : DownlinkUe Record), t[r]? = some u →
    ∀ lcid ∈ u.queues, UeTable.Carries ues r lcid

namespace DownlinkTable.Fits

variable {t : Table Rnti (DownlinkUe Record)} {u u' : DownlinkUe Record}
  {f : DownlinkUe Record → DownlinkUe Record}

/-- Only which UEs are configured, and what they carry, matters. -/
theorem congr (h : Fits ues t) (hkeys : ∀ r : Rnti, r ∈ ues' ↔ r ∈ ues)
    (hcarries : ∀ r lcid, UeTable.Carries ues r lcid → UeTable.Carries ues' r lcid) :
    Fits ues' t where
  keys r := (h.keys r).trans (hkeys r).symm
  queues r u hu lcid hlcid := hcarries r lcid (h.queues r u hu lcid hlcid)

/-- Changing the entry of a UE, with queues for channels it carries. -/
theorem modify (h : Fits ues t)
    (hf : ∀ u, t[r]? = some u → ∀ lcid ∈ (f u).queues, UeTable.Carries ues r lcid) :
    Fits ues (t.modify r f) where
  keys r' := Std.ExtTreeMap.mem_modify.trans (h.keys r')
  queues r' u' hu' := by
    rw [Table.getElem?_modify] at hu'
    split at hu'
    next heq =>
      obtain ⟨u, hu, rfl⟩ := Option.map_eq_some_iff.1 hu'
      exact heq ▸ hf u hu
    next => exact h.queues r' u' hu'

/-- Overwriting the entry of a UE, without a new queue. -/
theorem insert (h : Fits ues t) (hu : t[r]? = some u) (hq : ∀ lcid ∈ u'.queues, lcid ∈ u.queues) :
    Fits ues (t.insert r u') where
  keys r' := by
    rw [Table.mem_insert, ← h.keys r']
    exact or_iff_right_of_imp fun heq => heq ▸ Table.mem_of_getElem? hu
  queues r' v hv lcid hlcid := by
    rw [Table.getElem?_insert] at hv
    split at hv
    next heq =>
      obtain rfl := Option.some.inj hv
      exact heq ▸ h.queues r u hu lcid (hq lcid hlcid)
    next => exact h.queues r' v hv lcid hlcid

/-- Changing all entries, without a new queue. -/
theorem map {f : Rnti → DownlinkUe Record → DownlinkUe Record} (h : Fits ues t)
    (hf : ∀ r u, (f r u).queues = u.queues) : Fits ues (t.map f) where
  keys r := Std.ExtTreeMap.mem_map.trans (h.keys r)
  queues r u' hu' := by
    rw [Std.ExtTreeMap.getElem?_map, Option.map_eq_some_iff] at hu'
    obtain ⟨u, hu, rfl⟩ := hu'
    exact hf r u ▸ h.queues r u hu

end DownlinkTable.Fits

/-! ## The passes of a trigger -/

namespace Retransmission

variable {reuse : ReusePolicy} {round round' : Round} {f : HarqFeedback}

/-- Acting upon feedback keeps the entities, and lets no other feedback wait. -/
theorem Round.Handled.tables (hf : round.Handled reuse f round') :
    round'.harq.index = round.harq.index ∧ ∀ g ∈ round'.kept, g ∈ round.kept ∨ g = f := by
  cases hf with
  | dropped => exact ⟨rfl, fun _ => .inl⟩
  | freed | again => exact ⟨DownlinkHarq.index_set, fun _ => .inl⟩
  | kept => exact ⟨rfl, fun g hg => (List.mem_append.1 hg).imp_right List.mem_singleton.1⟩

/-- So does the whole pass: what waits after it waited before it. -/
theorem tables_handleAll (reuse : ReusePolicy) (harq : DownlinkHarq) (o : Occupancy)
    (pending : List HarqFeedback) :
    (handleAll reuse harq o pending).harq.index = harq.index ∧
      ∀ f ∈ (handleAll reuse harq o pending).kept, f ∈ pending := by
  induction pending using List.reverseRecOn with
  | nil => exact ⟨rfl, fun f hf => hf⟩
  | append_singleton pending f ih =>
    rw [handleAll_concat]
    obtain ⟨hindex, hkept⟩ := (Round.handled_handle reuse _ f).tables
    refine ⟨hindex.trans ih.1, fun g hg => List.mem_append.2 ?_⟩
    exact (hkept g hg).imp (ih.2 g) List.mem_singleton.2

end Retransmission

namespace NewData

/-- Draining queues removes none and adds none. -/
theorem mem_drainAll (queues : Table Lcid RlcQueue) (channels : List Lcid) (tbs : List Nat) :
    lcid ∈ drainAll queues channels tbs ↔ lcid ∈ queues := by
  unfold drainAll
  generalize channels.length = n
  induction channels generalizing queues with
  | nil => rfl
  | cons c cs ih => exact (ih _).trans Std.ExtTreeMap.mem_modify

/-- What a pass over the candidates keeps of the tables. -/
structure Round.Fits (ues : Table Rnti Ue) (index : Table Rnti Nat) (known : Rnti → Prop)
    (round : Round Record) : Prop where
  /-- The records fit. -/
  records : DownlinkTable.Fits ues round.ues
  /-- Nobody gets another slot, and nobody loses one. -/
  index : round.harq.index = index
  /-- Feedback is about known UEs. -/
  feedback : ∀ f ∈ round.feedback, known f.rnti

variable {setting : Setting} {index : Table Rnti Nat} {known : Rnti → Prop}
  {round : Round Record}

/-- Serving a candidate writes to its own record, and to a process of its own entity. -/
theorem Round.Fits.serve (h : round.Fits ues index known) (proposal : Allocation) (r : Rnti) :
    (setting.serve proposal round r).Fits ues index known := by
  obtain heq | ⟨u, process, harq, -, hu, hproc, heq⟩ :=
    setting.skips_or_carries proposal round r
  · rw [heq]
    exact h
  · rw [heq]
    -- A process of the arena changes, but not who has which slot.
    have hindex : harq.index = index := by
      obtain ⟨-, hadv⟩ | ⟨-, -, rfl⟩ := Setting.process?_eq_some hproc
      · exact (DownlinkHarq.index_of_advance? hadv).trans h.index
      · exact h.index
    refine ⟨h.records.insert hu fun lcid => (mem_drainAll ..).1, ?_, ?_⟩
    · rw [Setting.carry]
      dsimp only
      split
      · exact DownlinkHarq.index_set.trans hindex
      · exact hindex
    · rw [Setting.carry]
      dsimp only
      split
      · exact fun f hf => h.feedback f (List.mem_filter.1 hf).1
      · exact h.feedback

/-- Serving all of them keeps the tables. -/
theorem Round.Fits.foldl_serve (h : round.Fits ues index known) (proposal : Allocation)
    (cs : List Rnti) : (cs.foldl (setting.serve proposal) round).Fits ues index known := by
  induction cs generalizing round with
  | nil => exact h
  | cons c cs ih => exact ih (h.serve proposal c)

end NewData

/-! ## The whole downlink -/

/-- The tables of the downlink hold what belongs to the configured UEs, and nothing else. -/
structure DownlinkState.Fits (ues : Table Rnti Ue) (d : DownlinkState Record) : Prop where
  /-- The records fit. -/
  records : DownlinkTable.Fits ues d.ues
  /-- Every configured UE has a slot, and nobody else has. -/
  harq : ∀ r : Rnti, r ∈ d.harq.index ↔ r ∈ ues
  /-- Reports are about configured UEs. -/
  quality : d.quality.Knows (· ∈ ues)
  /-- So is feedback that waits. -/
  feedback : ∀ f ∈ d.feedback, f.rnti ∈ ues

/-- A trigger whose feedback is about configured UEs keeps the tables of the downlink. -/
theorem DownlinkTrigger.fits_decide {policy : Policy Record} {s : SchedulerState Record}
    {grid : Grid} {feedback : List HarqFeedback} (h : s.downlink.Fits s.ues)
    (hfeedback : ∀ f ∈ feedback, f.rnti ∈ s.ues) :
    (decide policy s grid feedback).1.downlink.Fits s.ues := by
  -- What is left of the feedback is a part of what waited and what came in.
  have hpending : ∀ f ∈ pending s grid feedback, f.rnti ∈ s.ues :=
    List.forall_mem_append.2 ⟨fun f hf => h.feedback f (List.mem_filter.1 hf).1, hfeedback⟩
  have hretries : (retries s grid feedback).harq.index = s.downlink.harq.index ∧
      ∀ f ∈ (retries s grid feedback).kept, f.rnti ∈ s.ues := by
    unfold retries retransmit
    dsimp only
    split
    · have hall := Retransmission.tables_handleAll s.reuse (opened s grid).downlink.harq
        (paged s grid).occupancy (pending s grid feedback)
      exact ⟨hall.1, fun f hf => hpending f (hall.2 f hf)⟩
    · exact ⟨rfl, fun f hf => hpending f (List.mem_append_left _ hf)⟩
  have hstart : (start s grid feedback).Fits s.ues s.downlink.harq.index (· ∈ s.ues) :=
    ⟨h.records, hretries.1, hretries.2⟩
  have hfresh : (fresh policy s grid feedback).Fits s.ues s.downlink.harq.index (· ∈ s.ues) := by
    unfold fresh sendNew
    split
    · exact hstart
    · exact hstart.foldl_serve _ _
  exact
    { records := hfresh.records.map fun _ _ => rfl
      harq := fun r => hfresh.index ▸ h.harq r
      quality := h.quality.refresh
      feedback := hfresh.feedback }

end LteMac
