import LteMac.Proofs.Downlink.Tables
import LteMac.Proofs.Scheduler.Invariant
import LteMac.Proofs.Uplink.Tables

/-!
# Consistent tables

A scheduler keeps what it knows of its UEs in many tables, and every request writes to some of them.
In every reachable state they agree with each other (`SchedulerState.Consistent`): each direction
has a record of exactly the configured UEs, what else is kept is about configured UEs and their
bearers, and the block maps have the size of the band.

Each direction has its own part of the invariant, with the lemmas about the passes of its trigger
(`DownlinkState.Fits`, `UplinkState.Fits`). Here they are put together, and followed through the
requests that write to several tables at once: a UE that is added gets its records in both
directions, one that is released loses them, and a bearer that goes takes its queue along. Since the
records are keyed by exactly the configured UEs, a write to a record that is there can never make an
entry for a UE that is not.

Two more clauses are needed to carry the invariant through the configuration of the cell: before it
there are neither UEs nor decided subframes, so that changing the size of the maps does no harm.

* `SchedulerState.Consistent.of_step`: an accepted request keeps the tables consistent;
* `Reachable.consistent`: they are consistent in every reachable state.
-/

namespace LteMac

variable {Record : Type} {policy : Policy Record} {config : SchedulerConfig}
  {s s' : SchedulerState Record} {ues : Table Rnti Ue} {r : Rnti} {lcid : Lcid}

/-! ## Bearers

The tables of UEs and of their bearers, which queues and guaranteed rates refer to.
-/

namespace UeTable

/-- No bearer is on the common channel, which is there for every UE. -/
def Dedicated (ues : Table Rnti Ue) : Prop :=
  ∀ (r : Rnti) (u : Ue), ues[r]? = some u → 0 ∉ u.bearers

/-- Changing a UE without giving it a bearer on the common channel. -/
theorem Dedicated.modify {f : Ue → Ue} (h : Dedicated ues)
    (hf : ∀ u, 0 ∉ u.bearers → 0 ∉ (f u).bearers) : Dedicated (ues.modify r f) := by
  intro r' u' hu'
  rw [Table.getElem?_modify] at hu'
  split at hu'
  · obtain ⟨u, hu, rfl⟩ := Option.map_eq_some_iff.1 hu'
    exact hf u (h r u hu)
  · exact h r' u' hu'

/-- A new UE has no bearer. -/
theorem Dedicated.insert (h : Dedicated ues) (r : Rnti) (mode : TransmissionMode) :
    Dedicated (ues.insert r ⟨mode, ∅⟩) := by
  intro r' u hu
  rw [Table.getElem?_insert] at hu
  split at hu
  · obtain rfl := Option.some.inj hu
    exact Std.ExtTreeMap.not_mem_empty
  · exact h r' u hu

/-- Fewer UEs have fewer bearers. -/
theorem Dedicated.erase (h : Dedicated ues) (r : Rnti) : Dedicated (ues.erase r) := by
  intro r' u hu
  rw [Table.getElem?_erase] at hu
  split at hu
  · cases hu
  · exact h r' u hu

/-- A change of a UE that takes no bearer away takes no channel away. -/
theorem Carries.modify {f : Ue → Ue} {r' : Rnti} (h : Carries ues r' lcid)
    (hf : ∀ u, lcid ∈ u.bearers → lcid ∈ (f u).bearers) :
    Carries (ues.modify r f) r' lcid := by
  rcases h with rfl | ⟨u, hu, hlcid⟩
  · exact .inl rfl
  · by_cases heq : r' = r
    · subst heq
      refine .inr ⟨f u, ?_, hf u hlcid⟩
      rw [Table.getElem?_modify, if_pos rfl, hu, Option.map_some]
    · refine .inr ⟨u, ?_, hlcid⟩
      rwa [Table.getElem?_modify, if_neg heq]

/-- The channels of a UE do not depend on the other UEs. -/
theorem Carries.congr {ues' : Table Rnti Ue} (h : Carries ues r lcid) (heq : ues'[r]? = ues[r]?) :
    Carries ues' r lcid :=
  h.imp_right fun ⟨u, hu, hlcid⟩ => ⟨u, heq.trans hu, hlcid⟩

end UeTable

/-- A channel has a bearer after some were added if it had one or is that of one of them. -/
theorem mem_foldl_insert (bearers : List Bearer) (t : Table Lcid Bearer) :
    lcid ∈ bearers.foldl (fun t b => t.insert b.lcid b) t ↔
      lcid ∈ t ∨ ∃ b ∈ bearers, b.lcid = lcid := by
  induction bearers generalizing t with
  | nil => simp
  | cons b bs ih =>
    rw [List.foldl_cons, ih, Table.mem_insert, List.exists_mem_cons_iff, @eq_comm _ lcid]
    tauto

/-- A channel is in a table after some were erased if it was there and is none of them. -/
theorem mem_foldl_erase {α : Type} (lcids : List Lcid) (t : Table Lcid α) :
    lcid ∈ lcids.foldl (·.erase ·) t ↔ lcid ∉ lcids ∧ lcid ∈ t := by
  induction lcids generalizing t with
  | nil => simp
  | cons l ls ih =>
    rw [List.foldl_cons, ih, Table.mem_erase, List.mem_cons]
    tauto

namespace DownlinkTable.Fits

variable {t : Table Rnti (DownlinkUe Record)}

/-- Taking channels away from a UE takes their queues away as well. -/
theorem drop (h : Fits ues t) (lcids : List Lcid) :
    Fits (ues.modify r fun u => { u with bearers := lcids.foldl (·.erase ·) u.bearers })
      (t.modify r fun u => { u with queues := lcids.foldl (·.erase ·) u.queues }) where
  keys r' := by rw [Std.ExtTreeMap.mem_modify, Std.ExtTreeMap.mem_modify, h.keys r']
  queues r' v' hv' lcid hlcid := by
    rw [Table.getElem?_modify] at hv'
    by_cases heq : r' = r
    · subst heq
      rw [if_pos rfl] at hv'
      obtain ⟨v, hv, rfl⟩ := Option.map_eq_some_iff.1 hv'
      obtain ⟨hkept, hlcid⟩ := (mem_foldl_erase lcids v.queues).1 hlcid
      -- A queue that is still there is not on one of the channels.
      refine (h.queues r' v hv lcid hlcid).modify fun u hmem => ?_
      exact (mem_foldl_erase ..).2 ⟨hkept, hmem⟩
    · rw [if_neg heq] at hv'
      refine (h.queues r' v' hv' lcid hlcid).congr ?_
      rw [Table.getElem?_modify, if_neg heq]

/-- A new UE has no queue. -/
theorem add (h : Fits ues t) (u : Ue) (record : Record) :
    Fits (ues.insert r u) (t.insert r (.idle record)) where
  keys r' := by rw [Table.mem_insert, Table.mem_insert, h.keys r']
  queues r' v hv lcid hlcid := by
    rw [Table.getElem?_insert] at hv
    split at hv
    · obtain rfl := Option.some.inj hv
      exact absurd hlcid Std.ExtTreeMap.not_mem_empty
    next hne =>
      refine (h.queues r' v hv lcid hlcid).congr ?_
      rw [Table.getElem?_insert, if_neg hne]

/-- A UE that goes takes its record along. -/
theorem erase (h : Fits ues t) (r : Rnti) : Fits (ues.erase r) (t.erase r) where
  keys r' := by rw [Table.mem_erase, Table.mem_erase, h.keys r']
  queues r' v hv lcid hlcid := by
    rw [Table.getElem?_erase] at hv
    split at hv
    · cases hv
    next hne =>
      refine (h.queues r' v hv lcid hlcid).congr ?_
      rw [Table.getElem?_erase, if_neg hne]

end DownlinkTable.Fits

namespace SchedulerState

/-- Uplink blocks of the cell, which has none before it is configured. -/
def blocks (s : SchedulerState Record) : Nat := s.grid.elim 0 (·.uplink)

/-- The tables of a scheduler agree with each other. -/
structure Consistent (s : SchedulerState Record) : Prop where
  /-- The downlink holds what belongs to the configured UEs. -/
  downlink : s.downlink.Fits s.ues
  /-- So does the uplink, and what it keeps by block is as long as the grid is wide. -/
  uplink : s.uplink.Fits s.ues s.blocks
  /-- No bearer is on the common channel. -/
  dedicated : UeTable.Dedicated s.ues
  /-- A UE can only have been configured in a configured cell. -/
  served : ∀ r ∈ s.ues, s.grid.isSome = true ∧ s.controlConnected = true
  /-- No subframe was decided before the cell was configured. -/
  unused : s.grid = none → s.uplink.history = []

namespace Consistent

/-- All tables are empty in the beginning. -/
theorem initial : Consistent (.initial config : SchedulerState Record) where
  downlink :=
    { records := ⟨fun r => by simp [SchedulerState.initial],
        fun r u hu => by simp [SchedulerState.initial] at hu⟩
      harq := fun r => by simp [SchedulerState.initial, DownlinkHarq.empty]
      quality := DownlinkQuality.knows_empty _
      feedback := by simp [SchedulerState.initial] }
  uplink :=
    { records := fun r => by simp [SchedulerState.initial]
      quality := UplinkQuality.covers_empty _
      bandwidth := rfl
      reserved := BlockMap.size_empty 0
      history := by simp [SchedulerState.initial]
      depth := Nat.zero_le _
      subframes := .nil }
  dedicated r u hu := by simp [SchedulerState.initial] at hu
  served r hr := by simp [SchedulerState.initial] at hr
  unused _ := rfl

/-- A change of the downlink record of a UE, with queues for channels it carries. -/
theorem modifyDownlinkUe (h : s.Consistent) {f : DownlinkUe Record → DownlinkUe Record}
    (hf : ∀ u, s.downlink.ues[r]? = some u → ∀ lcid ∈ (f u).queues,
      UeTable.Carries s.ues r lcid) : (s.modifyDownlinkUe r f).Consistent :=
  { h with downlink := { h.downlink with records := h.downlink.records.modify hf } }

/-- A change of an uplink record, of whatever kind. -/
theorem modifyUplinkUe (h : s.Consistent) (r : Rnti) (f : UplinkUe → UplinkUe) :
    (s.modifyUplinkUe r f).Consistent :=
  { h with
    uplink := { h.uplink with
      records := fun r' => Std.ExtTreeMap.mem_modify.trans (h.uplink.records r') } }

/-- A control element of the uplink changes one record. -/
theorem takeControl (h : s.Consistent) (control : Rnti × UplinkControl) :
    (s.takeControl control).Consistent := by
  unfold SchedulerState.takeControl
  split
  · exact h.modifyUplinkUe _ _
  · exact h
  · exact h

/-- A change of a configured UE that takes no bearer away, and adds none on the common channel. -/
theorem modifyUe (h : s.Consistent) {f : Ue → Ue}
    (hf : ∀ u, (∀ lcid ∈ u.bearers, lcid ∈ (f u).bearers) ∧ (0 ∉ u.bearers → 0 ∉ (f u).bearers)) :
    ({ s with ues := s.ues.modify r f } : SchedulerState Record).Consistent := by
  -- Who is configured does not change, and a queue whose channel had a bearer still has it.
  have hkeys : ∀ r' : Rnti, r' ∈ s.ues.modify r f ↔ r' ∈ s.ues :=
    fun _ => Std.ExtTreeMap.mem_modify
  have hcarries : ∀ r' lcid, UeTable.Carries s.ues r' lcid →
      UeTable.Carries (s.ues.modify r f) r' lcid :=
    fun r' lcid hlcid => hlcid.modify fun u => (hf u).1 lcid
  exact
    { downlink :=
        { records := h.downlink.records.congr hkeys hcarries
          harq := fun r' => (h.downlink.harq r').trans (hkeys r').symm
          quality := h.downlink.quality.imp fun r' => (hkeys r').2
          feedback := fun f hf => (hkeys _).2 (h.downlink.feedback f hf) }
      uplink := { h.uplink with
        records := fun r' => (h.uplink.records r').trans (hkeys r').symm
        quality := h.uplink.quality.imp fun r' => (hkeys r').2 }
      dedicated := h.dedicated.modify fun u => (hf u).2
      served := fun r' hr' => h.served r' ((hkeys r').1 hr')
      unused := h.unused }

/-- Changing the mode of a UE changes no key of any table. -/
theorem setMode (h : s.Consistent) (r : Rnti) (mode : TransmissionMode) :
    (s.setMode r mode).Consistent :=
  h.modifyUe fun _ => ⟨fun _ => id, id⟩

/-- The record of a policy may change with the bearers, but not whom it is of. -/
theorem refreshBearers (h : s.Consistent) (policy : Policy Record) (r : Rnti) :
    (refreshBearers policy s r).Consistent :=
  h.modifyDownlinkUe fun u hu => h.downlink.records.queues r u hu

/-- New bearers come without queues, and never on the common channel. -/
theorem addBearers (h : s.Consistent) (r : Rnti) (bearers : List Bearer) :
    (s.addBearers r (SchedulerState.dedicated bearers)).Consistent := by
  refine h.modifyUe fun u => ⟨fun lcid hlcid => (mem_foldl_insert ..).2 (.inl hlcid), ?_⟩
  intro hu hmem
  rcases (mem_foldl_insert ..).1 hmem with hold | ⟨b, hb, hzero⟩
  · exact hu hold
  · exact absurd hzero (by simpa using (List.mem_filter.1 hb).2)

/-- Bearers that go take their queues along. -/
theorem dropBearers (h : s.Consistent) (r : Rnti) (lcids : List Lcid) :
    (s.dropBearers r lcids).Consistent := by
  have hkeys : ∀ r' : Rnti, r' ∈ (s.dropBearers r lcids).ues ↔ r' ∈ s.ues :=
    fun _ => Std.ExtTreeMap.mem_modify
  exact
    { downlink :=
        { records := h.downlink.records.drop lcids
          harq := fun r' => (h.downlink.harq r').trans (hkeys r').symm
          quality := h.downlink.quality.imp fun r' => (hkeys r').2
          feedback := fun f hf => (hkeys _).2 (h.downlink.feedback f hf) }
      uplink := { h.uplink with
        records := fun r' => (h.uplink.records r').trans (hkeys r').symm
        quality := h.uplink.quality.imp fun r' => (hkeys r').2 }
      dedicated := h.dedicated.modify fun u hu hmem => hu ((mem_foldl_erase ..).1 hmem).2
      served := fun r' hr' => h.served r' ((hkeys r').1 hr')
      unused := h.unused }

/-- Adding a UE adds it to the table of UEs and to both directions. -/
theorem addUe (h : s.Consistent) (policy : Policy Record) (mode : TransmissionMode)
    (hgrid : s.grid.isSome = true) (hcontrol : s.controlConnected = true) :
    (addUe policy s r mode).Consistent := by
  have hkeys : ∀ r' ∈ s.ues, r' ∈ s.ues.insert r ⟨mode, ∅⟩ :=
    fun r' hr' => Table.mem_insert.2 (.inr hr')
  exact
    { downlink :=
        { records := h.downlink.records.add _ _
          harq := fun r' => DownlinkHarq.mem_index_insert.trans
            ((or_congr_right (h.downlink.harq r')).trans Table.mem_insert.symm)
          quality := h.downlink.quality.imp hkeys
          feedback := fun f hf => hkeys _ (h.downlink.feedback f hf) }
      uplink := { h.uplink with
        records := fun r' => Table.mem_insert.trans
          ((or_congr_right (h.uplink.records r')).trans Table.mem_insert.symm)
        quality := h.uplink.quality.imp hkeys }
      dedicated := h.dedicated.insert r mode
      served := fun _ _ => ⟨hgrid, hcontrol⟩
      unused := h.unused }

/-- Removing a UE removes it from all tables. -/
theorem removeUe (h : s.Consistent) (r : Rnti) : (s.removeUe r).Consistent := by
  -- The UE is erased from every table, so what the tables owe each other is restricted to the
  -- others.
  have hkeys : ∀ r', r' ≠ r ∧ r' ∈ s.ues → r' ∈ s.ues.erase r := fun r' => Table.mem_erase.2
  exact
    { downlink :=
        { records := h.downlink.records.erase r
          harq := fun r' => DownlinkHarq.mem_index_erase.trans
            ((and_congr_right' (h.downlink.harq r')).trans Table.mem_erase.symm)
          quality := (h.downlink.quality.erase r).imp hkeys
          feedback := fun f hf => by
            obtain ⟨hf, hne⟩ := List.mem_filter.1 hf
            exact hkeys _ ⟨by simpa using hne, h.downlink.feedback f hf⟩ }
      uplink :=
        { records := fun r' => Table.mem_erase.trans
            ((and_congr_right' (h.uplink.records r')).trans Table.mem_erase.symm)
          quality := (h.uplink.quality.erase r).imp hkeys
          bandwidth := h.uplink.bandwidth
          reserved := (BlockMap.size_release ..).trans h.uplink.reserved
          history := List.forall_mem_map.2 fun past hpast =>
            (BlockMap.size_release ..).trans (h.uplink.history past hpast)
          depth := by simpa [SchedulerState.removeUe] using h.uplink.depth
          subframes := by
            simpa [SchedulerState.removeUe, Function.comp_def] using h.uplink.subframes }
      dedicated := h.dedicated.erase r
      served := fun r' hr' => h.served r' (Table.mem_erase.1 hr').2
      unused := fun hnone => by simp [SchedulerState.removeUe, h.unused hnone] }

/-- A mode that adapts is that of a configured UE. -/
theorem adaptMode {out : Outcome Record} (h : out.1.Consistent) (report : CqiReport) :
    (adaptMode out report).1.Consistent := by
  obtain ⟨s, said⟩ := out
  simp only [SchedulerState.adaptMode]
  split
  · exact h
  · split
    · exact h
    · exact setMode h ..

/-- Reports about configured UEs. -/
theorem learned (h : s.Consistent) {reports : List CqiReport}
    (hues : ∀ report ∈ reports, report.rnti ∈ s.ues) : (s.learned reports).1.Consistent := by
  -- The tables get entries of UEs that are configured, and then modes of these UEs may change.
  have hquality : (reports.foldl storeQuality s.downlink.quality).Knows (· ∈ s.ues) := by
    refine List.foldlRecOn _ _ h.downlink.quality fun q hq report hmem => ?_
    unfold storeQuality
    split
    · cases report.wideband.head? with
      | none => exact hq
      | some cqi => exact hq.reportWideband (hues report hmem) cqi
    · exact hq.reportSubband (hues report hmem) _
  have hstored : ({ s with
      downlink := { s.downlink with quality := reports.foldl storeQuality s.downlink.quality }
      reuse := s.reuse.learnAll reports } : SchedulerState Record).Consistent :=
    { h with downlink := { h.downlink with quality := hquality } }
  unfold SchedulerState.learned
  dsimp only
  split
  · exact List.foldlRecOn (motive := fun (out : Outcome Record) => out.1.Consistent) _ _ hstored
      fun out hout report _ => hout.adaptMode report
  · exact hstored

/-- Samples are attributed to configured UEs only. -/
theorem covers_creditSamples (h : s.Consistent) (map : BlockMap) (samples : List Float) :
    (s.creditSamples map samples).Covers (· ∈ s.ues) ∧
      (s.creditSamples map samples).bandwidth = s.blocks := by
  unfold creditSamples
  refine List.foldlRecOn
    (motive := fun (q : UplinkQuality) => q.Covers (· ∈ s.ues) ∧ q.bandwidth = s.blocks) _ _
    ⟨h.uplink.quality, h.uplink.bandwidth⟩ fun q hq sample _ => ?_
  split
  · exact hq
  next r _ =>
    split
    · exact hq
    next hknown =>
      have hknown : r ≠ 0 ∧ r ∈ s.ues := by simpa using hknown
      exact ⟨hq.1.setBlock hknown.2 _ _, hq.2⟩

/-- An accepted request keeps the tables consistent. The cases are those of `Accepted`; each of them
writes to the tables by the operations above. -/
theorem of_step (h : s.Consistent) {q : Request} {said : List Indication}
    (hstep : s.step policy q = .ok (s', said)) : s'.Consistent := by
  cases accepted_of_step hstep with
  | connected =>
    exact { h with served := fun r hr => ⟨(h.served r hr).1, by simp [(h.served r hr).2]⟩ }
  | installed | heard => exact { h with }
  | paged => exact { h with downlink := { h.downlink with } }
  | noise | sinrIgnored | unattributed => exact h
  | cell hgrid =>
    -- Nobody was served before, so there is nothing of the wrong size.
    have hnobody : ∀ r, r ∉ s.ues := fun r hr => by simpa [hgrid] using (h.served r hr).1
    exact { h with
      uplink := { h.uplink with
        quality := (h.uplink.quality.imp hnobody).setBandwidth _
        bandwidth := rfl
        reserved := BlockMap.size_empty _
        history := by simp [h.unused hgrid] }
      served := fun r hr => absurd hr (hnobody r)
      unused := nofun }
  | added hgrid hcontrol => exact h.addUe policy _ hgrid hcontrol
  | reconfigured => exact h.setMode _ _
  | bearersAdded => exact (h.addBearers _ _).refreshBearers policy _
  | bearersDropped => exact (h.dropBearers _ _).refreshBearers policy _
  | removed => exact h.removeUe _
  | queued hue hlcid =>
    refine h.modifyDownlinkUe fun u hu lcid hmem => ?_
    rcases Table.mem_insert.1 hmem with rfl | hold
    · exact hlcid.imp_right fun hbearer => by simpa [hasBearer, Option.any_eq_true] using hbearer
    · exact h.downlink.records.queues _ u hu lcid hold
  | elementsAdded => exact h.modifyDownlinkUe fun u hu => h.downlink.records.queues _ u hu
  | qualityTaken _ hues => exact h.learned hues
  | downlink _ hgrid hfeedback =>
    exact { h with
      downlink := DownlinkTrigger.fits_decide h.downlink fun f hf => (hfeedback f hf).1
      uplink := Access.fits_answerAll h.uplink }
  | @uplink time outcomes grid _ hgrid =>
    have hblocks : s.blocks = grid.uplink := by simp [blocks, hgrid]
    exact { h with
      uplink := hblocks.symm ▸ UplinkTrigger.fits_decide time outcomes (hblocks ▸ h.uplink)
      unused := fun hnone => absurd (hgrid.symm.trans hnone) nofun }
  | requested => exact List.foldlRecOn _ _ h fun _ hs r _ => hs.modifyUplinkUe r _
  | controlsTaken => exact List.foldlRecOn _ _ h fun _ hs control _ => hs.takeControl control
  | sounded _ _ hue =>
    exact { h with uplink := { h.uplink with quality := h.uplink.quality.replace hue _ } }
  | @credited time codes _ past =>
    obtain ⟨hcovers, hband⟩ := h.covers_creditSamples past.2 (codes.map Sinr.decode)
    have hsub : (s.uplink.history.eraseP (·.1 = time)).Sublist s.uplink.history :=
      List.eraseP_sublist
    exact { h with
      uplink := { h.uplink with
        quality := hcovers
        bandwidth := hband
        history := fun past hpast => h.uplink.history past (hsub.subset hpast)
        depth := Nat.le_trans hsub.length_le h.uplink.depth
        subframes := h.uplink.subframes.sublist (hsub.map _) }
      unused := fun hnone => by simp [h.unused hnone] }

end Consistent

end SchedulerState

/-- The tables are consistent in every reachable state. -/
theorem Reachable.consistent (h : Reachable policy config s) : s.Consistent :=
  Run.reachable_invariant .initial (fun hs hq => hs.of_step hq) h

/-- What the tables of a scheduler owe each other, table by table. It follows from `Consistent`, and
says the same without reference to how the directions arrange their tables. -/
structure SchedulerState.TablesAgree (s : SchedulerState Record) : Prop where
  /-- Downlink entities; each UE has one in the arena. -/
  entities : ∀ r : Rnti, r ∈ s.downlink.harq.index ↔ r ∈ s.ues
  /-- So an entity is found for exactly the configured UEs. -/
  stored : ∀ r : Rnti, (s.downlink.harq.entity? r).isSome = true ↔ r ∈ s.ues
  /-- The records of the policy, and with them queues and waiting control elements. -/
  downlink : ∀ r : Rnti, r ∈ s.downlink.ues ↔ r ∈ s.ues
  /-- Uplink processes and averages, and with them buffer sizes and requests to send. -/
  uplink : ∀ r : Rnti, r ∈ s.uplink.ues ↔ r ∈ s.ues
  /-- Only configured UEs have bearers, and none on the common channel. -/
  bearers : ∀ (r : Rnti) (lcid : Lcid), s.hasBearer r lcid = true → r ∈ s.ues ∧ lcid ≠ 0
  /-- A queue has a bearer, or it is that of the common channel. -/
  queues : ∀ (r : Rnti) (u : DownlinkUe Record), s.downlink.ues[r]? = some u →
    ∀ lcid ∈ u.queues, lcid = 0 ∨ s.hasBearer r lcid = true
  /-- Wideband reports are about configured UEs. -/
  wideband : ∀ r ∈ s.downlink.quality.wideband.entries, r ∈ s.ues
  /-- So are subband reports. -/
  subband : ∀ r ∈ s.downlink.quality.subband.entries, r ∈ s.ues
  /-- So are uplink reports. -/
  sinr : ∀ r ∈ s.uplink.quality.sinr.entries, r ∈ s.ues
  /-- So is feedback that waits. -/
  feedback : ∀ f ∈ s.downlink.feedback, f.rnti ∈ s.ues
  /-- The map of reserved blocks is as long as the grid is wide. -/
  reserved : ∀ grid, s.grid = some grid → s.uplink.reserved.size = grid.uplink
  /-- So are the maps of past subframes. -/
  maps : ∀ grid, s.grid = some grid → ∀ past ∈ s.uplink.history, past.2.size = grid.uplink
  /-- A UE with an uplink report has a sample for every block. -/
  samples : ∀ grid, s.grid = some grid → ∀ (r : Rnti) (samples : List Float),
    s.uplink.quality.sinr.get? r = some samples → grid.uplink ≤ samples.length
  /-- At most sixteen maps are kept. -/
  depth : s.uplink.history.length ≤ 16
  /-- They are of different subframes. -/
  subframes : (s.uplink.history.map (·.1)).Nodup

/-- In every reachable state the tables agree: those that every UE has an entry in have the same
keys, the others have entries of configured UEs only, and what is kept by block is as long as the
grid is wide. This holds whatever the requests were, and between any two of them, those that were
refused included. -/
theorem Reachable.tables_agree (h : Reachable policy config s) : s.TablesAgree := by
  have hs := h.consistent
  have hblocks : ∀ grid, s.grid = some grid → s.blocks = grid.uplink :=
    fun grid hgrid => by simp [SchedulerState.blocks, hgrid]
  -- Tables with timers have entries of configured UEs only, as every value in them is about one.
  have hentry {α : Type} {t : AgingTable α} {P : Rnti → α → Prop} (ht : t.All P)
      (hP : ∀ r v, P r v → r ∈ s.ues) : ∀ r ∈ t.entries, r ∈ s.ues := fun r hr => by
    obtain ⟨a, ha⟩ := Table.exists_of_mem hr
    exact hP r _ (ht r a ha)
  exact
    { entities := hs.downlink.harq
      stored := fun r => h.invariant.sound.separate.mem_index.symm.trans (hs.downlink.harq r)
      downlink := hs.downlink.records.keys
      uplink := hs.uplink.records
      bearers := fun r lcid hlcid => by
        obtain ⟨u, hu, hmem⟩ := (Option.any_eq_true _ _).1 hlcid
        refine ⟨Table.mem_of_getElem? hu, fun hzero => hs.dedicated r u hu ?_⟩
        exact hzero ▸ hmem
      queues := fun r u hu lcid hlcid => by
        refine (hs.downlink.records.queues r u hu lcid hlcid).imp_right ?_
        rintro ⟨v, hv, hmem⟩
        exact (Option.any_eq_true _ _).2 ⟨v, hv, hmem⟩
      wideband := hentry hs.downlink.quality.wideband fun _ _ => id
      subband := hentry hs.downlink.quality.subband fun _ _ => id
      sinr := hentry hs.uplink.quality fun _ _ => And.left
      feedback := hs.downlink.feedback
      reserved := fun grid hgrid => hs.uplink.reserved.trans (hblocks grid hgrid)
      maps := fun grid hgrid past hpast =>
        (hs.uplink.history past hpast).trans (hblocks grid hgrid)
      samples := fun grid hgrid r samples hr => by
        rw [← hblocks grid hgrid, ← hs.uplink.bandwidth]
        exact (hs.uplink.quality.of_get? hr).2
      depth := hs.uplink.depth
      subframes := hs.uplink.subframes }

/-- A run with two UEs that have entries in many tables, and the state after one of them left. -/
theorem tables_agree_after_release :
    ∃ (es : List (Event Throughput)) (s : SchedulerState Throughput), Run .tdBet .default es s ∧
      s.grid = some ⟨15, 15⟩ ∧ s.ues.keys = [1] ∧ s.hasBearer 1 3 = true ∧
      s.uplink.quality.sinr.entries.keys = [1] ∧ s.uplink.history.map (·.1) = [⟨4⟩, ⟨5⟩] ∧
      s.TablesAgree := by
  obtain ⟨es, e, hrun, hstep, hcheck⟩ := Run.of_replay_step .tdBet .default
    [.connect true true, .configureCell 15 15, .configureUe 1 .singleAntenna,
      .configureUe 2 .singleAntenna, .configureBearers 1 [⟨0, none⟩, ⟨3, none⟩],
      .queue 1 3 ⟨100, 0, 0, 0, 0⟩, .quality [⟨2, 1, .wideband, [9], []⟩],
      .randomAccess [⟨1, 7, 100⟩], .downlinkTrigger [],
      .uplinkControls [(2, .bufferStatus [10, 0, 0, 0])], .uplinkTrigger ⟨4⟩ [],
      .uplinkTrigger ⟨5⟩ [], .sinr ⟨5⟩ .sounding [8, 16] (some 1),
      .sinr ⟨5⟩ .sounding [8, 16] (some 2)]
    (.releaseUe 2)
    (fun _ e => e.after.grid == some ⟨15, 15⟩ && e.after.ues.keys == [1] &&
      e.after.hasBearer 1 3 && e.after.uplink.quality.sinr.entries.keys == [1] &&
      e.after.uplink.history.map (·.1) == [⟨4⟩, ⟨5⟩]) (by decide +kernel)
  simp only [Bool.and_eq_true, beq_iff_eq] at hcheck
  obtain ⟨⟨⟨⟨hgrid, hues⟩, hbearer⟩, hsinr⟩, hhistory⟩ := hcheck
  have hrun' := hrun.step hstep
  exact ⟨_, e.after, hrun', hgrid, hues, hbearer, hsinr, hhistory, hrun'.reachable.tables_agree⟩

end LteMac
