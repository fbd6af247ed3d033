import LteMac.Proofs.Downlink.Resending
import LteMac.Proofs.Downlink.Spectrum
import LteMac.Proofs.Scheduler.Consistency
import LteMac.Proofs.Uplink.Timetable

/-!
# Who is named by a decision

The decisions of a cell speak of UEs it was told of: data blocks and uplink grants go to configured
UEs, each data block on a process that exists, and answers to random accesses go to those who sent a
preamble.

Whom a stage names can be read off what it goes through: outcomes and feedback concern configured
UEs, since the trigger was accepted, and candidates are taken from the table of UEs. That a process
exists has different reasons in the two passes of the downlink. A block that is sent again is on the
process of its feedback, and a new one on the process that its UE moved on to, which is found by
going around the entity.

* `DownlinkTrigger.names_decision`, `UplinkTrigger.names_decision`: whom a trigger names.
-/

namespace LteMac

variable {Record : Type} {r : Rnti} {id : Nat}

namespace DownlinkHarq

variable {h : DownlinkHarq} {p : DownlinkProcess}

/-- A process that is found is one of the eight. -/
theorem lt_of_process? (hp : h.process? r id = some p) : id < harqProcesses := by
  obtain ⟨e, -, hp⟩ := Option.bind_eq_some_iff.1 hp
  exact DownlinkEntity.lt_of_process? hp

/-- Processes belong to UEs that have an entity. -/
theorem mem_index_of_process? (hs : h.Separate) (hp : h.process? r id = some p) :
    r ∈ h.index := by
  obtain ⟨e, he, -⟩ := Option.bind_eq_some_iff.1 hp
  exact hs.mem_index.2 (Option.isSome_iff_exists.2 ⟨e, he⟩)

end DownlinkHarq

/-! ## The downlink

New data goes to UEs with a turn, which have records, and a block that is sent again to the UE of
its process.
-/

namespace Access

/-- Answers go to those who sent a preamble. -/
theorem Round.Answers.sender {round : Round} {reserved reserved' : BlockMap} {start : Nat}
    {ps : List Preamble} {answers : List AccessGrant}
    (h : round.Answers reserved start ps reserved' answers) :
    ∀ a ∈ answers, ∃ p ∈ ps, p.rnti = a.rnti := by
  have hlater : ∀ {p : Preamble} {rest : List Preamble} {a : AccessGrant},
      (∃ q ∈ rest, q.rnti = a.rnti) → ∃ q ∈ p :: rest, q.rnti = a.rnti :=
    fun ⟨q, hq, hname⟩ => ⟨q, List.mem_cons_of_mem _ hq, hname⟩
  induction h with
  | done | ended => simp
  | collided _ _ ih => exact fun a ha => hlater (ih a ha)
  | @granted _ _ _ _ p _ _ _ _ _ ih =>
    exact List.forall_mem_cons.2 ⟨⟨p, List.mem_cons_self, rfl⟩, fun a ha => hlater (ih a ha)⟩

end Access

namespace NewData

variable {setting : Setting} {round round' : Round Record}

/-- A new block is on a process that exists. -/
theorem Served.process_lt (hs : Served setting round r round') (hsep : round.harq.Separate)
    (h : ∀ b ∈ round.sent, b.grant.process < harqProcesses) :
    ∀ b ∈ round'.sent, b.grant.process < harqProcesses := by
  cases hs with
  | skipped => exact h
  | @sent _ harq b rbgs hrnti haddr hbitmap hsorted hne husable hfirst hproc =>
    refine List.forall_mem_append.2 ⟨h, ?_⟩
    rw [List.forall_mem_singleton]
    obtain ⟨-, hadv⟩ | ⟨-, hzero, -⟩ := Setting.process?_eq_some hproc
    · obtain ⟨-, ⟨p, hp, -⟩, -⟩ := DownlinkHarq.advance?_eq_some hsep hadv
      exact DownlinkHarq.lt_of_process? hp
    · rw [hzero]
      decide

/-- The new blocks of a pass are on processes that exist. -/
theorem process_lt_foldl_serve (setting : Setting) (proposal : Allocation) {cs : List Rnti}
    {start : Round Record} (hsound : start.harq.Sound) (hsize : start.occupancy.size ≤ 32)
    (hsent : start.sent = []) (hcs : cs.Nodup) (hlayers : ∀ c, 0 < setting.layers c) :
    ∀ b ∈ (cs.foldl (setting.serve proposal) start).sent, b.grant.process < harqProcesses := by
  induction cs using List.reverseRecOn with
  | nil => simp [hsent]
  | append_singleton cs c ih =>
    obtain ⟨hcs, -, -⟩ := List.nodup_append.1 hcs
    have hfair := fair_foldl_serve setting proposal hsound hsize hsent hcs hlayers
    rw [List.foldl_append]
    exact (served_serve setting proposal _ c).process_lt hfair.sound.separate (ih hcs)

end NewData

namespace DownlinkTrigger

variable {s : SchedulerState Record} {grid : Grid} (feedback : List HarqFeedback)

/-- A UE with a turn is known, and has a process for a block. -/
theorem of_mem_turns (h : r ∈ turns s grid feedback) :
    r ∈ s.ues ∧ (s.config.harqEnabled = true →
      (retries s grid feedback).harq.isAvailable r = true) := by
  obtain ⟨hmem, hturn⟩ := List.mem_filter.1 h
  simp only [Bool.and_eq_true, Bool.or_eq_true, Bool.not_eq_true'] at hturn
  refine ⟨?_, fun hon => hturn.2.resolve_left fun hoff => ?_⟩
  · simp only [SchedulerState.rotation, List.mem_append, List.mem_filter] at hmem
    exact Std.ExtTreeMap.mem_keys.1 (hmem.elim And.left And.left)
  · exact Bool.false_ne_true (hoff.symm.trans hon)

/-- The UE of a block is configured, and its process exists. -/
theorem names_data (policy : Policy Record) (hs : s.Consistent) (hsound : s.downlink.harq.Sound)
    (hgrid : grid.rbgCount ≤ 32) : ∀ b ∈ data policy s grid feedback,
      b.rnti ∈ s.ues ∧ b.grant.process < harqProcesses := by
  refine List.forall_mem_append.2 ⟨fun b hb => ?_, fun b hb => ⟨?_, ?_⟩⟩
  · obtain ⟨-, p, hp, -⟩ := flight_of_retry feedback hsound hgrid hb
    have hmem : b.rnti ∈ (opened s grid).downlink.harq.index :=
      DownlinkHarq.mem_index_of_process? hsound.refresh.separate hp
    exact ⟨(hs.downlink.harq _).1 hmem, DownlinkHarq.lt_of_process? hp⟩
  · exact (of_mem_turns feedback
      ((fair_fresh policy s grid feedback hsound hgrid).named b hb)).1
  · obtain ⟨cs, hcs, -, proposal, heq⟩ := fresh_eq policy s grid feedback
    rw [heq] at hb
    exact NewData.process_lt_foldl_serve _ proposal
      (fair_retries s grid feedback hsound hgrid).sound (size_start s grid feedback hsound hgrid)
      rfl hcs (fun c => s.layers_pos c) b hb

/-- A trigger grants blocks to configured UEs and answers those who sent a preamble. -/
theorem names_decision (policy : Policy Record) (hs : s.Consistent)
    (hsound : s.downlink.harq.Sound)
    (hgrid : grid.rbgCount ≤ 32) :
    (∀ b ∈ (decision policy s grid feedback).data,
      b.rnti ∈ s.ues ∧ b.grant.process < harqProcesses) ∧
    ∀ a ∈ (decision policy s grid feedback).access, ∃ p ∈ s.preambles, p.rnti = a.rnti :=
  ⟨names_data feedback policy hs hsound hgrid, (Access.Round.answers_answer ..).sender⟩

end DownlinkTrigger

/-! ## The uplink

What is granted again is granted to the UE whose entity remembers it, and what is new to a
candidate.
-/

namespace UplinkRetry.Round

variable {round : Round}

/-- A retransmission goes to a UE of the table. -/
theorem names_handle (hsound : UplinkTable.Sound round.ues)
    (h : ∀ g ∈ round.sent, g.rnti ∈ round.ues) (o : UplinkOutcome) :
    ∀ g ∈ (round.handle o).sent, g.rnti ∈ round.ues := by
  unfold handle
  split
  · exact h
  · exact h
  · exact h
  next u hu _ =>
    dsimp only
    split
    · exact h
    · exact h
    -- The block is one of the entity, and that remembers blocks of its own UE only.
    next g hretry =>
      unfold send
      split
      · refine List.forall_mem_append.2 ⟨h, ?_⟩
        rw [List.forall_mem_singleton]
        have hname := (hsound _ u hu _ g (UplinkEntity.grant_of_retry hretry)).1
        exact hname ▸ Table.mem_of_getElem? hu
      · exact h

theorem names_foldl_handle {o : Occupancy} (hfair : round.Fair o)
    (h : ∀ g ∈ round.sent, g.rnti ∈ round.ues) (outcomes : List UplinkOutcome) :
    ∀ g ∈ (outcomes.foldl handle round).sent, g.rnti ∈ round.ues := by
  induction outcomes using List.reverseRecOn with
  | nil => exact h
  | append_singleton outcomes o ih =>
    have hues := (tables_foldl_handle round outcomes).1
    rw [List.foldl_append]
    intro g hg
    refine (hues g.rnti).1 (names_handle (fair_foldl_handle hfair outcomes).sound ?_ o g hg)
    exact fun g hg => (hues g.rnti).2 (ih g hg)

end UplinkRetry.Round

/-- A trigger grants blocks to configured UEs. -/
theorem UplinkTrigger.names_decision {s : SchedulerState Record} {grid : Grid}
    (outcomes : List UplinkOutcome) (hs : s.Consistent)
    (hsound : UplinkTable.Sound s.uplink.ues) :
    ∀ g ∈ (decision s grid outcomes).grants, g.rnti ∈ s.ues := by
  refine List.forall_mem_append.2 ⟨fun g hg => ?_, fun g hg => ?_⟩
  · unfold retries retransmit at hg
    split at hg
    · have hmem := UplinkRetry.Round.names_foldl_handle (fair_start s grid hsound) (by simp)
        outcomes g hg
      exact (hs.uplink.records _).1 (Std.ExtTreeMap.mem_map.1 hmem)
    · cases hg
  · have hturn := (List.mem_filter.1 ((fair_fresh s grid outcomes hsound).named g hg)).1
    simp only [SchedulerState.rotation, List.mem_append, List.mem_filter] at hturn
    exact Std.ExtTreeMap.mem_keys.1 (hturn.elim And.left And.left)

end LteMac
