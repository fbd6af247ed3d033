import LteMac.Proofs.Harq.Uplink
import LteMac.Proofs.Scheduler.Allotment
import LteMac.Uplink.Trigger
import Mathlib.Data.List.Induction

/-!
# An uplink trigger, pass by pass

Two passes share the blocks of an uplink subframe that no random access answer has taken:
retransmissions, on their former blocks, and new stretches for the candidates.

As in the downlink, the stages of a trigger get names of their own (`retries`, `fresh`), so that
they can be spoken of one by one, and the handouts of the passes are put together. The UEs of the
two passes are different for a reason that is easily overlooked: a UE that was granted a block again
is no candidate any more, and two outcomes of one UE never lead to two grants, since the first
failure takes the block off the process that is reported on (`Spent`).

* `UplinkRetry.fair_foldl_handle`: the first pass takes free blocks, once for each UE, even if a
  failure is reported several times;
* `UplinkNew.fair_serveAll`: so does the second one, for candidates that the first did not serve;
* `UplinkTrigger.handout_decision`: both together.
-/

namespace LteMac

/-- From `o` to `o'`, a pass gave the blocks of its grants away, to one grant for each UE. -/
structure UplinkHandout (o o' : Occupancy) (sent : List UplinkGrant) : Prop where
  /-- The blocks of the grants are what was given away. -/
  allots : o.Allots o' (sent.map (·.blocks))
  /-- No UE has two grants. -/
  nodup : (sent.map (·.rnti)).Nodup

namespace UplinkHandout

variable {o o' o'' : Occupancy} {sent sent' : List UplinkGrant} {g : UplinkGrant}

/-- No grants. -/
theorem nil (o : Occupancy) : UplinkHandout o o [] := ⟨.refl o, .nil⟩

/-- A second pass that serves other UEs. -/
theorem append (h : UplinkHandout o o' sent) (h' : UplinkHandout o' o'' sent')
    (hother : ∀ g ∈ sent, ∀ g' ∈ sent', g.rnti ≠ g'.rnti) :
    UplinkHandout o o'' (sent ++ sent') where
  allots := by
    rw [List.map_append]
    exact h.allots.trans h'.allots
  nodup := by
    rw [List.map_append, List.nodup_append]
    exact ⟨h.nodup, h'.nodup, by simpa using hother⟩

/-- One grant of a free stretch. -/
theorem single {blocks : List Nat} (hblocks : g.blocks = blocks) (hpos : 0 < g.length)
    (hfree : ∀ i ∈ blocks, o.isFree i = true) : UplinkHandout o (o.occupy blocks) [g] where
  allots := by
    rw [List.map_singleton, hblocks]
    refine .single (fun hnil => ?_) hfree
    have hlen : g.blocks.length = 0 := by rw [hblocks, hnil]; rfl
    rw [UplinkGrant.blocks, List.length_range'] at hlen
    omega
  nodup := by simp

end UplinkHandout

/-! ## Retransmissions -/

namespace UplinkRetry

variable {o : Occupancy} {round : Round}

/-- The state of a pass that began on `o`: the entities are sound, the blocks of its grants were
handed out, and a UE that was served has nothing left to retransmit. -/
structure Round.Fair (o : Occupancy) (round : Round) : Prop where
  /-- The processes remember proper grants. -/
  sound : UplinkTable.Sound round.ues
  /-- The blocks of the grants were handed out. -/
  handout : UplinkHandout o round.occupancy round.sent
  /-- Who was served has nothing left to retransmit. -/
  spent : ∀ g ∈ round.sent, ∀ u, round.ues[g.rnti]? = some u → u.harq.Spent

/-- Setting the processes of a UE, if nothing is left on the reported one. -/
theorem Round.Fair.setEntity {r : Rnti} {u : UplinkUe} {harq : UplinkEntity}
    (h : round.Fair o) (hsound : harq.Sound r) (hspent : harq.Spent) :
    (round.setEntity r u harq).Fair o where
  sound := h.sound.insert hsound
  handout := h.handout
  spent g hg u' hu' := by
    simp only [Round.setEntity, Std.ExtTreeMap.getElem?_insert] at hu'
    split at hu'
    · obtain rfl := Option.some.inj hu'
      exact hspent
    · exact h.spent g hg u' hu'

/-- Granting a failed block of a UE again that was not served yet. -/
theorem Round.Fair.send {r : Rnti} {g : UplinkGrant} (h : round.Fair o)
    (hg : g.rnti = r ∧ 0 < g.length) (hnew : ∀ g ∈ round.sent, g.rnti ≠ r)
    (hspent : ∀ u, round.ues[r]? = some u → u.harq.Spent) : (round.send g r).Fair o := by
  unfold Round.send
  split
  next hfree =>
    -- Only the indicator changes: the blocks are the former ones.
    have hone : UplinkHandout round.occupancy (round.occupancy.occupy g.blocks)
        [{ g with ndi := 0 }] := .single rfl hg.2 (List.all_eq_true.1 hfree)
    refine ⟨h.sound, h.handout.append hone fun g' hg' g'' hg'' => ?_, ?_⟩
    · rw [List.mem_singleton.1 hg'']
      exact hg.1 ▸ hnew g' hg'
    · refine List.forall_mem_append.2 ⟨h.spent, fun g' hg' u hu => ?_⟩
      rw [List.mem_singleton.1 hg'] at hu
      exact hspent u (hg.1 ▸ hu)
  next => exact h

/-- One more outcome keeps the pass fair. -/
theorem Round.Fair.handle (h : round.Fair o) (outcome : UplinkOutcome) :
    (round.handle outcome).Fair o := by
  unfold Round.handle
  split
  · exact h
  · exact h
  next u hu _ => exact h.setEntity (h.sound _ u hu).acknowledge UplinkEntity.spent_acknowledge
  next u hu _ =>
    have hset : (round.setEntity outcome.rnti u u.harq.retry.2).Fair o :=
      h.setEntity (h.sound _ u hu).retry UplinkEntity.spent_of_retry
    dsimp only
    split
    · exact hset
    · exact hset
    next g hretry =>
      have hgrant := UplinkEntity.grant_of_retry hretry
      refine hset.send (h.sound _ u hu _ g hgrant) (fun g' hg' heq => ?_) fun u' hu' => ?_
      · -- A UE that was served has nothing left on the reported process.
        have hspent := h.spent g' hg' u (heq ▸ hu)
        rw [UplinkEntity.Spent, hgrant] at hspent
        cases hspent
      · have : u' = { u with harq := u.harq.retry.2 } := by
          simpa [Round.setEntity] using hu'.symm
        rw [this]
        exact UplinkEntity.spent_of_retry

/-- A pass over any outcomes is fair. -/
theorem fair_foldl_handle (h : round.Fair o) (outcomes : List UplinkOutcome) :
    (outcomes.foldl Round.handle round).Fair o := by
  induction outcomes generalizing round with
  | nil => exact h
  | cons outcome rest ih => exact ih (h.handle outcome)

end UplinkRetry

/-! ## New blocks -/

namespace UplinkNew

variable {setting : Setting} {o : Occupancy} {round : Round} {r : Rnti}

/-- A stretch is open, and has one of the lengths. -/
theorem isOpen_of_stretch? {start first length : Nat}
    (h : setting.stretch? o r start = some (first, length)) :
    length ∈ setting.lengths ∧ setting.isOpen o r first length = true := by
  obtain ⟨l, hl, hwindow⟩ := List.exists_of_findSome?_eq_some h
  obtain ⟨f, hf, heq⟩ := Option.map_eq_some_iff.1 hwindow
  obtain ⟨rfl, rfl⟩ := Prod.mk.inj heq
  exact ⟨hl, List.find?_some (p := fun i => setting.isOpen o r i l) hf⟩

/-- A stretch is not empty, and all of it is free. -/
theorem free_of_stretch? {start first length : Nat} (hlength : setting.length ≠ 0)
    (h : setting.stretch? o r start = some (first, length)) :
    0 < length ∧ ∀ i ∈ List.range' first length, o.isFree i = true := by
  obtain ⟨hl, hopen⟩ := isOpen_of_stretch? h
  refine ⟨?_, fun i hi => (Bool.and_eq_true_iff.1 (List.all_eq_true.1 hopen i hi)).1⟩
  simp only [Setting.lengths, List.mem_reverse, List.mem_range'_1, minLength] at hl
  omega

/-- The state of a pass over the candidates `cs` that began on `o`. -/
structure Round.Fair (o : Occupancy) (cs : List Rnti) (round : Round) : Prop where
  /-- The processes remember proper grants. -/
  sound : UplinkTable.Sound round.ues
  /-- The blocks of the grants were handed out. -/
  handout : UplinkHandout o round.occupancy round.sent
  /-- Only candidates were served. -/
  named : ∀ g ∈ round.sent, g.rnti ∈ cs

/-- One more candidate, not served before, keeps the pass fair. -/
theorem Round.Fair.serve {cs : List Rnti} (h : round.Fair o cs) (hlength : setting.length ≠ 0)
    (hnew : r ∉ cs) : (setting.serve round r).Fair o (cs ++ [r]) := by
  have hskip : ∀ quality, ({ round with quality } : Round).Fair o (cs ++ [r]) := fun _ =>
    ⟨h.sound, h.handout, fun g hg => List.mem_append_left _ (h.named g hg)⟩
  unfold Setting.serve
  split
  · exact hskip round.quality
  next first length hstretch =>
    obtain ⟨hpos, hfree⟩ := free_of_stretch? hlength hstretch
    dsimp only
    split
    · exact hskip _
    next mcs hmcs =>
      -- The candidate is granted a free stretch, which is apart from all that was handed out, and
      -- it was granted nothing before.
      refine ⟨h.sound.modify fun u hu => ?_, h.handout.append ?_ ?_, ?_⟩
      · unfold granted
        split
        · exact hu.store ⟨rfl, hpos⟩
        · exact hu
      · exact .single rfl hpos hfree
      · intro g hg g' hg' heq
        rw [List.mem_singleton.1 hg'] at heq
        change g.rnti = r at heq
        exact hnew (heq ▸ h.named g hg)
      · refine List.forall_mem_append.2 ⟨fun g hg => List.mem_append_left _ (h.named g hg), ?_⟩
        simp

/-- A pass over candidates, none of whom is named twice, is fair. -/
theorem fair_serveAll {cs : List Rnti} (setting : Setting) (hsound : UplinkTable.Sound round.ues)
    (ho : round.occupancy = o) (hsent : round.sent = []) (hcs : cs.Nodup) :
    (setting.serveAll round cs).Fair o cs := by
  have hstart : ∀ cs, round.Fair o cs := fun cs =>
    ⟨hsound, by simpa [hsent, ho] using UplinkHandout.nil _, by simp [hsent]⟩
  unfold Setting.serveAll
  split
  · exact hstart cs
  next hlength =>
    induction cs using List.reverseRecOn with
    | nil => exact hstart []
    | append_singleton cs c ih =>
      obtain ⟨hcs, -, hnew⟩ := List.nodup_append.1 hcs
      rw [List.foldl_append]
      exact (ih hcs).serve hlength fun hc => hnew c hc c (by simp) rfl

end UplinkNew

/-! ## The whole trigger -/

namespace UplinkTrigger

variable {Record : Type} (s : SchedulerState Record) (grid : Grid)
  (outcomes : List UplinkOutcome)

/-- The blocks free at the beginning of a trigger. -/
def opened : Occupancy := occupancy grid s.reuse.uplinkFlags s.uplink.reserved

/-- The stage of retransmissions. -/
def retries : UplinkRetry.Round :=
  retransmit s.config.harqEnabled
    ⟨s.uplink.ues.map fun _ u => noteRequest s.config.requestBytes u, opened s grid,
      s.uplink.reserved, []⟩ outcomes

/-- The stage of new blocks. -/
def fresh : UplinkNew.Round :=
  sendNew s grid s.reuse.uplinkFlags s.uplink.quality.refresh (retries s grid outcomes)
    (candidates s (retries s grid outcomes))

/-- What a trigger decides. -/
def decision : UplinkDecision :=
  ⟨(retries s grid outcomes).sent ++ (fresh s grid outcomes).sent,
    outcomes.filterMap acknowledgement?⟩

/-- At the end of a trigger every record takes in what was sent, and turns its processes. -/
theorem ues_decide (time : Subframe) :
    (decide s grid time outcomes).1.uplink.ues =
      (fresh s grid outcomes).ues.map (close s.config (fresh s grid outcomes).sent) := rfl

/-- A block is free at the beginning if it is usable in the cell and answers no random access. -/
theorem isFree_opened (i : Nat) : (opened s grid).isFree i = true ↔
    i < grid.uplink ∧ flagAt s.reuse.uplinkFlags i = true ∧
      s.uplink.reserved.isFree i = true := by
  simp only [opened, occupancy, Occupancy.isFree_ofFlags, flagAt_flags, Bool.and_eq_true,
    decide_eq_true_iff]
  tauto

/-- The first pass begins with sound entities and no grants. -/
theorem fair_start (hsound : UplinkTable.Sound s.uplink.ues) :
    UplinkRetry.Round.Fair (opened s grid)
      ⟨s.uplink.ues.map fun _ u => noteRequest s.config.requestBytes u, opened s grid,
        s.uplink.reserved, []⟩ := by
  refine ⟨hsound.map fun r u hu => ?_, .nil _, by simp⟩
  unfold noteRequest
  split <;> exact hu

/-- So it is fair. -/
theorem fair_retries (hsound : UplinkTable.Sound s.uplink.ues) :
    (retries s grid outcomes).Fair (opened s grid) := by
  unfold retries retransmit
  split
  · exact UplinkRetry.fair_foldl_handle (fair_start s grid hsound) outcomes
  · exact fair_start s grid hsound

/-- A UE that was served a retransmission gets no new blocks. -/
theorem not_served_of_candidate {c : Rnti}
    (hc : c ∈ candidates s (retries s grid outcomes)) :
    ∀ g ∈ (retries s grid outcomes).sent, g.rnti ≠ c := by
  have hserved : (retries s grid outcomes).served c = false := by
    have := (List.mem_filter.1 hc).2
    simp only [Bool.and_eq_true, Bool.not_eq_true'] at this
    exact this.1
  simpa [UplinkRetry.Round.served] using hserved

/-- The second pass is fair towards the UEs that the first one left. -/
theorem fair_fresh (hsound : UplinkTable.Sound s.uplink.ues) :
    (fresh s grid outcomes).Fair (retries s grid outcomes).occupancy
      (candidates s (retries s grid outcomes)) := by
  have hretries := fair_retries s grid outcomes hsound
  have hcs : (candidates s (retries s grid outcomes)).Nodup :=
    (SchedulerState.nodup_rotation Std.ExtTreeMap.nodup_keys _).filter _
  unfold fresh sendNew
  split
  · exact ⟨hretries.sound, .nil _, by simp⟩
  · dsimp only
    refine UplinkNew.fair_serveAll _ ?_ rfl rfl hcs
    exact hretries.sound

/-- The grants of a trigger are on blocks that were free at its beginning. -/
theorem handout_decision (hsound : UplinkTable.Sound s.uplink.ues) :
    UplinkHandout (opened s grid) (fresh s grid outcomes).occupancy
      (decision s grid outcomes).grants := by
  have hnew := fair_fresh s grid outcomes hsound
  -- The candidates for new blocks are UEs that the first pass did not serve.
  refine (fair_retries s grid outcomes hsound).handout.append hnew.handout fun g hg g' hg' => ?_
  exact not_served_of_candidate s grid outcomes (hnew.named g' hg') g hg

/-- The entities stay sound. -/
theorem sound_decide (hsound : UplinkTable.Sound s.uplink.ues) (time : Subframe) :
    UplinkTable.Sound (decide s grid time outcomes).1.uplink.ues := by
  rw [ues_decide]
  refine (fair_fresh s grid outcomes hsound).sound.map fun r u hu => ?_
  unfold close
  split
  · exact hu.advance
  · exact hu

end UplinkTrigger

end LteMac
