import LteMac.Proofs.Downlink.Access
import LteMac.Proofs.Quality.Reports
import LteMac.Proofs.Uplink.Trigger

/-!
# The tables of the uplink

The uplink keeps a record for exactly the configured UEs, reports that cover the band for some of
them, and block maps of the size of the band, at most one for each of the latest subframes
(`UplinkState.Fits`). The random access answers and the passes of a trigger keep all of it.

Three kinds of facts are collected here. Keys: a pass modifies records that exist, or writes under
the identity of a UE it has just looked up. Sizes: assigning blocks to a UE, or taking them back,
does not change how many blocks a map has. And the list of maps: the map of a subframe takes the
place of a former one for the same subframe, and only the newest sixteen are kept, so there are at
most sixteen and no two of them are of one subframe.

* `UplinkTrigger.fits_remember`: which block maps are kept;
* `Access.fits_answerAll`, `UplinkTrigger.fits_decide`: what the two triggers do to the tables.
-/

namespace LteMac

/-! ## Block maps -/

namespace BlockMap

/-- An empty map has as many blocks as were asked for. -/
theorem size_empty (n : Nat) : (empty n).size = n := by simp [empty, size]

/-- Giving blocks to a UE keeps the size of a map. -/
theorem size_assign (m : BlockMap) (blocks : List Nat) (r : Rnti) :
    (m.assign blocks r).size = m.size := by
  obtain ⟨owners⟩ := m
  simp only [assign, size]
  induction blocks generalizing owners with
  | nil => rfl
  | cons b bs ih =>
    rw [List.foldl_cons, ih]
    exact Array.size_setIfInBounds

/-- So does taking all blocks of a UE back. -/
theorem size_release (m : BlockMap) (r : Rnti) : (m.release r).size = m.size := by
  simp [release, size]

end BlockMap

/-! ## The tables -/

/-- The tables of the uplink hold what belongs to the configured UEs of a cell with so many uplink
blocks, and nothing else. -/
structure UplinkState.Fits (ues : Table Rnti Ue) (blocks : Nat) (u : UplinkState) : Prop where
  /-- The records are those of the configured UEs. -/
  records : ∀ r : Rnti, r ∈ u.ues ↔ r ∈ ues
  /-- Reports are about configured UEs, and cover the band. -/
  quality : u.quality.Covers (· ∈ ues)
  /-- The band is that of the cell. -/
  bandwidth : u.quality.bandwidth = blocks
  /-- The map of reserved blocks is as long as the band is wide. -/
  reserved : u.reserved.size = blocks
  /-- So are the maps of past subframes. -/
  history : ∀ past ∈ u.history, past.2.size = blocks
  /-- No more maps are kept than the history is deep. -/
  depth : u.history.length ≤ historyDepth
  /-- They are of different subframes. -/
  subframes : (u.history.map (·.1)).Nodup

variable {Record : Type} {ues : Table Rnti Ue} {r : Rnti}

/-! ## Random access answers -/

namespace Access

/-- Answers reserve blocks, but add none. -/
theorem Round.Answers.size {round : Round} {reserved reserved' : BlockMap} {start : Nat}
    {ps : List Preamble} {answers : List AccessGrant}
    (h : round.Answers reserved start ps reserved' answers) : reserved'.size = reserved.size := by
  induction h with
  | done | ended => rfl
  | collided _ _ ih => exact ih
  | granted _ _ _ ih => exact ih.trans (BlockMap.size_assign ..)

/-- The answers to a UE are stored in its present process, one after the other. -/
theorem getElem?_foldl_storeGrant (answers : List AccessGrant) (t : Table Rnti UplinkUe)
    (r : Rnti) :
    (answers.foldl storeGrant t)[r]? = t[r]?.map fun u => { u with
      harq := ((answers.filter (·.rnti = r)).map uplinkGrant).foldl .store u.harq } := by
  induction answers generalizing t with
  | nil => simp
  | cons a rest ih =>
    rw [List.foldl_cons, ih, storeGrant, Table.getElem?_modify]
    by_cases hr : r = a.rnti
    · simp [hr, Function.comp_def]
    · simp [hr, Ne.symm hr]

/-- Answers are stored in records that exist. -/
theorem mem_foldl_storeGrant (answers : List AccessGrant) (t : Table Rnti UplinkUe) :
    r ∈ answers.foldl storeGrant t ↔ r ∈ t := by
  rw [Std.ExtTreeMap.mem_iff_isSome_getElem?, getElem?_foldl_storeGrant, Option.isSome_map,
    Std.ExtTreeMap.mem_iff_isSome_getElem?]

/-- Answering random accesses keeps the tables of the uplink. -/
theorem fits_answerAll {s : SchedulerState Record} {grid : Grid} {blocks : Nat}
    (h : s.uplink.Fits s.ues blocks) : (answerAll s grid).1.Fits s.ues blocks where
  records r := by
    refine Iff.trans ?_ (h.records r)
    unfold answerAll
    dsimp only
    split
    · exact mem_foldl_storeGrant ..
    · rfl
  quality := h.quality
  bandwidth := h.bandwidth
  reserved := (Round.answers_answer ..).size.trans h.reserved
  history := h.history
  depth := h.depth
  subframes := h.subframes

end Access

/-! ## Retransmissions -/

namespace UplinkRetry.Round

variable {round : Round}

/-- Writing the entity of a UE that was looked up adds no record. -/
theorem mem_setEntity {u : UplinkUe} (hu : round.ues[r]? = some u) (harq : UplinkEntity)
    (r' : Rnti) : r' ∈ (round.setEntity r u harq).ues ↔ r' ∈ round.ues := by
  rw [setEntity, Table.mem_insert]
  exact or_iff_right_of_imp fun heq => heq ▸ Table.mem_of_getElem? hu

/-- A retransmission touches no record. -/
theorem tables_send (round : Round) (grant : UplinkGrant) (r : Rnti) :
    (round.send grant r).ues = round.ues ∧ (round.send grant r).map.size = round.map.size := by
  unfold send
  split
  · exact ⟨rfl, BlockMap.size_assign ..⟩
  · exact ⟨rfl, rfl⟩

/-- Acting upon an outcome keeps the UEs and the size of the map. -/
theorem tables_handle (round : Round) (o : UplinkOutcome) :
    (∀ r, r ∈ (round.handle o).ues ↔ r ∈ round.ues) ∧
      (round.handle o).map.size = round.map.size := by
  unfold handle
  split
  · exact ⟨fun _ => Iff.rfl, rfl⟩
  · exact ⟨fun _ => Iff.rfl, rfl⟩
  next u hu _ => exact ⟨mem_setEntity hu _, rfl⟩
  next u hu _ =>
    dsimp only
    split
    · exact ⟨mem_setEntity hu _, rfl⟩
    · exact ⟨mem_setEntity hu _, rfl⟩
    next g _ =>
      obtain ⟨hues, hmap⟩ := tables_send (round.setEntity o.rnti u u.harq.retry.2) g o.rnti
      exact ⟨fun r => hues ▸ mem_setEntity hu _ r, hmap⟩

/-- Nor does the whole pass over the outcomes. -/
theorem tables_foldl_handle (round : Round) (outcomes : List UplinkOutcome) :
    (∀ r, r ∈ (outcomes.foldl handle round).ues ↔ r ∈ round.ues) ∧
      (outcomes.foldl handle round).map.size = round.map.size := by
  induction outcomes generalizing round with
  | nil => exact ⟨fun _ => Iff.rfl, rfl⟩
  | cons o rest ih =>
    obtain ⟨hues, hmap⟩ := ih (round.handle o)
    obtain ⟨hues', hmap'⟩ := tables_handle round o
    exact ⟨fun r => (hues r).trans (hues' r), hmap.trans hmap'⟩

end UplinkRetry.Round

/-! ## New blocks -/

namespace UplinkNew

variable {known : Rnti → Prop} {quality : UplinkQuality} {blocks : Nat} {setting : Setting}
  {round : Round}

/-- Choosing a scheme notes estimates for measurements, and no more. -/
theorem covers_worstSinr (h : quality.Covers known) (r : Rnti) (stretch : List Nat) :
    (worstSinr quality r stretch).2.Covers known ∧
      (worstSinr quality r stretch).2.bandwidth = quality.bandwidth := by
  unfold worstSinr
  generalize UplinkQuality.unlimited = worst
  induction stretch generalizing quality worst with
  | nil => exact ⟨h, rfl⟩
  | cons block rest ih =>
    rw [List.foldl_cons]
    split
    · exact ih h _
    · exact ih (h.settle r block) _

/-- So does the scheme for a stretch as a whole. -/
theorem covers_scheme (h : quality.Covers known) (r : Rnti) (stretch : List Nat) :
    (scheme quality r stretch).2.Covers known ∧
      (scheme quality r stretch).2.bandwidth = quality.bandwidth := by
  unfold scheme
  split
  · exact covers_worstSinr h r stretch
  · exact ⟨h, rfl⟩

/-- What a pass over the candidates keeps of the tables. -/
structure Round.Fits (ues : Table Rnti Ue) (blocks : Nat) (round : Round) : Prop where
  /-- The records are those of the configured UEs. -/
  records : ∀ r : Rnti, r ∈ round.ues ↔ r ∈ ues
  /-- Reports are about configured UEs, and cover the band. -/
  quality : round.quality.Covers (· ∈ ues)
  /-- The band is that of the cell. -/
  bandwidth : round.quality.bandwidth = blocks
  /-- The map is as long as the band is wide. -/
  map : round.map.size = blocks

/-- Serving a candidate keeps the tables. -/
theorem Round.Fits.serve (h : round.Fits ues blocks) (r : Rnti) :
    (setting.serve round r).Fits ues blocks := by
  unfold Setting.serve
  split
  · exact h
  next first length _ =>
    obtain ⟨hcovers, hband⟩ := covers_scheme h.quality r (List.range' first length)
    dsimp only
    split
    · exact { h with quality := hcovers, bandwidth := hband.trans h.bandwidth }
    · exact
        { records := fun r' => Std.ExtTreeMap.mem_modify.trans (h.records r')
          quality := hcovers
          bandwidth := hband.trans h.bandwidth
          map := (BlockMap.size_assign ..).trans h.map }

/-- Serving all of them keeps the tables. -/
theorem Round.Fits.serveAll (h : round.Fits ues blocks) (cs : List Rnti) :
    (setting.serveAll round cs).Fits ues blocks := by
  unfold Setting.serveAll
  split
  · exact h
  · induction cs generalizing round with
    | nil => exact h
    | cons c cs ih => exact ih (h.serve c)

end UplinkNew

/-! ## The whole trigger -/

namespace UplinkTrigger

/-- The maps kept after a subframe: one for each of the latest subframes, at most sixteen. -/
theorem fits_remember {history : List (Subframe × BlockMap)} (time : Subframe) {map : BlockMap}
    {blocks : Nat} (hmap : map.size = blocks) (hsize : ∀ past ∈ history, past.2.size = blocks)
    (hnodup : (history.map (·.1)).Nodup) :
    (∀ past ∈ remember history time map, past.2.size = blocks) ∧
      (remember history time map).length ≤ historyDepth ∧
      ((remember history time map).map (·.1)).Nodup := by
  unfold remember
  dsimp only
  refine ⟨fun past hpast => ?_, ?_, ?_⟩
  · rcases List.mem_append.1 (List.mem_of_mem_drop hpast) with hold | hnew
    · exact hsize past (List.mem_filter.1 hold).1
    · exact List.mem_singleton.1 hnew ▸ hmap
  · rw [List.length_drop]
    omega
  · refine List.Nodup.sublist ((List.drop_sublist _ _).map _) ?_
    rw [List.map_append, List.map_singleton, List.nodup_append]
    refine ⟨hnodup.sublist (List.filter_sublist.map _), List.pairwise_singleton _ _, ?_⟩
    -- An older map of the same subframe was dropped.
    intro t ht t' ht' heq
    obtain ⟨past, hpast, rfl⟩ := List.mem_map.1 ht
    rw [List.mem_singleton.1 ht'] at heq
    simpa [heq] using (List.mem_filter.1 hpast).2

/-- A trigger keeps the tables of the uplink. -/
theorem fits_decide {s : SchedulerState Record} {grid : Grid} (time : Subframe)
    (outcomes : List UplinkOutcome) (h : s.uplink.Fits s.ues grid.uplink) :
    (decide s grid time outcomes).1.uplink.Fits s.ues grid.uplink := by
  -- Both passes go through UEs that are in the table, and neither changes the length of the map.
  have hretries : (∀ r : Rnti, r ∈ (retries s grid outcomes).ues ↔ r ∈ s.ues) ∧
      (retries s grid outcomes).map.size = grid.uplink := by
    have hstart : ∀ r : Rnti,
        r ∈ s.uplink.ues.map (fun _ u => noteRequest s.config.requestBytes u) ↔ r ∈ s.ues :=
      fun r => Std.ExtTreeMap.mem_map.trans (h.records r)
    unfold retries retransmit
    split
    · obtain ⟨hues, hmap⟩ := UplinkRetry.Round.tables_foldl_handle ⟨s.uplink.ues.map fun _ u =>
        noteRequest s.config.requestBytes u, opened s grid, s.uplink.reserved, []⟩ outcomes
      exact ⟨fun r => (hues r).trans (hstart r), hmap.trans h.reserved⟩
    · exact ⟨hstart, h.reserved⟩
  have hfresh : (fresh s grid outcomes).Fits s.ues grid.uplink := by
    have hstart : UplinkNew.Round.Fits s.ues grid.uplink
        ⟨(retries s grid outcomes).ues, s.uplink.quality.refresh,
          (retries s grid outcomes).occupancy, (retries s grid outcomes).map, 0, []⟩ :=
      ⟨hretries.1, h.quality.refresh, h.bandwidth, hretries.2⟩
    unfold fresh sendNew
    split
    · exact hstart
    · exact hstart.serveAll _
  obtain ⟨hhistory, hdepth, hsubframes⟩ :=
    fits_remember time hfresh.map h.history h.subframes
  exact
    { records := fun r => Std.ExtTreeMap.mem_map.trans (hfresh.records r)
      quality := hfresh.quality
      bandwidth := hfresh.bandwidth
      reserved := BlockMap.size_empty _
      history := hhistory
      depth := hdepth
      subframes := hsubframes }

end UplinkTrigger

end LteMac
