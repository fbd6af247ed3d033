import LteMac.Proofs.Checked.Blocks
import LteMac.Proofs.Checked.Harq
import LteMac.Proofs.Checked.LinkTables
import LteMac.Proofs.Uplink.Tables
import LteMac.Proofs.Uplink.Trigger

/-!
# A checked uplink trigger

An uplink trigger indexes the grid, the map of its blocks and the processes, and divides the usable
blocks among the UEs. A retransmission goes where the block was before, by a grant that may have
been stored under another reuse policy: its blocks are looked up only if they lie in the grid.

Each function of the trigger has a checked twin, which does the same but stops where an index is out
of range, a slice does not fit or a divisor is 0. The twins are shown equal to the functions they
are twins of from the bottom up, each under what its accesses need; a pass needs in addition that it
keeps up what the next step needs (`Round.Apt`).

What the passes begin with is left as hypotheses of the last theorem, and holds in every reachable
state: entities are well formed, their cursors are in range, and the map of reserved blocks has the
size of the grid.

* `UplinkRetry.foldlM_handleChecked`, `UplinkNew.serveAllChecked_eq`: the passes, as long as the map
  has as many blocks as the grid;
* `UplinkTrigger.decideChecked_eq`: the whole trigger.
-/

namespace LteMac

/-! ## Retransmissions

A block that is sent again has its old blocks, which lie in the grid because the entity remembers
only what was granted in it, and is stored at a cursor that is in range.
-/

namespace UplinkRetry

variable {o : Occupancy} {round : Round}

namespace Round

/-- Grants the blocks of a failed block again, if they lie in the grid and are free. -/
def sendChecked (round : Round) (grant : UplinkGrant) (rnti : Rnti) : Checked Round := do
  let stop := grant.start + grant.length
  if round.occupancy.size < stop then return round
  else
    Checked.checkSlice round.occupancy.size grant.start stop
    if ← grant.blocks.allM round.occupancy.isFreeChecked then
      let occupancy ← round.occupancy.occupyChecked grant.blocks
      let map ← round.map.assignChecked grant.blocks rnti
      return { round with occupancy, map, sent := round.sent ++ [{ grant with ndi := 0 }] }
    else return round

/-- Acts upon an outcome. -/
def handleChecked (round : Round) (o : UplinkOutcome) : Checked Round :=
  match round.ues[o.rnti]?, o.reception with
  | none, _ | _, .notValid => pure round
  | some u, .ok => round.setEntity o.rnti u <$> u.harq.acknowledgeChecked
  | some u, .notOk => do
    let (retry, harq) ← u.harq.retryChecked
    let round := round.setEntity o.rnti u harq
    match retry with
    | .noBlock | .dropped => return round
    | .again grant => round.sendChecked grant o.rnti

/-- What the accesses of the pass rely on. -/
structure Apt (o : Occupancy) (round : Round) : Prop where
  /-- What was sent so far lies in the grid. -/
  fair : round.Fair o
  /-- The cursors of the entities point at processes. -/
  cursors : UplinkTable.InRange round.ues
  /-- The map covers the grid. -/
  size : round.map.size = round.occupancy.size

/-- A grant has at least one block, so that the test of its end covers all of them. -/
theorem sendChecked_eq (hsize : round.map.size = round.occupancy.size) {grant : UplinkGrant}
    (hpos : 0 < grant.length) (rnti : Rnti) :
    round.sendChecked grant rnti = pure (round.send grant rnti) := by
  unfold sendChecked send
  dsimp only
  split
  next hout =>
    -- The last block is outside the grid, and such a block is not free.
    have hlast : grant.start + grant.length - 1 ∈ grant.blocks :=
      List.mem_range'_1.2 (by omega)
    rw [if_neg fun hall => ?_]
    have hlt := Occupancy.lt_size_of_isFree (List.all_eq_true.1 hall _ hlast)
    omega
  next hin =>
    have hlt : ∀ i ∈ grant.blocks, i < round.occupancy.size := fun i hi => by
      have hrange := (List.mem_range'_1.1 hi).2
      omega
    rw [Checked.checkSlice_eq (Nat.le_add_right _ _) (Nat.not_lt.1 hin), pure_bind,
      Checked.allM_eq fun i hi => Occupancy.isFreeChecked_eq (hlt i hi), pure_bind]
    split
    · rw [Occupancy.occupyChecked_eq hlt, pure_bind,
        BlockMap.assignChecked_eq fun i hi => Nat.lt_of_lt_of_eq (hlt i hi) hsize.symm, pure_bind]
    · rfl

/-- No outcome stops the pass. -/
theorem handleChecked_eq (h : round.Apt o) (outcome : UplinkOutcome) :
    round.handleChecked outcome = pure (round.handle outcome) := by
  unfold handleChecked handle
  cases hu : round.ues[outcome.rnti]? with
  | none => cases outcome.reception <;> rfl
  | some u =>
    cases outcome.reception with
    | notValid => rfl
    | ok =>
      dsimp only
      rw [UplinkEntity.acknowledgeChecked_eq, map_pure]
    | notOk =>
      dsimp only
      rw [UplinkEntity.retryChecked_eq (h.cursors _ u hu), pure_bind]
      cases hretry : u.harq.retry.1 with
      | noBlock | dropped => rfl
      -- The block that is sent again is the UE's own, so it lies in the grid.
      | again grant =>
        have hgrant := UplinkEntity.grant_of_retry hretry
        have hset : (round.setEntity outcome.rnti u u.harq.retry.2).map.size =
            (round.setEntity outcome.rnti u u.harq.retry.2).occupancy.size := h.size
        exact sendChecked_eq hset (h.fair.sound _ u hu _ grant hgrant).2 _

/-- The cursors of the buffers stay in range. -/
theorem inRange_handle (h : UplinkTable.InRange round.ues) (outcome : UplinkOutcome) :
    UplinkTable.InRange (round.handle outcome).ues := by
  unfold Round.handle
  split
  · exact h
  · exact h
  next u hu _ => exact h.insert (h _ u hu)
  next u hu _ =>
    have hset : UplinkTable.InRange (round.setEntity outcome.rnti u u.harq.retry.2).ues :=
      h.insert <| by
        rw [UplinkEntity.current_retry]
        exact h _ u hu
    dsimp only
    split
    · exact hset
    · exact hset
    · unfold Round.send
      split <;> exact hset

/-- A retransmission changes who has a block, but not how many there are. -/
theorem size_send (h : round.map.size = round.occupancy.size) (grant : UplinkGrant)
    (rnti : Rnti) :
    (round.send grant rnti).map.size = (round.send grant rnti).occupancy.size := by
  unfold Round.send
  split
  · exact (BlockMap.size_assign ..).trans (h.trans (Occupancy.size_occupy ..).symm)
  · exact h

/-- So does acting upon an outcome. -/
theorem size_handle (h : round.map.size = round.occupancy.size) (outcome : UplinkOutcome) :
    (round.handle outcome).map.size = (round.handle outcome).occupancy.size := by
  unfold Round.handle
  split
  · exact h
  · exact h
  · exact h
  next u _ _ =>
    have hset : (round.setEntity outcome.rnti u u.harq.retry.2).map.size =
        (round.setEntity outcome.rnti u u.harq.retry.2).occupancy.size := h
    dsimp only
    split
    · exact hset
    · exact hset
    · exact size_send hset _ _

/-- Acting upon an outcome keeps up what the next one needs. -/
theorem Apt.handle (h : round.Apt o) (outcome : UplinkOutcome) : (round.handle outcome).Apt o :=
  ⟨h.fair.handle outcome, inRange_handle h.cursors outcome, size_handle h.size outcome⟩

end Round

/-- No access of the pass over the outcomes stops it. -/
theorem foldlM_handleChecked (h : round.Apt o) (outcomes : List UplinkOutcome) :
    outcomes.foldlM Round.handleChecked round = pure (outcomes.foldl Round.handle round) :=
  Checked.foldlM_eq (Round.Apt o) (fun _ h outcome _ => Round.handleChecked_eq h outcome)
    (fun _ h outcome _ => h.handle outcome) h

/-- The pass keeps up what the new blocks need. -/
theorem apt_foldl_handle (h : round.Apt o) (outcomes : List UplinkOutcome) :
    (outcomes.foldl Round.handle round).Apt o :=
  List.foldlRecOn (motive := Round.Apt o) outcomes _ h fun _ h outcome _ => h.handle outcome

end UplinkRetry

/-! ## New blocks

A stretch consists of free blocks, and only blocks of the grid are. Its length is not zero, so there
is a first block, and a size for it.
-/

namespace UplinkNew

variable {setting : Setting} {round : Round}

namespace Setting

variable (setting : Setting)

/-- Whether a stretch is free and allowed for a UE. -/
def isOpenChecked (occupancy : Occupancy) (rnti : Rnti) (start length : Nat) : Checked Bool :=
  (List.range' start length).allM fun block =>
    (· && setting.reuse.uplinkAllowed block rnti) <$> occupancy.isFreeChecked block

/-- The first open stretch of a length. -/
def windowChecked? (occupancy : Occupancy) (rnti : Rnti) (start length : Nat) :
    Checked (Option Nat) :=
  (List.range' start (occupancy.size + 1 - length - start)).findM?
    (setting.isOpenChecked occupancy rnti · length)

/-- The stretch for a UE. -/
def stretchChecked? (occupancy : Occupancy) (rnti : Rnti) (start : Nat) :
    Checked (Option (Nat × Nat)) :=
  setting.lengths.findSomeM? fun length =>
    (·.map fun first => (first, length)) <$> setting.windowChecked? occupancy rnti start length

end Setting

/-- The scheme for a stretch, and the reports afterwards. -/
def schemeChecked (quality : UplinkQuality) (rnti : Rnti) (blocks : List Nat) :
    Checked (Option Nat × UplinkQuality) := do
  if quality.contains rnti then
    let (sinr, quality) := worstSinr quality rnti blocks
    let cqi ← LinkAdaptation.cqiOfSinrChecked sinr
    if cqi = 0 then return (none, quality)
    else
      let mcs ← LinkAdaptation.mcsOfCqiChecked cqi
      return (some mcs, quality)
  else return (some 0, quality)

/-- A UE after it was granted a block. -/
def grantedChecked (harqEnabled : Bool) (u : UplinkUe) (grant : UplinkGrant) :
    Checked UplinkUe := do
  let harq ← if harqEnabled then u.harq.storeChecked grant else pure u.harq
  return { u with buffer := u.buffer.map (· - (grant.tbs - overhead)), harq }

/-- Serves a candidate. -/
def Setting.serveChecked (setting : Setting) (round : Round) (rnti : Rnti) : Checked Round := do
  match ← setting.stretchChecked? round.occupancy rnti round.start with
  | none => return round
  | some (start, length) =>
    let blocks := List.range' start length
    let (mcs, quality) ← schemeChecked round.quality rnti blocks
    let round := { round with quality }
    match mcs with
    | none => return round
    | some mcs =>
      let occupancy ← round.occupancy.occupyChecked blocks
      let map ← round.map.assignChecked blocks rnti
      let tbs ← LinkAdaptation.uplinkBytesChecked mcs length
      let grant : UplinkGrant :=
        { rnti, start, length, tbs, mcs, ndi := 1, tpc := setting.reuse.powerCommand rnti
          cqiRequest := false, hopping := false }
      let ues ← Checked.modify round.ues rnti (grantedChecked setting.harqEnabled · grant)
      return { round with
        ues, occupancy, map, start := start + length, sent := round.sent ++ [grant] }

/-- Serves the candidates; without any length nobody is served. -/
def Setting.serveAllChecked (setting : Setting) (round : Round) (candidates : List Rnti) :
    Checked Round :=
  if setting.length = 0 then pure round else candidates.foldlM setting.serveChecked round

namespace Setting

/-- A window is only looked for where it fits. -/
theorem windowChecked?_eq (o : Occupancy) (rnti : Rnti) (start length : Nat) :
    setting.windowChecked? o rnti start length = pure (setting.window? o rnti start length) := by
  refine Checked.findM?_eq fun first hfirst => Checked.allM_eq fun block hblock => ?_
  have hlt : block < o.size := by
    have hin := List.mem_range'_1.1 hfirst
    have hwithin := (List.mem_range'_1.1 hblock).2
    omega
  rw [Occupancy.isFreeChecked_eq hlt, map_pure]

/-- No length of a stretch leads out of the grid. -/
theorem stretchChecked?_eq (o : Occupancy) (rnti : Rnti) (start : Nat) :
    setting.stretchChecked? o rnti start = pure (setting.stretch? o rnti start) :=
  Checked.findSomeM?_eq fun _ _ => by rw [windowChecked?_eq, map_pure]

end Setting

/-- Every channel quality has a scheme in the table. -/
theorem schemeChecked_eq (quality : UplinkQuality) (rnti : Rnti) (blocks : List Nat) :
    schemeChecked quality rnti blocks = pure (scheme quality rnti blocks) := by
  unfold schemeChecked scheme
  split
  · dsimp only
    rw [LinkAdaptation.cqiOfSinrChecked_eq, pure_bind]
    split
    · rfl
    · rw [LinkAdaptation.mcsOfCqiChecked_eq, pure_bind]
  · rfl

/-- What the accesses of the pass rely on. -/
structure Round.Apt (setting : Setting) (round : Round) : Prop where
  /-- The cursors of the entities point at processes, if they are looked at. -/
  cursors : setting.harqEnabled = true → UplinkTable.InRange round.ues
  /-- The map covers the grid. -/
  size : round.map.size = round.occupancy.size

/-- Without retransmissions no process is looked up, so nothing is needed of them then. -/
theorem grantedChecked_eq {u : UplinkUe}
    (h : setting.harqEnabled = true → u.harq.current < uplinkProcesses) (grant : UplinkGrant) :
    grantedChecked setting.harqEnabled u grant =
      pure (granted setting.harqEnabled u grant) := by
  unfold grantedChecked granted
  split
  next henabled => rw [UplinkEntity.storeChecked_eq (h henabled), pure_bind]
  next => rw [pure_bind]

/-- No candidate stops the pass. The length of a stretch is not 0, so every grant has a block, and a
size. -/
theorem Setting.serveChecked_eq (hlength : setting.length ≠ 0) (h : round.Apt setting)
    (rnti : Rnti) :
    setting.serveChecked round rnti = pure (setting.serve round rnti) := by
  rw [serveChecked, stretchChecked?_eq, pure_bind, serve]
  cases hstretch : setting.stretch? round.occupancy rnti round.start with
  | none => rfl
  | some stretch =>
    obtain ⟨start, length⟩ := stretch
    -- The stretch is free, and only blocks of the grid are.
    have hlt : ∀ i ∈ List.range' start length, i < round.occupancy.size := fun i hi =>
      Occupancy.lt_size_of_isFree ((free_of_stretch? hlength hstretch).2 i hi)
    dsimp only
    rw [schemeChecked_eq, pure_bind]
    cases (scheme round.quality rnti (List.range' start length)).1 with
    | none => rfl
    | some mcs =>
      dsimp only
      rw [Occupancy.occupyChecked_eq hlt, pure_bind,
        BlockMap.assignChecked_eq fun i hi => Nat.lt_of_lt_of_eq (hlt i hi) h.size.symm, pure_bind,
        LinkAdaptation.uplinkBytesChecked_eq, pure_bind,
        Checked.modify_eq fun u hu => grantedChecked_eq (fun henabled =>
          h.cursors henabled _ u hu) _, pure_bind]

/-- Serving a candidate keeps up what the next one needs. -/
theorem Round.Apt.serve (h : round.Apt setting) (rnti : Rnti) :
    (setting.serve round rnti).Apt setting := by
  unfold Setting.serve
  split
  · exact h
  · dsimp only
    split
    · exact ⟨h.cursors, h.size⟩
    · refine ⟨fun henabled => (h.cursors henabled).modify fun u hu => ?_,
        (BlockMap.size_assign ..).trans (h.size.trans (Occupancy.size_occupy ..).symm)⟩
      rw [granted, if_pos henabled]
      exact hu

/-- No access of the pass over the candidates stops it. -/
theorem serveAllChecked_eq (h : round.Apt setting) (candidates : List Rnti) :
    setting.serveAllChecked round candidates = pure (setting.serveAll round candidates) := by
  unfold Setting.serveAllChecked Setting.serveAll
  split
  · rfl
  next hlength =>
    exact Checked.foldlM_eq (Round.Apt setting)
      (fun _ h rnti _ => Setting.serveChecked_eq hlength h rnti) (fun _ h rnti _ => h.serve rnti) h

end UplinkNew

/-! ## The trigger

The map is as long as the occupancy throughout. The number of UEs that share the subframe is not
zero when it is divided by, since there is a candidate.
-/

namespace UplinkTrigger

variable {Record : Type} {s : SchedulerState Record} {grid : Grid}

/-- The uplink blocks that are usable cell-wide and not reserved. -/
def occupancyChecked (grid : Grid) (usable : List Bool) (reserved : BlockMap) :
    Checked Occupancy :=
  Occupancy.ofFlags grid.uplink <$> (List.range grid.uplink).mapM fun i =>
    if flagAt usable i then (· == 0) <$> reserved.ownerChecked i else pure false

/-- Retransmissions, if there are any in this cell. -/
def retransmitChecked (harqEnabled : Bool) (round : UplinkRetry.Round)
    (outcomes : List UplinkOutcome) : Checked UplinkRetry.Round :=
  if harqEnabled then outcomes.foldlM UplinkRetry.Round.handleChecked round else pure round

/-- The UEs that may get new blocks. -/
def candidatesChecked (s : SchedulerState Record) (round : UplinkRetry.Round) :
    Checked (List Rnti) := do
  let turns ← SchedulerState.rotationChecked s.ues.keys s.uplink.cursor
  return turns.filter fun rnti => !round.served rnti && round.ues[rnti]?.any (0 < ·.pending)

/-- The length of a stretch. -/
def stretchLengthChecked (s : SchedulerState Record) (grid : Grid) (usable : List Bool)
    (flows : Nat) : Checked Nat := do
  let share ← Checked.divide (usable.count true) flows
  return min (min (max share UplinkNew.minLength) s.reuse.contiguousBlocks) grid.uplink

/-- New blocks for the candidates. -/
def sendNewChecked (s : SchedulerState Record) (grid : Grid) (usable : List Bool)
    (quality : UplinkQuality) (retries : UplinkRetry.Round) (candidates : List Rnti) :
    Checked UplinkNew.Round := do
  let start : UplinkNew.Round := ⟨retries.ues, quality, retries.occupancy, retries.map, 0, []⟩
  if candidates.isEmpty then return start
  else
    let flows := candidates.length + retries.servedCount
    let length ← stretchLengthChecked s grid usable flows
    let setting : UplinkNew.Setting := ⟨s.config.harqEnabled, s.reuse, length⟩
    setting.serveAllChecked start candidates

/-- The turn after a subframe with the given candidates. -/
def nextTurnChecked (cursor : Rnti) (candidates : List Rnti) : Checked Rnti :=
  if candidates.isEmpty then pure cursor else (· + 1) <$> Checked.read candidates 0

/-- Decides an uplink subframe. -/
def decideChecked (s : SchedulerState Record) (grid : Grid) (time : Subframe)
    (outcomes : List UplinkOutcome) : Checked (Outcome Record) := do
  let usable := s.reuse.uplinkFlags
  let ues := s.uplink.ues.map fun _ u => noteRequest s.config.requestBytes u
  let occupancy ← occupancyChecked grid usable s.uplink.reserved
  let retries ← retransmitChecked s.config.harqEnabled ⟨ues, occupancy, s.uplink.reserved, []⟩
    outcomes
  let candidates ← candidatesChecked s retries
  let new ← sendNewChecked s grid usable s.uplink.quality.refresh retries candidates
  let cursor ← nextTurnChecked s.uplink.cursor candidates
  let uplink : UplinkState :=
    { ues := new.ues.map (close s.config new.sent)
      quality := new.quality
      reserved := .empty grid.uplink
      history := remember s.uplink.history time new.map
      cursor }
  return ({ s with uplink },
    [.uplink ⟨retries.sent ++ new.sent, outcomes.filterMap acknowledgement?⟩])

/-- The reserved blocks are looked up in a map of the size of the grid. -/
theorem occupancyChecked_eq {reserved : BlockMap} (hsize : reserved.size = grid.uplink)
    (usable : List Bool) :
    occupancyChecked grid usable reserved = pure (occupancy grid usable reserved) := by
  have hfree : ∀ i ∈ List.range grid.uplink,
      (if flagAt usable i then (· == 0) <$> reserved.ownerChecked i else pure false :
        Checked Bool) = pure (flagAt usable i && reserved.isFree i) := fun i hi => by
    have hlt : i < reserved.owners.size := Nat.lt_of_lt_of_eq (List.mem_range.1 hi) hsize.symm
    have howner : reserved.owner? i = some reserved.owners[i] := Array.getElem?_eq_getElem hlt
    rw [BlockMap.ownerChecked_eq howner, map_pure, BlockMap.isFree, howner]
    cases flagAt usable i <;> rfl
  rw [occupancyChecked, Checked.mapM_eq hfree, map_pure, occupancy, flags]

/-- A map that is smaller than the grid would stop the trigger at the first block it lacks. -/
example : occupancyChecked ⟨6, 6⟩ (.replicate 6 true) (.empty 2) = .error (.index 2) := rfl

/-- The stage of the retransmissions, which is left out in a cell without any. -/
theorem retransmitChecked_eq {harqEnabled : Bool} {o : Occupancy} {round : UplinkRetry.Round}
    (h : harqEnabled = true → round.Apt o) (outcomes : List UplinkOutcome) :
    retransmitChecked harqEnabled round outcomes =
      pure (retransmit harqEnabled round outcomes) := by
  unfold retransmitChecked retransmit
  split
  next henabled => exact UplinkRetry.foldlM_handleChecked (h henabled) outcomes
  next => rfl

/-- The turns begin with a UE that there is. -/
theorem candidatesChecked_eq (round : UplinkRetry.Round) :
    candidatesChecked s round = pure (candidates s round) := by
  rw [candidatesChecked, SchedulerState.rotationChecked_keys, pure_bind, candidates]

/-- The stage of the new blocks. The usable blocks are divided by the number of flows, and there is
one as soon as there is a candidate. -/
theorem sendNewChecked_eq {retries : UplinkRetry.Round}
    (hcursors : s.config.harqEnabled = true → UplinkTable.InRange retries.ues)
    (hsize : retries.map.size = retries.occupancy.size) (usable : List Bool)
    (quality : UplinkQuality) (candidates : List Rnti) :
    sendNewChecked s grid usable quality retries candidates =
      pure (sendNew s grid usable quality retries candidates) := by
  unfold sendNewChecked sendNew
  dsimp only
  split
  · rfl
  next hne =>
    have hflows : 0 < candidates.length + retries.servedCount :=
      Nat.add_pos_left (List.length_pos_iff.2 (by simpa using hne)) _
    rw [stretchLengthChecked, Checked.divide_eq hflows, pure_bind, pure_bind]
    exact UplinkNew.serveAllChecked_eq ⟨hcursors, hsize⟩ candidates

/-- The next turn is read off the first candidate, if there is one. -/
theorem nextTurnChecked_eq (cursor : Rnti) (candidates : List Rnti) :
    nextTurnChecked cursor candidates = pure (nextTurn cursor candidates) := by
  cases candidates <;> rfl

/-- Noting requests to send moves no cursor. -/
theorem inRange_noted {ues : Table Rnti UplinkUe} (h : UplinkTable.InRange ues) (bytes : Nat) :
    UplinkTable.InRange (ues.map fun _ u => noteRequest bytes u) := by
  intro r u hu
  rw [Std.ExtTreeMap.getElem?_map] at hu
  obtain ⟨u, hfound, rfl⟩ := Option.map_eq_some_iff.1 hu
  unfold noteRequest
  split <;> exact h r u hfound

/-- Where the retransmissions begin. -/
theorem apt_start (hsound : UplinkTable.Sound s.uplink.ues)
    (hcursors : UplinkTable.InRange s.uplink.ues) (hsize : s.uplink.reserved.size = grid.uplink) :
    UplinkRetry.Round.Apt (opened s grid)
      ⟨s.uplink.ues.map fun _ u => noteRequest s.config.requestBytes u, opened s grid,
        s.uplink.reserved, []⟩ :=
  ⟨fair_start s grid hsound, inRange_noted hcursors _,
    hsize.trans (Occupancy.size_ofFlags ..).symm⟩

/-- What the retransmissions leave to the new blocks. -/
theorem apt_retries (hsound : UplinkTable.Sound s.uplink.ues)
    (hcursors : s.config.harqEnabled = true → UplinkTable.InRange s.uplink.ues)
    (hsize : s.uplink.reserved.size = grid.uplink) (outcomes : List UplinkOutcome) :
    (s.config.harqEnabled = true → UplinkTable.InRange (retries s grid outcomes).ues) ∧
      (retries s grid outcomes).map.size = (retries s grid outcomes).occupancy.size := by
  unfold retries retransmit
  split
  next henabled =>
    have hapt := UplinkRetry.apt_foldl_handle (apt_start hsound (hcursors henabled) hsize) outcomes
    exact ⟨fun _ => hapt.cursors, hapt.size⟩
  next =>
    exact ⟨fun henabled => inRange_noted (hcursors henabled) _,
      hsize.trans (Occupancy.size_ofFlags ..).symm⟩

/-- No access of an uplink trigger stops it, if the map of reserved blocks has the size of the grid
and the buffers are well formed. -/
theorem decideChecked_eq (hsound : UplinkTable.Sound s.uplink.ues)
    (hcursors : s.config.harqEnabled = true → UplinkTable.InRange s.uplink.ues)
    (hsize : s.uplink.reserved.size = grid.uplink) (time : Subframe)
    (outcomes : List UplinkOutcome) :
    decideChecked s grid time outcomes = pure (decide s grid time outcomes) := by
  have heq : retransmit s.config.harqEnabled
      ⟨s.uplink.ues.map fun _ u => noteRequest s.config.requestBytes u, opened s grid,
        s.uplink.reserved, []⟩ outcomes = retries s grid outcomes := rfl
  obtain ⟨hinRange, hretries⟩ := apt_retries hsound hcursors hsize outcomes
  unfold decideChecked
  dsimp only
  rw [occupancyChecked_eq hsize, pure_bind]
  change (retransmitChecked s.config.harqEnabled ⟨_, opened s grid, _, _⟩ outcomes >>= _) = _
  rw [retransmitChecked_eq fun henabled => apt_start hsound (hcursors henabled) hsize, pure_bind,
    heq, candidatesChecked_eq, pure_bind, sendNewChecked_eq hinRange hretries, pure_bind,
    nextTurnChecked_eq, pure_bind]
  rfl

end UplinkTrigger

end LteMac
