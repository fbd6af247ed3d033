import LteMac.Proofs.Checked.Blocks
import LteMac.Proofs.Checked.Harq
import LteMac.Proofs.Checked.LinkTables
import LteMac.Proofs.Downlink.Access
import LteMac.Proofs.Downlink.Trigger
import Mathlib.Data.Fintype.Card

/-!
# Checked stages of a downlink subframe

The stages of a downlink trigger index the grid, the processes and the tables, cut slices of the
reserved blocks and of the lists of free groups, shift bits into bitmaps and divide transport
blocks. They do not stop as long as the grid has at most 32 groups and the entities of the UEs are
`Separate` (`DownlinkApt`), and each of them keeps that up for the next one.

As in the uplink, every function has a checked twin, and the two are equal under what the accesses
of the function need. Three of these are worth a look. A bitmap has 32 bits, and the widest carrier
has 25 groups. Entities are slots of an arena, and looking one up does not fail because every UE in
the index has a slot of its own. And a block is divided by the number of active channels as a word
of 16 bits, which would be 0 for 65536 of them: but channels are numbered by bytes, and there is at
least one when it comes to dividing.

* `Access.answerAllChecked_eq`, `Paging.sendAllChecked_eq`, `Retransmission.handleAllChecked_eq`,
  `NewData.foldlM_serveChecked`: the stages.
-/

namespace LteMac

/-- What the stages find in place: an entity for each UE, and a grid whose groups fit into a
bitmap. -/
structure DownlinkApt (harq : DownlinkHarq) (o : Occupancy) : Prop where
  /-- Every UE has a slot of its own. -/
  separate : harq.Separate
  /-- The groups fit in a bitmap. -/
  size : o.size ≤ 32

namespace DownlinkApt

variable {harq : DownlinkHarq} {o : Occupancy} {r : Rnti} {id : Nat} {p : DownlinkProcess}

/-- Writing a process keeps the entities apart. -/
theorem set (h : DownlinkApt harq o) : DownlinkApt (harq.set r id p) o :=
  ⟨h.separate.set, h.size⟩

/-- Handing groups out does not change how many there are. -/
theorem occupy (h : DownlinkApt harq o) (rbgs : List Nat) : DownlinkApt harq (o.occupy rbgs) :=
  ⟨h.separate, (Occupancy.size_occupy o rbgs).trans_le h.size⟩

/-- The groups of the grid have a place in a bitmap. -/
theorem lt_width (h : DownlinkApt harq o) {rbgs : List Nat} (hrbgs : ∀ i ∈ rbgs, i < o.size) :
    ∀ i ∈ rbgs, i < 32 := fun i hi => Nat.lt_of_lt_of_le (hrbgs i hi) h.size

end DownlinkApt

/-! ## Answers to random accesses

An answer takes a slice of the reserved blocks, and is stored at the cursor of its UE. The slice
lies in the grid because only free blocks are counted as room, and no block beyond the grid is free.
-/

namespace Access

namespace Round

variable (round : Round)

/-- The length of an answer that begins at `start`. -/
def fitChecked? (reserved : BlockMap) (start size : Nat) : Checked (Option Nat) :=
  (List.range' 1 (round.room reserved start)).findM? fun length =>
    (fun bits => decide (size ≤ bits)) <$> LinkAdaptation.uplinkBitsChecked round.mcs length

/-- Answers the preambles of a list. -/
def answerChecked (reserved : BlockMap) (start : Nat) :
    List Preamble → Checked (BlockMap × List AccessGrant)
  | [] => pure (reserved, [])
  | p :: rest => do
    if round.collides p then answerChecked reserved start rest
    else
      let first := round.firstFree reserved start
      match ← round.fitChecked? reserved first p.size with
      | none => return (reserved, [])
      | some length =>
        let reserved ← reserved.assignSliceChecked first length p.rnti
        let (reserved, grants) ← answerChecked reserved (first + length) rest
        return (reserved, round.grant p first length :: grants)

variable {round}

/-- The sizes of an answer are looked up for lengths that there are. -/
theorem fitChecked?_eq (reserved : BlockMap) (start size : Nat) :
    round.fitChecked? reserved start size = pure (round.fit? reserved start size) :=
  Checked.findM?_eq fun _ _ => by rw [LinkAdaptation.uplinkBitsChecked_eq, map_pure]

/-- The stretch of an answer lies in the map of reserved blocks. -/
theorem le_size_of_fit? {reserved : BlockMap} {start size length : Nat}
    (h : round.fit? reserved start size = some length) : start + length ≤ reserved.size := by
  obtain ⟨hpos, hfree⟩ := free_of_fit? h
  have hlast := hfree (start + length - 1) (List.mem_range'_1.2 (by omega))
  have howner := BlockMap.isFree_iff.1 (Bool.and_eq_true_iff.1 hlast).2
  have hlt : start + length - 1 < reserved.size := (Array.getElem?_eq_some_iff.1 howner).1
  omega

/-- No preamble stops the stage. The stretch of an answer is cut out of the map of reserved blocks,
where it was found. -/
theorem answerChecked_eq (preambles : List Preamble) (reserved : BlockMap) (start : Nat) :
    round.answerChecked reserved start preambles =
      pure (round.answer reserved start preambles) := by
  induction preambles generalizing reserved start with
  | nil => rfl
  | cons p rest ih =>
    unfold answerChecked answer
    split
    · exact ih reserved start
    · dsimp only
      rw [fitChecked?_eq, pure_bind]
      cases hfit : round.fit? reserved (round.firstFree reserved start) p.size with
      | none => rfl
      | some length =>
        dsimp only
        rw [BlockMap.assignSliceChecked_eq (le_size_of_fit? hfit), pure_bind, ih, pure_bind]
        rfl

end Round

/-- Notes the block of an answer in the uplink process of its UE. -/
def storeGrantChecked (ues : Table Rnti UplinkUe) (g : AccessGrant) :
    Checked (Table Rnti UplinkUe) :=
  Checked.modify ues g.rnti fun u =>
    (fun harq => { u with harq }) <$> u.harq.storeChecked (uplinkGrant g)

/-- Answers the preambles of a cell. -/
def answerAllChecked {Record : Type} (s : SchedulerState Record) (grid : Grid) :
    Checked (UplinkState × List AccessGrant) := do
  let (reserved, grants) ← (roundOf s grid).answerChecked s.uplink.reserved 0 s.preambles
  let ues ← if s.config.harqEnabled then grants.foldlM storeGrantChecked s.uplink.ues
    else pure s.uplink.ues
  return ({ s.uplink with reserved, ues }, grants)

/-- No access of the answers stops the trigger. -/
theorem answerAllChecked_eq {Record : Type} {s : SchedulerState Record}
    (hues : s.config.harqEnabled = true → UplinkTable.InRange s.uplink.ues) (grid : Grid) :
    answerAllChecked s grid = pure (answerAll s grid) := by
  have hstore : ∀ ues, UplinkTable.InRange ues → ∀ g,
      storeGrantChecked ues g = pure (storeGrant ues g) := fun ues h g =>
    Checked.modify_eq fun u hu => by rw [UplinkEntity.storeChecked_eq (h _ u hu), map_pure]
  rw [answerAllChecked, Round.answerChecked_eq, pure_bind, answerAll]
  dsimp only
  split
  next henabled =>
    rw [Checked.foldlM_eq UplinkTable.InRange (fun ues h g _ => hstore ues h g)
      (fun ues h g _ => h.modify fun u hu => hu) (hues henabled)]
    rfl
  next => rfl

end Access

/-! ## Paging

A message takes the first of the free groups, and there are as many as it takes because it was
granted no more.
-/

namespace Paging

/-- The least number of groups that carries a message. -/
def fitChecked? (grid : Grid) (available size : Nat) : Checked (Option Nat) :=
  (List.range' 1 available).findM? fun n =>
    (fun bits => decide (size ≤ bits / 8)) <$>
      LinkAdaptation.downlinkBitsChecked mcs (n * grid.rbgSize)

/-- The grant of a message. -/
def grantChecked (grid : Grid) (rbgs : List Nat) : Checked DownlinkGrant := do
  let tbs ← LinkAdaptation.downlinkBytesChecked mcs (rbgs.length * grid.rbgSize)
  let bitmap ← RbgBitmap.ofIndicesChecked rbgs
  return { grant grid rbgs with bitmap, tbs := [tbs] }

/-- Sends a message, or lets it wait. -/
def Round.sendChecked (grid : Grid) (round : Round) (message : PagingMessage) :
    Checked Round := do
  let available ← round.occupancy.freeBlocksChecked
  match ← fitChecked? grid available.length message.size with
  | none => return { round with waiting := round.waiting ++ [message] }
  | some n =>
    let rbgs ← Checked.slice available 0 n
    let occupancy ← round.occupancy.occupyChecked rbgs
    let grant ← grantChecked grid rbgs
    return { round with occupancy, sent := round.sent ++ [⟨message.index, grant⟩] }

/-- Goes through the queue. -/
def sendAllChecked (grid : Grid) (occupancy : Occupancy) (queue : List PagingMessage) :
    Checked Round :=
  queue.foldlM (Round.sendChecked grid) ⟨occupancy, [], []⟩

/-- The sizes of a paging message are looked up for numbers of groups that there are. -/
theorem fitChecked?_eq (grid : Grid) (available size : Nat) :
    fitChecked? grid available size = pure (fit? grid available size) :=
  Checked.findM?_eq fun _ _ => by rw [LinkAdaptation.downlinkBitsChecked_eq, map_pure]

/-- The grant of a message has a place for each of its groups. -/
theorem grantChecked_eq (grid : Grid) {rbgs : List Nat} (h : ∀ i ∈ rbgs, i < 32) :
    grantChecked grid rbgs = pure (grant grid rbgs) := by
  rw [grantChecked, LinkAdaptation.downlinkBytesChecked_eq, pure_bind,
    RbgBitmap.ofIndicesChecked_eq h, pure_bind]
  rfl

/-- No message stops the stage. -/
theorem Round.sendChecked_eq (grid : Grid) {round : Round} (hsize : round.occupancy.size ≤ 32)
    (message : PagingMessage) :
    round.sendChecked grid message = pure (round.send grid message) := by
  rw [sendChecked, Occupancy.freeBlocksChecked_eq, pure_bind, fitChecked?_eq, pure_bind, send]
  cases hfit : fit? grid round.occupancy.freeBlocks.length message.size with
  | none => rfl
  | some n =>
    have hn : n ≤ round.occupancy.freeBlocks.length := by
      have hrange := (List.mem_range'_1.1 (List.mem_of_find?_eq_some hfit)).2
      omega
    have hlt : ∀ i ∈ round.occupancy.freeBlocks.take n, i < round.occupancy.size := fun i hi =>
      Occupancy.lt_size_of_isFree (Occupancy.mem_freeBlocks.1 (List.mem_of_mem_take hi))
    dsimp only
    rw [Checked.slice_eq (Nat.zero_le _) hn, pure_bind, List.drop_zero,
      Occupancy.occupyChecked_eq hlt, pure_bind,
      grantChecked_eq grid fun i hi => Nat.lt_of_lt_of_le (hlt i hi) hsize, pure_bind]

/-- Paging does not change how many groups there are. -/
theorem Round.size_send (grid : Grid) (round : Round) (message : PagingMessage) :
    (round.send grid message).occupancy.size = round.occupancy.size := by
  unfold send
  dsimp only
  split
  · rfl
  · exact Occupancy.size_occupy _ _

/-- No access of paging stops the trigger. -/
theorem sendAllChecked_eq (grid : Grid) {o : Occupancy} (hsize : o.size ≤ 32)
    (queue : List PagingMessage) : sendAllChecked grid o queue = pure (sendAll grid o queue) :=
  Checked.foldlM_eq (fun round => round.occupancy.size ≤ 32)
    (fun _ h message _ => Round.sendChecked_eq grid h message)
    (fun round h message _ => (round.size_send grid message).trans_le h) hsize

end Paging

/-! ## Retransmissions

A block takes as many groups as it had, each of which is looked up in the occupancy, and goes to a
process of the arena. Both are as long as they were when the pass began.
-/

namespace Retransmission

variable {reuse : ReusePolicy} {round : Round}

/-- Whether a group can be given to a UE. -/
def usableChecked (reuse : ReusePolicy) (occupancy : Occupancy) (rnti : Rnti) (rbg : Nat) :
    Checked Bool :=
  if rbg < occupancy.size then
    (· && reuse.downlinkAllowed rbg rnti) <$> occupancy.isFreeChecked rbg
  else pure false

/-- The groups for a block that was on `former`. -/
def placeChecked? (reuse : ReusePolicy) (occupancy : Occupancy) (rnti : Rnti)
    (former : List Nat) : Checked (Option (List Nat)) := do
  if ← former.allM (usableChecked reuse occupancy rnti) then return some former
  else
    let usable ← (List.range occupancy.size).filterM (usableChecked reuse occupancy rnti)
    let others := usable.take former.length
    return if others.length < former.length then none else some others

/-- The grant of a block that is sent again. -/
def againChecked (grant : DownlinkGrant) (rbgs : List Nat) : Checked DownlinkGrant := do
  let bitmap ← RbgBitmap.ofIndicesChecked rbgs
  return { again grant rbgs with bitmap }

namespace Round

/-- Frees a process. -/
def freeChecked (round : Round) (rnti : Rnti) (id : Nat) : Checked Round := do
  let harq ← round.harq.setChecked rnti id .free
  return { round with harq }

/-- Sends the block of a process again. -/
def sendChecked (round : Round) (rnti : Rnti) (id : Nat) (p : DownlinkProcess)
    (grant : DownlinkGrant) (rbgs : List Nat) : Checked Round := do
  let occupancy ← round.occupancy.occupyChecked rbgs
  let grant ← againChecked grant rbgs
  let harq ← round.harq.setChecked rnti id ⟨p.status + 1, 0, some grant, p.pdus⟩
  return { round with harq, occupancy, sent := round.sent ++ [⟨rnti, grant, .empty, p.pdus⟩] }

/-- Acts upon a failed block. -/
def retryChecked (reuse : ReusePolicy) (round : Round) (f : HarqFeedback) (p : DownlinkProcess) :
    Checked Round := do
  if round.served f.rnti then return round.keep f
  else
    match p.grant with
    | none => round.freeChecked f.rnti f.process
    | some grant =>
      if exhausted grant then round.freeChecked f.rnti f.process
      else
        let former ← grant.bitmap.indicesChecked
        match ← placeChecked? reuse round.occupancy f.rnti former with
        | none => return round.keep f
        | some rbgs => round.sendChecked f.rnti f.process p grant rbgs

/-- Acts upon feedback. -/
def handleChecked (reuse : ReusePolicy) (round : Round) (f : HarqFeedback) : Checked Round := do
  match ← round.harq.processChecked? f.rnti f.process with
  | none => return round
  | some p =>
    if p.isFree then return round
    else if p.isOverdue || !f.isNack then round.freeChecked f.rnti f.process
    else round.retryChecked reuse f p

end Round

/-- Acts upon a list of feedback. -/
def handleAllChecked (reuse : ReusePolicy) (harq : DownlinkHarq) (occupancy : Occupancy)
    (feedback : List HarqFeedback) : Checked Round :=
  feedback.foldlM (Round.handleChecked reuse) ⟨harq, occupancy, [], []⟩

/-- A group is looked up only if it is in the grid. -/
theorem usableChecked_eq (o : Occupancy) (rnti : Rnti) (rbg : Nat) :
    usableChecked reuse o rnti rbg = pure (usable reuse o rnti rbg) := by
  unfold usableChecked usable
  split
  next h => rw [Occupancy.isFreeChecked_eq h, map_pure]
  next h =>
    cases hfree : o.isFree rbg with
    | false => rfl
    | true => exact absurd (Occupancy.lt_size_of_isFree hfree) h

/-- Placing a block again does not look beyond the grid either. -/
theorem placeChecked?_eq (o : Occupancy) (rnti : Rnti) (former : List Nat) :
    placeChecked? reuse o rnti former = pure (place? reuse o rnti former) := by
  have husable : ∀ rbg, usableChecked reuse o rnti rbg = pure (usable reuse o rnti rbg) :=
    usableChecked_eq o rnti
  rw [placeChecked?, Checked.allM_eq fun rbg _ => husable rbg, pure_bind, place?]
  split
  · rfl
  · rw [Checked.filterM_eq fun rbg _ => husable rbg, pure_bind]

namespace Round

/-- The process of a UE in the index is there to be freed. -/
theorem freeChecked_eq (hs : round.harq.Separate) (rnti : Rnti) (id : Nat) :
    round.freeChecked rnti id = pure (round.free rnti id) := by
  rw [freeChecked, DownlinkHarq.setChecked_eq hs, pure_bind, free]

/-- A block is sent again on groups of the grid, for which its bitmap has a place. -/
theorem sendChecked_eq (h : DownlinkApt round.harq round.occupancy) {rnti : Rnti}
    {rbgs : List Nat} (hrbgs : ∀ i ∈ rbgs, i < round.occupancy.size) (id : Nat)
    (p : DownlinkProcess) (grant : DownlinkGrant) :
    round.sendChecked rnti id p grant rbgs = pure (round.send rnti id p grant rbgs) := by
  rw [sendChecked, Occupancy.occupyChecked_eq hrbgs, pure_bind, againChecked,
    RbgBitmap.ofIndicesChecked_eq (h.lt_width hrbgs), pure_bind, pure_bind,
    DownlinkHarq.setChecked_eq h.separate, pure_bind]
  rfl

/-- No failure stops the pass. -/
theorem retryChecked_eq (h : DownlinkApt round.harq round.occupancy) (f : HarqFeedback)
    (p : DownlinkProcess) :
    round.retryChecked reuse f p = pure (round.retry reuse f p) := by
  unfold retryChecked retry
  split
  · rfl
  · cases p.grant with
    | none => exact freeChecked_eq h.separate ..
    | some grant =>
      dsimp only
      split
      · exact freeChecked_eq h.separate ..
      · rw [RbgBitmap.indicesChecked_eq, pure_bind, placeChecked?_eq, pure_bind]
        cases hplace : place? reuse round.occupancy f.rnti grant.bitmap.indices with
        | none => rfl
        | some rbgs =>
          obtain ⟨-, -, husable⟩ := place?_eq_some hplace (RbgBitmap.pairwise_indices _)
          exact sendChecked_eq h (fun i hi =>
            Occupancy.lt_size_of_isFree (usable_iff.1 (husable i hi)).1) ..

/-- No feedback stops the pass. -/
theorem handleChecked_eq (h : DownlinkApt round.harq round.occupancy) (f : HarqFeedback) :
    round.handleChecked reuse f = pure (round.handle reuse f) := by
  rw [handleChecked, DownlinkHarq.processChecked?_eq h.separate, pure_bind, handle]
  cases round.harq.process? f.rnti f.process with
  | none => rfl
  | some p =>
    dsimp only
    split
    · rfl
    · split
      · exact freeChecked_eq h.separate ..
      · exact retryChecked_eq h f p

/-- Acting upon feedback keeps up what the next piece needs. -/
theorem apt_handle (h : DownlinkApt round.harq round.occupancy) (f : HarqFeedback) :
    DownlinkApt (round.handle reuse f).harq (round.handle reuse f).occupancy := by
  have hhandled := handled_handle reuse round f
  revert hhandled
  generalize round.handle reuse f = round'
  rintro (_ | _ | _ | _)
  · exact h
  · exact h.set
  · exact h
  · exact h.set.occupy _

end Round

/-- The pass keeps up what the new data need. -/
theorem apt_handleAll {harq : DownlinkHarq} {o : Occupancy} (h : DownlinkApt harq o)
    (feedback : List HarqFeedback) :
    DownlinkApt (handleAll reuse harq o feedback).harq
      (handleAll reuse harq o feedback).occupancy :=
  List.foldlRecOn (motive := fun round : Round => DownlinkApt round.harq round.occupancy)
    feedback _ h fun _ h f _ => Round.apt_handle h f

/-- No access of the retransmissions stops the trigger. -/
theorem handleAllChecked_eq {harq : DownlinkHarq} {o : Occupancy} (h : DownlinkApt harq o)
    (feedback : List HarqFeedback) :
    handleAllChecked reuse harq o feedback = pure (handleAll reuse harq o feedback) :=
  Checked.foldlM_eq (fun round => DownlinkApt round.harq round.occupancy)
    (fun _ h f _ => Round.handleChecked_eq h f) (fun _ h f _ => Round.apt_handle h f) h

end Retransmission

/-! ## New data

The groups of an offer are claimed one by one, the size of the block is shared among the channels
that have something to send, and there is one such channel at least. The process is one that the UE
has moved on to.
-/

namespace NewData

variable {Record : Type} {setting : Setting} {round : Round Record}

/-- Takes those of the proposed groups that a UE may have. -/
def claimChecked (reuse : ReusePolicy) (rnti : Rnti) (occupancy : Occupancy) :
    List Nat → Checked (Occupancy × List Nat)
  | [] => pure (occupancy, [])
  | rbg :: rest => do
    if ← Retransmission.usableChecked reuse occupancy rnti rbg then
      let occupancy ← occupancy.occupyChecked [rbg]
      let (occupancy, rbgs) ← claimChecked reuse rnti occupancy rest
      return (occupancy, rbg :: rbgs)
    else claimChecked reuse rnti occupancy rest

/-- The shares of the active channels; their number is a word of 16 bits. -/
def shareChecked (channels : List Lcid) (tbs : List Nat) : Checked (List (List Pdu)) :=
  channels.mapM fun lcid => tbs.mapM fun tb =>
    (fun size => ⟨lcid, size⟩) <$> Checked.divide tb (UInt16.ofNat channels.length).toNat

namespace Setting

variable (setting : Setting)

/-- The process for a new block, with the processes after its assignment. -/
def processChecked? (harq : DownlinkHarq) (rnti : Rnti) :
    Checked (Option (Nat × DownlinkHarq)) :=
  if setting.harqEnabled then harq.advanceChecked? rnti else pure (some (0, harq))

/-- The grant of a new block. -/
def grantChecked (rnti : Rnti) (rbgs cqis : List Nat) (process : Nat) :
    Checked DownlinkGrant := do
  let mcs ← cqis.mapM LinkAdaptation.mcsOfCqiChecked
  let tbs ← mcs.mapM
    (LinkAdaptation.downlinkBytesChecked · (rbgs.length * setting.grid.rbgSize))
  let bitmap ← RbgBitmap.ofIndicesChecked rbgs
  return { setting.grant rnti rbgs cqis process with bitmap, tbs, mcs }

/-- Sends new data to a UE, if it can be served. -/
def sendChecked? (round : Round Record) (rnti : Rnti) (u : DownlinkUe Record)
    (rbgs : List Nat) : Checked (Option (Round Record)) := do
  let cqis := setting.layerCqis rnti rbgs
  if cqis.contains 0 then return none
  else
    match ← setting.processChecked? round.harq rnti with
    | none => return none
    | some (process, harq) =>
      let grant ← setting.grantChecked rnti rbgs cqis process
      let channels := activeChannels u.queues
      let pdus ← shareChecked channels grant.tbs
      let harq ← if setting.harqEnabled then harq.setChecked rnti process (.start grant pdus)
        else pure harq
      let block : DataGrant := ⟨rnti, grant, u.elements.getD .empty, pdus⟩
      let u := { u with queues := drainAll u.queues channels grant.tbs, elements := none }
      return some
        { ues := round.ues.insert rnti u
          harq
          feedback :=
            if setting.harqEnabled then
              round.feedback.filter fun f => f.rnti ≠ rnti || f.process ≠ process
            else round.feedback
          occupancy := round.occupancy
          sent := round.sent ++ [block] }

/-- Serves a candidate with the groups proposed for it, or has it give back what it took. -/
def serveChecked (proposal : Allocation) (round : Round Record) (rnti : Rnti) :
    Checked (Round Record) := do
  let (occupancy, claimed) ←
    claimChecked setting.reuse rnti round.occupancy (proposal.getD rnti [])
  let rbgs := claimed.mergeSort
  match round.ues[rnti]? with
  | none => return round
  | some u =>
    if rbgs.isEmpty then return round
    else
      match ← setting.sendChecked? { round with occupancy } rnti u rbgs with
      | some round => return round
      | none =>
        let occupancy ← occupancy.vacateChecked rbgs
        return { round with occupancy }

end Setting

/-- Claiming takes those of the proposed groups that are in the grid, so a proposal may be anything.
-/
theorem claimChecked_eq (reuse : ReusePolicy) (rnti : Rnti) (proposed : List Nat)
    (o : Occupancy) :
    claimChecked reuse rnti o proposed = pure (claim reuse rnti o proposed) := by
  induction proposed generalizing o with
  | nil => rfl
  | cons rbg rest ih =>
    rw [claimChecked, Retransmission.usableChecked_eq, pure_bind, claim]
    split
    next husable =>
      have hlt : rbg < o.size :=
        Occupancy.lt_size_of_isFree (Retransmission.usable_iff.1 husable).1
      rw [Occupancy.occupyChecked_eq (by simpa using hlt), pure_bind, ih, pure_bind]
    next => exact ih o

/-- There are at most as many active channels as identities. -/
theorem length_activeChannels_le (queues : Table Lcid RlcQueue) :
    (activeChannels queues).length ≤ 256 := by
  have hnodup : ((activeChannels queues).map UInt8.toFin).Nodup :=
    List.Nodup.map (fun _ _ h => UInt8.toFin_inj.1 h) Std.ExtTreeMap.nodup_keys
  simpa using hnodup.length_le_card

/-- A block is divided only if there is a channel to share it, and their number fits into the word.
-/
theorem shareChecked_eq {channels : List Lcid} (h : channels.length ≤ 256) (tbs : List Nat) :
    shareChecked channels tbs = pure (share channels tbs) := by
  have hlen : (UInt16.ofNat channels.length).toNat = channels.length :=
    UInt16.toNat_ofNat_of_lt' (by simp [UInt16.size]; omega)
  refine Checked.mapM_eq fun lcid hlcid => Checked.mapM_eq fun tb _ => ?_
  rw [hlen, Checked.divide_eq (List.length_pos_of_mem hlcid), map_pure]

namespace Setting

/-- The process for a new block is looked for in the entity of a UE in the index. -/
theorem processChecked?_eq {harq : DownlinkHarq} (hs : harq.Separate) (rnti : Rnti) :
    setting.processChecked? harq rnti = pure (setting.process? harq rnti) := by
  unfold processChecked? process?
  split
  · exact DownlinkHarq.advanceChecked?_eq hs rnti
  · rfl

/-- The grant of a new block has a place for each of its groups. -/
theorem grantChecked_eq (rnti : Rnti) {rbgs : List Nat} (h : ∀ i ∈ rbgs, i < 32)
    (cqis : List Nat) (process : Nat) :
    setting.grantChecked rnti rbgs cqis process =
      pure (setting.grant rnti rbgs cqis process) := by
  rw [grantChecked, Checked.mapM_eq fun cqi _ => LinkAdaptation.mcsOfCqiChecked_eq cqi, pure_bind,
    Checked.mapM_eq fun mcs _ => LinkAdaptation.downlinkBytesChecked_eq mcs _, pure_bind,
    RbgBitmap.ofIndicesChecked_eq h, pure_bind]
  rfl

/-- Sending new data looks up nothing that is not there. -/
theorem sendChecked?_eq (hs : round.harq.Separate) (rnti : Rnti) (u : DownlinkUe Record)
    {rbgs : List Nat} (h : ∀ i ∈ rbgs, i < 32) :
    setting.sendChecked? round rnti u rbgs = pure (setting.send? round rnti u rbgs) := by
  unfold sendChecked? send?
  dsimp only
  split
  · rfl
  · rw [processChecked?_eq hs, pure_bind]
    cases hproc : setting.process? round.harq rnti with
    | none => rfl
    | some out =>
      obtain ⟨process, harq⟩ := out
      dsimp only
      rw [grantChecked_eq rnti h, pure_bind, shareChecked_eq (length_activeChannels_le _),
        pure_bind]
      split
      · rw [DownlinkHarq.setChecked_eq (separate_of_process? hs hproc), pure_bind]
      · rw [pure_bind]

end Setting

/-- No candidate stops the pass, whatever is proposed for it. -/
theorem Setting.serveChecked_eq (h : DownlinkApt round.harq round.occupancy)
    (proposal : Allocation) (rnti : Rnti) :
    setting.serveChecked proposal round rnti = pure (setting.serve proposal round rnti) := by
  obtain ⟨claimed, hclaim, -, husable⟩ :=
    claim_eq setting.reuse rnti (proposal.getD rnti []) round.occupancy
  have hperm : claimed.mergeSort.Perm claimed := List.mergeSort_perm ..
  have hfree : ∀ i ∈ claimed.mergeSort, round.occupancy.isFree i = true := fun i hi =>
    (Retransmission.usable_iff.1 (husable i (hperm.mem_iff.1 hi))).1
  have hlt : ∀ i ∈ claimed.mergeSort, i < round.occupancy.size := fun i hi =>
    Occupancy.lt_size_of_isFree (hfree i hi)
  rw [serveChecked, claimChecked_eq, pure_bind, serve, hclaim]
  dsimp only
  cases round.ues[rnti]? with
  | none => rfl
  | some u =>
    dsimp only
    split
    · rfl
    · let claiming := { round with occupancy := round.occupancy.occupy claimed }
      have hsep : claiming.harq.Separate := h.separate
      rw [sendChecked?_eq hsep rnti u (h.lt_width hlt), pure_bind]
      cases setting.send? claiming rnti u claimed.mergeSort with
      | some round => rfl
      | none =>
        -- Giving the groups back leaves the grid as it was before they were taken.
        dsimp only
        rw [← Occupancy.occupy_perm hperm, Occupancy.vacateChecked_eq fun i hi => by
          rw [Occupancy.size_occupy]; exact hlt i hi, pure_bind, Occupancy.vacate_occupy hfree]
        rfl

/-- Serving a candidate keeps up what the next one needs. -/
theorem apt_serve (h : DownlinkApt round.harq round.occupancy) (proposal : Allocation)
    (rnti : Rnti) :
    DownlinkApt (setting.serve proposal round rnti).harq
      (setting.serve proposal round rnti).occupancy := by
  have hserved := served_serve setting proposal round rnti
  revert hserved
  generalize setting.serve proposal round rnti = round'
  rintro (_ | @⟨_, harq, _, _, _, _, _, _, _, _, _, hproc⟩)
  · exact h
  · have hassigned : DownlinkApt harq round.occupancy :=
      ⟨Setting.separate_of_process? h.separate hproc, h.size⟩
    dsimp only
    split
    · exact hassigned.set.occupy _
    · exact hassigned.occupy _

/-- Serves the candidates one after the other. -/
theorem foldlM_serveChecked (h : DownlinkApt round.harq round.occupancy) (proposal : Allocation)
    (candidates : List Rnti) :
    candidates.foldlM (setting.serveChecked proposal) round =
      pure (candidates.foldl (setting.serve proposal) round) :=
  Checked.foldlM_eq (fun round => DownlinkApt round.harq round.occupancy)
    (fun _ h rnti _ => Setting.serveChecked_eq h proposal rnti)
    (fun _ h rnti _ => apt_serve h proposal rnti) h

end NewData

end LteMac
