import LteMac.Radio.LinkAdaptation
import LteMac.Scheduler.Request

/-!
# Answering random accesses

Each preamble that was heard exactly once is answered by a grant of uplink blocks for the next
uplink subframe. The preambles are served in the order in which they were heard and the blocks
are taken from the lowest on; each grant is the shortest one that carries what the UE wants to
send. The first preamble that does not fit ends the round. The answered blocks are reserved, and
become the present block of the UE's uplink process.
-/

namespace LteMac.Access

/-- The power command of every answer. -/
def powerCommand : Nat := 3

/-- What decides the answers of one round. -/
structure Round where
  /-- Uplink blocks of the cell. -/
  blocks : Nat
  /-- The uplink blocks usable cell-wide. -/
  usable : List Bool
  /-- The longest answer. -/
  longest : Nat
  /-- The scheme of every answer. -/
  mcs : Nat
  /-- The preambles of the round, answered or not. -/
  batch : List Preamble

namespace Round

variable (round : Round)

/-- Whether several UEs sent the same preamble. -/
def collides (p : Preamble) : Bool := 1 < round.batch.countP (·.id == p.id)

/-- Whether a block can be part of an answer. -/
def isFree (reserved : BlockMap) (block : Nat) : Bool :=
  flagAt round.usable block && reserved.isFree block

/-- The first free block from `from` on, or the end of the grid. -/
def firstFree (reserved : BlockMap) (start : Nat) : Nat :=
  ((List.range' start (round.blocks - start)).find? (round.isFree reserved)).getD
    (max start round.blocks)

/-- How many blocks an answer that begins at `start` could have. -/
def room (reserved : BlockMap) (start : Nat) : Nat :=
  ((List.range' start round.longest).takeWhile (round.isFree reserved)).length

/-- The length of an answer that begins at `start`: the least one that carries what is wanted. -/
def fit? (reserved : BlockMap) (start size : Nat) : Option Nat :=
  (List.range' 1 (round.room reserved start)).find? fun length =>
    size ≤ LinkAdaptation.uplinkBits round.mcs length

/-- The answer to a preamble. -/
def grant (p : Preamble) (start length : Nat) : AccessGrant where
  rnti := p.rnti
  preamble := p.id
  start
  length
  tbs := LinkAdaptation.uplinkBytes round.mcs length
  mcs := round.mcs
  hopping := false
  tpc := powerCommand
  cqiRequest := false
  delayed := false

/-- Answers the preambles of a list, from a block on, on top of what is reserved already. -/
def answer (reserved : BlockMap) (start : Nat) : List Preamble → BlockMap × List AccessGrant
  | [] => (reserved, [])
  | p :: rest =>
    if round.collides p then answer reserved start rest
    else
      let first := round.firstFree reserved start
      match round.fit? reserved first p.size with
      | none => (reserved, [])
      | some length =>
        let grant := round.grant p first length
        let (reserved, grants) :=
          answer (reserved.assign grant.blocks p.rnti) (first + length) rest
        (reserved, grant :: grants)

end Round

/-- The uplink block that an answer stands for. -/
def uplinkGrant (g : AccessGrant) : UplinkGrant where
  rnti := g.rnti
  start := g.start
  length := g.length
  tbs := g.tbs
  mcs := g.mcs
  ndi := 1
  tpc := tpcNeutral
  cqiRequest := false
  hopping := false

/-- Notes the block of an answer in the uplink process of its UE, if the UE is configured. -/
def storeGrant (ues : Table Rnti UplinkUe) (g : AccessGrant) : Table Rnti UplinkUe :=
  ues.modify g.rnti fun u => { u with harq := u.harq.store (uplinkGrant g) }

/-- The round of a cell. -/
def roundOf {Record : Type} (s : SchedulerState Record) (grid : Grid) : Round where
  blocks := grid.uplink
  usable := s.reuse.uplinkFlags
  longest := s.reuse.contiguousBlocks
  mcs := s.config.accessMcs
  batch := s.preambles

/-- Answers the preambles of a cell: the uplink with the answers reserved and stored, and the
answers. -/
def answerAll {Record : Type} (s : SchedulerState Record) (grid : Grid) :
    UplinkState × List AccessGrant :=
  let (reserved, grants) := (roundOf s grid).answer s.uplink.reserved 0 s.preambles
  let ues := if s.config.harqEnabled then grants.foldl storeGrant s.uplink.ues else s.uplink.ues
  ({ s.uplink with reserved, ues }, grants)

end LteMac.Access
