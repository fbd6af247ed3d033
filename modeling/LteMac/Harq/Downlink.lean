import LteMac.Radio.Grant

/-!
# Downlink retransmission processes

Every UE owns eight processes, each of which carries one block from its first transmission until
it is delivered, given up, or left without feedback for too long. The entities of all UEs live in
one arena of slots: an index says which slot a UE has, and the slots of released UEs are handed
out again, the latest released first.
-/

namespace LteMac

/-- Processes of a UE. -/
def harqProcesses : Nat := 8

/-- Subframes after which a block without feedback is given up. -/
def harqTimeout : Nat := 11

/-- The last redundancy version: a block that fails on it is given up. -/
def maxRedundancyVersion : Nat := 3

/-- One downlink process. -/
structure DownlinkProcess where
  /-- 0 if free, otherwise the transmissions of the block so far. -/
  status : Nat
  /-- Subframes since the last transmission. -/
  timer : Nat
  /-- How the block was last sent. -/
  grant : Option DownlinkGrant
  /-- What the block carries, by channel, then layer. -/
  pdus : List (List Pdu)
deriving DecidableEq

namespace DownlinkProcess

/-- A free process. -/
def free : DownlinkProcess := ⟨0, 0, none, []⟩

/-- A process whose block was just sent for the first time. -/
def start (grant : DownlinkGrant) (pdus : List (List Pdu)) : DownlinkProcess :=
  ⟨1, 0, some grant, pdus⟩

/-- Whether the process carries no block. -/
def isFree (p : DownlinkProcess) : Bool := p.status == 0

/-- Whether the process may carry a new block. -/
def isAvailable (p : DownlinkProcess) : Bool := p.status == 0 || harqTimeout ≤ p.timer

/-- Whether the feedback on its block is overdue. -/
def isOverdue (p : DownlinkProcess) : Bool := p.status != 0 && harqTimeout ≤ p.timer

/-- A process after one more subframe without feedback. -/
def age (p : DownlinkProcess) : DownlinkProcess :=
  if p.isFree then p else if p.isOverdue then free else { p with timer := p.timer + 1 }

end DownlinkProcess

/-- The processes of one UE. -/
structure DownlinkEntity where
  /-- The process last assigned. -/
  current : Nat
  /-- The processes, by number. -/
  processes : Vector DownlinkProcess harqProcesses
deriving DecidableEq

namespace DownlinkEntity

/-- All processes free. -/
def fresh : DownlinkEntity := ⟨0, Vector.replicate harqProcesses .free⟩

/-- A process by its number. -/
def process? (e : DownlinkEntity) (id : Nat) : Option DownlinkProcess := e.processes[id]?

/-- Puts a process in the place of another; a number out of range changes nothing. -/
def set (e : DownlinkEntity) (id : Nat) (p : DownlinkProcess) : DownlinkEntity :=
  { e with processes := e.processes.setIfInBounds id p }

/-- Whether some process may carry a new block. -/
def isAvailable (e : DownlinkEntity) : Bool := e.processes.toList.any (·.isAvailable)

/-- The numbers of all processes, cyclically after the current one. -/
def order (e : DownlinkEntity) : List Nat :=
  (List.range' 1 harqProcesses).map fun step => (e.current + step) % harqProcesses

/-- The first process after the current one that may carry a new block. -/
def next? (e : DownlinkEntity) : Option Nat :=
  e.order.find? fun id => (e.process? id).any (·.isAvailable)

/-- Makes a process the current one and frees it. -/
def assign (e : DownlinkEntity) (id : Nat) : DownlinkEntity :=
  { e.set id .free with current := id }

/-- The processes whose blocks the next subframe gives up. -/
def expiring (e : DownlinkEntity) : List Nat :=
  (List.range harqProcesses).filter fun id => (e.process? id).any (·.isOverdue)

/-- All processes after one more subframe. -/
def age (e : DownlinkEntity) : DownlinkEntity :=
  { e with processes := e.processes.map (·.age) }

end DownlinkEntity

/-- The arena of all entities of a cell. -/
structure DownlinkHarq where
  /-- The entities, in use or not. -/
  slots : Array DownlinkEntity
  /-- The slot of each UE. -/
  index : Table Rnti Nat
  /-- Released slots, the latest first. -/
  released : List Nat

namespace DownlinkHarq

/-- No UE. -/
def empty : DownlinkHarq := ⟨#[], ∅, []⟩

/-- The entity of a UE. -/
def entity? (h : DownlinkHarq) (rnti : Rnti) : Option DownlinkEntity :=
  h.index[rnti]?.bind (h.slots[·]?)

/-- Puts an entity in the slot of a UE. -/
def put (h : DownlinkHarq) (rnti : Rnti) (e : DownlinkEntity) : DownlinkHarq :=
  match h.index[rnti]? with
  | none => h
  | some slot => { h with slots := h.slots.setIfInBounds slot e }

/-- Gives a UE a fresh entity: in its own slot if it has one, else in the slot released last, else
in a new one. -/
def insert (h : DownlinkHarq) (rnti : Rnti) : DownlinkHarq :=
  match h.index[rnti]?, h.released with
  | some slot, _ => { h with slots := h.slots.setIfInBounds slot .fresh }
  | none, slot :: rest =>
    ⟨h.slots.setIfInBounds slot .fresh, h.index.insert rnti slot, rest⟩
  | none, [] => ⟨h.slots.push .fresh, h.index.insert rnti h.slots.size, []⟩

/-- Takes the entity of a UE away; its slot may be used again. -/
def erase (h : DownlinkHarq) (rnti : Rnti) : DownlinkHarq :=
  match h.index[rnti]? with
  | none => h
  | some slot =>
    ⟨h.slots.setIfInBounds slot .fresh, h.index.erase rnti, slot :: h.released⟩

/-- The number of UEs with an entity. -/
def size (h : DownlinkHarq) : Nat := h.index.size

/-- Whether a UE has an entity. -/
def contains (h : DownlinkHarq) (rnti : Rnti) : Bool := h.index.contains rnti

/-- A process of a UE. -/
def process? (h : DownlinkHarq) (rnti : Rnti) (id : Nat) : Option DownlinkProcess :=
  (h.entity? rnti).bind (·.process? id)

/-- Puts a process of a UE in the place of another. -/
def set (h : DownlinkHarq) (rnti : Rnti) (id : Nat) (p : DownlinkProcess) : DownlinkHarq :=
  match h.entity? rnti with
  | none => h
  | some e => h.put rnti (e.set id p)

/-- Whether a UE has a process that may carry a new block. -/
def isAvailable (h : DownlinkHarq) (rnti : Rnti) : Bool := (h.entity? rnti).any (·.isAvailable)

/-- Moves a UE on to its next available process, which is freed; `none` if it has none. -/
def advance? (h : DownlinkHarq) (rnti : Rnti) : Option (Nat × DownlinkHarq) := do
  let e ← h.entity? rnti
  let id ← e.next?
  return (id, h.put rnti (e.assign id))

/-- The processes whose blocks the next subframe gives up, by UE, then number. -/
def expiring (h : DownlinkHarq) : List (Rnti × Nat) :=
  h.index.keys.flatMap fun rnti =>
    ((h.entity? rnti).elim [] (·.expiring)).map fun id => (rnti, id)

/-- Every process after one more subframe without feedback. -/
def refresh (h : DownlinkHarq) : DownlinkHarq := { h with slots := h.slots.map (·.age) }

end DownlinkHarq

end LteMac
