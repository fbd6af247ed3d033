import LteMac.Radio.Grant

/-!
# Uplink retransmission processes

Uplink retransmission is synchronous: a process is not chosen, it follows from the subframe. Each
UE has eight processes and a cursor that every uplink trigger moves on by one; what is reported
now concerns the process used seven triggers ago.
-/

namespace LteMac

/-- Uplink processes of a UE. -/
def uplinkProcesses : Nat := 8

/-- Triggers between a grant and the outcome of its block. -/
def outcomeDelay : Nat := 7

/-- Retransmissions after which a failed block is given up. -/
def maxRetransmissions : Nat := 3

/-- One uplink process. -/
structure UplinkProcess where
  /-- Retransmissions of the block so far. -/
  attempts : Nat
  /-- How the block was last granted, if there is one. -/
  grant : Option UplinkGrant
deriving DecidableEq

namespace UplinkProcess

/-- A process without a block. -/
def free : UplinkProcess := ⟨0, none⟩

end UplinkProcess

/-- The uplink processes of one UE. -/
structure UplinkEntity where
  /-- The process of the present subframe. -/
  current : Nat
  /-- The processes, one for each subframe of the cycle. -/
  processes : Vector UplinkProcess uplinkProcesses
deriving DecidableEq

/-- What a failed block leads to. -/
inductive Retry where
  /-- Nothing was granted then. -/
  | noBlock
  /-- The block has been sent often enough. -/
  | dropped
  /-- The block is to be sent again, as granted before. -/
  | again (grant : UplinkGrant)
deriving DecidableEq

namespace UplinkEntity

/-- No block at all. -/
def fresh : UplinkEntity := ⟨0, Vector.replicate uplinkProcesses .free⟩

/-- The process that is reported on now. -/
def reported (e : UplinkEntity) : Nat :=
  (e.current + uplinkProcesses - outcomeDelay) % uplinkProcesses

/-- A process by its number, which is taken cyclically. -/
def process (e : UplinkEntity) (id : Nat) : UplinkProcess :=
  e.processes.get ⟨id % uplinkProcesses, Nat.mod_lt _ (by decide)⟩

/-- Puts a process in the place of another. -/
def set (e : UplinkEntity) (id : Nat) (p : UplinkProcess) : UplinkEntity :=
  { e with processes := e.processes.setIfInBounds id p }

/-- Notes a first transmission in the present subframe. -/
def store (e : UplinkEntity) (grant : UplinkGrant) : UplinkEntity :=
  e.set e.current ⟨0, some grant⟩

/-- Handles a failed block: it moves to the process of the present subframe, or is given up. -/
def retry (e : UplinkEntity) : Retry × UplinkEntity :=
  let p := e.process e.reported
  match p.grant with
  | none => (.noBlock, e)
  | some grant =>
    if maxRetransmissions ≤ p.attempts then (.dropped, e.set e.reported .free)
    else (.again grant, (e.set e.reported .free).set e.current ⟨p.attempts + 1, some grant⟩)

/-- Handles a delivered block. -/
def acknowledge (e : UplinkEntity) : UplinkEntity := e.set e.reported .free

/-- Moves on to the next subframe. -/
def advance (e : UplinkEntity) : UplinkEntity :=
  { e with current := (e.current + 1) % uplinkProcesses }

end UplinkEntity

end LteMac
