import LteMac.Policy.Context
import LteMac.Scheduler.Config

/-!
# Policies

A scheduling policy keeps a record for each UE and decides from the records and the
`AllocationContext` who gets which free group. The records are of the policy's own kind, so the
scheduler is the same for all policies.
-/

namespace LteMac

/-- A scheduling policy with records of type `Record`. -/
structure Policy (Record : Type) where
  /-- The name under which the policy is chosen. -/
  name : String
  /-- The record of a UE configured after so many downlink triggers. -/
  fresh : Nat → Record
  /-- Takes in the bearers of the UE, ascending, whenever they change. -/
  setBearers : List Bearer → Record → Record
  /-- Takes in the bytes sent to the UE in one subframe, averaged over a window. -/
  record : Nat → Float → Record → Record
  /-- Shares the free groups among the candidates, given in the order of their turns. -/
  allocate : AllocationContext → List Rnti → (Rnti → Option Record) → Allocation

end LteMac
