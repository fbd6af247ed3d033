import LteMac.Policy.Basic

/-!
# Throughput to average

Every group goes to the UE for which it is best compared with the whole band. The policy keeps no
record.
-/

namespace LteMac

namespace ThroughputToAverage

/-- The candidate that a group goes to. -/
def winner (ctx : AllocationContext) (candidates : List Rnti) (rbg : Nat) : Option Rnti :=
  firstMax <| (candidates.filter (ctx.allowed rbg)).map fun rnti =>
    (rnti, ctx.relativeRate rnti rbg)

/-- Hands out every group that somebody may use. -/
def allocate (ctx : AllocationContext) (candidates : List Rnti) : Allocation :=
  .ofAssignment <| (List.range ctx.rbgs).filterMap fun rbg =>
    (winner ctx candidates rbg).map fun rnti => (rbg, rnti)

end ThroughputToAverage

/-- Throughput to average. -/
def Policy.tta : Policy Unit where
  name := Algorithm.tta.name
  fresh _ := ()
  setBearers _ record := record
  record _ _ record := record
  allocate ctx candidates _ := ThroughputToAverage.allocate ctx candidates

end LteMac
