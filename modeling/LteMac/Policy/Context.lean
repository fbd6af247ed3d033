import LteMac.Numeric.Sum
import LteMac.Policy.Throughput
import LteMac.Quality.Downlink
import LteMac.Radio.LinkAdaptation
import LteMac.Reuse.Policy

/-!
# The view of a policy

A policy decides which candidate for new data gets which free group. `AllocationContext` is all it
may look at: which groups are free, what the reuse policy allows, how good the channels are and
what waits. Its answer is an `Allocation`, the groups of each UE.

* `Allocation.ofAssignment`: an answer given group by group, gathered by UE.
-/

namespace LteMac

/-- The quality assumed of a UE without a valid report. -/
def defaultCqi : Nat := 1

/-- What a policy sees of the cell in one subframe. -/
structure AllocationContext where
  /-- Resource blocks in a group. -/
  rbgSize : Nat
  /-- Window of the averages, in subframes. -/
  window : Float
  /-- The groups that are usable cell-wide and not yet taken. -/
  free : List Bool
  /-- Who may have which group. -/
  reuse : ReusePolicy
  /-- How well the UEs receive. -/
  quality : DownlinkQuality
  /-- Layers of a grant to a UE. -/
  layers : Rnti → Nat
  /-- What waits for the channels of a UE. -/
  queues : Rnti → List RlcQueue

namespace AllocationContext

variable (ctx : AllocationContext)

/-- Groups of the cell. -/
def rbgs : Nat := ctx.free.length

/-- Whether a group is free and the UE may use it. -/
def allowed (rbg : Nat) (rnti : Rnti) : Bool :=
  flagAt ctx.free rbg && ctx.reuse.downlinkAllowed rbg rnti

/-- The groups that a UE may get, ascending. -/
def allowedRbgs (rnti : Rnti) : List Nat := (List.range ctx.rbgs).filter (ctx.allowed · rnti)

/-- The quality of the whole band. -/
def widebandCqi (rnti : Rnti) : Nat := (ctx.quality.wideband? rnti).getD defaultCqi

/-- The quality of a group on a layer. -/
def subbandCqi (rnti : Rnti) (rbg layer : Nat) : Nat :=
  (ctx.quality.effective? rnti rbg layer).getD defaultCqi

/-- The rate of one group, in bytes per second, at a quality for each layer. -/
def rate (rnti : Rnti) (cqi : Nat → Nat) : Float :=
  floatSum <| (List.range (ctx.layers rnti)).map fun layer =>
    Float.ofNat (LinkAdaptation.downlinkBits (LinkAdaptation.mcsOfCqi (cqi layer)) ctx.rbgSize) /
      8.0 / subframeSeconds

/-- The rate of a group at its own quality. -/
def subbandRate (rnti : Rnti) (rbg : Nat) : Float := ctx.rate rnti (ctx.subbandCqi rnti rbg)

/-- The rate of a group at the quality of the whole band. -/
def widebandRate (rnti : Rnti) : Float := ctx.rate rnti fun _ => ctx.widebandCqi rnti

/-- How much better than the whole band a group is for a UE. -/
def relativeRate (rnti : Rnti) (rbg : Nat) : Float :=
  if ctx.widebandRate rnti > 0.0 then ctx.subbandRate rnti rbg / ctx.widebandRate rnti else 0.0

/-- Bytes that wait for a UE. -/
def bufferedBytes (rnti : Rnti) : Nat := sumBy (·.bytes) (ctx.queues rnti)

/-- The age of the oldest byte that waits for a UE, in milliseconds. -/
def headDelay (rnti : Rnti) : Nat := ((ctx.queues rnti).map (·.delay)).foldl max 0

end AllocationContext

/-- The groups each UE is to get. -/
abbrev Allocation := Table Rnti (List Nat)

namespace Allocation

/-- Gives one more group to a UE. -/
def give (a : Allocation) (rbg : Nat) (rnti : Rnti) : Allocation :=
  a.alter rnti fun rbgs => some (rbgs.getD [] ++ [rbg])

/-- Gathers by UE which group goes to whom. -/
def ofAssignment (assignment : List (Nat × Rnti)) : Allocation :=
  assignment.foldl (fun a g => a.give g.1 g.2) (∅ : Allocation)

end Allocation

/-- Of the items with a metric the first one with the largest. A metric that is not a number
compares with nothing, and so gives way to the next. -/
def firstMax {α : Type} (items : List (α × Float)) : Option α :=
  let better (best : Option (α × Float)) (item : α × Float) : Option (α × Float) :=
    match best with
    | some b => if item.2 ≤ b.2 then some b else some item
    | none => some item
  (items.foldl better none).map (·.1)

end LteMac
