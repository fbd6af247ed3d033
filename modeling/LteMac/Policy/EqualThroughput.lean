import LteMac.Policy.Basic

/-!
# Blind equal throughput

Two policies that aim at the same throughput for everybody, whatever the channels are like. In
the time domain the UE with the lowest average takes every group it may use. In the frequency
domain the groups go out one at a time, each to the UE whose average would be lowest after this
subframe with what it has got so far.
-/

namespace LteMac

/-- The average of a UE; one that has no record is treated as new. -/
def averageOf (records : Rnti → Option Throughput) (rnti : Rnti) : Float :=
  (records rnti).elim 1.0 (·.average)

namespace TimeDomain

/-- The candidates that may get anything, with the groups they may get. -/
def eligible (ctx : AllocationContext) (candidates : List Rnti) : List (Rnti × List Nat) :=
  (candidates.map fun rnti => (rnti, ctx.allowedRbgs rnti)).filter (!·.2.isEmpty)

/-- The eligible UE with the lowest average. -/
def winner (eligible : List (Rnti × List Nat)) (records : Rnti → Option Throughput) :
    Option Rnti :=
  firstMax <| eligible.map fun e => (e.1, 1.0 / averageOf records e.1)

/-- The winner takes all. -/
def allocate (ctx : AllocationContext) (candidates : List Rnti)
    (records : Rnti → Option Throughput) : Allocation :=
  let eligible := eligible ctx candidates
  let winner := winner eligible records
  (eligible.filter fun e => some e.1 == winner).foldl (fun a e => a.insert e.1 e.2)
    (∅ : Allocation)

end TimeDomain

namespace FrequencyDomain

/-- The bytes given to each UE so far, and which group went to whom. -/
structure Round where
  /-- Bytes given to each UE so far. -/
  given : Table Rnti Float
  /-- Which group went to whom, the first one first. -/
  assignment : List (Nat × Rnti)

/-- The average a UE would have after this subframe. -/
def estimate (ctx : AllocationContext) (records : Rnti → Option Throughput) (round : Round)
    (rnti : Rnti) : Float :=
  ewma (averageOf records rnti) (round.given.getD rnti 0.0 / subframeSeconds) ctx.window

/-- The candidate that a group goes to. -/
def winner (ctx : AllocationContext) (candidates : List Rnti)
    (records : Rnti → Option Throughput) (round : Round) (rbg : Nat) : Option Rnti :=
  firstMax <| (candidates.filter (ctx.allowed rbg)).map fun rnti =>
    (rnti, 1.0 / estimate ctx records round rnti)

/-- Hands out one group. -/
def hand (ctx : AllocationContext) (candidates : List Rnti)
    (records : Rnti → Option Throughput) (round : Round) (rbg : Nat) : Round :=
  match winner ctx candidates records round rbg with
  | none => round
  | some rnti =>
    { given := round.given.insert rnti
        (round.given.getD rnti 0.0 + ctx.widebandRate rnti * subframeSeconds)
      assignment := round.assignment ++ [(rbg, rnti)] }

/-- Hands out the groups one after the other. -/
def allocate (ctx : AllocationContext) (candidates : List Rnti)
    (records : Rnti → Option Throughput) : Allocation :=
  .ofAssignment ((List.range ctx.rbgs).foldl (hand ctx candidates records) ⟨∅, []⟩).assignment

end FrequencyDomain

/-- Equal throughput in the time domain. -/
def Policy.tdBet : Policy Throughput where
  name := Algorithm.tdBet.name
  fresh := .fresh
  setBearers _ record := record
  record bytes window record := record.record bytes window
  allocate := TimeDomain.allocate

/-- Equal throughput in the frequency domain. -/
def Policy.fdBet : Policy Throughput where
  name := Algorithm.fdBet.name
  fresh := .fresh
  setBearers _ record := record
  record bytes window record := record.record bytes window
  allocate := FrequencyDomain.allocate

end LteMac
